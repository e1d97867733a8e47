import BrebOS.Processes.ELFLoader.LoadELF
import BrebOS.Lib.Pieces

/-!
# The initial stack

What `ELFLoader::finalize_process_setup` does to the stack of a new process: `allocate_stacks` maps both
stacks from blocks of the kernel, and `write_args_to_stack` fills the upper end of the process stack, from
the top down, through the kernel's addresses.

The loader keeps pointers to the program headers in the file's buffer, which is freed before the stack is
written.  So the headers that `write_auxv` reads are an input of their own; what `rdtsc` returns is one, too.
-/

namespace BrebOS

open Memory

/-- A string of C: no byte of it is zero, and a zero comes after it. -/
def CString : Type := {s : List UInt8 // 0 ∉ s}

namespace CString

/-- `strlen`. -/
def strlen (s : CString) : ℕ := s.1.length

/-- The string and the zero that ends it. -/
def bytes (s : CString) : List UInt8 := s.1 ++ [0]

@[simp]
lemma length_bytes (s : CString) : s.bytes.length = s.strlen + 1 := by simp [bytes, strlen]

end CString

/-- The fields of `global_hdr` that the auxiliary vector has. -/
structure Elf32Ehdr where
  eEntry : ℕ
  ePhentsize : ℕ
  ePhnum : ℕ
  deriving DecidableEq, Repr

/-- `PT_PHDR`. -/
def ptPhdr : ℕ := 6

/-- `ELF32_ADDR_ERR`. -/
def elf32AddrErr : ℕ := 4294967295

/-- `AT_NULL`, `AT_PHDR`, `AT_PHENT`, `AT_PHNUM`, `AT_PAGESZ`, `AT_ENTRY`, `AT_SECURE`, `AT_RANDOM` and
`AT_EXECFN`. -/
inductive AuxType
  | null
  | phdr
  | phent
  | phnum
  | pagesz
  | entry
  | secure
  | random
  | execfn
  deriving DecidableEq, Repr

/-- The numbers of the types. -/
def AuxType.num : AuxType → ℕ
  | null => 0
  | phdr => 3
  | phent => 4
  | phnum => 5
  | pagesz => 6
  | entry => 9
  | secure => 23
  | random => 25
  | execfn => 31

/-- The end of the process stack, and of what `write_args_to_stack` writes. -/
def stackEndRuntimeAddr : ℕ := kernelVirtualBase - 4

namespace ELFLoader

/-- What the process reads at an address. -/
def read (l : ELFLoader) (addr : ℕ) : Option UInt8 :=
  let e := l.pageTables (addrPage addr)
  if e.mapped && e.flags.user then some (l.frames e.frame (addr % pageSize)) else none

section

variable (kernel : ℕ → Entry) (mmap : ℕ → ℕ)

/-- One of the two stacks in `ELFLoader::allocate_stacks`. -/
def allocateStack (startPageId nPages : ℕ) (l : ELFLoader) : Except Fault ELFLoader := do
  let loadAddr := mmap l.allocations.length
  if loadAddr = 0 then throw (.irrecoverableError "mmap failed")
  else
    let pageTables ← (List.range nPages).foldlM
      (mapWindowPage "Process kernel stack page entry is not empty" false startPageId (addrPage loadAddr)
        kernel) l.pageTables
    let alloc : Alloc := ⟨startPageId * pageSize, (startPageId + nPages) * pageSize, loadAddr⟩
    return { l with pageTables := pageTables, allocations := l.allocations ++ [alloc] }

/-- `ELFLoader::allocate_stacks`. -/
def allocateStacks (l : ELFLoader) : Except Fault ELFLoader := do
  let l ← allocateStack kernel mmap stackStartPageId processStackNPages l
  allocateStack kernel mmap kstackStartPageId processSyscallStackNPages l

/-- `ELFLoader::write_to_stack`, from `stack_top` down. -/
def writeToStack (content : List UInt8) (st : ℕ × ELFLoader) : Except Fault (ℕ × ELFLoader) := do
  let stackTop := u32Sub st.1 content.length
  let dest ← lptr st.2.allocations stackTop content.length
  let frames ← writeKernel kernel dest content st.2.frames
  return (stackTop, { st.2 with frames := frames })

/-- `(--lt).write(auxv_t{type, value})`. -/
def writeAux (type : AuxType) (value : ℕ) : ℕ × ELFLoader → Except Fault (ℕ × ELFLoader) :=
  writeToStack kernel (wordBytes type.num ++ wordBytes value)

/-- The address in the last `PT_PHDR`. -/
def phdrRuntimeAddr (progHdrs : List Elf32Phdr) : ℕ :=
  progHdrs.foldl (fun addr h => if h.pType = ptPhdr then h.pVaddr else addr) elf32AddrErr

/-- `ELFLoader::write_auxv`. -/
def writeAuxv (hasInterpreter : Bool) (hdr : Elf32Ehdr) (progHdrs : List Elf32Phdr)
    (argv0RuntimeAddr randomRuntimeAddr : ℕ) (st : ℕ × ELFLoader) : Except Fault (ℕ × ELFLoader) := do
  let st ← writeAux kernel .null 0 st
  let st ← writeAux kernel .pagesz pageSize st
  let st ← writeAux kernel .secure 0 st
  let st ← writeAux kernel .random randomRuntimeAddr st
  if !hasInterpreter then return st
  else if phdrRuntimeAddr progHdrs = elf32AddrErr then
    throw (.irrecoverableError "no PHDR found in program")
  else
    let st ← writeAux kernel .phdr (phdrRuntimeAddr progHdrs) st
    let st ← writeAux kernel .phent hdr.ePhentsize st
    let st ← writeAux kernel .phnum hdr.ePhnum st
    let st ← writeAux kernel .execfn argv0RuntimeAddr st
    writeAux kernel .entry hdr.eEntry st

/-- `strlen` and `memcpy` of an argument: a null pointer has no bytes. -/
def argument : Option CString → Except Fault CString
  | some s => .ok s
  | none => .error .outOfBounds

/-- One turn of the loops that write the contents. -/
def writeContent (s : CString) : ℕ × ELFLoader → Except Fault (ℕ × ELFLoader) :=
  writeToStack kernel s.bytes

/-- One turn of the loops that write the pointers: the string is the one before that at `ptr`. -/
def writePointer (s : CString) (st : ℕ × ℕ × ELFLoader) : Except Fault (ℕ × ℕ × ELFLoader) := do
  let ptr := u32Sub st.1 (s.strlen + 1)
  let st ← writeToStack kernel (wordBytes ptr) st.2
  return (ptr, st)

/-- The four calls of `rdtsc`, four bytes of each. -/
def randomBytes (rdtsc : ℕ → ℕ) : List UInt8 := (List.range 4).flatMap fun i => wordBytes (rdtsc i)

/-- A null pointer at the end of `argv` does not count. -/
def trimArgv (argv : List (Option CString)) : List (Option CString) :=
  match argv.getLast? with
  | some none => argv.dropLast
  | _ => argv

/-- `ELFLoader::write_args_to_stack`. -/
def writeArgsToStack (elf : ELF) (hdr : Elf32Ehdr) (progHdrs : List Elf32Phdr) (rdtsc : ℕ → ℕ)
    (argv : List (Option CString)) (envp : List CString) (l : ELFLoader) :
    Except Fault (ℕ × ELFLoader) := do
  let argv := trimArgv argv
  let st ← argv.foldrM (fun arg st => do writeContent kernel (← argument arg) st) (stackEndRuntimeAddr, l)
  let argv0RuntimeAddr := st.1
  let lastEnvpTrailingAddress := st.1
  let st ← envp.foldrM (writeContent kernel) st
  let st ← writeToStack kernel (randomBytes rdtsc) st
  let st ← writeAuxv kernel elf.hasInterpreter hdr progHdrs argv0RuntimeAddr st.1 st
  let st ← writeToStack kernel (wordBytes 0) st
  let (_, st) ← envp.foldrM (writePointer kernel) (lastEnvpTrailingAddress, st)
  let st ← writeToStack kernel (wordBytes 0) st
  let (_, st) ← argv.foldrM (fun arg st => do writePointer kernel (← argument arg) st)
    (stackEndRuntimeAddr, st)
  writeToStack kernel (wordBytes argv.length) st

end

end ELFLoader

end BrebOS
