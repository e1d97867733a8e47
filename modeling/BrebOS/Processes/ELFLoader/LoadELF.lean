import BrebOS.Processes.ELF
import BrebOS.Processes.ELFLoader

/-!
# Loading a file

`ELFLoader::load_elf` and what it calls: the segments of a file are mapped, each from a block of the kernel,
and then copied, through the kernel's addresses of these blocks.  `Lptr` translates an address of the new
process, and looks whether the range that is written ends before the segment does.

The blocks that `mmap` returns are an input: `mmap k` is what its call number `k` returns, and 0 if it fails.
-/

namespace BrebOS

open Memory

/-- `ELFTools::alloc`. -/
structure Alloc where
  start : ℕ
  end_ : ℕ
  loadAddr : ℕ
  deriving DecidableEq, Repr

namespace Elf32Phdr

/-- Where `map_elf` maps a segment, and from where. -/
def segment (base loadAddr : ℕ) (h : Elf32Phdr) : Segment where
  runtimePageId := addrPage (u32 (base + h.pVaddr))
  numPages := h.numPages
  write := h.write
  window := addrPage loadAddr

/-- What `map_elf` adds to `allocations`. -/
def alloc (base loadAddr : ℕ) (h : Elf32Phdr) : Alloc where
  start := addrPage (u32 (base + h.pVaddr)) * pageSize
  end_ := u32 (addrPage (u32 (base + h.pVaddr)) * pageSize + h.numPages * pageSize)
  loadAddr := loadAddr

end Elf32Phdr

/-- The fields of `ELFLoader` that loading changes, and the contents of physical memory. -/
structure ELFLoader where
  pageTables : ℕ → Entry := fun _ => {}
  numPages : ℕ := 0
  allocations : List Alloc := []
  frames : ℕ → PageData

/-- Bytes are written, one after the other, where the kernel has mapped them.  A fault is an error, as the
kernel's blocks are not lazily allocated here. -/
def writeKernel (kernel : ℕ → Entry) : ℕ → List UInt8 → (ℕ → PageData) → Except Fault (ℕ → PageData)
  | _, [], frames => .ok frames
  | addr, b :: bs, frames =>
      let e := kernel (addrPage addr)
      if e.mapped then
        writeKernel kernel (addr + 1) bs
          (Function.update frames e.frame (Function.update (frames e.frame) (addr % pageSize) b))
      else .error .outOfBounds

/-- What is read of a file. -/
def fileBytes (bytes : List UInt8) (offset n : ℕ) : Except Fault (List UInt8) :=
  if offset + n ≤ bytes.length then .ok ((bytes.drop offset).take n) else .error .outOfBounds

/-- The translation in `Lptr::memset` and `Lptr::memcpy`, of `n` bytes from `addr` on. -/
def lptr (allocations : List Alloc) (addr n : ℕ) : Except Fault ℕ :=
  match allocations.find? fun a => a.start ≤ addr && addr < a.end_ with
  | none => .error (.irrecoverableError "runtime to load address conversion failure")
  | some a =>
      if u32 (addr + n) < a.end_ then .ok (u32 (a.loadAddr + (addr - a.start)))
      else .error (.irrecoverableError "allocation where lies ptr does not cover n bytes")

namespace ELFLoader

section

variable (kernel : ℕ → Entry) (mmap : ℕ → ℕ)

/-- One turn of the loop in `ELFLoader::map_elf`. -/
def mapHeader (base : ℕ) (l : ELFLoader) (h : Elf32Phdr) : Except Fault ELFLoader := do
  let loadAddr := mmap l.allocations.length
  if loadAddr = 0 then throw (.irrecoverableError "mmap failed")
  else
    let pageTables ← mapSegment kernel l.pageTables (h.segment base loadAddr)
    return { l with pageTables := pageTables, allocations := l.allocations ++ [h.alloc base loadAddr] }

/-- `ELFLoader::map_elf`. -/
def mapElf (base : ℕ) (elf : ELF) (l : ELFLoader) : Except Fault ELFLoader := do
  let l ← elf.loads.foldlM (mapHeader kernel mmap base) l
  return { l with numPages := u32 (l.numPages + elf.numPages) }

/-- `Lptr::memcpy`, from the file. -/
def memcpy (addr : ℕ) (bytes : List UInt8) (offset n : ℕ) (l : ELFLoader) : Except Fault ELFLoader := do
  let dest ← lptr l.allocations addr n
  let data ← fileBytes bytes offset n
  let frames ← writeKernel kernel dest data l.frames
  return { l with frames := frames }

/-- `Lptr::memset`, with zeros. -/
def memset (addr n : ℕ) (l : ELFLoader) : Except Fault ELFLoader := do
  let dest ← lptr l.allocations addr n
  let frames ← writeKernel kernel dest (List.replicate n 0) l.frames
  return { l with frames := frames }

/-- One turn of the loop in `ELFLoader::load_elf_code`. -/
def loadHeader (base : ℕ) (bytes : List UInt8) (l : ELFLoader) (h : Elf32Phdr) :
    Except Fault ELFLoader := do
  let l ← memcpy kernel (u32 (base + h.pVaddr)) bytes h.pOffset h.pFilesz l
  if h.pMemsz > h.pFilesz then
    memset kernel (u32 (base + u32 (h.pVaddr + h.pFilesz))) (h.pMemsz - h.pFilesz) l
  else return l

/-- `ELFLoader::load_elf_code`. -/
def loadElfCode (base : ℕ) (elf : ELF) (l : ELFLoader) : Except Fault ELFLoader :=
  elf.loads.foldlM (loadHeader kernel base elf.bytes) l

/-- A file that is valid is mapped and copied. -/
def loadSegments (elf : ELF) (l : ELFLoader) : Except Fault ELFLoader := do
  let base := u32 (l.numPages * pageSize)
  let l ← mapElf kernel mmap base elf l
  loadElfCode kernel base elf l

/-- `ELFLoader::load_elf` and `ELFLoader::dynamic_loading`, with what the former tells its caller. -/
def loadElf : ELFFile → ELFType → ELFLoader → Except Fault (Bool × ELFLoader)
  | .alone elf, expectedType, l =>
      if !(ELFFile.alone elf).isValid expectedType then .ok (false, l)
      else do
        let l ← loadSegments kernel mmap elf l
        return (true, l)
  | .withInterpreter elf interpreter, expectedType, l =>
      if !(ELFFile.withInterpreter elf interpreter).isValid expectedType then .ok (false, l)
      else do
        let l ← loadSegments kernel mmap elf l
        if elf.hasInterpreter then loadElf interpreter .sharedObject l else return (true, l)

end

end ELFLoader

end BrebOS
