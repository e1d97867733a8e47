import BrebOS.Core.Memory

/-!
# The allocation functions of `memory.cpp`

`malloc`, `calloc`, `mmap`, `malloca` and `calloca`, on the tree and the tables of one address
space; `kernel_process` has a tree too, so the tree is an argument of its own.  `malloc` and the
first half of `calloc` are written for any `sbrk`, as `MemTree::allocate` is.

The kernel runs with `CR0.WP` set: a write of its own to a page without `PAGE_WRITE` faults, like
one of a user program.  `kernelAccess` is what the MMU and the fault handler make of such an access
to a page.
-/

namespace BrebOS.Memory

/-! ## Reading and writing bytes -/

/-- The entry allows an access of the kernel. -/
def kernelAllows (write : Bool) (e : Entry) : Bool := e.flags.present && (e.flags.write || !write)

/-- An access of the kernel to a page, with the page fault it may cause.  A second fault is never handled: the
first one left neither `PAGE_COW` nor `PAGE_LAZY_ZERO` in the entry. -/
def kernelAccess (proc : ProcId) (page : ℕ) (write : Bool) (m : Memory) : Except Fault Memory :=
  if kernelAllows write (m.pte proc page) then .ok m
  else do
    let (_, m) ← pageFaultHandler proc (page * pageSize) write m
    if kernelAllows write (m.pte proc page) then .ok m else .error .killed

/-- A read of the byte at an address. -/
def kernelLoad (proc : ProcId) (address : ℕ) (m : Memory) : Except Fault (UInt8 × Memory) := do
  let m ← kernelAccess proc (addrPage address) false m
  .ok (m.frames (m.pte proc (addrPage address)).frame (address % pageSize), m)

/-- `memset(address, 0, n)`, for a range inside one page. -/
def memset (proc : ProcId) (address n : ℕ) (m : Memory) : Except Fault Memory :=
  if n = 0 then .ok m
  else do
    let m ← kernelAccess proc (addrPage address) true m
    let frame := (m.pte proc (addrPage address)).frame
    .ok (m.setFrame frame fun o =>
      if address % pageSize ≤ o ∧ o < address % pageSize + n then 0 else m.frames frame o)

/-! ## `zero_out_possibly_lazily_allocated_memory` -/

/-- `if (PTE(pt, page) & PAGE_PRESENT) memset(address, 0, n)`, where `address` lies in the page. -/
def zeroOutPart (proc : ProcId) (address n : ℕ) (m : Memory) : Except Fault Memory :=
  if proc.entries ≤ addrPage address then .error .outOfBounds
  else if (m.pte proc (addrPage address)).flags.present then memset proc address n m
  else .ok m

/-- One turn of the loop over the pages after the first one.  The state is the memory and `rem`. -/
def zeroOutPage (proc : ProcId) (firstPageId : ℕ) (s : Memory × ℕ) (i : ℕ) :
    Except Fault (Memory × ℕ) := do
  let n := min s.2 pageSize
  let m ← zeroOutPart proc ((firstPageId + 1 + i) * pageSize) n s.1
  .ok (m, s.2 - n)

/-- `zero_out_possibly_lazily_allocated_memory`. -/
def zeroOutPossiblyLazilyAllocatedMemory (totalSize mem : ℕ) (proc : ProcId) (m : Memory) :
    Except Fault Memory := do
  let memOff := mem % pageSize
  let bytesOnFirstPage := min (pageSize - memOff) totalSize
  let m ← zeroOutPart proc mem bytesOnFirstPage m
  let numRemainingPages := addrPage (u32 (totalSize - bytesOnFirstPage + pageSize - 1))
  let (m, _) ← (List.range numRemainingPages).foldlM (zeroOutPage proc (addrPage mem))
    (m, totalSize - bytesOnFirstPage)
  .ok m

/-! ## `malloc` and `calloc` -/

section

variable {σ : Type} (sbrk : ℕ → PageInfo → HintInfo → σ → Except Fault (ℕ × σ))

/-- `malloc(n, page_info, process)`. -/
def malloc (n : ℕ) (info : PageInfo) (t : MemTree) (s : σ) : Except Fault ((ℕ × MemTree) × σ) :=
  if n = 0 then .ok ((0, t), s) else MemTree.allocate sbrk n info defaultHintInfo t s

/-- `calloc(nmemb, size, page_info, process)` up to the zeroing. -/
def callocBlock (nmemb size : ℕ) (info : PageInfo) (t : MemTree) (s : σ) :
    Except Fault ((ℕ × MemTree) × σ) :=
  if nmemb = 0 ∨ size = 0 then MemTree.allocate sbrk 1 info defaultHintInfo t s
  else if 4294967296 ≤ nmemb * size then .ok ((0, t), s)
  else MemTree.allocate sbrk (nmemb * size) info defaultHintInfo t s

end

/-- `calloc(nmemb, size, page_info, process)`. -/
def calloc (proc : ProcId) (nmemb size : ℕ) (info : PageInfo) (t : MemTree) (m : Memory) :
    Except Fault ((ℕ × MemTree) × Memory) := do
  let ((mem, t), m) ← callocBlock (sbrk proc) nmemb size info t m
  if nmemb = 0 ∨ size = 0 ∨ mem = 0 then .ok ((mem, t), m)
  else do
    let m ← zeroOutPossiblyLazilyAllocatedMemory (nmemb * size) mem proc m
    .ok ((mem, t), m)

/-! ## `mmap` and the page-aligned allocations -/

/-- `ENOMEM`. -/
def enomem : ℤ := 12

/-- `MAP_SHARED`. -/
def mapShared : ℕ := 0x01

/-- `MAP_PRIVATE`. -/
def mapPrivate : ℕ := 0x02

/-- `MAP_FIXED`. -/
def mapFixed : ℕ := 0x10

/-- `MAP_ANONYMOUS`, and `MAP_ANON`, which is the same bit. -/
def mapAnonymous : ℕ := 0x20

/-- `~supported_flags`. -/
def unsupportedFlags : ℕ := 0xFFFFFFCD

/-- `PROT_WRITE`, of the mask that `mmap` takes. -/
def protWrite : ℕ := 0x02

/-- `DEFAULT_K_PROT`: `PROT_READ | PROT_WRITE`. -/
def defaultKProt : ℕ := 0x03

/-- The policy `mmap` makes of its arguments. -/
def mmapPolicy (prot : ℕ) (lazyZero pageUser : Bool) : Flags :=
  { write := prot &&& protWrite ≠ 0, lazyZero, present := !lazyZero, user := pageUser }

/-- `mmap`: the window, or the value stored in `err` when null is returned. -/
def mmap (hint size prot flags offset : ℕ) (proc : ProcId) (lazyZero pageUser : Bool) (t : MemTree)
    (m : Memory) : Except Fault ((Except ℤ ℕ × MemTree) × Memory) :=
  if flags &&& unsupportedFlags ≠ 0 then .ok ((.error einval, t), m)
  else if (flags &&& mapPrivate) ||| (flags &&& mapShared) = 0 then .ok ((.error einval, t), m)
  else if hint % pageSize ≠ 0 ∨ size % pageSize ≠ 0 ∨ offset % pageSize ≠ 0 then
    .ok ((.error einval, t), m)
  else if flags &&& mapAnonymous = 0 then .ok ((.error einval, t), m)
  else if prot = 0 then .ok ((.error einval, t), m)
  else do
    let hint := if hint = kernelVirtualBase then u32 (m.lowestPe .kernel * pageSize) else hint
    let fixed := decide (flags &&& mapFixed ≠ 0)
    let ((window, t), m) ← MemTree.allocate (sbrk proc) size
      ⟨flags, mmapPolicy prot lazyZero pageUser⟩ ⟨hint, fixed⟩ t m
    if fixed ∧ window ≠ hint then
      .error (.irrecoverableError "mmap: MAP_FIXED set, but returned window does not match hit")
    else if window = 0 then .ok ((.error enomem, t), m)
    else .ok ((.ok window, t), m)

/-- `malloca`. -/
def malloca (size : ℕ) (t : MemTree) (m : Memory) : Except Fault ((ℕ × MemTree) × Memory) := do
  let numPages := addrPage (u32 (size + pageSize - 1))
  let ((window, t), m) ← mmap kernelVirtualBase (u32 (numPages * size)) defaultKProt defaultFlags 0
    .kernel false false t m
  .ok ((window.toOption.getD 0, t), m)

/-- `calloca`. -/
def calloca (nmemb size : ℕ) (t : MemTree) (m : Memory) : Except Fault ((ℕ × MemTree) × Memory) :=
  if 4294967296 ≤ nmemb * size then .ok ((0, t), m)
  else
    let baseSize := nmemb * size
    let numPages := addrPage (u32 (baseSize + pageSize - 1))
    let newSize := u32 (numPages * pageSize)
    let additionalSize := u32Sub newSize baseSize
    if 4294967296 ≤ baseSize + additionalSize then .ok ((0, t), m)
    else do
      let ((window, t), m) ← mmap kernelVirtualBase (u32 (numPages * size)) defaultKProt
        defaultFlags 0 .kernel false false t m
      match window with
      | .error _ => .ok ((0, t), m)
      | .ok alloc => do
          let m ← zeroOutPossiblyLazilyAllocatedMemory newSize alloc .kernel m
          .ok ((alloc, t), m)

end BrebOS.Memory
