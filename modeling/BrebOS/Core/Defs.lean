import Mathlib.Tactic

/-!
# Constants and small records of the memory subsystem

`MemoryDefines.h` and the records of `RawMemory.h`.  A page-table entry is a frame number and six
flag bits; the other bits of the word are never set by the kernel.  Machine words are natural
numbers, and the 32-bit arithmetic of the allocator is written out with `u32` and `u32Sub`.
-/

namespace BrebOS

/-- How a kernel call can end without returning to its caller. -/
inductive Fault
  /-- `irrecoverable_error`, with its message. -/
  | irrecoverableError (msg : String)
  /-- The process is killed (`kill(SIGSEGV)`), control does not come back. -/
  | killed
  /-- A read or write outside the array it indexes, or through a null node. -/
  | outOfBounds
  deriving DecidableEq, Repr

/-- `EINVAL`. -/
def einval : ℤ := 22

/-! ## 32-bit words -/

/-- A value stored in a `uint`. -/
def u32 (x : ℕ) : ℕ := x % 4294967296

/-- Subtraction of two `uint`s. -/
def u32Sub (a b : ℕ) : ℕ := (a + (4294967296 - b % 4294967296)) % 4294967296

lemma u32_of_lt {x : ℕ} (h : x < 4294967296) : u32 x = x := Nat.mod_eq_of_lt h

lemma u32Sub_of_le {a b : ℕ} (hba : b ≤ a) (ha : a < 4294967296) : u32Sub a b = a - b := by
  unfold u32Sub; omega

/-! ## Pages, tables and stacks -/

/-- `PAGE_SIZE`. -/
def pageSize : ℕ := 4096

/-- `ADDR_PAGE`. -/
def addrPage (addr : ℕ) : ℕ := addr / 4096

/-- `PT_ENTRIES`. -/
def ptEntries : ℕ := 1024

/-- `KERNEL_VIRTUAL_BASE`. -/
def kernelVirtualBase : ℕ := 0xC0000000

/-- The flag bits of a page-table entry: `PAGE_PRESENT`, `PAGE_WRITE`, `PAGE_USER`, `PAGE_COW`,
`PAGE_LAZY_ZERO`, `PAGE_SHRO`.  A `policy` is a value of the same type. -/
structure Flags where
  present : Bool := false
  write : Bool := false
  user : Bool := false
  cow : Bool := false
  lazyZero : Bool := false
  shro : Bool := false
  deriving DecidableEq, Repr, Inhabited

/-- `page_info`: the mmap flags and the page policy. -/
structure PageInfo where
  flags : ℕ
  policy : Flags
  deriving DecidableEq, Repr, Inhabited

/-- `hint_info`. -/
structure HintInfo where
  hint : ℕ
  isMandatory : Bool
  deriving DecidableEq, Repr

/-- `allocation`: a half-open range of addresses and what it is used for. -/
structure Allocation where
  start : ℕ
  end_ : ℕ
  pageInfo : PageInfo
  used : Bool := false
  deriving DecidableEq, Repr, Inhabited

/-- `MAP_ANONYMOUS | MAP_PRIVATE`. -/
def defaultFlags : ℕ := 0x22

/-- `DEFAULT_K_PAGE_INFO`. -/
def defaultKPageInfo : PageInfo := ⟨defaultFlags, { present := true, write := true }⟩

/-- `DEFAULT_U_PAGE_INFO`. -/
def defaultUPageInfo : PageInfo := ⟨defaultFlags, { present := true, write := true, user := true }⟩

/-- `DEFAULT_HINT_INFO`. -/
def defaultHintInfo : HintInfo := ⟨0, false⟩

/-- The address space an operation works on: `kernel_process`, recognised in the source by
`process->pdt == pdt`, or a user process. -/
inductive ProcId
  | kernel
  | user (pid : ℕ)
  deriving DecidableEq, Repr

/-- `allocation::is_similar_and_contiguous`. -/
def Allocation.isSimilarAndContiguous (a other : Allocation) : Bool :=
  (a.start == other.end_ || a.end_ == other.start) && a.pageInfo == other.pageInfo &&
    a.used == other.used

end BrebOS
