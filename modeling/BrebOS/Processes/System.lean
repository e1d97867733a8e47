import BrebOS.Core.Memory.Heap
import BrebOS.Processes.ELFLoader

/-!
# Runs of the system

The memory operations as steps: `sbrk` and `free_page` for the kernel and for processes, page
faults, `mprotect`, `fork`, the loader, and the end of a process.  `sbrk` is only reached through
`MemTree::allocate`, so its step carries that function's check of the policy.  The windows of the
loader are blocks that `mmap` has returned, so their pages are in use.  A process that ends first
frees its pages one by one (`free_all`) and then disappears with its tables; the two are separate
steps here, and `teardown` is their composition.

`Run ok` are the runs whose steps all satisfy a condition on the operation and the state it starts
from.  `firstProcess` is the state after the boot in which the loader has made one process.
-/

namespace BrebOS

/-- One operation of the memory subsystem. -/
inductive Op
  | sbrk (proc : ProcId) (n : ℕ) (info : PageInfo) (hint : HintInfo)
  | freePage (proc : ProcId) (address : ℕ)
  | fault (proc : ProcId) (address : ℕ) (writeAccess : Bool)
  | mprotect (proc : ProcId) (addr len : ℕ) (prot : Memory.Prot)
  | fork (pid : ℕ)
  | exec (req : LoadRequest)
  | drop (pid : ℕ)

namespace Memory

/-- The address spaces: the kernel's and those of the live processes. -/
def spaces (m : Memory) : Finset ProcId := insert .kernel (m.live.image .user)

@[simp] lemma kernel_mem_spaces (m : Memory) : ProcId.kernel ∈ m.spaces := by simp [spaces]

@[simp] lemma user_mem_spaces {m : Memory} {pid : ℕ} : .user pid ∈ m.spaces ↔ pid ∈ m.live := by
  simp [spaces]

lemma spaces_congr {m m' : Memory} (h : m'.live = m.live) : m'.spaces = m.spaces := by
  rw [spaces, spaces, h]

/-- The end of a process: its tables are freed and its pid released. -/
def drop (pid : ℕ) (m : Memory) : Memory := { m with live := m.live.erase pid }

/-- `pre_free` and `free_terminated_process`. -/
def teardown (pid : ℕ) (m : Memory) : Except Fault Memory := do
  let t := (m.process pid).memtree
  let addresses ← MemTree.freeAll (t.numNodes + 1) t
  let m ← addresses.foldlM (fun m a => freePageOf (.user pid) a m) m
  .ok (m.drop pid)

/-- Run an operation on behalf of an address space, which must exist. -/
def onBehalf (proc : ProcId) (m : Memory) (r : Except Fault Memory) : Except Fault Memory :=
  if proc ∈ m.spaces then r else .error .outOfBounds

end Memory

open Memory

/-- The effect of an operation. -/
def Op.run (m : Memory) : Op → Except Fault Memory
  | .sbrk proc n info hint => onBehalf proc m
      (if info.policy.present = info.policy.lazyZero then .error (.irrecoverableError "invalid policy")
        else (Memory.sbrk proc n info hint m).map Prod.snd)
  | .freePage proc address => onBehalf proc m (freePageOf proc address m)
  | .fault proc address writeAccess =>
      onBehalf proc m ((pageFaultHandler proc address writeAccess m).map Prod.snd)
  | .mprotect proc addr len prot =>
      onBehalf proc m ((Memory.mprotect addr len prot proc m).map Prod.snd)
  | .fork pid => onBehalf (.user pid) m ((Memory.fork pid m).map Forked.memory)
  | .exec req =>
      if ∀ x ∈ req.mappings, (m.pte .kernel x.2).used = true then (Memory.exec req m).map Prod.snd
      else .error .outOfBounds
  | .drop pid => onBehalf (.user pid) m (.ok (m.drop pid))

lemma onBehalf_eq_ok {proc : ProcId} {m m' : Memory} {r : Except Fault Memory} :
    onBehalf proc m r = .ok m' ↔ proc ∈ m.spaces ∧ r = .ok m' := by
  rw [onBehalf]
  split_ifs with h <;> simp [h]

/-- The states reached by runs whose steps all satisfy `ok`. -/
inductive Run (ok : Op → Memory → Prop) (m₀ : Memory) : Memory → Prop
  | refl : Run ok m₀ m₀
  | step {m m' : Memory} {op : Op} : Run ok m₀ m → ok op m → op.run m = .ok m' → Run ok m₀ m'

namespace Run

variable {ok : Op → Memory → Prop} {m₀ m m' : Memory}

lemma invariant {P : Memory → Prop} (hstart : P m₀)
    (hstep : ∀ m op m', P m → ok op m → op.run m = .ok m' → P m') (h : Run ok m₀ m) : P m := by
  induction h with
  | refl => exact hstart
  | step _ hok hrun ih => exact hstep _ _ _ ih hok hrun

end Run

/-! ## The first process -/

/-- A program with one writable page, page 1, and the windows of its segment and stacks in the 131
pages that the kernel maps first. -/
def firstLoad : LoadRequest where
  segments := [{ runtimePageId := 1, numPages := 1, write := true, window := 790658 }]
  numPages := 2
  stackWindow := 790528
  kstackWindow := 790656

/-- The allocation of the windows of `firstLoad`. -/
def firstWindows : Op := .sbrk .kernel 131 defaultUPageInfo defaultHintInfo

/-- The state in which the first process runs. -/
def firstProcess : Except Fault Memory := [firstWindows, .exec firstLoad].foldlM Op.run bootMemory

lemma firstProcess_eq_ok {m : Memory} : firstProcess = .ok m ↔
    ∃ m₁, firstWindows.run bootMemory = .ok m₁ ∧ Op.run m₁ (.exec firstLoad) = .ok m := by
  simp only [firstProcess, List.foldlM_cons, List.foldlM_nil, bind_pure]
  exact bind_eq_ok

/-- The first process asks for a page. -/
def firstPage : Op := .sbrk (.user 0) 1 defaultUPageInfo defaultHintInfo

lemma Run.of_foldlM {ops : List Op} {m₀ m : Memory} (h : ops.foldlM Op.run m₀ = .ok m) :
    Run (fun _ _ => True) m₀ m :=
  foldlM_invariant (Run (fun _ _ => True) m₀) h .refl fun _ _ _ _ hc hrun => hc.step trivial hrun

end BrebOS
