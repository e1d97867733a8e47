import BrebOS.Core.Memory

/-!
# `fork`

`Process::fork` of `processes/process.cpp`, as far as it concerns memory.  The pages of tables
`0..766` are shared copy-on-write, page by page; the stacks are copied, through a *mapping page*
just below them in the address space of the parent.

`fork` returns, besides the pid of the child, the log of the stack pages it copied.  The copy of
file descriptors and signal state is not modelled.
-/

namespace BrebOS

/-- `MAX_PROCESSES`. -/
def maxProcesses : ℕ := 32

/-- `PROCESS_STACK_N_PAGES`. -/
def processStackNPages : ℕ := 128

/-- `PROCESS_SYSCALL_STACK_N_PAGES`. -/
def processSyscallStackNPages : ℕ := 2

/-- `PROCESS_N_STACKS_PAGES`. -/
def processNStacksPages : ℕ := processStackNPages + processSyscallStackNPages

/-- The number of tables shared by `fork`: `768` less those of the stacks. -/
def sharedTables : ℕ := 768 - (processNStacksPages + ptEntries - 1) / ptEntries

/-- The page `fork` maps the copies at. -/
def mappingPage : ℕ := addrPage kernelVirtualBase - processNStacksPages - 1

namespace Memory

/-- `Scheduler::get_free_pid`; `MAX_PROCESSES` when no pid is left. -/
def getFreePid (m : Memory) : ℕ := skipWhile (fun i => decide (i ∈ m.live)) maxProcesses 0

/-- `Process::copy_page_to_other_process`. -/
def copyPageToOtherProcess (self other page mappingPageId : ℕ) (m : Memory) :
    Except Fault Memory :=
  if m.pte (.user self) page = {} then .ok m
  else do
    let (sysPe, m) := m.getFreePeUser
    let (frame, m) := m.getFreeFrame
    let policy := (m.pte (.user self) page).flags
    let m ← allocatePage frame sysPe policy m
    let m ← updatePte (.user other) page ⟨frame % numFrames, policy⟩ m
    let m ← updatePte (.user self) mappingPageId (m.pageTables sysPe) m
    .ok (copyPage (.user self) mappingPageId page m)

/-- The entry a shared page gets in both processes: no `PAGE_WRITE`, and `PAGE_COW` or `PAGE_SHRO`
depending on whether it could be written. -/
def sharedEntry (e : Entry) : Entry :=
  let write := e.flags.write || e.flags.cow
  { e with flags :=
    { e.flags with cow := e.flags.cow || write, shro := e.flags.shro || !write, write := false } }

/-- `Process::copy_page_to_other_process_shared`. -/
def copyPageToOtherProcessShared (self other page : ℕ) (m : Memory) : Except Fault Memory :=
  let e := m.pte (.user self) page
  if !e.flags.present then .ok m
  else do
    let m ← updatePte (.user self) page (sharedEntry e) m
    updatePte (.user other) page (sharedEntry e) m

/-- The inner loop of `fork` over the entries of one table. -/
def shareTable (self other : ℕ) (m : Memory) (i : ℕ) : Except Fault Memory :=
  if (m.process self).pdt i then
    (List.range ptEntries).foldlM (fun m j =>
      if m.pte (.user self) (i * ptEntries + j) = {} then .ok m
      else copyPageToOtherProcessShared self other (i * ptEntries + j) m) m
  else .ok m

/-- The pages of the first stack loop: `i` runs from `0` to `PROCESS_STACK_N_PAGES` inclusive. -/
def stackLoopPages : List ℕ :=
  (List.range (processStackNPages + 1)).map fun i =>
    addrPage (kernelVirtualBase - pageSize * (i + 1))

/-- The pages of the second stack loop: `i` runs from `0` to `PROCESS_SYSCALL_STACK_N_PAGES`
inclusive. -/
def syscallStackLoopPages : List ℕ :=
  (List.range (processSyscallStackNPages + 1)).map fun i =>
    addrPage (kernelVirtualBase - pageSize * (processStackNPages + i + 1))

/-- One turn of a stack loop, with the log of the pages copied so far. -/
def copyStackPage (self other : ℕ) (s : List ℕ × Memory) (page : ℕ) :
    Except Fault (List ℕ × Memory) := do
  let m ← copyPageToOtherProcess self other page mappingPage s.2
  .ok (if s.2.pte (.user self) page = {} then s.1 else s.1 ++ [page], m)

/-- The child as the constructor makes it: the program of the parent, no page, no allocation. -/
def newChild (parent : Process) : Process :=
  { numPages := parent.numPages, lowestFreePe := parent.numPages }

/-- What `fork` returns: the pid of the child, the stack pages copied, the new state. -/
structure Forked where
  child : ℕ
  copied : List ℕ
  memory : Memory

/-- `Process::fork`. -/
def fork (self : ℕ) (m : Memory) : Except Fault Forked :=
  let child := m.getFreePid
  if maxProcesses ≤ child then .error .outOfBounds
  else do
    let m := { m with process := Function.update m.process child (newChild (m.process self)) }
    if m.pte (.user self) mappingPage ≠ {} then
      .error (.irrecoverableError "mapping mage is not empty")
    else do
      let m ← (List.range sharedTables).foldlM (shareTable self child) m
      let s ← stackLoopPages.foldlM (copyStackPage self child) ([], m)
      let (copied, m) ← syscallStackLoopPages.foldlM (copyStackPage self child) s
      let m := { m with process := Function.update m.process child { m.process child with
        pdt := (m.process self).pdt } }
      let m ← updatePte (.user self) mappingPage {} m
      .ok ⟨child, copied, { m with live := insert child m.live }⟩

end Memory

end BrebOS
