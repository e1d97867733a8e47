import BrebOS.Processes.Process

/-!
# The loader

What `processes/ELFLoader.cpp` does to memory when it builds a process.  Each segment and each
stack is first a block of the kernel, got from `mmap`; its pages (the *window*) are then entered in
the tables of the new process, **without** `update_pte`, so no reference is counted.

The blocks `mmap` returned are an input here, by the id of their first page.
-/

namespace BrebOS

/-- A `PT_LOAD` segment: where it goes, its length, `PF_W`, and the window `mmap` returned. -/
structure Segment where
  runtimePageId : ℕ
  numPages : ℕ
  write : Bool
  window : ℕ
  deriving DecidableEq, Repr

/-- What the loader is given: the segments, the pages the program spans, and the windows of the two
stacks. -/
structure LoadRequest where
  segments : List Segment
  numPages : ℕ
  stackWindow : ℕ
  kstackWindow : ℕ
  deriving DecidableEq, Repr

namespace Memory

/-- One turn of a mapping loop of the loader: the entry of a window page goes into the new tables,
where the page must be empty. -/
def mapWindowPage (msg : String) (user : Bool) (page window : ℕ) (kernel : ℕ → Entry)
    (tables : ℕ → Entry) (i : ℕ) : Except Fault (ℕ → Entry) :=
  if userEntries ≤ page + i ∨ numFrames ≤ window + i then .error .outOfBounds
  else if tables (page + i) ≠ {} then .error (.irrecoverableError msg)
  else
    let e := kernel (window + i)
    .ok (Function.update tables (page + i)
      { e with flags := { e.flags with user := e.flags.user || user } })

/-- `PTE &= ~PAGE_WRITE`. -/
def dropWrite (page : ℕ) (tables : ℕ → Entry) (i : ℕ) : ℕ → Entry :=
  let e := tables (page + i)
  Function.update tables (page + i) { e with flags := { e.flags with write := false } }

/-- `ELFLoader::map_elf`, for one segment. -/
def mapSegment (kernel : ℕ → Entry) (tables : ℕ → Entry) (seg : Segment) :
    Except Fault (ℕ → Entry) := do
  let tables ← (List.range seg.numPages).foldlM (mapWindowPage "address space overlap detected" true
    seg.runtimePageId seg.window kernel) tables
  .ok (if seg.write then tables
    else (List.range seg.numPages).foldl (dropWrite seg.runtimePageId) tables)

/-- The first page of the process stack. -/
def stackStartPageId : ℕ := userEntries - processStackNPages

/-- The first page of the syscall stack. -/
def kstackStartPageId : ℕ := userEntries - processStackNPages - processSyscallStackNPages

/-- `ELFLoader::allocate_stacks`. -/
def allocateStacks (req : LoadRequest) (kernel : ℕ → Entry) (tables : ℕ → Entry) :
    Except Fault (ℕ → Entry) := do
  let tables ← (List.range processStackNPages).foldlM
    (mapWindowPage "Process kernel stack page entry is not empty" false stackStartPageId
      req.stackWindow kernel) tables
  (List.range processSyscallStackNPages).foldlM
    (mapWindowPage "Process kernel stack page entry is not empty" false kstackStartPageId
      req.kstackWindow kernel) tables

/-- The allocations the loader registers in the new process. -/
def loadedAllocations (req : LoadRequest) : List Allocation :=
  (req.segments.map fun seg =>
    { start := seg.runtimePageId * pageSize, end_ := (seg.runtimePageId + seg.numPages) * pageSize,
      pageInfo := ⟨defaultFlags, { defaultUPageInfo.policy with write := seg.write }⟩,
      used := true }) ++
  [{ start := stackStartPageId * pageSize, end_ := userEntries * pageSize,
     pageInfo := defaultUPageInfo, used := true },
   { start := kstackStartPageId * pageSize, end_ := stackStartPageId * pageSize,
     pageInfo := defaultKPageInfo, used := true }]

/-- `setup_pdt` and the end of `allocate_stacks`: the `pdt` entries below the kernel's. -/
def setupPdt (numPages : ℕ) (pde : ℕ) : Bool :=
  decide (pde < (numPages + ptEntries - 1) / ptEntries) || pde == 767

/-- `ELFLoader::build_process` for a pid: the process it makes. -/
def buildProcess (req : LoadRequest) (m : Memory) : Except Fault Process := do
  let tables ← req.segments.foldlM (mapSegment m.pageTables) (fun _ => {})
  let tables ← allocateStacks req m.pageTables tables
  let memtree ← (loadedAllocations req).foldlM (fun t d => MemTree.registerExternalAllocation d t)
    (.nil : MemTree)
  .ok { pageTables := tables, pdt := setupPdt req.numPages, numPages := req.numPages,
        lowestFreePe := req.numPages, memtree }

/-- `Scheduler::exec`: the pid of the new process, none when there is no pid left. -/
def exec (req : LoadRequest) (m : Memory) : Except Fault (Option ℕ × Memory) :=
  let pid := m.getFreePid
  if maxProcesses ≤ pid then .ok (none, m)
  else do
    let proc ← buildProcess req m
    .ok (some pid,
      { m with process := Function.update m.process pid proc, live := insert pid m.live })

end Memory

/-- The pages the loader maps, each with the window page it takes the entry from. -/
def LoadRequest.mappings (req : LoadRequest) : List (ℕ × ℕ) :=
  (req.segments.flatMap fun seg =>
    (List.range seg.numPages).map fun i => (seg.runtimePageId + i, seg.window + i)) ++
  ((List.range processStackNPages).map fun i => (Memory.stackStartPageId + i, req.stackWindow + i)) ++
  (List.range processSyscallStackNPages).map fun i =>
    (Memory.kstackStartPageId + i, req.kstackWindow + i)

end BrebOS
