import BrebOS.Core.RawMemory

/-!
# The memory manager

`core/memory.cpp`, with `Process::update_pte`, through which everything but the loader writes the
tables of a process.  A user page has two entries: the one of the process, and a duplicate in the
kernel's tables, which is the one `frame_to_page` knows about.
-/

namespace BrebOS.Memory

/-! ## `update_pte` -/

/-- The first half of `update_pte`: the frame the entry named loses a reference. -/
def releaseFrame (e : Entry) (m : Memory) : Except Fault Memory :=
  if m.frameRc e.frame ≠ 0 then .ok (m.setRc e.frame (m.frameRc e.frame - 1))
  else if e.mapped then .error (.irrecoverableError "huh")
  else .ok m

/-- The second half: a frame that gets mapped gains one. -/
def acquireFrame (e : Entry) (m : Memory) : Memory :=
  if e.mapped then m.setRc e.frame (m.frameRc e.frame + 1) else m

/-- `Process::update_pte`. -/
def updatePte (proc : ProcId) (page : ℕ) (val : Entry) (m : Memory) : Except Fault Memory :=
  if proc.entries ≤ page then .error .outOfBounds
  else do
    let m ← releaseFrame (m.pte proc page) m
    .ok (acquireFrame val ((m.setPte proc page val).fillPdt proc (page / ptEntries)))

/-! ## `sbrk` and `free_page` -/

/-- One turn of the loop of `sbrk` over the pages of the kernel. -/
def sbrkKernelPage (policy : Flags) (m : Memory) (page : ℕ) : Except Fault Memory :=
  allocateFreePage page policy m

/-- One turn of the loop of `sbrk` over the pages of a process: the duplicate first. -/
def sbrkUserPage (pid : ℕ) (policy : Flags) (m : Memory) (page : ℕ) : Except Fault Memory := do
  let (sysPe, m) := m.getFreePe
  let m ← allocateFreePage sysPe policy m
  updatePte (.user pid) page (m.pageTables sysPe) m

/-- One turn of the loop of `sbrk` over the lazily allocated pages of a process. -/
def sbrkLazyPage (pid : ℕ) (policy : Flags) (m : Memory) (page : ℕ) : Except Fault Memory :=
  updatePte (.user pid) page ⟨0, policy⟩ m

/-- The end of `sbrk`: move `lowest_free_pe` to a free entry. -/
def advanceLowestPe (proc : ProcId) (m : Memory) : Except Fault Memory :=
  let pe := skipWhile (fun i => (m.pte proc i).used) (proc.entries - m.lowestPe proc)
    (m.lowestPe proc)
  if proc.entries ≤ pe then .error .outOfBounds else .ok (m.setLowestPe proc pe)

/-- The loops of `sbrk` over the pages from `b` on. -/
def sbrkPages (proc : ProcId) (n b : ℕ) (policy : Flags) (m : Memory) : Except Fault Memory :=
  match proc with
  | .kernel => (List.range' b n).foldlM (sbrkKernelPage policy) m
  | .user pid =>
      if !policy.user then
        .error (.irrecoverableError "sbrk: allocating pages for user process without PAGE_USER flag")
      else if !policy.lazyZero then (List.range' b n).foldlM (sbrkUserPage pid policy) m
      else (List.range' b n).foldlM (sbrkLazyPage pid policy) m

/-- `sbrk`: the address of the pages, `0` for null. -/
def sbrk (proc : ProcId) (n : ℕ) (info : PageInfo) (hint : HintInfo) (m : Memory) :
    Except Fault (ℕ × Memory) :=
  if m.lowestFreeFrame = numFrames then .ok (0, m)
  else do
    match ← getContiguousPages n hint proc m with
    | none => .ok (0, m)
    | some b =>
        if info.policy.cow || info.policy.shro then
          .error (.irrecoverableError "sbrk: Unsupported allocation flags")
        else if info.policy.present && info.policy.lazyZero then
          .error (.irrecoverableError
            "sbrk: both PAGE_PRESENT and PAGE_LAZY zero cannot be specified at the same time")
        else do
          let m ← sbrkPages proc n b info.policy m
          let m ← advanceLowestPe proc m
          .ok (b * pageSize, m)

/-- `free_page(address, process)`. -/
def freePageOf (proc : ProcId) (address : ℕ) (m : Memory) : Except Fault Memory :=
  let page := addrPage address
  if proc.entries ≤ page then .error .outOfBounds
  else
    let e := m.pte proc page
    match proc with
    | .user pid =>
        if e.flags.lazyZero then updatePte (.user pid) page {} m
        else do
          let sysPage := m.frameToPage e.frame
          let m ← updatePte (.user pid) page {} m
          if m.frameRc e.frame ≥ 1 then .ok m
          else
            match sysPage with
            | none => .error .outOfBounds
            | some p => freePage p m
    | .kernel =>
        let m := m.setRc e.frame (u32Sub (m.frameRc e.frame) 1)
        if m.frameRc e.frame ≥ 1 then .ok m else freePage page m

/-! ## `mprotect` -/

/-- `PROT_READ`, `PROT_WRITE`, `PROT_EXEC`, and whether any other bit is set. -/
structure Prot where
  read : Bool := false
  write : Bool := false
  exec : Bool := false
  other : Bool := false
  deriving DecidableEq, Repr

/-- What `mprotect` returns: `0`, `-EINVAL`, `-ENOMEM`. -/
inductive MprotectResult
  | ok
  | einval
  | enomem
  deriving DecidableEq, Repr

/-- The page the loops of `mprotect` look at in turn `id`: `id` is added to the address. -/
def mprotectPage (addr id : ℕ) : ℕ := addrPage (u32 (addr + id))

/-- The loop of `mprotect` that checks the range, up to its `break`. -/
def mprotectCheck (proc : ProcId) (addr : ℕ) (m : Memory) : List ℕ → Except Fault Bool
  | [] => .ok true
  | id :: ids =>
      if proc.entries ≤ mprotectPage addr id then .error .outOfBounds
      else
        let e := m.pte proc (mprotectPage addr id)
        if !(e.flags.present || e.flags.lazyZero) then
          if e.flags.cow || e.flags.shro then
            .error (.irrecoverableError
              "mprotect: address range covers a COW or SHRO page, this is not supported yet")
          else .ok false
        else mprotectCheck proc addr m ids

/-- One turn of the loop of `mprotect` that applies the new flags. -/
def mprotectApply (proc : ProcId) (addr : ℕ) (write : Bool) (m : Memory) (id : ℕ) :
    Except Fault Memory :=
  let e := m.pte proc (mprotectPage addr id)
  updatePte proc (mprotectPage addr id) { e with flags := { e.flags with write } } m

/-- `mprotect`. -/
def mprotect (addr len : ℕ) (prot : Prot) (proc : ProcId) (m : Memory) :
    Except Fault (MprotectResult × Memory) :=
  if addr % pageSize ≠ 0 then .ok (.einval, m)
  else if prot.other then .ok (.einval, m)
  else do
    let ids := List.range (addrPage (u32 (len + pageSize - 1)))
    if !(← mprotectCheck proc addr m ids) then .ok (.enomem, m)
    else do
      let m ← ids.foldlM (mprotectApply proc addr prot.write) m
      .ok (.ok, m)

/-! ## Page faults -/

/-- `memcpy` of a whole page, between two pages of one address space. -/
def copyPage (proc : ProcId) (dst src : ℕ) (m : Memory) : Memory :=
  m.setFrame (m.pte proc dst).frame (m.frames (m.pte proc src).frame)

/-- The policy of the private copy of a page: `(policy & ~PAGE_COW) | PAGE_WRITE`. -/
def privatePolicy (policy : Flags) : Flags := { policy with cow := false, write := true }

/-- `handle_cow_page_fault`. -/
def handleCowPageFault (proc : ProcId) (higherHalf : Bool) (page : ℕ) (m : Memory) :
    Except Fault Memory :=
  if proc = .kernel then
    .error (.irrecoverableError "COW on kernel process not supposed to happen")
  else if higherHalf then .error (.irrecoverableError "COW on higher half")
  else do
    let (sysPe, m) := m.getFreePeUser
    let (frame, m) := m.getFreeFrame
    let e := m.pte proc page
    let m ← allocatePage frame sysPe (privatePolicy e.flags) m
    match ← getContiguousPages 1 defaultHintInfo proc m with
    | none => .error .outOfBounds
    | some mappingPe =>
        let m ← updatePte proc mappingPe e m
        let m ← updatePte proc page ⟨frame % numFrames, privatePolicy e.flags⟩ m
        let m := copyPage proc page mappingPe m
        let m ← updatePte proc mappingPe {} m
        if m.frameRc frame = 0 then markFrameFree frame m else .ok m

/-- The address space whose table a fault at an address is looked up in. -/
def faultTable (proc : ProcId) (higherHalf : Bool) : ProcId := if higherHalf then .kernel else proc

/-- `handle_lazy_zero_page_fault`. -/
def handleLazyZeroPageFault (proc : ProcId) (higherHalf : Bool) (page : ℕ) (m : Memory) :
    Except Fault Memory := do
  let table := faultTable proc higherHalf
  let (frame, m) := m.getFreeFrame
  let e : Entry := ⟨frame % numFrames,
    { user := (m.pte table page).flags.user, write := true, present := true }⟩
  let m := (m.setPte table page e).setFrame e.frame fun _ => 0
  let m ←
    if proc = .kernel ∨ higherHalf then markFrameUsed frame page m
    else do
      let (sysPe, m) := m.getFreePe
      if numFrames ≤ sysPe then .error .outOfBounds
      else markFrameUsed frame sysPe (m.setPte .kernel sysPe e)
  .ok (if proc = .kernel then m else m.setRc frame (m.frameRc frame + 1))

/-- `page_fault_handler`: whether the fault was handled. -/
def pageFaultHandler (proc : ProcId) (address : ℕ) (writeAccess : Bool) (m : Memory) :
    Except Fault (Bool × Memory) :=
  let page := addrPage address
  let higherHalf := decide (kernelVirtualBase ≤ address)
  let table := faultTable proc higherHalf
  let e := m.pte table page
  if table.entries ≤ page then .error .outOfBounds
  else do
    let (handled, m) ←
      if e.flags.cow then
        if !writeAccess then .error (.irrecoverableError "huh ??")
        else do
          let m ← handleCowPageFault proc higherHalf page m
          .ok (true, m)
      else .ok (false, m)
    if !e.flags.lazyZero then .ok (handled, m)
    else do
      let m ← handleLazyZeroPageFault proc higherHalf page m
      .ok (true, m)

end BrebOS.Memory
