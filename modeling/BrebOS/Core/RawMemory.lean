import BrebOS.Core.Memtree

/-!
# Page tables, frames and the raw page operations

`RawMemory.cpp` and the macros of `MemoryDefines.h`.  All page tables live in one record: those of
the kernel, which map every frame the kernel hands out, and those of the user processes, which stop
below `KERNEL_VIRTUAL_BASE`.  `pte` and `setPte` read and write an entry of either.

Memory that holds the tables themselves is not modelled, so a lazily allocated table costs no
fault here.  An index outside a table, or outside the frame arrays, is a `Fault.outOfBounds`.
-/

namespace BrebOS

/-- A page-table entry: `FRAME_ID_ADDR(frame) | flags`. -/
structure Entry where
  frame : ℕ := 0
  flags : Flags := {}
  deriving DecidableEq, Repr, Inhabited

namespace Entry

/-- `PTE_USED`. -/
def used (e : Entry) : Bool := e.flags.present || e.flags.lazyZero

/-- The entry makes the MMU use its frame: `PAGE_PRESENT` and not `PAGE_LAZY_ZERO`. -/
def mapped (e : Entry) : Bool := e.flags.present && !e.flags.lazyZero

/-- The references the entry holds to a frame: one if it maps it. -/
def refs (e : Entry) (frame : ℕ) : ℕ := if e.mapped = true ∧ e.frame = frame then 1 else 0

@[simp] lemma refs_default (frame : ℕ) : ({} : Entry).refs frame = 0 := rfl

lemma refs_of_not_mapped {e : Entry} (h : e.mapped = false) (frame : ℕ) : e.refs frame = 0 := by
  simp [refs, h]

lemma refs_le_one (e : Entry) (frame : ℕ) : e.refs frame ≤ 1 := by
  rw [refs]
  split_ifs <;> omega

@[simp] lemma used_default : ({} : Entry).used = false := rfl

@[simp] lemma mapped_default : ({} : Entry).mapped = false := rfl

lemma used_of_mapped {e : Entry} (h : e.mapped = true) : e.used = true := by
  simp only [mapped, Bool.and_eq_true] at h
  simp [used, h.1]

end Entry

/-- The bytes of a page. -/
abbrev PageData := ℕ → UInt8

/-- What of a `Process` takes part in memory management.  A `pdt` entry is `true` when it is not
zero. -/
structure Process where
  pageTables : ℕ → Entry := fun _ => {}
  pdt : ℕ → Bool := fun _ => false
  numPages : ℕ := 0
  lowestFreePe : ℕ := 0
  memtree : MemTree := .nil

/-- The state of memory management.  `live` are the pids that are taken, and `frames` the contents
of physical memory. -/
structure Memory where
  pageTables : ℕ → Entry
  process : ℕ → Process
  live : Finset ℕ
  frameToPage : ℕ → Option ℕ
  frameRc : ℕ → ℕ
  lowestFreeFrame : ℕ
  lowestFreePe : ℕ
  lowestFreePeUser : ℕ
  frames : ℕ → PageData

/-- The number of frames, and of entries of the kernel's tables: `PDT_ENTRIES * PT_ENTRIES`. -/
def numFrames : ℕ := 1048576

/-- The number of entries of a user process's tables: `768 * PT_ENTRIES`. -/
def userEntries : ℕ := 786432

namespace ProcId

/-- How many entries the tables of an address space have. -/
def entries : ProcId → ℕ
  | kernel => numFrames
  | user _ => userEntries

end ProcId

namespace Memory

/-! ## Entries -/

/-- `PTE(page_tables, i)`. -/
def pte (m : Memory) : ProcId → ℕ → Entry
  | .kernel, i => m.pageTables i
  | .user pid, i => (m.process pid).pageTables i

/-- `PTE(page_tables, i) = e`. -/
def setPte (m : Memory) : ProcId → ℕ → Entry → Memory
  | .kernel, i, e => { m with pageTables := Function.update m.pageTables i e }
  | .user pid, i, e =>
      { m with process := Function.update m.process pid { m.process pid with
          pageTables := Function.update (m.process pid).pageTables i e } }

/-- Fill the `pdt` entry of a table; those of the kernel are filled at boot. -/
def fillPdt (m : Memory) : ProcId → ℕ → Memory
  | .kernel, _ => m
  | .user pid, pde =>
      { m with process := Function.update m.process pid { m.process pid with
          pdt := Function.update (m.process pid).pdt pde true } }

/-- `process->lowest_free_pe`. -/
def lowestPe (m : Memory) : ProcId → ℕ
  | .kernel => m.lowestFreePe
  | .user pid => (m.process pid).lowestFreePe

/-- Write `process->lowest_free_pe`. -/
def setLowestPe (m : Memory) : ProcId → ℕ → Memory
  | .kernel, i => { m with lowestFreePe := i }
  | .user pid, i =>
      { m with process := Function.update m.process pid { m.process pid with lowestFreePe := i } }

/-- Write a reference count. -/
def setRc (m : Memory) (frame rc : ℕ) : Memory :=
  { m with frameRc := Function.update m.frameRc frame rc }

/-- Write an entry of `frame_to_page`, `none` for `-1`. -/
def setPageOf (m : Memory) (frame : ℕ) (page : Option ℕ) : Memory :=
  { m with frameToPage := Function.update m.frameToPage frame page }

/-- Write the contents of a frame. -/
def setFrame (m : Memory) (frame : ℕ) (data : PageData) : Memory :=
  { m with frames := Function.update m.frames frame data }

section Lemmas

variable (m : Memory) (proc proc' : ProcId) (i j : ℕ) (e : Entry)

lemma pte_setPte : (m.setPte proc i e).pte proc' j =
    if proc' = proc ∧ j = i then e else m.pte proc' j := by
  cases proc with
  | kernel =>
      cases proc' with
      | kernel => by_cases h : j = i <;> simp [setPte, pte, h]
      | user pid' => simp [setPte, pte]
  | user pid =>
      cases proc' with
      | kernel => simp [setPte, pte]
      | user pid' =>
          by_cases h : pid' = pid
          · subst h
            by_cases h : j = i <;> simp [setPte, pte, h]
          · simp [setPte, pte, h]

@[simp] lemma pte_fillPdt : (m.fillPdt proc i).pte = m.pte := by
  funext proc' j
  cases proc with
  | kernel => rfl
  | user pid =>
      cases proc' with
      | kernel => rfl
      | user pid' => by_cases h : pid' = pid <;> simp [fillPdt, pte, h]

@[simp] lemma pte_setLowestPe : (m.setLowestPe proc i).pte = m.pte := by
  funext proc' j
  cases proc with
  | kernel => cases proc' <;> rfl
  | user pid =>
      cases proc' with
      | kernel => rfl
      | user pid' => by_cases h : pid' = pid <;> simp [setLowestPe, pte, h]

@[simp] lemma pte_setRc : (m.setRc i j).pte = m.pte := by funext p; cases p <;> rfl

@[simp] lemma pte_setPageOf (page : Option ℕ) : (m.setPageOf i page).pte = m.pte := by
  funext p; cases p <;> rfl

@[simp] lemma pte_setFrame (data : PageData) : (m.setFrame i data).pte = m.pte := by
  funext p; cases p <;> rfl

lemma frameRc_setRc : (m.setRc i j).frameRc = Function.update m.frameRc i j := rfl

@[simp] lemma frameRc_setPte : (m.setPte proc i e).frameRc = m.frameRc := by cases proc <;> rfl

@[simp] lemma frameRc_fillPdt : (m.fillPdt proc i).frameRc = m.frameRc := by cases proc <;> rfl

@[simp] lemma frameRc_setLowestPe : (m.setLowestPe proc i).frameRc = m.frameRc := by
  cases proc <;> rfl

@[simp] lemma frameToPage_setPte : (m.setPte proc i e).frameToPage = m.frameToPage := by
  cases proc <;> rfl

@[simp] lemma frameToPage_fillPdt : (m.fillPdt proc i).frameToPage = m.frameToPage := by
  cases proc <;> rfl

@[simp] lemma frameToPage_setLowestPe : (m.setLowestPe proc i).frameToPage = m.frameToPage := by
  cases proc <;> rfl

@[simp] lemma frames_setPte : (m.setPte proc i e).frames = m.frames := by cases proc <;> rfl

@[simp] lemma frames_fillPdt : (m.fillPdt proc i).frames = m.frames := by cases proc <;> rfl

@[simp] lemma frames_setLowestPe : (m.setLowestPe proc i).frames = m.frames := by
  cases proc <;> rfl

@[simp] lemma memtree_setPte (pid : ℕ) :
    ((m.setPte proc i e).process pid).memtree = (m.process pid).memtree := by
  cases proc with
  | kernel => rfl
  | user pid' => by_cases h : pid = pid' <;> simp [setPte, h]

@[simp] lemma memtree_fillPdt (pid : ℕ) :
    ((m.fillPdt proc i).process pid).memtree = (m.process pid).memtree := by
  cases proc with
  | kernel => rfl
  | user pid' => by_cases h : pid = pid' <;> simp [fillPdt, h]

@[simp] lemma memtree_setLowestPe (pid : ℕ) :
    ((m.setLowestPe proc i).process pid).memtree = (m.process pid).memtree := by
  cases proc with
  | kernel => rfl
  | user pid' => by_cases h : pid = pid' <;> simp [setLowestPe, h]

@[simp] lemma lowestPe_setPte : (m.setPte proc i e).lowestPe proc' = m.lowestPe proc' := by
  cases proc' with
  | kernel => cases proc <;> rfl
  | user pid =>
      cases proc with
      | kernel => rfl
      | user pid' => by_cases h : pid = pid' <;> simp [setPte, lowestPe, h]

@[simp] lemma lowestPe_fillPdt : (m.fillPdt proc i).lowestPe proc' = m.lowestPe proc' := by
  cases proc' with
  | kernel => cases proc <;> rfl
  | user pid =>
      cases proc with
      | kernel => rfl
      | user pid' => by_cases h : pid = pid' <;> simp [fillPdt, lowestPe, h]

@[simp] lemma lowestPe_setRc : (m.setRc i j).lowestPe = m.lowestPe := by funext p; cases p <;> rfl

@[simp] lemma lowestPe_setLowestPe : (m.setLowestPe proc i).lowestPe proc = i := by
  cases proc <;> simp [setLowestPe, lowestPe]

@[simp] lemma live_setPte : (m.setPte proc i e).live = m.live := by cases proc <;> rfl

@[simp] lemma live_fillPdt : (m.fillPdt proc i).live = m.live := by cases proc <;> rfl

@[simp] lemma live_setLowestPe : (m.setLowestPe proc i).live = m.live := by cases proc <;> rfl

end Lemmas

/-! ## Frames -/

/-- `FRAME_USED`. -/
def frameUsed (m : Memory) (frame : ℕ) : Bool := (m.frameToPage frame).isSome

/-- `get_free_frame`. -/
def getFreeFrame (m : Memory) : ℕ × Memory :=
  let frame := skipWhile m.frameUsed (numFrames - m.lowestFreeFrame) m.lowestFreeFrame
  (frame, { m with lowestFreeFrame := frame })

/-- `MARK_FRAME_USED`. -/
def markFrameUsed (frame page : ℕ) (m : Memory) : Except Fault Memory :=
  if numFrames ≤ frame then .error .outOfBounds
  else if m.frameRc frame ≠ 0 then
    .error (.irrecoverableError "Trying to allocate frame which is already allocated")
  else .ok ((m.setPageOf frame (some page)).setRc frame (m.frameRc frame + 1))

/-- `MARK_FRAME_FREE`. -/
def markFrameFree (frame : ℕ) (m : Memory) : Except Fault Memory :=
  if m.frameRc frame > 1 then
    .error (.irrecoverableError "Kernel is trying to free a frame which is referenced by a process")
  else .ok { (m.setPageOf frame none).setRc frame 0 with
    lowestFreeFrame := min m.lowestFreeFrame frame }

/-! ## Pages of the kernel tables -/

/-- `get_free_pe`. -/
def getFreePe (m : Memory) : ℕ × Memory :=
  let pe := skipWhile (fun i => (m.pageTables i).used) (numFrames - m.lowestFreePe) m.lowestFreePe
  (pe, { m with lowestFreePe := pe })

/-- `get_free_pe_user`. -/
def getFreePeUser (m : Memory) : ℕ × Memory :=
  let pe := skipWhile (fun i => (m.pageTables i).used) (numFrames - m.lowestFreePeUser)
    m.lowestFreePeUser
  (pe, { m with lowestFreePeUser := pe })

/-- `allocate_page(frame_id, page_id, policy)`. -/
def allocatePage (frame page : ℕ) (policy : Flags) (m : Memory) : Except Fault Memory :=
  if numFrames ≤ page then .error .outOfBounds
  else
    let m := m.setPte .kernel page ⟨frame % numFrames, policy⟩
    if policy.present then markFrameUsed frame page m else .ok m

/-- `allocate_page(page_id, policy)`. -/
def allocateFreePage (page : ℕ) (policy : Flags) (m : Memory) : Except Fault Memory :=
  let (frame, m) := m.getFreeFrame
  allocatePage frame page policy m

/-- `free_page(page_id)`. -/
def freePage (page : ℕ) (m : Memory) : Except Fault Memory :=
  if numFrames ≤ page then .error .outOfBounds
  else
    let e := m.pageTables page
    if !e.flags.lazyZero && e.frame == 0 then .error (.irrecoverableError "wut")
    else
      let m := m.setPte .kernel page {}
      if e.flags.lazyZero then .ok m else markFrameFree e.frame m

/-! ## Contiguous free pages -/

/-- One attempt of `get_contiguous_pages`: the first used entry from `b` on, or `b + n`.  The loop
also reads the entry at `b + n`, whose value does not matter. -/
def firstUsed (n b size : ℕ) (tables : ℕ → Entry) : Except Fault ℕ :=
  let pte := skipWhile (fun i => !(tables i).used) n b
  if size < b + n ∧ size ≤ pte then .error .outOfBounds else .ok pte

/-- The `while (true)` of `get_contiguous_pages`; the start grows with every turn, so `numFrames`
turns are enough. -/
def contiguousFrom (n size : ℕ) (tables : ℕ → Entry) : ℕ → ℕ → Except Fault (Option ℕ)
  | 0, _ => .ok none
  | fuel + 1, b =>
      if b + n > numFrames then .ok none
      else do
        let pte ← firstUsed n b size tables
        if pte = b + n then .ok (some b) else contiguousFrom n size tables fuel (pte + 1)

/-- `get_contiguous_pages`, `none` for `-1`. -/
def getContiguousPages (n : ℕ) (hint : HintInfo) (proc : ProcId) (m : Memory) :
    Except Fault (Option ℕ) :=
  if hint.isMandatory then
    if hint.hint % pageSize ≠ 0 then
      .error (.irrecoverableError "alloc_params->hint is not page aligned")
    else
      let b := addrPage hint.hint
      if b + n > numFrames then .ok none
      else do
        let pte ← firstUsed n b proc.entries (m.pte proc)
        .ok (if pte = b + n then some b else none)
  else
    contiguousFrom n proc.entries (m.pte proc) (numFrames + 1)
      (max (m.lowestPe proc) (addrPage hint.hint))

end Memory

end BrebOS
