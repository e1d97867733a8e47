import BrebOS.Processes.Fork
import BrebOS.Processes.Isolation

/-!
# Copy-on-write is eager copying

Two machines run the same program: loads, stores and forks by a family of processes.

**The kernel.**  A load or store goes through the tables of the process.  An access that the MMU
refuses runs `page_fault_handler` and is tried again.

**Eager copies.**  Every process has its own pages, and a fork copies all of them.

`Refines` relates the two on the pages that were writable before the first fork: each of them is
present in every member of the family, writable or copy-on-write, and its frame holds the bytes of
the eager copy.  A store finds its page writable, and then no other page has the frame
(`Isolated.not_write`), or copy-on-write, and then it gets a fresh frame first.
-/

namespace BrebOS

/-- What the programs of a family of processes do. -/
inductive UserOp
  | load (pid addr : ℕ)
  | store (pid addr : ℕ) (b : UInt8)
  | fork (pid : ℕ)

namespace Memory

variable {m m' m₀ : Memory} {self child pid page i frame addr root : ℕ} {b : UInt8} {L : Finset ℕ}

/-! ## The kernel -/

/-- The MMU: the frame a user access goes to, none when it faults. -/
def translate (m : Memory) (pid addr : ℕ) (write : Bool) : Option ℕ :=
  let e := m.pte (.user pid) (addrPage addr)
  if addr < kernelVirtualBase ∧ (m.process pid).pdt (addrPage addr / ptEntries) = true ∧
      e.flags.present = true ∧ e.flags.user = true ∧ (write = true → e.flags.write = true) then
    some e.frame
  else none

/-- A user access.  After a fault that `page_fault_handler` has handled the instruction runs again; a
fault that it has not handled kills the process. -/
def access (pid addr : ℕ) (write : Bool) (m : Memory) : Except Fault (ℕ × Memory) :=
  match m.translate pid addr write with
  | some frame => .ok (frame, m)
  | none => do
      let (handled, m) ← pageFaultHandler (.user pid) addr write m
      if !handled then .error .killed
      else
        match m.translate pid addr write with
        | some frame => .ok (frame, m)
        | none => .error .killed

/-- A user load of one byte. -/
def userLoad (pid addr : ℕ) (m : Memory) : Except Fault (UInt8 × Memory) := do
  let (frame, m) ← access pid addr false m
  .ok (m.frames frame (addr % pageSize), m)

/-- Write one byte of a frame. -/
def pokeFrame (frame addr : ℕ) (b : UInt8) (m : Memory) : Memory :=
  m.setFrame frame (Function.update (m.frames frame) (addr % pageSize) b)

/-- A user store of one byte. -/
def userStore (pid addr : ℕ) (b : UInt8) (m : Memory) : Except Fault Memory := do
  let (frame, m) ← access pid addr true m
  .ok (pokeFrame frame addr b m)

end Memory

open Memory

/-- The effect of an operation, with the byte a load returns. -/
def UserOp.run (m : Memory) : UserOp → Except Fault (Option UInt8 × Memory)
  | .load pid addr => do
      let (v, m) ← userLoad pid addr m
      .ok (some v, m)
  | .store pid addr b => do
      let m ← userStore pid addr b m
      .ok (none, m)
  | .fork pid => do
      let r ← Memory.fork pid m
      .ok (none, r.memory)

/-- A run of the kernel, with the bytes its loads return.  `get_free_frame` is assumed to find a
frame: the index it leaves is that of a frame. -/
inductive UserRun : Memory → List UserOp → List UInt8 → Memory → Prop
  | nil (m : Memory) : UserRun m [] [] m
  | cons {m m₁ m₂ : Memory} {op : UserOp} {ops : List UserOp} {v : Option UInt8} {vs : List UInt8} :
      op.run m = .ok (v, m₁) → m₁.lowestFreeFrame < numFrames → UserRun m₁ ops vs m₂ →
        UserRun m (op :: ops) (v.toList ++ vs) m₂

/-! ## Eager copies -/

/-- The eager machine: the pids in use, the family, and the pages of each of its members. -/
structure Eager where
  live : Finset ℕ
  family : Finset ℕ
  data : ℕ → ℕ → PageData

namespace Eager

/-- The pid the next child gets. -/
def freePid (a : Eager) : ℕ := skipWhile (fun i => decide (i ∈ a.live)) maxProcesses 0

/-- An operation of a member of the family on pages of `W`. -/
def Legal (W : ℕ → Prop) (a : Eager) : UserOp → Prop
  | .load pid addr => pid ∈ a.family ∧ W (addrPage addr)
  | .store pid addr _ => pid ∈ a.family ∧ W (addrPage addr)
  | .fork pid => pid ∈ a.family

/-- Write one byte of a page. -/
def poke (pid addr : ℕ) (b : UInt8) (a : Eager) : Eager :=
  let bytes := Function.update (a.data pid (addrPage addr)) (addr % pageSize) b
  let pages := Function.update (a.data pid) (addrPage addr) bytes
  { a with data := Function.update a.data pid pages }

/-- A fork copies all pages of the parent. -/
def copy (pid : ℕ) (a : Eager) : Eager where
  live := insert a.freePid a.live
  family := insert a.freePid a.family
  data := Function.update a.data a.freePid (a.data pid)

/-- One operation. -/
def step (a : Eager) : UserOp → Option UInt8 × Eager
  | .load pid addr => (some (a.data pid (addrPage addr) (addr % pageSize)), a)
  | .store pid addr b => (none, a.poke pid addr b)
  | .fork pid => (none, a.copy pid)

/-- The operations of a list are legal, each in the state it is run in. -/
def AllLegal (W : ℕ → Prop) : Eager → List UserOp → Prop
  | _, [] => True
  | a, op :: ops => a.Legal W op ∧ AllLegal W (a.step op).2 ops

/-- A run: the bytes loaded and the last state. -/
def run : Eager → List UserOp → List UInt8 × Eager
  | a, [] => ([], a)
  | a, op :: ops => ((a.step op).1.toList ++ (run (a.step op).2 ops).1, (run (a.step op).2 ops).2)

/-- The eager machine starts with the pages of one process. -/
def start (root : ℕ) (m : Memory) : Eager where
  live := m.live
  family := {root}
  data pid i := m.frames (m.pte (.user pid) i).frame

end Eager

namespace Memory

/-- The pages of tables `0..766` that the process can write, at once or after a copy-on-write
fault. -/
def Writable (pid : ℕ) (m : Memory) (i : ℕ) : Prop :=
  i < sharedTables * ptEntries ∧ (m.process pid).pdt (i / ptEntries) = true ∧
    (m.pte (.user pid) i).flags.present = true ∧ (m.pte (.user pid) i).flags.user = true ∧
    ((m.pte (.user pid) i).flags.write = true ∨ (m.pte (.user pid) i).flags.cow = true)

instance : Decidable (Writable pid m i) := inferInstanceAs (Decidable (_ ∧ _))

lemma Writable.lt (h : Writable pid m i) : i < userEntries := by
  have hlt := h.1
  have : sharedTables * ptEntries < userEntries := by decide
  omega

lemma Writable.mapped (h : Writable pid m i) (hok : (m.pte (.user pid) i).Ok) :
    (m.pte (.user pid) i).mapped = true := hok.mapped_iff.mpr h.2.2.1

/-- **The kernel refines the eager machine** on the pages `W`. -/
structure Refines (W : ℕ → Prop) (a : Eager) (m : Memory) : Prop where
  isolated : Isolated a.family m
  live : a.live = m.live
  family : a.family ⊆ m.live
  writable : ∀ p ∈ a.family, ∀ i, W i → Writable p m i
  data : ∀ p ∈ a.family, ∀ i, W i → m.frames (m.pte (.user p) i).frame = a.data p i

/-! ## Faults -/

lemma pdt_cowHandled {c : CowPages} {p t : ℕ} (h : (m.process p).pdt t = true) :
    ((cowHandled pid page c m).process p).pdt t = true := by
  refine pdt_updated_of_true ?_
  rw [process_copyPage]
  refine pdt_updated_of_true (pdt_updated_of_true ?_)
  rwa [process_allocated]

lemma pageFaultHandler_cow (hok : (m.pte (.user pid) (addrPage addr)).Ok)
    (haddr : addr < kernelVirtualBase) (hpage : addrPage addr < userEntries)
    (hcow : (m.pte (.user pid) (addrPage addr)).flags.cow = true) :
    pageFaultHandler (.user pid) addr true m =
      (handleCowPageFault (.user pid) false (addrPage addr) m).map fun m' => (true, m') := by
  have hhigh : decide (kernelVirtualBase ≤ addr) = false := by simpa using haddr
  have hlazy := hok.present (hok.cow hcow)
  have hentries : ¬ ProcId.entries (.user pid) ≤ addrPage addr := Nat.not_le.mpr hpage
  simp only [pageFaultHandler, hhigh, faultTable, Bool.false_eq_true, if_false, hentries, hcow,
    if_true, Bool.not_true, hlazy, Bool.not_false]
  cases handleCowPageFault (.user pid) false (addrPage addr) m <;> rfl

/-- What a copy-on-write fault needs: a free frame without references, a free entry of the kernel, a
page of the process to map the old frame at, and a reference to the old frame. -/
structure Supplied (pid page : ℕ) (m : Memory) : Prop where
  frame : m.getFreeFrame.1 < numFrames
  idle : m.frameRc m.getFreeFrame.1 = 0
  sysPe : m.getFreePeUser.1 < numFrames
  room : ∃ i, m.lowestPe (.user pid) ≤ i ∧ i < userEntries ∧ (m.pte (.user pid) i).used = false
  nonzero : (m.pte (.user pid) page).frame ≠ 0
  counted : m.frameRc (m.pte (.user pid) page).frame ≠ 0

/-- **A copy-on-write fault is handled** when it has what it needs. -/
lemma Supplied.handled (h : Supplied pid page m) (hok : ∀ i, (m.pte (.user pid) i).Ok)
    (hpage : page < userEntries) (hpres : (m.pte (.user pid) page).flags.present = true) :
    ∃ m', handleCowPageFault (.user pid) false page m = .ok m' := by
  rcases hpe : m.getFreePeUser with ⟨sysPe, m₁⟩
  rcases hfr : m₁.getFreeFrame with ⟨frame, m₂⟩
  have hsame : m₁.getFreeFrame.1 = m.getFreeFrame.1 := by
    rw [show m₁ = m.getFreePeUser.2 by rw [hpe]]
    rfl
  have hs : Scanned m m₂ := (getFreePeUser_spec hpe).1.trans (getFreeFrame_spec hfr).1
  have hlow : m₂.lowestPe = m.lowestPe := by
    rw [show m₂ = m₁.getFreeFrame.2 by rw [hfr], show m₁ = m.getFreePeUser.2 by rw [hpe]]
    funext p
    cases p <;> rfl
  have hframe : frame = m.getFreeFrame.1 := by rw [← hsame, hfr]
  set e := m.pte (.user pid) page with he
  have hmapped : e.mapped = true := (hok page).mapped_iff.mpr hpres
  have hdiff : e.frame ≠ frame := by
    intro heq
    exact h.counted (by rw [heq, hframe]; exact h.idle)
  set m₃ := m₂.allocated frame sysPe (privatePolicy e.flags) with hm₃
  have hall : allocatePage frame sysPe (privatePolicy e.flags) m₂ = .ok m₃ := by
    refine allocatePage_eq_ok.mpr ⟨?_, fun _ => ⟨hframe ▸ h.frame, ?_⟩, rfl⟩
    · rw [show sysPe = m.getFreePeUser.1 by rw [hpe]]
      exact h.sysPe
    · rw [hs.frameRc, hframe]
      exact h.idle
  have hpte₃ : ∀ i, m₃.pte (.user pid) i = m.pte (.user pid) i := by
    intro i
    rw [hm₃, pte_allocated_user, hs.pte]
  -- a page to map the old frame at
  obtain ⟨mappingPe, hcont⟩ : ∃ r, getContiguousPages 1 defaultHintInfo (.user pid) m₃ =
      .ok (some r) := by
    obtain ⟨i, hle, hlt, hun⟩ := h.room
    have hlow₃ : max (m₃.lowestPe (.user pid)) (addrPage defaultHintInfo.hint) =
        m.lowestPe (.user pid) := by
      have : m₃.lowestPe (.user pid) = m₂.lowestPe (.user pid) := by
        simp only [lowestPe, hm₃, process_allocated]
      rw [this, hlow]
      simp [defaultHintInfo, addrPage]
    have hsize : userEntries < numFrames := by decide
    have hun₃ : (m₃.pte (.user pid) i).used = false := by rw [hpte₃]; exact hun
    rw [getContiguousPages, if_neg (by simp [defaultHintInfo]), hlow₃]
    exact contiguousFrom_one hsize.le hlt hun₃ hle (by omega)
  obtain ⟨hend, hmap, -, -⟩ := getContiguousPages_spec hcont
  have hmap_lt : mappingPe < userEntries := by simpa [ProcId.entries] using hend
  have hunused : (m₃.pte (.user pid) mappingPe).used = false := hmap mappingPe le_rfl (by omega)
  have hempty : m.pte (.user pid) mappingPe = {} := (hok _).unused (hpte₃ _ ▸ hunused)
  have hne : mappingPe ≠ page := by
    rintro rfl
    rw [he, hempty] at hpres
    exact Bool.false_ne_true hpres
  -- the three updates
  set m₄ := m₃.updated (.user pid) mappingPe e with hm₄
  have hup₁ : updatePte (.user pid) mappingPe e m₃ = .ok m₄ := by
    refine updatePte_eq_ok.mpr ⟨hmap_lt, fun hm => ?_, rfl⟩
    rw [Entry.mapped_of_unused hunused] at hm
    exact absurd hm (by simp)
  have hpage₄ : m₄.pte (.user pid) page = e := by
    rw [hm₄, pte_updated_of_ne fun _ => Ne.symm hne, hpte₃]
  have hrefs : e.refs e.frame = 1 := Entry.refs_eq_one.mpr ⟨hmapped, rfl⟩
  have hrc₃ : m₃.frameRc e.frame = m.frameRc e.frame := by
    rw [hm₃, frameRc_allocated, if_neg fun h' => hdiff h'.2, hs.frameRc]
  have hrc₄ : m₄.frameRc e.frame = m.frameRc e.frame + 1 := by
    rw [hm₄, frameRc_updated, hpte₃, hempty, if_neg (Ne.symm h.nonzero), hrc₃, hrefs, Nat.sub_zero]
  set new : Entry := ⟨frame % numFrames, privatePolicy e.flags⟩ with hnew
  set m₅ := m₄.updated (.user pid) page new with hm₅
  have hup₂ : updatePte (.user pid) page new m₄ = .ok m₅ := by
    refine updatePte_eq_ok.mpr ⟨hpage, fun _ => ?_, rfl⟩
    rw [hpage₄, hrc₄]
    omega
  have hmap₅ : m₅.pte (.user pid) mappingPe = e := by
    rw [hm₅, pte_updated_of_ne fun _ => hne, hm₄, pte_updated_self]
  set m₆ := copyPage (.user pid) page mappingPe m₅ with hm₆
  have hup₃ : updatePte (.user pid) mappingPe {} m₆ = .ok (m₆.updated (.user pid) mappingPe {}) := by
    refine updatePte_eq_ok.mpr ⟨hmap_lt, fun _ => ?_, rfl⟩
    have hcounted : m.frameRc e.frame ≠ 0 := h.counted
    rw [hm₆, pte_copyPage, frameRc_copyPage, hmap₅, hm₅, frameRc_updated, hpage₄, if_pos rfl, hrc₄]
    omega
  have hlast : ∃ m', (if (m₆.updated (.user pid) mappingPe {}).frameRc frame = 0 then
      markFrameFree frame (m₆.updated (.user pid) mappingPe {}) else
        .ok (m₆.updated (.user pid) mappingPe {})) = .ok m' := by
    split_ifs with hrc
    · rw [markFrameFree, if_neg (by omega)]
      exact ⟨_, rfl⟩
    · exact ⟨_, rfl⟩
  obtain ⟨m', hm'⟩ := hlast
  refine ⟨m', ?_⟩
  have he₂ : m₂.pte (.user pid) page = e := by rw [hs.pte]
  simp only [handleCowPageFault, reduceCtorEq, if_false, Bool.false_eq_true, hpe, hfr, he₂]
  refine bind_eq_ok.mpr ⟨m₃, hall, bind_eq_ok.mpr ⟨_, hcont, ?_⟩⟩
  refine bind_eq_ok.mpr ⟨m₄, hup₁, bind_eq_ok.mpr ⟨m₅, hup₂, bind_eq_ok.mpr ⟨_, hup₃, hm'⟩⟩⟩

/-! ## Contents over a `fork` -/

lemma frames_stackCopied {mapping sysPe g : ℕ} (hg : g ≠ frame % numFrames) :
    (stackCopied self child page mapping frame sysPe m).frames g = m.frames g := by
  simp only [stackCopied, frames_copyPage, pte_updated_self, frames_updated, frames_allocated]
  exact Function.update_of_ne hg _ _

/-- **`fork` leaves the contents of used frames alone**, if `get_free_frame` always finds one. -/
lemma fork_frames {r : Forked} {g : ℕ} (hrun : fork self m = .ok r)
    (hleft : r.memory.lowestFreeFrame < numFrames) (hused : m.frameToPage g ≠ none) :
    r.memory.frames g = m.frames g := by
  -- the index of the next free frame only grows, so it was in range all the time
  set P : Memory → Prop := fun c => c.frameToPage g ≠ none ∧
    (c.lowestFreeFrame < numFrames → c.frames g = m.frames g) with hP
  obtain ⟨-, -, m₁, ⟨-, hframes⟩, -, -, hmem⟩ : _ ∧ _ ∧ ∃ m₁, P m₁ ∧ _ := by
    refine fork_rule (P := P) hrun ⟨hused, fun _ => rfl⟩ ?_ (fun _ h => h) ?_ fun _ h => h
    · rintro m₁ m₂ page ⟨h₁, h₂⟩ - hstep
      rcases copyPageToOtherProcessShared_cases hstep with ⟨-, rfl⟩ | ⟨-, -, -, rfl⟩
      · exact ⟨h₁, h₂⟩
      · exact ⟨by simpa, by simpa⟩
    · rintro m₁ m₂ page ⟨h₁, h₂⟩ - hstep
      rcases copyPageToOtherProcess_cases hstep with ⟨-, rfl⟩ | ⟨-, frame, sysPe, m₃, hs, hlow, -, -, -,
        -, hfree, -, rfl⟩
      · exact ⟨h₁, h₂⟩
      refine ⟨?_, fun hlt => ?_⟩
      · simp only [stackCopied, frameToPage_copyPage, frameToPage_updated]
        exact Isolated.frameToPage_allocated_ne (by rwa [hs.frameToPage])
      · have hlt' : m₃.lowestFreeFrame < numFrames := by
          simpa [stackCopied, copyPage, setFrame] using hlt
        have hle := hs.lowestFreeFrame
        rw [hlow] at hlt' hle
        have hne : g ≠ frame % numFrames := by
          rw [Nat.mod_eq_of_lt hlt']
          rintro rfl
          exact h₁ (hfree hlt')
        rw [frames_stackCopied hne, hs.frames]
        exact h₂ (by omega)
  rw [hmem] at hleft ⊢
  simp only [frames_updated, lowestFreeFrame_updated] at hleft ⊢
  exact hframes hleft

lemma fork_pdt {r : Forked} {p t : ℕ} (hrun : fork self m = .ok r) (hp : p ≠ m.getFreePid)
    (ht : (m.process p).pdt t = true) : (r.memory.process p).pdt t = true := by
  set P : Memory → Prop := fun c => (c.process p).pdt t = true with hP
  obtain ⟨-, -, m₁, hm₁, -, -, hmem⟩ : _ ∧ _ ∧ ∃ m₁, P m₁ ∧ _ := by
    refine fork_rule (P := P) hrun ?_ ?_ (fun _ h => h) ?_ fun m₁ h => ?_
    · simpa [hP, withChild, Function.update_of_ne hp] using ht
    · intro m₁ m₂ page h _ hstep
      rcases copyPageToOtherProcessShared_cases hstep with ⟨-, rfl⟩ | ⟨-, -, -, rfl⟩
      · exact h
      · exact pdt_updated_of_true (pdt_updated_of_true h)
    · intro m₁ m₂ page h _ hstep
      rcases copyPageToOtherProcess_cases hstep with ⟨-, rfl⟩ | ⟨-, frame, sysPe, m₃, hs, -, -, -, -, -,
        -, -, rfl⟩
      · exact h
      · exact process_stackCopied.2 t (by rw [hs.process]; exact h)
    · simpa [hP, copyPdt, Function.update_of_ne hp] using h
  rw [hmem]
  change ((m₁.updated (.user self) mappingPage {}).process p).pdt t = true
  exact pdt_updated_of_true hm₁

namespace Refines

variable {W : ℕ → Prop} {a : Eager}

lemma freePid (h : Refines W a m) : a.freePid = m.getFreePid := by
  rw [Eager.freePid, getFreePid, h.live]

lemma addr_lt (hpage : addrPage addr < sharedTables * ptEntries) :
    addr < kernelVirtualBase ∧ addrPage addr < userEntries := by
  have h₁ : sharedTables * ptEntries = 785408 := by decide
  rw [addrPage] at *
  simp only [kernelVirtualBase, userEntries]
  omega

lemma translate_read (h : Writable pid m (addrPage addr)) :
    m.translate pid addr false = some (m.pte (.user pid) (addrPage addr)).frame := by
  obtain ⟨hlt, hdir, hpres, huser, -⟩ := h
  simp [translate, (addr_lt hlt).1, hdir, hpres, huser]

lemma translate_write (h : Writable pid m (addrPage addr)) :
    m.translate pid addr true = if (m.pte (.user pid) (addrPage addr)).flags.write = true then
      some (m.pte (.user pid) (addrPage addr)).frame else none := by
  obtain ⟨hlt, hdir, hpres, huser, -⟩ := h
  simp [translate, (addr_lt hlt).1, hdir, hpres, huser]

lemma load (h : Refines W a m) (hpid : pid ∈ a.family) (hW : W (addrPage addr)) :
    userLoad pid addr m = .ok (a.data pid (addrPage addr) (addr % pageSize), m) := by
  have hw := h.writable pid hpid _ hW
  rw [← h.data pid hpid _ hW]
  simp [userLoad, access, translate_read hw, bind, Except.bind]

lemma poke (h : Refines W a m) (hpid : pid ∈ a.family) (hW : W (addrPage addr))
    (hwrite : (m.pte (.user pid) (addrPage addr)).flags.write = true) :
    Refines W (a.poke pid addr b) (pokeFrame (m.pte (.user pid) (addrPage addr)).frame addr b m) := by
  have hpte : (pokeFrame (m.pte (.user pid) (addrPage addr)).frame addr b m).pte = m.pte := by
    simp [pokeFrame]
  refine ⟨h.isolated.congr hpte rfl, h.live, h.family, fun p hp i hi => ?_, fun p hp i hi => ?_⟩
  · have := h.writable p hp i hi
    rw [Writable, hpte]
    exact this
  · rw [hpte]
    have hpw := h.writable p hp i hi
    have hqw := h.writable pid hpid _ hW
    by_cases hsame : p = pid ∧ i = addrPage addr
    · obtain ⟨rfl, rfl⟩ := hsame
      simp [pokeFrame, setFrame, Eager.poke, h.data p hp _ hW]
    · -- another page has another frame, because this one is writable
      have hframe : (m.pte (.user p) i).frame ≠ (m.pte (.user pid) (addrPage addr)).frame := by
        intro heq
        have := h.isolated.not_write hpid hp hqw.lt hpw.lt
          (fun h' => hsame ⟨h'.1.symm, h'.2.symm⟩) (hqw.mapped (h.isolated.entries _ _))
          (hpw.mapped (h.isolated.entries _ _)) heq.symm
        rw [hwrite] at this
        exact Bool.false_ne_true this.symm
      have hdata : (a.poke pid addr b).data p i = a.data p i := by
        simp only [Eager.poke]
        by_cases hp' : p = pid
        · subst hp'
          rw [Function.update_self, Function.update_of_ne fun h' => hsame ⟨rfl, h'⟩]
        · rw [Function.update_of_ne hp']
      rw [hdata, ← h.data p hp i hi]
      simp [pokeFrame, setFrame, Function.update_of_ne hframe]

/-- **A copy-on-write fault changes nothing that the eager machine sees**, and makes the page
writable. -/
lemma copyOnWrite (h : Refines W a m) (hpid : pid ∈ a.family) (hW : W page)
    (hcow : (m.pte (.user pid) page).flags.cow = true)
    (hrun : handleCowPageFault (.user pid) false page m = .ok m') :
    Refines W a m' ∧ (m'.pte (.user pid) page).flags.write = true := by
  obtain ⟨hiso, pid', c, m₁, hpid', hs, hne, hc, hm'⟩ := h.isolated.copyOnWrite
    (fun q hq => ProcId.user.inj hq ▸ hpid) hcow hrun
  obtain rfl := ProcId.user.inj hpid'
  have hpres := (h.writable pid hpid page hW).2.2.1
  rw [← hs.pte] at hpres
  have hlt := (hc.frame_rc hpres).1
  -- the entries of the pages the eager machine sees
  have hpte : ∀ p ∈ a.family, ∀ i, W i → m'.pte (.user p) i =
      if p = pid ∧ i = page then c.entry (m.pte (.user pid) page) else m.pte (.user p) i := by
    intro p hp i hi
    rw [hm', pte_cowHandled hne, hs.pte]
    by_cases h₁ : p = pid ∧ i = page
    · rw [if_pos ⟨by rw [h₁.1], h₁.2⟩, if_pos h₁]
    · rw [if_neg fun h' => h₁ ⟨ProcId.user.inj h'.1, h'.2⟩, if_neg h₁, if_neg, if_neg (by simp)]
      rintro ⟨hp', rfl⟩
      -- the mapping page was not in use
      have hused := Entry.used_of_present (h.writable p hp _ hi).2.2.1
      rw [hp', ← hs.pte, hc.mappingPe_unused] at hused
      exact Bool.false_ne_true hused
  have hframes : m'.frames =
    Function.update m.frames c.frame (m.frames (m.pte (.user pid) page).frame) := by
    rw [hm', frames_cowHandled hne, hs.frames, hs.pte, Nat.mod_eq_of_lt hlt]
  refine ⟨⟨hiso, ?_, ?_, fun p hp i hi => ?_, fun p hp i hi => ?_⟩, ?_⟩
  · rw [h.live, hm', live_cowHandled, hs.live]
  · rw [hm', live_cowHandled, hs.live]
    exact h.family
  · obtain ⟨h₁, h₂, h₃, h₄, h₅⟩ := h.writable p hp i hi
    refine ⟨h₁, ?_, ?_⟩
    · rw [hm']
      exact pdt_cowHandled (by rw [hs.process]; exact h₂)
    · rw [hpte p hp i hi]
      by_cases hsame : p = pid ∧ i = page
      · obtain ⟨rfl, rfl⟩ := hsame
        rw [if_pos ⟨rfl, rfl⟩]
        exact ⟨h₃, h₄, Or.inl rfl⟩
      · rw [if_neg hsame]
        exact ⟨h₃, h₄, h₅⟩
  · rw [hpte p hp i hi, hframes]
    by_cases hsame : p = pid ∧ i = page
    · obtain ⟨rfl, rfl⟩ := hsame
      rw [if_pos ⟨rfl, rfl⟩, ← h.data p hp i hi]
      simp [CowPages.entry, Nat.mod_eq_of_lt hlt]
    · rw [if_neg hsame, Function.update_of_ne, h.data p hp i hi]
      -- the new frame was free
      intro heq
      have hw := h.writable p hp i hi
      have hback := h.isolated.backed p hp i hw.lt (hw.mapped (h.isolated.entries _ _))
      rw [heq, ← hs.frameToPage] at hback
      exact hback (hc.frame_free hlt)
  · rw [hpte pid hpid page hW, if_pos ⟨rfl, rfl⟩]
    rfl

lemma store (h : Refines W a m) (hpid : pid ∈ a.family) (hW : W (addrPage addr))
    (hrun : userStore pid addr b m = .ok m') : Refines W (a.poke pid addr b) m' := by
  have hw := h.writable pid hpid _ hW
  have haddr := addr_lt hw.1
  simp only [userStore, access, translate_write hw] at hrun
  by_cases hwrite : (m.pte (.user pid) (addrPage addr)).flags.write = true
  · rw [if_pos hwrite] at hrun
    obtain rfl := Except.ok.inj hrun
    exact h.poke hpid hW hwrite
  · rw [if_neg hwrite] at hrun
    have hcow := hw.2.2.2.2.resolve_left hwrite
    obtain ⟨⟨frame, m₁⟩, hacc, hrun⟩ := bind_eq_ok.mp hrun
    obtain ⟨⟨handled, m₂⟩, hfault, hacc⟩ := bind_eq_ok.mp hacc
    rw [pageFaultHandler_cow (h.isolated.entries _ _) haddr.1 haddr.2 hcow, map_eq_ok] at hfault
    obtain ⟨m₃, hcow', heq⟩ := hfault
    obtain ⟨rfl, rfl⟩ := Prod.mk.inj heq
    obtain ⟨href, hwrite'⟩ := h.copyOnWrite hpid hW hcow hcow'
    simp only [Bool.not_true, Bool.false_eq_true, if_false,
      translate_write (href.writable pid hpid _ hW), if_pos hwrite'] at hacc
    obtain ⟨rfl, rfl⟩ := Prod.mk.inj (Except.ok.inj hacc)
    obtain rfl := Except.ok.inj hrun
    exact href.poke hpid hW hwrite'

/-- **A fork.** -/
lemma fork {r : Forked} (h : Refines W a m) (hpid : pid ∈ a.family) (hrun : fork pid m = .ok r)
    (hleft : r.memory.lowestFreeFrame < numFrames) : Refines W (a.copy pid) r.memory := by
  have hinh := fork_inherited h.isolated.entries (h.family hpid) hrun
  have hfresh := fork_child_not_mem hrun
  have hchild : r.child = a.freePid := by rw [hinh.child, h.freePid]
  have hnot : r.child ∉ a.family := by
    rw [hinh.child]
    exact fun h' => hfresh (h.family h')
  have hshares : ∀ i, W i → i < sharedTables * ptEntries ∧ Shares pid m i := by
    intro i hi
    have hw := h.writable pid hpid i hi
    exact ⟨hw.1, hw.2.1, hw.2.2.1⟩
  -- where a page of a member comes from
  have hsource : ∀ p ∈ (a.copy pid).family, ∀ i, W i → ∃ q ∈ a.family,
      (a.copy pid).data p i = a.data q i ∧
      (∀ t, (m.process q).pdt t = true → (r.memory.process p).pdt t = true) ∧
      (r.memory.pte (.user p) i = m.pte (.user q) i ∨
        r.memory.pte (.user p) i = sharedEntry (m.pte (.user q) i)) := by
    intro p hp i hi
    obtain ⟨hlt, hs⟩ := hshares i hi
    simp only [Eager.copy, ← hchild] at hp ⊢
    rcases Finset.mem_insert.mp hp with rfl | hp
    · refine ⟨pid, hpid, by rw [Function.update_self], fun t ht => hinh.pdt t ht, Or.inr ?_⟩
      exact hinh.shared _ i (Or.inr rfl) hlt hs
    · have hne : p ≠ r.child := by
        rintro rfl
        exact hnot hp
      refine ⟨p, hp, by rw [Function.update_of_ne hne],
        fun t ht => fork_pdt hrun (hinh.child ▸ hne) ht, ?_⟩
      by_cases hp' : p = pid
      · subst hp'
        exact Or.inr (hinh.shared _ i (Or.inl rfl) hlt hs)
      · exact Or.inl (hinh.kept p i hne fun h' => hp' h'.1)
  refine ⟨?_, ?_, ?_, fun p hp i hi => ?_, fun p hp i hi => ?_⟩
  · have := h.isolated.fork_insert hpid (fun h' => hfresh (h.family h')) hrun
    rwa [← h.freePid] at this
  · rw [Eager.copy, hinh.live, h.live, hchild]
  · rw [Eager.copy, hinh.live, hchild]
    exact Finset.insert_subset_insert _ h.family
  · obtain ⟨q, hq, -, hdir, hpte⟩ := hsource p hp i hi
    obtain ⟨h₁, h₂, h₃, h₄, h₅⟩ := h.writable q hq i hi
    refine ⟨h₁, hdir _ h₂, ?_⟩
    rcases hpte with heq | heq
    · rw [heq]
      exact ⟨h₃, h₄, h₅⟩
    · rw [heq]
      refine ⟨h₃, h₄, Or.inr ?_⟩
      rcases h₅ with h₅ | h₅ <;> simp [sharedEntry, h₅]
  · obtain ⟨q, hq, hdata, -, hpte⟩ := hsource p hp i hi
    have hframe : (r.memory.pte (.user p) i).frame = (m.pte (.user q) i).frame := by
      rcases hpte with heq | heq <;> rw [heq]
      rfl
    have hw := h.writable q hq i hi
    rw [hdata, hframe, ← h.data q hq i hi]
    exact fork_frames hrun hleft
      (h.isolated.backed q hq i hw.lt (hw.mapped (h.isolated.entries _ _)))

lemma step {op : UserOp} {v : Option UInt8} (h : Refines W a m) (hlegal : a.Legal W op)
    (hrun : op.run m = .ok (v, m')) (hleft : m'.lowestFreeFrame < numFrames) :
    v = (a.step op).1 ∧ Refines W (a.step op).2 m' := by
  cases op with
  | load pid addr =>
      simp only [UserOp.run, h.load hlegal.1 hlegal.2] at hrun
      obtain ⟨rfl, rfl⟩ := Prod.mk.inj (Except.ok.inj hrun)
      exact ⟨rfl, h⟩
  | store pid addr b =>
      rw [UserOp.run] at hrun
      obtain ⟨m₁, hstore, hrun⟩ := bind_eq_ok.mp hrun
      obtain ⟨rfl, rfl⟩ := Prod.mk.inj (Except.ok.inj hrun)
      exact ⟨rfl, h.store hlegal.1 hlegal.2 hstore⟩
  | fork pid =>
      rw [UserOp.run] at hrun
      obtain ⟨r, hfork, hrun⟩ := bind_eq_ok.mp hrun
      obtain ⟨rfl, rfl⟩ := Prod.mk.inj (Except.ok.inj hrun)
      exact ⟨rfl, h.fork hlegal hfork hleft⟩

lemma run {ops : List UserOp} {vs : List UInt8} (h : Refines W a m) (hlegal : a.AllLegal W ops)
    (hrun : UserRun m ops vs m') : vs = (a.run ops).1 ∧ Refines W (a.run ops).2 m' := by
  induction hrun generalizing a with
  | nil m => exact ⟨rfl, h⟩
  | cons hstep hleft _ ih =>
      obtain ⟨rfl, hnext⟩ := h.step hlegal.1 hstep hleft
      obtain ⟨rfl, hend⟩ := ih hnext hlegal.2
      exact ⟨rfl, hend⟩

lemma store_cow (h : Refines W a m) (hpid : pid ∈ a.family) (hW : W (addrPage addr))
    (hwrite : ¬ (m.pte (.user pid) (addrPage addr)).flags.write = true)
    (hcow : (m.pte (.user pid) (addrPage addr)).flags.cow = true)
    (hm₁ : handleCowPageFault (.user pid) false (addrPage addr) m = .ok m₁) :
    ∃ frame, userStore pid addr b m = .ok (pokeFrame frame addr b m₁) := by
  have hw := h.writable pid hpid _ hW
  have haddr := addr_lt hw.1
  obtain ⟨href, hwrite'⟩ := h.copyOnWrite hpid hW hcow hm₁
  have hfault : pageFaultHandler (.user pid) addr true m = .ok (true, m₁) := by
    rw [pageFaultHandler_cow (h.isolated.entries _ _) haddr.1 haddr.2 hcow, hm₁]
    rfl
  refine ⟨_, bind_eq_ok.mpr ⟨((m₁.pte (.user pid) (addrPage addr)).frame, m₁), ?_, rfl⟩⟩
  simp only [access, translate_write hw, if_neg hwrite]
  refine bind_eq_ok.mpr ⟨(true, m₁), hfault, ?_⟩
  simp [translate_write (href.writable pid hpid _ hW), hwrite']

lemma store_ok (h : Refines W a m) (hpid : pid ∈ a.family) (hW : W (addrPage addr))
    (hsup : Supplied pid (addrPage addr) m) : ∃ m', userStore pid addr b m = .ok m' := by
  have hw := h.writable pid hpid _ hW
  by_cases hwrite : (m.pte (.user pid) (addrPage addr)).flags.write = true
  · refine ⟨_, bind_eq_ok.mpr ⟨((m.pte (.user pid) (addrPage addr)).frame, m), ?_, rfl⟩⟩
    simp [access, translate_write hw, hwrite]
  · obtain ⟨m₁, hm₁⟩ := hsup.handled (fun i => h.isolated.entries _ i) hw.lt hw.2.2.1
    obtain ⟨frame, hstore⟩ := h.store_cow hpid hW hwrite (hw.2.2.2.2.resolve_left hwrite) hm₁
    exact ⟨_, hstore⟩

end Refines

/-! ## Runs -/

lemma refines_start (hiso : Isolated {root} m₀) (hroot : root ∈ m₀.live) :
    Refines (Writable root m₀) (Eager.start root m₀) m₀ := by
  refine ⟨hiso, rfl, by simpa [Eager.start] using hroot, fun p hp i hi => ?_, fun p hp i _ => rfl⟩
  obtain rfl := Finset.mem_singleton.mp hp
  exact hi

/-- **Copy-on-write is eager copying.**  In every run of loads, stores and forks by a process and its
descendants, on pages it could write at the start, the loads return what they would return if every
fork had copied all pages.  A load never fails, and a store only if it finds no frame or page for the
copy. -/
theorem cow_refines_eager {ops : List UserOp} {vs : List UInt8} (hiso : Isolated {root} m₀)
    (hroot : root ∈ m₀.live) (hlegal : (Eager.start root m₀).AllLegal (Writable root m₀) ops)
    (hrun : UserRun m₀ ops vs m) :
    vs = ((Eager.start root m₀).run ops).1 ∧
      ∀ pid ∈ ((Eager.start root m₀).run ops).2.family, ∀ addr, Writable root m₀ (addrPage addr) →
        userLoad pid addr m = .ok (((Eager.start root m₀).run ops).2.data pid (addrPage addr)
          (addr % pageSize), m) ∧
        ∀ b, Supplied pid (addrPage addr) m → ∃ m', userStore pid addr b m = .ok m' := by
  obtain ⟨hvs, href⟩ := (refines_start hiso hroot).run hlegal hrun
  exact ⟨hvs, fun pid hpid addr hW => ⟨href.load hpid hW, fun b => href.store_ok hpid hW⟩⟩

lemma isolated_of_run (hrun : Run Separates bootMemory m) (hroot : root ∈ m.live) :
    Isolated {root} m := by
  have h := hrun.invariant (P := fun m => Isolated m.live m) isolated_bootMemory
    fun _ _ _ h hok hstep => h.step hok hstep
  exact h.mono (by simpa using hroot)

/-- The first process forks and writes to its data page: the child still reads the old byte. -/
theorem cow_refines_eager_first : ∃ m₀ m, Isolated {0} m₀ ∧
    UserRun m₀ [.fork 0, .store 0 4096 7, .load 1 4096, .load 0 4096] [0, 7] m ∧
    ((Eager.start 0 m₀).run [.fork 0, .store 0 4096 7, .load 1 4096, .load 0 4096]).1 = [0, 7] := by
  obtain ⟨m₀, r, -, m₂, hm₀, hfork, -, hfault, -, -, hcow, hwrite, hleft₁, hleft₂⟩ :=
    firstProcess_forked
  have hdec : firstProcess.map (fun m => decide (m.live = {0} ∧ Writable 0 m 1 ∧
      m.frames (m.pte (.user 0) 1).frame 0 = 0)) = .ok true := by decide +kernel
  rw [hm₀] at hdec
  obtain ⟨hlive, hW, hbyte⟩ := of_decide_eq_true (Except.ok.inj hdec)
  have hroot : 0 ∈ m₀.live := by simp [hlive]
  have hiso : Isolated {0} m₀ := isolated_of_run (firstProcess_run hm₀) hroot
  have hpid : (Eager.start 0 m₀).freePid = 1 := by
    simp only [Eager.freePid, Eager.start, hlive]
    decide
  have hlegal : (Eager.start 0 m₀).AllLegal (Writable 0 m₀)
      [.fork 0, .store 0 4096 7, .load 1 4096, .load 0 4096] := by
    have hfamily : ((Eager.start 0 m₀).copy 0).family = {1, 0} := by
      simp only [Eager.copy, hpid]
      rfl
    have h₀ : 0 ∈ ((Eager.start 0 m₀).copy 0).family := by simp [hfamily]
    have h₁ : 1 ∈ ((Eager.start 0 m₀).copy 0).family := by simp [hfamily]
    exact ⟨Finset.mem_singleton_self 0, ⟨h₀, hW⟩, ⟨h₁, hW⟩, ⟨h₀, hW⟩, trivial⟩
  have ⟨hfork', ⟨h₀, hW₀⟩, ⟨h₁, hW₁⟩, _⟩ := hlegal
  -- the fork, and the store behind the fault
  have hrun₁ : (UserOp.fork 0).run m₀ = .ok (none, r.memory) := bind_eq_ok.mpr ⟨r, hfork, rfl⟩
  have href₁ := ((refines_start hiso hroot).step hfork' hrun₁ hleft₁).2
  obtain ⟨m₃, hstore, hleft₃⟩ : ∃ m₃, userStore 0 4096 7 r.memory = .ok m₃ ∧
      m₃.lowestFreeFrame < numFrames := by
    have hclean : ¬ (r.memory.pte (.user 0) (addrPage 4096)).flags.write = true := by
      rw [show addrPage 4096 = 1 from rfl, hwrite]
      exact Bool.false_ne_true
    obtain ⟨frame, hstore⟩ := href₁.store_cow h₀ hW₀ hclean hcow hfault
    exact ⟨_, hstore, hleft₂⟩
  have hrun₂ : (UserOp.store 0 4096 7).run r.memory = .ok (none, m₃) :=
    bind_eq_ok.mpr ⟨m₃, hstore, rfl⟩
  have href₂ := (href₁.step hlegal.2.1 hrun₂ hleft₃).2
  -- what the two loads return
  have hload₁ : (UserOp.load 1 4096).run m₃ = .ok (some 0, m₃) := by
    have hdata : (((Eager.start 0 m₀).copy 0).poke 0 4096 7).data 1 1 0 = 0 := by
      simp only [Eager.poke, Eager.copy, hpid, Function.update_self, ne_eq, one_ne_zero,
        not_false_eq_true, Function.update_of_ne]
      exact hbyte
    refine bind_eq_ok.mpr ⟨_, href₂.load h₁ hW₁, ?_⟩
    exact congrArg (fun v => Except.ok (some v, m₃)) hdata
  have hload₀ : (UserOp.load 0 4096).run m₃ = .ok (some 7, m₃) := by
    refine bind_eq_ok.mpr ⟨_, href₂.load h₀ hW₀, ?_⟩
    simp [Eager.step, Eager.poke]
  have hrun : UserRun m₀ [.fork 0, .store 0 4096 7, .load 1 4096, .load 0 4096] [0, 7] m₃ :=
    .cons hrun₁ hleft₁ (.cons hrun₂ hleft₃ (.cons hload₁ hleft₃ (.cons hload₀ hleft₃ (.nil m₃))))
  exact ⟨m₀, m₃, hiso, hrun, (cow_refines_eager hiso hroot hlegal hrun).1.symm⟩

end Memory

end BrebOS
