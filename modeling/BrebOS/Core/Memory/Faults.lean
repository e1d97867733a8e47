import BrebOS.Core.Memory.Effects

/-!
# What faults, frees and `mprotect` do

The operations of `core/memory.cpp` that are built from several writes, each cut into the effects
`updated`, `allocated` and `released`, with everything the code has checked on the way.  Later
modules prove that a property survives each of these effects and never look at the code again.

**The copy-on-write handler** tests the reference count of the *new* frame at its end, where its
comment speaks of the frame of the original page.  That count is not zero, so nothing is ever freed
there: `copyOnWrite_rc` says when.
-/

namespace BrebOS.Memory

variable {m m' : Memory} {proc : ProcId} {pid page i frame f : ℕ} {e : Entry} {policy : Flags}

/-! ## Contents of frames -/

section Contents

variable {dst src : ℕ} {data : PageData}

@[simp] lemma frameRc_setFrame : (m.setFrame frame data).frameRc = m.frameRc := rfl

@[simp] lemma frameToPage_setFrame : (m.setFrame frame data).frameToPage = m.frameToPage := rfl

@[simp] lemma process_setFrame : (m.setFrame frame data).process = m.process := rfl

@[simp] lemma live_setFrame : (m.setFrame frame data).live = m.live := rfl

@[simp] lemma pte_copyPage : (copyPage proc dst src m).pte = m.pte := by simp [copyPage]

@[simp] lemma frameRc_copyPage : (copyPage proc dst src m).frameRc = m.frameRc := rfl

@[simp] lemma frameToPage_copyPage : (copyPage proc dst src m).frameToPage = m.frameToPage := rfl

@[simp] lemma process_copyPage : (copyPage proc dst src m).process = m.process := rfl

@[simp] lemma live_copyPage : (copyPage proc dst src m).live = m.live := rfl

lemma frames_copyPage : (copyPage proc dst src m).frames =
    Function.update m.frames (m.pte proc dst).frame (m.frames (m.pte proc src).frame) := rfl

end Contents

/-! ## Copy-on-write faults -/

/-- The pages a copy-on-write fault uses: the new frame, its duplicate in the kernel, and the page
the old frame is mapped at for the copy. -/
structure CowPages where
  frame : ℕ
  sysPe : ℕ
  mappingPe : ℕ

/-- The entry the handler leaves at the page. -/
def CowPages.entry (c : CowPages) (e : Entry) : Entry := ⟨c.frame % numFrames, privatePolicy e.flags⟩

/-- The state in which the handler copies the page: both frames are mapped. -/
def cowMapped (pid page : ℕ) (c : CowPages) (m : Memory) : Memory :=
  let e := m.pte (.user pid) page
  ((m.allocated c.frame c.sysPe (privatePolicy e.flags)).updated (.user pid) c.mappingPe e).updated
    (.user pid) page (c.entry e)

/-- The state after a handled copy-on-write fault. -/
def cowHandled (pid page : ℕ) (c : CowPages) (m : Memory) : Memory :=
  (copyPage (.user pid) page c.mappingPe (cowMapped pid page c m)).updated (.user pid) c.mappingPe {}

/-- What the handler has found out when it gets to its last test. -/
structure CowFault (pid page : ℕ) (c : CowPages) (m : Memory) : Prop where
  page_lt : page < userEntries
  sysPe_lt : c.sysPe < numFrames
  sysPe_unused : (m.pte .kernel c.sysPe).used = false
  frame_free : c.frame < numFrames → m.frameToPage c.frame = none
  frame_rc : (m.pte (.user pid) page).flags.present = true →
    c.frame < numFrames ∧ m.frameRc c.frame = 0
  mappingPe_lt : c.mappingPe < userEntries
  mappingPe_unused : (m.pte (.user pid) c.mappingPe).used = false
  rc_ne : ((cowMapped pid page c m).pte (.user pid) c.mappingPe).mapped = true →
    (cowMapped pid page c m).frameRc ((cowMapped pid page c m).pte (.user pid) c.mappingPe).frame ≠ 0

/-- **`handle_cow_page_fault`**, when it returns. -/
lemma handleCowPageFault_spec {higherHalf : Bool}
    (h : handleCowPageFault proc higherHalf page m = .ok m') :
    ∃ pid c m₁, proc = .user pid ∧ higherHalf = false ∧ Scanned m m₁ ∧ CowFault pid page c m₁ ∧
      (if (cowHandled pid page c m₁).frameRc c.frame = 0 then
        markFrameFree c.frame (cowHandled pid page c m₁) else .ok (cowHandled pid page c m₁)) =
          .ok m' := by
  rw [handleCowPageFault] at h
  cases proc with
  | kernel => simp at h
  | user pid =>
      cases higherHalf with
      | true => simp at h
      | false =>
          simp only [reduceCtorEq, Bool.false_eq_true, if_false] at h
          rcases hpe : m.getFreePeUser with ⟨sysPe, m₁⟩
          simp only [hpe] at h
          rcases hfr : m₁.getFreeFrame with ⟨frame, m₂⟩
          simp only [hfr] at h
          obtain ⟨hs₁, hunused⟩ := getFreePeUser_spec hpe
          obtain ⟨hs₂, hfree⟩ := getFreeFrame_spec hfr
          obtain ⟨m₃, hall, h⟩ := bind_eq_ok.mp h
          obtain ⟨hsys, hrc, rfl⟩ := allocatePage_eq_ok.mp hall
          obtain ⟨r, hcont, h⟩ := bind_eq_ok.mp h
          cases r with
          | none => simp at h
          | some mappingPe =>
              obtain ⟨hend, hmap, -, -⟩ := getContiguousPages_spec hcont
              obtain ⟨m₄, hup₁, h⟩ := bind_eq_ok.mp h
              obtain ⟨hlt₁, -, rfl⟩ := updatePte_eq_ok.mp hup₁
              obtain ⟨m₅, hup₂, h⟩ := bind_eq_ok.mp h
              obtain ⟨hlt₂, -, rfl⟩ := updatePte_eq_ok.mp hup₂
              obtain ⟨m₆, hup₃, h⟩ := bind_eq_ok.mp h
              obtain ⟨-, hne, rfl⟩ := updatePte_eq_ok.mp hup₃
              refine ⟨pid, ⟨frame, sysPe, mappingPe⟩, m₂, rfl, rfl, hs₁.trans hs₂, ⟨hlt₂, hsys, ?_,
                ?_, hrc, hlt₁, ?_, ?_⟩, h⟩
              · rw [hs₂.pte, hs₁.pte]
                exact hunused hsys
              · rw [hs₂.frameToPage]
                exact hfree
              · have := hmap mappingPe le_rfl (by omega)
                rwa [pte_allocated_user] at this
              · simp only [pte_copyPage, frameRc_copyPage] at hne
                exact hne

section Handled

variable {c : CowPages}

lemma CowFault.mappingPe_ne (h : CowFault pid page c m)
    (hused : (m.pte (.user pid) page).used = true) : c.mappingPe ≠ page := by
  rintro rfl
  rw [h.mappingPe_unused] at hused
  exact Bool.false_ne_true hused

lemma pte_cowHandled (hne : c.mappingPe ≠ page) : (cowHandled pid page c m).pte proc i =
    if proc = .user pid ∧ i = page then c.entry (m.pte (.user pid) page)
    else if proc = .user pid ∧ i = c.mappingPe then {}
    else if proc = .kernel ∧ i = c.sysPe then c.entry (m.pte (.user pid) page)
    else m.pte proc i := by
  simp only [cowHandled, cowMapped, pte_updated, pte_copyPage, pte_allocated, CowPages.entry]
  by_cases h₁ : proc = .user pid ∧ i = page
  · rw [if_neg fun h => hne (h.2.symm.trans h₁.2), if_pos h₁, if_pos h₁]
  · rw [if_neg h₁, if_neg h₁]
    split_ifs <;> rfl

lemma frames_cowHandled (hne : c.mappingPe ≠ page) :
    (cowHandled pid page c m).frames = Function.update m.frames (c.frame % numFrames)
      (m.frames (m.pte (.user pid) page).frame) := by
  have hpage : (cowMapped pid page c m).pte (.user pid) page = c.entry (m.pte (.user pid) page) := by
    simp only [cowMapped]
    rw [pte_updated_self]
  have hmap : (cowMapped pid page c m).pte (.user pid) c.mappingPe = m.pte (.user pid) page := by
    simp only [cowMapped]
    rw [pte_updated_of_ne fun _ => hne, pte_updated_self]
  rw [cowHandled, frames_updated, frames_copyPage, hpage, hmap]
  simp [cowMapped, CowPages.entry]

lemma frameRc_cowHandled (hne : c.mappingPe ≠ page) : (cowHandled pid page c m).frameRc f =
    (m.allocated c.frame c.sysPe (privatePolicy (m.pte (.user pid) page).flags)).frameRc f -
      (if (m.pte (.user pid) c.mappingPe).frame = f then 1 else 0) +
      (m.pte (.user pid) page).refs f - (if (m.pte (.user pid) page).frame = f then 1 else 0) +
      (c.entry (m.pte (.user pid) page)).refs f -
      (if (m.pte (.user pid) page).frame = f then 1 else 0) := by
  have hpage : (((m.allocated c.frame c.sysPe (privatePolicy (m.pte (.user pid) page).flags)).updated
      (.user pid) c.mappingPe (m.pte (.user pid) page)).pte (.user pid) page) =
        m.pte (.user pid) page := by
    rw [pte_updated_of_ne fun _ => hne.symm, pte_allocated_user]
  have hmap : (cowMapped pid page c m).pte (.user pid) c.mappingPe = m.pte (.user pid) page := by
    simp only [cowMapped]
    rw [pte_updated_of_ne fun _ => hne, pte_updated_self]
  rw [cowHandled, frameRc_updated, pte_copyPage, hmap, frameRc_copyPage, Entry.refs_default,
    Nat.add_zero, cowMapped, frameRc_updated, hpage, frameRc_updated, pte_allocated_user]

lemma frameRc_cowHandled_frame (h : CowFault pid page c m)
    (hmapped : (m.pte (.user pid) page).mapped = true)
    (hfree : (m.pte (.user pid) page).frame = c.frame →
      (m.pte (.user pid) c.mappingPe).frame ≠ c.frame) :
    (cowHandled pid page c m).frameRc c.frame ≠ 0 := by
  have hne := h.mappingPe_ne (Entry.used_of_mapped hmapped)
  have hp : (m.pte (.user pid) page).flags.present = true := by
    simp only [Entry.mapped, Bool.and_eq_true] at hmapped
    exact hmapped.1
  have hl : (m.pte (.user pid) page).flags.lazyZero = false := by
    simpa [Entry.mapped, hp] using hmapped
  have hentry : (c.entry (m.pte (.user pid) page)).refs c.frame = 1 := by
    have := Nat.mod_eq_of_lt (h.frame_rc hp).1
    simp [CowPages.entry, Entry.refs, Entry.mapped, privatePolicy, hp, hl, this]
  rw [frameRc_cowHandled hne, hentry]
  by_cases heq : (m.pte (.user pid) page).frame = c.frame
  · have hrefs : (m.pte (.user pid) page).refs c.frame = 1 := by simp [Entry.refs, hmapped, heq]
    rw [if_pos heq, if_neg (hfree heq), hrefs, frameRc_allocated, if_pos ⟨hp, rfl⟩]
    omega
  · rw [if_neg heq]
    omega

@[simp] lemma frameToPage_cowHandled : (cowHandled pid page c m).frameToPage f =
    if (m.pte (.user pid) page).flags.present = true ∧ f = c.frame then some c.sysPe
    else m.frameToPage f := by
  simp [cowHandled, cowMapped, frameToPage_allocated, privatePolicy]

@[simp] lemma live_cowHandled : (cowHandled pid page c m).live = m.live := by
  simp [cowHandled, cowMapped]

end Handled

lemma markFrameFree_eq_ok (hrc : m.frameRc frame = 0) (h : markFrameFree frame m = .ok m') :
    m'.pte = m.pte ∧ m'.live = m.live ∧ m'.frameRc = m.frameRc ∧
      ∀ g, m'.frameToPage g = if g = frame then none else m.frameToPage g := by
  rw [markFrameFree, if_neg (by omega), Except.ok.injEq] at h
  subst h
  refine ⟨by funext p; cases p <;> rfl, rfl, ?_, fun g => ?_⟩
  · change Function.update m.frameRc frame 0 = m.frameRc
    rw [← hrc, Function.update_eq_self]
  · change Function.update m.frameToPage frame none g = _
    rw [Function.update_apply]

lemma handleCowPageFault_live {higherHalf : Bool}
    (h : handleCowPageFault proc higherHalf page m = .ok m') : m'.live = m.live := by
  obtain ⟨pid, c, m₁, rfl, -, hs, -, hlast⟩ := handleCowPageFault_spec h
  have hhandled : (cowHandled pid page c m₁).live = m.live := by rw [live_cowHandled, hs.live]
  split_ifs at hlast with hrc
  · exact (markFrameFree_eq_ok hrc hlast).2.1.trans hhandled
  · exact Except.ok.inj hlast ▸ hhandled

/-! ## Lazy faults -/

/-- The entry a lazily allocated page gets. -/
def zeroEntry (frame : ℕ) (user : Bool) : Entry :=
  ⟨frame % numFrames, { user, write := true, present := true }⟩

/-- **What a lazy fault does**: a free frame, mapped by the page and by an entry of the kernel,
which is the page itself when it belongs to the kernel.  The count is 2 whenever the process is not
the kernel, even when the page is the kernel's and mapped once. -/
structure LazyFilled (proc : ProcId) (higherHalf : Bool) (page frame sysPe : ℕ) (m m' : Memory) :
    Prop where
  frame_lt : frame < numFrames
  frame_free : m.frameToPage frame = none
  frame_rc : m.frameRc frame = 0
  sysPe_lt : sysPe < numFrames
  sysPe_unused : (faultTable proc higherHalf = .kernel ∧ sysPe = page) ∨
    ((∃ pid, faultTable proc higherHalf = .user pid) ∧ (m.pte .kernel sysPe).used = false)
  pte : ∀ p i, m'.pte p i =
    if (p = faultTable proc higherHalf ∧ i = page) ∨ (p = .kernel ∧ i = sysPe) then
      zeroEntry frame (m.pte (faultTable proc higherHalf) page).flags.user else m.pte p i
  frameToPage : ∀ g, m'.frameToPage g = if g = frame then some sysPe else m.frameToPage g
  frameRc : ∀ g, m'.frameRc g =
    if g = frame then (if proc = .kernel then 1 else 2) else m.frameRc g
  live : m'.live = m.live

lemma markFrameUsed_eq_ok : markFrameUsed frame page m = .ok m' ↔
    frame < numFrames ∧ m.frameRc frame = 0 ∧
      m' = (m.setPageOf frame (some page)).setRc frame 1 := by
  rw [markFrameUsed]
  split_ifs with h₁ h₂
  · simp only [false_iff, not_and]
    omega
  · simp only [false_iff, not_and]
    exact fun _ h => absurd h h₂
  · rw [not_ne_iff] at h₂
    rw [h₂, Except.ok.injEq]
    exact ⟨fun h => ⟨by omega, rfl, h.symm⟩, fun h => h.2.2.symm⟩

lemma LazyFilled.of_marked {higherHalf : Bool} {sysPe : ℕ} {m₁ : Memory}
    (hlt : frame < numFrames) (hfree : m.frameToPage frame = none) (hrc : m.frameRc frame = 0)
    (hsys : sysPe < numFrames)
    (hunused : (faultTable proc higherHalf = .kernel ∧ sysPe = page) ∨
      ((∃ pid, faultTable proc higherHalf = .user pid) ∧ (m.pte .kernel sysPe).used = false))
    (hpte : ∀ p i, m₁.pte p i =
      if (p = faultTable proc higherHalf ∧ i = page) ∨ (p = .kernel ∧ i = sysPe) then
        zeroEntry frame (m.pte (faultTable proc higherHalf) page).flags.user else m.pte p i)
    (hpages : m₁.frameToPage = m.frameToPage) (hrcs : m₁.frameRc = m.frameRc)
    (hlive : m₁.live = m.live) :
    LazyFilled proc higherHalf page frame sysPe m
      (if proc = .kernel then (m₁.setPageOf frame (some sysPe)).setRc frame 1
        else ((m₁.setPageOf frame (some sysPe)).setRc frame 1).setRc frame
          (((m₁.setPageOf frame (some sysPe)).setRc frame 1).frameRc frame + 1)) := by
  by_cases hproc : proc = .kernel
  · rw [if_pos hproc]
    refine ⟨hlt, hfree, hrc, hsys, hunused, ?_, ?_, ?_, hlive⟩
    · simpa using hpte
    · intro g
      simp [setRc, setPageOf, Function.update_apply, hpages]
    · intro g
      simp [setRc, setPageOf, Function.update_apply, hrcs, hproc]
  · rw [if_neg hproc]
    refine ⟨hlt, hfree, hrc, hsys, hunused, ?_, ?_, ?_, hlive⟩
    · simpa using hpte
    · intro g
      simp [setRc, setPageOf, Function.update_apply, hpages]
    · intro g
      by_cases hg : g = frame <;> simp [setRc, setPageOf, hrcs, hproc, hg]

/-- **`handle_lazy_zero_page_fault`**, when it returns. -/
lemma handleLazyZeroPageFault_spec {higherHalf : Bool} (hpage : page < numFrames)
    (h : handleLazyZeroPageFault proc higherHalf page m = .ok m') :
    ∃ sysPe, LazyFilled proc higherHalf page m.getFreeFrame.1 sysPe m m' := by
  rw [handleLazyZeroPageFault] at h
  rcases hfr : m.getFreeFrame with ⟨frame, m₁⟩
  obtain ⟨hs, hfree⟩ := getFreeFrame_spec hfr
  simp only [hfr] at h
  by_cases hk : proc = .kernel ∨ higherHalf = true
  · -- the page is the kernel's: it is its own duplicate
    have htab : faultTable proc higherHalf = .kernel := by
      rw [faultTable]
      rcases hk with rfl | rfl <;> simp
    rw [if_pos hk] at h
    obtain ⟨m₂, hmark, h⟩ := bind_eq_ok.mp h
    obtain ⟨hlt, hrc, rfl⟩ := markFrameUsed_eq_ok.mp hmark
    simp only [frameRc_setFrame, frameRc_setPte, hs.frameRc] at hrc
    rw [Except.ok.injEq] at h
    subst h
    refine ⟨page, .of_marked hlt (hfree hlt) hrc hpage (Or.inl ⟨htab, rfl⟩) ?_ ?_ ?_ ?_⟩
    · intro p i
      simp only [pte_setFrame, pte_setPte, hs.pte, htab, or_self, zeroEntry]
    · simp [hs.frameToPage]
    · simp [hs.frameRc]
    · simp [hs.live]
  · have htab : faultTable proc higherHalf = proc := by
      rw [faultTable, if_neg fun h' => hk (Or.inr h')]
    have huser : ∃ pid, faultTable proc higherHalf = .user pid := by
      cases proc with
      | kernel => exact absurd (Or.inl rfl) hk
      | user pid => exact ⟨pid, htab⟩
    rw [if_neg hk] at h
    set m₂ := ((m₁.setPte (faultTable proc higherHalf) page ⟨frame % numFrames,
      { user := (m₁.pte (faultTable proc higherHalf) page).flags.user, write := true,
        present := true }⟩).setFrame (frame % numFrames) fun _ => 0) with hm₂
    rcases hpe : m₂.getFreePe with ⟨sysPe, m₃⟩
    obtain ⟨hs', hunused⟩ := getFreePe_spec hpe
    simp only [hpe] at h
    by_cases hsys : numFrames ≤ sysPe
    · simp [hsys, bind, Except.bind] at h
    rw [if_neg hsys] at h
    obtain ⟨m₄, hmark, h⟩ := bind_eq_ok.mp h
    obtain ⟨hlt, hrc, rfl⟩ := markFrameUsed_eq_ok.mp hmark
    simp only [frameRc_setPte, hs'.frameRc, hm₂, frameRc_setFrame, hs.frameRc] at hrc
    rw [Except.ok.injEq] at h
    subst h
    have hkernel : (m.pte .kernel sysPe).used = false := by
      have := hunused (by omega)
      rw [hm₂, pte_setFrame, pte_setPte, if_neg, hs.pte] at this
      · exact this
      · obtain ⟨pid, hpid⟩ := huser
        simp [hpid]
    refine ⟨sysPe, .of_marked hlt (hfree hlt) hrc (by omega) (Or.inr ⟨huser, hkernel⟩)
      ?_ ?_ ?_ ?_⟩
    · intro p i
      rw [pte_setPte, hs'.pte, hm₂, pte_setFrame, pte_setPte, hs.pte, zeroEntry]
      by_cases h₁ : p = .kernel ∧ i = sysPe
      · rw [if_pos h₁, if_pos (Or.inr h₁)]
      · rw [if_neg h₁]
        exact if_congr (by simp [h₁]) rfl rfl
    · simp [hs'.frameToPage, hm₂, hs.frameToPage]
    · simp [hs'.frameRc, hm₂, hs.frameRc]
    · simp [hs'.live, hm₂, hs.live]

/-- **`page_fault_handler`**: a page that is not both copy-on-write and lazy is left alone or goes
to one of the two handlers. -/
lemma pageFaultHandler_cases {address : ℕ} {writeAccess handled : Bool} {higherHalf : Bool}
    (hhigh : higherHalf = decide (kernelVirtualBase ≤ address))
    (hboth : ¬ ((m.pte (faultTable proc higherHalf) (addrPage address)).flags.cow = true ∧
      (m.pte (faultTable proc higherHalf) (addrPage address)).flags.lazyZero = true))
    (h : pageFaultHandler proc address writeAccess m = .ok (handled, m')) :
    addrPage address < (faultTable proc higherHalf).entries ∧
      (m' = m ∨
        ((m.pte (faultTable proc higherHalf) (addrPage address)).flags.cow = true ∧
          handleCowPageFault proc higherHalf (addrPage address) m = .ok m') ∨
        ((m.pte (faultTable proc higherHalf) (addrPage address)).flags.lazyZero = true ∧
          handleLazyZeroPageFault proc higherHalf (addrPage address) m = .ok m')) := by
  subst hhigh
  rw [pageFaultHandler] at h
  simp only at h
  set table := faultTable proc (decide (kernelVirtualBase ≤ address))
  by_cases hpage : table.entries ≤ addrPage address
  · simp [hpage] at h
  rw [if_neg hpage] at h
  refine ⟨by omega, ?_⟩
  by_cases hcow : (m.pte table (addrPage address)).flags.cow = true
  · have hlazy : (m.pte table (addrPage address)).flags.lazyZero = false := by
      simpa [hcow] using hboth
    rw [if_pos hcow] at h
    by_cases hw : writeAccess = true
    · subst hw
      simp only [Bool.not_true, Bool.false_eq_true, if_false, hlazy, Bool.not_false, if_true] at h
      obtain ⟨m₁, hcow', h⟩ := bind_eq_ok.mp h
      obtain ⟨r, hr, h⟩ := bind_eq_ok.mp h
      obtain rfl := Except.ok.inj hr
      simp only [Except.ok.injEq, Prod.mk.injEq] at h
      obtain ⟨-, rfl⟩ := h
      exact Or.inr (Or.inl ⟨hcow, hcow'⟩)
    · simp [hw, bind, Except.bind] at h
  · rw [if_neg hcow] at h
    obtain ⟨r, hr, h⟩ := bind_eq_ok.mp h
    obtain rfl := Except.ok.inj hr
    by_cases hlazy : (m.pte table (addrPage address)).flags.lazyZero = true
    · simp only [hlazy, Bool.not_true, Bool.false_eq_true, if_false] at h
      obtain ⟨m₁, hl, h⟩ := bind_eq_ok.mp h
      simp only [Except.ok.injEq, Prod.mk.injEq] at h
      obtain ⟨-, rfl⟩ := h
      exact Or.inr (Or.inr ⟨hlazy, hl⟩)
    · simp only [hlazy, Bool.not_false, if_true, Except.ok.injEq, Prod.mk.injEq] at h
      exact Or.inl h.2.symm

/-! ## `mprotect` -/

/-- The entry with another value of `PAGE_WRITE`. -/
def withWrite (write : Bool) (e : Entry) : Entry := { e with flags := { e.flags with write } }

lemma mprotectCheck_used {addr : ℕ} : ∀ {ids : List ℕ}, mprotectCheck proc addr m ids = .ok true →
    ∀ id ∈ ids, (m.pte proc (mprotectPage addr id)).used = true
  | [], _ => by simp
  | id :: ids, h => by
      simp only [mprotectCheck] at h
      split_ifs at h with h₁ h₂ h₃
      · simp at h
      · intro id' hid'
        rcases List.mem_cons.mp hid' with rfl | hid'
        · rw [Bool.not_eq_true, Bool.not_eq_false'] at h₂
          exact h₂
        · exact mprotectCheck_used h id' hid'

/-- The pages of a call of `mprotect`. -/
def mprotectPages (addr len : ℕ) : List ℕ :=
  (List.range (addrPage (u32 (len + pageSize - 1)))).map (mprotectPage addr)

/-- A call of `mprotect` that gets past its checks. -/
def mprotectApplies (addr len : ℕ) (prot : Prot) (proc : ProcId) (m : Memory) : Prop :=
  addr % pageSize = 0 ∧ prot.other = false ∧
    mprotectCheck proc addr m (List.range (addrPage (u32 (len + pageSize - 1)))) = .ok true

lemma mprotect_cases {addr len : ℕ} {prot : Prot} {r : MprotectResult}
    (h : mprotect addr len prot proc m = .ok (r, m')) :
    m' = m ∨ (mprotectApplies addr len prot proc m ∧
      (List.range (addrPage (u32 (len + pageSize - 1)))).foldlM (mprotectApply proc addr prot.write) m =
        .ok m') := by
  rw [mprotect] at h
  split_ifs at h with h₁ h₂
  · simp only [Except.ok.injEq, Prod.mk.injEq] at h
    exact Or.inl h.2.symm
  · simp only [Except.ok.injEq, Prod.mk.injEq] at h
    exact Or.inl h.2.symm
  · obtain ⟨b, hcheck, h⟩ := bind_eq_ok.mp h
    split_ifs at h with h₃
    · simp only [Except.ok.injEq, Prod.mk.injEq] at h
      exact Or.inl h.2.symm
    · obtain ⟨m₁, hfold, h⟩ := bind_eq_ok.mp h
      simp only [Except.ok.injEq, Prod.mk.injEq] at h
      obtain ⟨-, rfl⟩ := h
      rw [Bool.not_eq_true, Bool.not_eq_false'] at h₃
      rw [h₃] at hcheck
      exact Or.inr ⟨⟨not_not.mp h₁, by simpa using h₂, hcheck⟩, hfold⟩

lemma mprotect_rule {P : Memory → Prop} {addr len : ℕ} {prot : Prot} {r : MprotectResult}
    (h : mprotect addr len prot proc m = .ok (r, m')) (hstart : P m)
    (hstep : ∀ m₁, ∀ page ∈ mprotectPages addr len, P m₁ → page < proc.entries →
      (m₁.pte proc page).used = true →
      ((m₁.pte proc page).mapped = true → m₁.frameRc (m₁.pte proc page).frame ≠ 0) →
      P (m₁.updated proc page (withWrite prot.write (m₁.pte proc page)))) : P m' := by
  rcases mprotect_cases h with rfl | ⟨⟨-, -, hcheck⟩, hfold⟩
  · exact hstart
  -- the pages stay in use while the loop runs
  refine (foldlM_invariant (fun c => P c ∧ ∀ page ∈ mprotectPages addr len,
    (c.pte proc page).used = true) hfold ⟨hstart, ?_⟩ ?_).1
  · intro page hpage
    obtain ⟨id, hid, rfl⟩ := List.mem_map.mp hpage
    exact mprotectCheck_used hcheck id hid
  · rintro id hid c c' ⟨hc, hused⟩ hrun
    have hmem : mprotectPage addr id ∈ mprotectPages addr len := List.mem_map_of_mem hid
    rw [mprotectApply] at hrun
    obtain ⟨hlt, hrc, rfl⟩ := updatePte_eq_ok.mp hrun
    refine ⟨hstep c _ hmem hc hlt (hused _ hmem) hrc, fun page hpage => ?_⟩
    rw [pte_updated]
    split_ifs
    exacts [hused _ hmem, hused page hpage]

/-! ## Freeing a page -/

/-- **`free_page` for a process**: the entry is cleared, and the duplicate released if the frame has
no reference left. -/
lemma freePageOf_user_cases {address : ℕ} (h : freePageOf (.user pid) address m = .ok m') :
    ∃ e, e = m.pte (.user pid) (addrPage address) ∧ addrPage address < userEntries ∧
      (e.mapped = true → m.frameRc e.frame ≠ 0) ∧
      ((m' = m.updated (.user pid) (addrPage address) {} ∧
          (e.flags.lazyZero = true ∨ 1 < m.frameRc e.frame)) ∨
        (e.flags.lazyZero = false ∧ m.frameRc e.frame ≤ 1 ∧
          ∃ p, m.frameToPage e.frame = some p ∧
            freePage p (m.updated (.user pid) (addrPage address) {}) = .ok m')) := by
  refine ⟨_, rfl, ?_⟩
  rw [freePageOf] at h
  by_cases hpage : ProcId.entries (.user pid) ≤ addrPage address
  · simp [hpage] at h
  simp only [if_neg hpage] at h
  have hrc : (m.updated (.user pid) (addrPage address) {}).frameRc
      (m.pte (.user pid) (addrPage address)).frame =
        m.frameRc (m.pte (.user pid) (addrPage address)).frame - 1 := by
    rw [frameRc_updated, if_pos rfl, Entry.refs_default, Nat.add_zero]
  by_cases hl : (m.pte (.user pid) (addrPage address)).flags.lazyZero = true
  · rw [if_pos hl] at h
    obtain ⟨hlt, hmap, rfl⟩ := updatePte_eq_ok.mp h
    exact ⟨hlt, hmap, Or.inl ⟨rfl, Or.inl hl⟩⟩
  · rw [if_neg hl] at h
    obtain ⟨m₁, hup, h⟩ := bind_eq_ok.mp h
    obtain ⟨hlt, hmap, rfl⟩ := updatePte_eq_ok.mp hup
    rw [hrc] at h
    refine ⟨hlt, hmap, ?_⟩
    by_cases hge : m.frameRc (m.pte (.user pid) (addrPage address)).frame - 1 ≥ 1
    · rw [if_pos hge, Except.ok.injEq] at h
      exact Or.inl ⟨h.symm, Or.inr (by omega)⟩
    · rw [if_neg hge] at h
      cases hp : m.frameToPage (m.pte (.user pid) (addrPage address)).frame with
      | none => simp [hp] at h
      | some p =>
          rw [hp] at h
          exact Or.inr ⟨by simpa using hl, by omega, p, rfl, h⟩

lemma freePageOf_kernel_cases {address : ℕ} (h : freePageOf .kernel address m = .ok m') :
    ∃ e, e = m.pte .kernel (addrPage address) ∧ addrPage address < numFrames ∧
      ((m' = m.setRc e.frame (u32Sub (m.frameRc e.frame) 1) ∧ u32Sub (m.frameRc e.frame) 1 ≠ 0) ∨
        (u32Sub (m.frameRc e.frame) 1 = 0 ∧
          freePage (addrPage address) (m.setRc e.frame 0) = .ok m')) := by
  refine ⟨_, rfl, ?_⟩
  rw [freePageOf] at h
  by_cases hpage : ProcId.entries .kernel ≤ addrPage address
  · simp [hpage] at h
  simp only [if_neg hpage, frameRc_setRc, Function.update_self] at h
  refine ⟨by simpa [ProcId.entries] using hpage, ?_⟩
  by_cases hge : u32Sub (m.frameRc (m.pte .kernel (addrPage address)).frame) 1 ≥ 1
  · rw [if_pos hge, Except.ok.injEq] at h
    exact Or.inl ⟨h.symm, by omega⟩
  · rw [if_neg hge] at h
    have hzero : u32Sub (m.frameRc (m.pte .kernel (addrPage address)).frame) 1 = 0 := by omega
    rw [hzero] at h
    exact Or.inr ⟨hzero, h⟩

end BrebOS.Memory
