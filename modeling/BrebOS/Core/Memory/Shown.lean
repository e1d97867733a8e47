import BrebOS.Core.Memory.Mprotect
import BrebOS.Core.Memory.ZeroOut

/-!
# What an address shows

A read returns the byte of the frame that its page is mapped to; the first access to a page that is
lazily allocated maps it to a frame of zeros before.  So every address of a page in use *shows* a
byte, whether or not there is a frame yet: `shown`.

Reads do not change what the addresses show, and neither do the faults on the way; a write changes
what it is meant to change.  This needs that no two pages of the address space have a frame in
common (`Own`).
-/

namespace BrebOS.Memory

variable {m m' m₁ : Memory} {proc : ProcId} {pid page frame i address n x : ℕ} {write : Bool}
  {policy : Flags} {v : UInt8}

/-- The byte that a read of the address gives. -/
def shown (proc : ProcId) (m : Memory) (x : ℕ) : UInt8 :=
  if (m.pte proc (addrPage x)).flags.present then
    m.frames (m.pte proc (addrPage x)).frame (x % pageSize)
  else 0

/-- An address space in order: a lazily allocated page is neither present nor copy-on-write, and the
pages that are present have frames of their own. -/
structure Own (proc : ProcId) (m : Memory) : Prop where
  lazy : ∀ i < proc.entries, (m.pte proc i).flags.lazyZero = true →
    (m.pte proc i).flags.present = false ∧ (m.pte proc i).flags.cow = false
  taken : ∀ i < proc.entries, (m.pte proc i).flags.present = true →
    m.frameToPage (m.pte proc i).frame ≠ none
  apart : ∀ i < proc.entries, ∀ j < proc.entries, (m.pte proc i).flags.present = true →
    (m.pte proc j).flags.present = true → (m.pte proc i).frame = (m.pte proc j).frame → i = j

/-! ## Pages that get a frame -/

/-- At most the page has changed; if it is present, it has got a frame that was free. -/
structure Refilled (proc : ProcId) (page : ℕ) (m m' : Memory) : Prop where
  lazy : (m'.pte proc page).flags.lazyZero = true →
    (m'.pte proc page).flags.present = false ∧ (m'.pte proc page).flags.cow = false
  fresh : (m'.pte proc page).flags.present = true →
    m.frameToPage (m'.pte proc page).frame = none ∧
      m'.frameToPage (m'.pte proc page).frame ≠ none
  other : ∀ i, i ≠ page → m'.pte proc i = m.pte proc i ∨
    (m.pte proc i).used = false ∧ (m'.pte proc i).used = false
  taken : ∀ g, m.frameToPage g ≠ none → m'.frameToPage g ≠ none ∧ m'.frames g = m.frames g

namespace Refilled

lemma of_used (h : Refilled proc page m m') (hi : i ≠ page) (hused : (m'.pte proc i).used = true) :
    m'.pte proc i = m.pte proc i := by
  rcases h.other i hi with heq | ⟨-, hun⟩
  · exact heq
  · rw [hun] at hused
    exact Bool.noConfusion hused

lemma own (h : Refilled proc page m m') (hown : Own proc m) : Own proc m' := by
  refine ⟨fun i hi hlazy => ?_, fun i hi hpresent => ?_, ?_⟩
  · by_cases hpage : i = page
    · subst hpage
      exact h.lazy hlazy
    · have heq := h.of_used hpage (by simp [Entry.used, hlazy])
      rw [heq] at hlazy ⊢
      exact hown.lazy i hi hlazy
  · by_cases hpage : i = page
    · subst hpage
      exact (h.fresh hpresent).2
    · have heq := h.of_used hpage (by simp [Entry.used, hpresent])
      rw [heq] at hpresent ⊢
      exact (h.taken _ (hown.taken i hi hpresent)).1
  · -- the new frame is no other page's
    have hnew : ∀ j < proc.entries, j ≠ page → (m'.pte proc page).flags.present = true →
        (m'.pte proc j).flags.present = true →
          (m'.pte proc page).frame ≠ (m'.pte proc j).frame := by
      intro j hj hne hpage hpresent hframe
      have heq := h.of_used hne (by simp [Entry.used, hpresent])
      rw [heq] at hpresent hframe
      exact hown.taken j hj hpresent (hframe ▸ (h.fresh hpage).1)
    intro i hi j hj hpi hpj hframe
    by_cases hip : i = page
    · by_contra hne
      subst hip
      exact hnew j hj (Ne.symm hne) hpi hpj hframe
    · by_cases hjp : j = page
      · subst hjp
        exact absurd hframe.symm (hnew i hi hip hpj hpi)
      · have heqi := h.of_used hip (by simp [Entry.used, hpi])
        have heqj := h.of_used hjp (by simp [Entry.used, hpj])
        rw [heqi] at hpi hframe
        rw [heqj] at hpj hframe
        exact hown.apart i hi j hj hpi hpj hframe

lemma shown (h : Refilled proc page m m') (hown : Own proc m) (huse : InUse m proc (addrPage x))
    (hx : addrPage x ≠ page) : m'.shown proc x = m.shown proc x := by
  obtain ⟨hlt, hused⟩ := huse
  have heq : m'.pte proc (addrPage x) = m.pte proc (addrPage x) := by
    rcases h.other _ hx with heq | ⟨hun, -⟩
    · exact heq
    · rw [hun] at hused
      exact Bool.noConfusion hused
  rw [Memory.shown, Memory.shown, heq]
  split_ifs with hpresent
  · rw [(h.taken _ (hown.taken _ hlt hpresent)).2]
  · rfl

end Refilled

/-! ## Faults -/

lemma cowHandled_refilled {c : CowPages} (h : CowFault pid page c m)
    (hpresent : (m.pte (.user pid) page).flags.present = true)
    (hlazy : (m.pte (.user pid) page).flags.lazyZero = false) :
    Refilled (.user pid) page m (cowHandled pid page c m) := by
  have hne := h.mappingPe_ne (by simp [Entry.used, hpresent])
  have hframe : c.frame % numFrames = c.frame := Nat.mod_eq_of_lt (h.frame_rc hpresent).1
  have hfree := h.frame_free (h.frame_rc hpresent).1
  refine ⟨fun hl => ?_, fun _ => ?_, fun i hi => ?_, fun g hg => ?_⟩
  · simp [pte_cowHandled hne, CowPages.entry, privatePolicy, hlazy] at hl
  · simp only [pte_cowHandled hne, and_self, if_true, CowPages.entry, hframe,
      frameToPage_cowHandled, hpresent]
    exact ⟨hfree, by simp⟩
  · rw [pte_cowHandled hne, if_neg fun h => hi h.2]
    by_cases hm : i = c.mappingPe
    · subst hm
      exact Or.inr ⟨h.mappingPe_unused, by simp⟩
    · exact Or.inl (by simp [hm])
  · have hgc : g ≠ c.frame := by
      rintro rfl
      exact hg hfree
    rw [frameToPage_cowHandled, if_neg fun h => hgc h.2, frames_cowHandled hne, hframe,
      Function.update_of_ne hgc]
    exact ⟨hg, rfl⟩

lemma handleLazyZeroPageFault_frames {higherHalf : Bool}
    (h : handleLazyZeroPageFault proc higherHalf page m = .ok m') :
    m'.frames = Function.update m.frames (m.getFreeFrame.1 % numFrames) fun _ => 0 := by
  rw [handleLazyZeroPageFault] at h
  rcases hfr : m.getFreeFrame with ⟨frame, m₁⟩
  have hs := (getFreeFrame_spec hfr).1
  simp only [hfr] at h
  set m₂ := (m₁.setPte (faultTable proc higherHalf) page ⟨frame % numFrames,
    { user := (m₁.pte (faultTable proc higherHalf) page).flags.user, write := true,
      present := true }⟩).setFrame (frame % numFrames) fun _ => 0 with hm₂
  have hframes : m₂.frames = Function.update m.frames (frame % numFrames) fun _ => 0 := by
    simp [hm₂, setFrame, hs.frames]
  by_cases hk : proc = .kernel ∨ higherHalf = true
  · rw [if_pos hk] at h
    obtain ⟨m₃, hmark, h⟩ := bind_eq_ok.mp h
    obtain ⟨-, -, rfl⟩ := markFrameUsed_eq_ok.mp hmark
    rw [Except.ok.injEq] at h
    subst h
    split_ifs <;> exact hframes
  · rw [if_neg hk] at h
    rcases hpe : m₂.getFreePe with ⟨sysPe, m₃⟩
    have hs' := (getFreePe_spec hpe).1
    simp only [hpe] at h
    by_cases hsys : numFrames ≤ sysPe
    · simp [hsys, bind, Except.bind] at h
    rw [if_neg hsys] at h
    obtain ⟨m₄, hmark, h⟩ := bind_eq_ok.mp h
    obtain ⟨-, -, rfl⟩ := markFrameUsed_eq_ok.mp hmark
    rw [Except.ok.injEq] at h
    subst h
    split_ifs <;> simp [setRc, setPageOf, hs'.frames, hframes]

lemma lazyFilled_refilled {higherHalf : Bool} {sysPe : ℕ}
    (htable : faultTable proc higherHalf = proc)
    (h : LazyFilled proc higherHalf page frame sysPe m m')
    (hframes : m'.frames = Function.update m.frames (frame % numFrames) fun _ => 0) :
    Refilled proc page m m' := by
  have hframe : frame % numFrames = frame := Nat.mod_eq_of_lt h.frame_lt
  have hpte := h.pte
  rw [htable] at hpte
  refine ⟨fun hl => ?_, fun _ => ?_, fun i hi => Or.inl ?_, fun g hg => ?_⟩
  · simp [hpte, zeroEntry] at hl
  · simp only [hpte, and_self, true_or, if_true, zeroEntry, hframe, h.frameToPage]
    exact ⟨h.frame_free, by simp⟩
  · rw [hpte, if_neg]
    rintro (⟨-, rfl⟩ | ⟨rfl, rfl⟩)
    · exact hi rfl
    · rcases h.sysPe_unused with ⟨-, hsame⟩ | ⟨⟨pid, huser⟩, -⟩
      · exact hi hsame
      · simp [htable] at huser
  · have hgf : g ≠ frame := by
      rintro rfl
      exact hg h.frame_free
    rw [h.frameToPage, if_neg hgf, hframes, hframe, Function.update_of_ne hgf]
    exact ⟨hg, rfl⟩

lemma faultTable_eq (hpage : page < proc.entries) :
    faultTable proc (decide (kernelVirtualBase ≤ page * pageSize)) = proc := by
  cases proc with
  | kernel =>
      rw [faultTable]
      split_ifs <;> rfl
  | user pid =>
      have hlow : ¬ kernelVirtualBase ≤ page * pageSize := by
        simp only [ProcId.entries, userEntries, kernelVirtualBase, pageSize] at *
        omega
      simp [faultTable, hlow]

/-- What an access of a page leaves: the pages in use are the same, and show the same. -/
structure Accessed (proc : ProcId) (page : ℕ) (m m' : Memory) : Prop where
  own : Own proc m'
  other : ∀ i, i ≠ page → (m.pte proc i).used = true → m'.pte proc i = m.pte proc i
  inUse : ∀ i, InUse m proc i → InUse m' proc i
  shown : ∀ x, InUse m proc (addrPage x) → m'.shown proc x = m.shown proc x

lemma Accessed.refl (hown : Own proc m) : Accessed proc page m m :=
  ⟨hown, fun _ _ _ => rfl, fun _ h => h, fun _ _ => rfl⟩

lemma Refilled.accessed (h : Refilled proc page m m') (hown : Own proc m)
    (hused : (m'.pte proc page).used = true)
    (hpage : ∀ x, addrPage x = page → m'.shown proc x = m.shown proc x) :
    Accessed proc page m m' := by
  have hother : ∀ i, i ≠ page → (m.pte proc i).used = true → m'.pte proc i = m.pte proc i := by
    intro i hi hin
    rcases h.other i hi with heq | ⟨hun, -⟩
    · exact heq
    · rw [hun] at hin
      exact Bool.noConfusion hin
  refine ⟨h.own hown, hother, fun i huse => ⟨huse.1, ?_⟩, fun x huse => ?_⟩
  · by_cases hi : i = page
    · rwa [hi]
    · rw [hother i hi huse.2]
      exact huse.2
  · by_cases hx : addrPage x = page
    · exact hpage x hx
    · exact h.shown hown huse hx

lemma Refilled.scanned (hs : Scanned m m₁) (h : Refilled proc page m₁ m') :
    Refilled proc page m m' := by
  refine ⟨h.lazy, fun hpresent => ?_, fun i hi => ?_, fun g hg => ?_⟩
  · rw [← hs.frameToPage]
    exact h.fresh hpresent
  · rw [← hs.pte]
    exact h.other i hi
  · rw [← hs.frames]
    exact h.taken g (by rwa [hs.frameToPage])

/-- **An access of the kernel to a page in use**, if it goes through: the page allows it then, and
every address shows what it showed. -/
lemma kernelAccess_spec (hown : Own proc m) (huse : InUse m proc page)
    (h : kernelAccess proc page write m = .ok m') :
    kernelAllows write (m'.pte proc page) = true ∧ Accessed proc page m m' := by
  rw [kernelAccess] at h
  split_ifs at h with hallows
  · obtain rfl := Except.ok.inj h
    exact ⟨hallows, .refl hown⟩
  obtain ⟨⟨handled, m₁⟩, hfault, h⟩ := bind_eq_ok.mp h
  simp only at h
  split_ifs at h with hallows'
  obtain rfl := Except.ok.inj h
  refine ⟨hallows', ?_⟩
  have htable := faultTable_eq huse.1
  have haddr : addrPage (page * pageSize) = page := by simp [addrPage, pageSize]
  have hcases := (pageFaultHandler_cases rfl (by
    rw [htable, haddr]
    rintro ⟨hcow, hlazy⟩
    rw [(hown.lazy page huse.1 hlazy).2] at hcow
    exact Bool.noConfusion hcow) hfault).2
  rw [htable, haddr] at hcases
  rcases hcases with rfl | ⟨hcow, hhandled⟩ | ⟨hlazy, hhandled⟩
  · exact absurd hallows' hallows
  · obtain ⟨pid, c, m₂, rfl, -, hs, hcfault, hlast⟩ := handleCowPageFault_spec hhandled
    have hpte : m₂.pte = m.pte := hs.pte
    have hlazy : (m.pte (.user pid) page).flags.lazyZero = false := by
      by_contra hl
      rw [(hown.lazy page huse.1 (by simpa using hl)).2] at hcow
      exact Bool.noConfusion hcow
    have hpresent : (m.pte (.user pid) page).flags.present = true := by
      simpa [Entry.used, hlazy] using huse.2
    have hne := hcfault.mappingPe_ne (by simp [Entry.used, hpte, hpresent])
    -- the old frame is in use, the new one was not, so nothing is freed at the end
    have hframe : (m.pte (.user pid) page).frame ≠ c.frame := by
      intro heq
      have hfree := hcfault.frame_free (hcfault.frame_rc (by rwa [hpte])).1
      rw [hs.frameToPage, ← heq] at hfree
      exact hown.taken page huse.1 hpresent hfree
    have hrc := frameRc_cowHandled_frame hcfault (by simp [Entry.mapped, hpte, hpresent, hlazy])
      fun heq => absurd (by rwa [hpte] at heq) hframe
    rw [if_neg hrc, Except.ok.injEq] at hlast
    subst hlast
    have href := (cowHandled_refilled hcfault (by rwa [hpte]) (by rwa [hpte])).scanned hs
    refine href.accessed hown (by simp [pte_cowHandled hne, CowPages.entry, Entry.used,
      privatePolicy, hpte, hpresent]) fun x hx => ?_
    simp [Memory.shown, hx, pte_cowHandled hne, CowPages.entry, privatePolicy, hpte, hpresent,
      frames_cowHandled hne, hs.frames]
  · obtain ⟨sysPe, hfill⟩ :=
      handleLazyZeroPageFault_spec (lt_of_lt_of_le huse.1 (entries_le proc)) hhandled
    have hframes := handleLazyZeroPageFault_frames hhandled
    have hpte := hfill.pte proc page
    rw [htable, if_pos (Or.inl ⟨rfl, rfl⟩)] at hpte
    have href := lazyFilled_refilled htable hfill hframes
    refine href.accessed hown (by simp [hpte, zeroEntry, Entry.used]) fun x hx => ?_
    have hpresent := (hown.lazy page huse.1 hlazy).1
    simp [Memory.shown, hx, hpte, zeroEntry, hframes, hpresent]

/-! ## Reads -/

lemma kernelLoad_spec (hown : Own proc m) (huse : InUse m proc (addrPage x))
    (h : kernelLoad proc x m = .ok (v, m')) :
    v = m.shown proc x ∧ Accessed proc (addrPage x) m m' := by
  obtain ⟨m₁, haccess, h⟩ := bind_eq_ok.mp h
  simp only [Except.ok.injEq, Prod.mk.injEq] at h
  obtain ⟨rfl, rfl⟩ := h
  obtain ⟨hallows, hacc⟩ := kernelAccess_spec hown huse haccess
  have hpresent : (m₁.pte proc (addrPage x)).flags.present = true := by
    simpa [kernelAllows] using hallows
  refine ⟨?_, hacc⟩
  rw [← hacc.shown x huse, Memory.shown, if_pos hpresent]

/-- What the first access to a lazily allocated page needs: a free frame without references, and for
a process a free entry of the kernel. -/
structure FrameLeft (proc : ProcId) (m : Memory) : Prop where
  frame : m.getFreeFrame.1 < numFrames
  idle : m.frameRc m.getFreeFrame.1 = 0
  sysPe : proc ≠ .kernel → m.getFreePe.1 < numFrames

lemma FrameLeft.handled (h : FrameLeft proc m) (hpage : page < proc.entries) :
    ∃ m', handleLazyZeroPageFault proc (decide (kernelVirtualBase ≤ page * pageSize)) page m =
      .ok m' := by
  have htable := faultTable_eq hpage
  rcases hfr : m.getFreeFrame with ⟨frame, m₁⟩
  have hs := (getFreeFrame_spec hfr).1
  have hlt : frame < numFrames := by simpa [hfr] using h.frame
  have hrc : m.frameRc frame = 0 := by simpa [hfr] using h.idle
  simp only [handleLazyZeroPageFault, hfr, htable]
  set m₂ := (m₁.setPte proc page ⟨frame % numFrames,
    { user := (m₁.pte proc page).flags.user, write := true, present := true }⟩).setFrame
      (frame % numFrames) fun _ => 0 with hm₂
  have hrc₂ : m₂.frameRc frame = 0 := by simp [hm₂, hs.frameRc, hrc]
  by_cases hk : proc = .kernel ∨ decide (kernelVirtualBase ≤ page * pageSize) = true
  · rw [if_pos hk, markFrameUsed_eq_ok.mpr ⟨hlt, hrc₂, rfl⟩]
    exact ⟨_, rfl⟩
  · rw [if_neg hk]
    have hproc : proc ≠ .kernel := fun h => hk (Or.inl h)
    -- the entry of the process is not one of the kernel's
    have htables : m₂.pageTables = m₁.pageTables := by
      cases proc with
      | kernel => exact absurd rfl hproc
      | user pid => rfl
    have hlow : m₂.lowestFreePe = m.lowestFreePe := by
      have hm₁ : m₁ = m.getFreeFrame.2 := by rw [hfr]
      cases proc with
      | kernel => exact absurd rfl hproc
      | user pid =>
          rw [hm₂, hm₁]
          rfl
    have hsame : m₂.getFreePe.1 = m.getFreePe.1 := by
      have hkernel : m₁.pageTables = m.pageTables := congrFun hs.pte .kernel
      simp only [getFreePe, htables, hlow, hkernel]
    rcases hpe : m₂.getFreePe with ⟨sysPe, m₃⟩
    have hs₃ := (getFreePe_spec hpe).1
    have hsys : sysPe < numFrames := by
      have hleft := h.sysPe hproc
      rw [← hsame, hpe] at hleft
      exact hleft
    simp only
    rw [if_neg (Nat.not_le.mpr hsys), markFrameUsed_eq_ok.mpr ⟨hlt, by simp [hs₃.frameRc, hrc₂], rfl⟩]
    exact ⟨_, rfl⟩

lemma kernelLoad_succeeds (hown : Own proc m) (huse : InUse m proc (addrPage x))
    (h : (m.pte proc (addrPage x)).flags.present = true ∨ FrameLeft proc m) :
    ∃ r, kernelLoad proc x m = .ok r := by
  suffices haccess : ∃ m', kernelAccess proc (addrPage x) false m = .ok m' by
    obtain ⟨m', haccess⟩ := haccess
    exact ⟨_, bind_eq_ok.mpr ⟨m', haccess, rfl⟩⟩
  by_cases hpresent : (m.pte proc (addrPage x)).flags.present = true
  · exact ⟨m, by rw [kernelAccess, kernelAllows, if_pos (by simp [hpresent])]⟩
  have hlazy : (m.pte proc (addrPage x)).flags.lazyZero = true := by
    simpa [Entry.used, hpresent] using huse.2
  obtain ⟨m', hhandled⟩ := (h.resolve_left hpresent).handled huse.1
  have htable := faultTable_eq huse.1
  have haddr : addrPage (addrPage x * pageSize) = addrPage x := by simp [addrPage, pageSize]
  obtain ⟨sysPe, hfill⟩ :=
    handleLazyZeroPageFault_spec (lt_of_lt_of_le huse.1 (entries_le proc)) hhandled
  have hpte := hfill.pte proc (addrPage x)
  rw [htable, if_pos (Or.inl ⟨rfl, rfl⟩)] at hpte
  refine ⟨m', ?_⟩
  rw [kernelAccess, kernelAllows, if_neg (by simp [hpresent])]
  refine bind_eq_ok.mpr ⟨(true, m'), ?_, by simp [kernelAllows, hpte, zeroEntry]⟩
  simp only [pageFaultHandler, htable, haddr, (hown.lazy _ huse.1 hlazy).2, hlazy]
  rw [if_neg (Nat.not_le.mpr huse.1)]
  simp [bind, Except.bind, hhandled]

/-- Reads one after the other. -/
def loads (proc : ProcId) : List ℕ → Memory → Except Fault (List UInt8 × Memory)
  | [], m => .ok ([], m)
  | x :: xs, m => do
      let (v, m) ← kernelLoad proc x m
      let (vs, m) ← loads proc xs m
      .ok (v :: vs, m)

lemma loads_spec : ∀ {xs : List ℕ} {vs : List UInt8} {m m' : Memory}, Own proc m →
    (∀ x ∈ xs, InUse m proc (addrPage x)) → loads proc xs m = .ok (vs, m') →
      vs = xs.map (m.shown proc)
  | [], vs, m, _, _, _, h => by
      simp only [loads, Except.ok.injEq, Prod.mk.injEq] at h
      rw [← h.1]
      rfl
  | x :: xs, vs, m, _, hown, huse, h => by
      obtain ⟨⟨v, m₁⟩, hload, h⟩ := bind_eq_ok.mp h
      obtain ⟨⟨vs', m₂⟩, hloads, h⟩ := bind_eq_ok.mp h
      simp only [Except.ok.injEq, Prod.mk.injEq] at h
      obtain ⟨rfl, -⟩ := h
      obtain ⟨hv, hacc⟩ := kernelLoad_spec hown (huse x List.mem_cons_self) hload
      have hrest := loads_spec hacc.own
        (fun y hy => hacc.inUse _ (huse y (List.mem_cons_of_mem x hy))) hloads
      rw [hrest, List.map_cons, hv]
      congr 1
      exact List.map_congr_left fun y hy => hacc.shown y (huse y (List.mem_cons_of_mem x hy))

lemma inUse_of_load (hpage : addrPage x < proc.entries)
    (h : kernelLoad proc x m = .ok (v, m')) : InUse m proc (addrPage x) := by
  refine ⟨hpage, ?_⟩
  by_contra hunused
  simp only [Entry.used, Bool.or_eq_true, not_or, Bool.not_eq_true] at hunused
  obtain ⟨hpresent, hlazy⟩ := hunused
  have htable := faultTable_eq hpage
  have haddr : addrPage (addrPage x * pageSize) = addrPage x := by simp [addrPage, pageSize]
  obtain ⟨m₁, haccess, -⟩ := bind_eq_ok.mp h
  rw [kernelAccess, kernelAllows, if_neg (by simp [hpresent])] at haccess
  obtain ⟨⟨handled, m₂⟩, hfault, hlast⟩ := bind_eq_ok.mp haccess
  have hsame := (pageFaultHandler_cases rfl (by simp [htable, haddr, hlazy]) hfault).2
  simp only [htable, haddr, hlazy, Bool.false_eq_true, false_and, or_false] at hsame
  rcases hsame with rfl | ⟨hcow, -⟩
  · simp [kernelAllows, hpresent] at hlast
  · -- a read of a copy-on-write page is not handled
    simp only [pageFaultHandler, htable, haddr, hcow] at hfault
    rw [if_neg (Nat.not_le.mpr hpage)] at hfault
    simp [bind, Except.bind] at hfault

end BrebOS.Memory
