import BrebOS.Processes.Frames

/-!
# Giving frames back

A frame handed to processes should be free again as soon as no live process maps it.  It is not:
the duplicate in the tables of the kernel holds a reference of its own, so the count of a frame from
`sbrk`, a lazy fault or a copy-on-write fault is still 1 when the last process has let go, and
`free_page` returns.  The copy-on-write handler means to free the frame it replaces, but looks at
the count of the new one.  What a process still maps when it ends is lost.

Only the pages of the loader come back: they are not counted for the process, so their count is 1
while it maps them.  `GivesBack` says when a step returns the frame, and `handed_free` that in a run
of such steps a frame is free whenever no live process maps it.
-/

namespace BrebOS

namespace Memory

variable {m m' : Memory} {proc : ProcId} {self child pid page i frame f : ℕ} {val : Entry}
  {policy : Flags}

/-! ## Frames of processes -/

/-- Some live process maps the frame. -/
def UserFrame (f : ℕ) (m : Memory) : Prop :=
  ∃ pid ∈ m.live, ∃ i < userEntries, (m.pte (.user pid) i).refs f = 1

/-- The frame can be handed out again: `frame_to_page` does not know it, it has no reference, and no
page of the kernel maps it. -/
def FrameFree (f : ℕ) (m : Memory) : Prop :=
  m.frameToPage f = none ∧ m.frameRc f = 0 ∧ ∀ i < numFrames, (m.pte .kernel i).refs f = 0

/-- The page is the only one of a live process that maps the frame. -/
def OnlyMapping (f pid page : ℕ) (m : Memory) : Prop :=
  (m.pte (.user pid) page).refs f = 1 ∧
    ∀ q ∈ m.live, ∀ i < userEntries, (m.pte (.user q) i).refs f = 1 → q = pid ∧ i = page

lemma UserFrame.of_not_only (h : UserFrame f m) (hnot : ¬ OnlyMapping f pid page m)
    (hlive : m'.live = m.live) (hpte : ∀ q i, ¬ (q = pid ∧ i = page) →
      (m.pte (.user q) i).refs f = 1 → (m'.pte (.user q) i).refs f = 1) : UserFrame f m' := by
  have hother : ∃ q ∈ m.live, ∃ i < userEntries, (m.pte (.user q) i).refs f = 1 ∧
      ¬ (q = pid ∧ i = page) := by
    by_contra hno
    push Not at hno
    obtain ⟨q, hq, i, hi, hrefs⟩ := h
    obtain ⟨rfl, rfl⟩ := hno q hq i hi hrefs
    exact hnot ⟨hrefs, fun q' hq' i' hi' h' => hno q' hq' i' hi' h'⟩
  obtain ⟨q, hq, i, hi, hrefs, hne⟩ := hother
  exact ⟨q, hlive ▸ hq, i, hi, hpte q i hne hrefs⟩

/-- Nothing a live process maps to the frame is unmapped. -/
structure Keeps (f : ℕ) (m m' : Memory) : Prop where
  live : m.live ⊆ m'.live
  refs : ∀ pid ∈ m.live, ∀ i, (m.pte (.user pid) i).refs f = 1 → (m'.pte (.user pid) i).refs f = 1

lemma UserFrame.keeps (h : UserFrame f m) (hk : Keeps f m m') : UserFrame f m' := by
  obtain ⟨pid, hpid, i, hi, hrefs⟩ := h
  exact ⟨pid, hk.live hpid, i, hi, hk.refs pid hpid i hrefs⟩

/-! ## The invariant -/

/-- A frame that `frame_to_page` does not know has no reference. -/
structure Settled (f : ℕ) (m : Memory) : Prop extends Tracked f m where
  rc : m.frameToPage f = none → m.frameRc f = 0

namespace Settled

lemma congr (h : Settled f m) (hpte : m'.pte = m.pte) (hpages : m'.frameToPage = m.frameToPage)
    (hrc : m'.frameRc f = m.frameRc f) : Settled f m' :=
  ⟨h.toTracked.congr hpte hpages, by rw [hpages, hrc]; exact h.rc⟩

lemma scanned (h : Settled f m) (hs : Scanned m m') : Settled f m' :=
  h.congr hs.pte hs.frameToPage (by rw [hs.frameRc])

lemma frameFree (h : Settled f m) (hfree : m.frameToPage f = none) : FrameFree f m := by
  refine ⟨hfree, h.rc hfree, fun i hi => ?_⟩
  by_contra hne
  have hone : (m.pte .kernel i).refs f = 1 := by
    have := (m.pte .kernel i).refs_le_one f
    omega
  rw [h.page i hi hone] at hfree
  exact absurd hfree (by simp)

lemma updated (h : Settled f m) (hval : val.Ok)
    (hkernel : proc = .kernel → ∀ g, val.refs g = (m.pte .kernel page).refs g)
    (hmaps : val.refs f = 1 → m.frameToPage f ≠ none) : Settled f (m.updated proc page val) := by
  refine ⟨h.toTracked.updated hval hkernel, fun hfree => ?_⟩
  rw [frameToPage_updated] at hfree
  have hzero := h.rc hfree
  have hval' : val.refs f = 0 := by
    have := val.refs_le_one f
    by_contra hne
    exact hmaps (by omega) hfree
  rw [frameRc_updated, hzero, hval']
  omega

lemma cleared (h : Settled f m) : Settled f (m.updated (.user pid) page {}) :=
  h.updated .empty (by simp) (by simp)

lemma allocated (h : Settled f m) (hpage : page < numFrames)
    (hunmapped : (m.pte .kernel page).mapped = false)
    (hok : (⟨frame, policy⟩ : Entry).Ok) (hused : (⟨frame, policy⟩ : Entry).used = true)
    (hfree : frame < numFrames → m.frameToPage frame = none)
    (hp : policy.present = true → frame < numFrames) : Settled f (m.allocated frame page policy) := by
  refine ⟨h.toTracked.allocated hpage hunmapped hok hused hfree hp, fun hnone => ?_⟩
  rw [frameToPage_allocated] at hnone
  rw [frameRc_allocated]
  split_ifs at hnone ⊢
  exact h.rc hnone

lemma lazyFilled (h : Settled f m) {higherHalf : Bool} {sysPe : ℕ}
    (hlazy : (m.pte (faultTable proc higherHalf) page).flags.lazyZero = true)
    (hf : LazyFilled proc higherHalf page frame sysPe m m') : Settled f m' := by
  refine ⟨h.toTracked.lazyFilled hlazy hf, fun hnone => ?_⟩
  rw [hf.frameToPage] at hnone
  by_cases hff : f = frame
  · simp [hff] at hnone
  · rw [if_neg hff] at hnone
    rw [hf.frameRc, if_neg hff]
    exact h.rc hnone

lemma released (h : Settled f m)
    (hmap : (m.pte .kernel page).flags.lazyZero = false → (m.pte .kernel page).frame = f →
      (m.pte .kernel page).mapped = true) (hpage : page < numFrames) :
    Settled f (m.released page) := by
  refine ⟨h.toTracked.released hmap hpage, fun hnone => ?_⟩
  rw [frameToPage_released] at hnone
  rw [frameRc_released]
  split_ifs at hnone ⊢
  · rfl
  · exact h.rc hnone

lemma fresh_used (hp : policy.present = true → frame < numFrames)
    (hrefs : (⟨frame % numFrames, policy⟩ : Entry).refs f = 1) :
    (m.allocated frame page policy).frameToPage f ≠ none := by
  obtain ⟨hmapped, hframe⟩ := Entry.refs_eq_one.mp hrefs
  have hpres : policy.present = true := by
    simp only [Entry.mapped, Bool.and_eq_true] at hmapped
    exact hmapped.1
  rw [Nat.mod_eq_of_lt (hp hpres)] at hframe
  rw [frameToPage_allocated, if_pos ⟨hpres, hframe.symm⟩]
  simp

/-! ### Page operations -/

lemma sbrkUserPage (h : Settled f m) (hok : ∀ g, (⟨g, policy⟩ : Entry).Ok)
    (hused : ∀ g, (⟨g, policy⟩ : Entry).used = true)
    (hrun : sbrkUserPage pid policy m page = .ok m') : Settled f m' := by
  obtain ⟨frame, sysPe, m₁, hs, hpage, hsys, hun, hfree, hp, rfl⟩ := sbrkUserPage_spec hrun
  have hlt : policy.present = true → frame < numFrames := fun h' => (hp h').1
  refine Settled.updated ?_ (hok _) (by simp) (fresh_used hlt)
  refine (h.scanned hs).allocated hsys ?_ (hok _) (hused _) ?_ hlt
  · rw [hs.pte]
    exact Entry.mapped_of_unused hun
  · rwa [hs.frameToPage]

lemma shared (h : Settled f m)
    (hrun : copyPageToOtherProcessShared self child page m = .ok m') : Settled f m' := by
  rcases copyPageToOtherProcessShared_cases hrun with ⟨-, rfl⟩ | ⟨hp, hpage, hrc, rfl⟩
  · exact h
  have hok := h.entries (.user self) page
  have hmap := hok.mapped_iff.mpr hp
  have hmaps : (sharedEntry (m.pte (.user self) page)).refs f = 1 → m.frameToPage f ≠ none := by
    intro hrefs hnone
    rw [Entry.refs_sharedEntry] at hrefs
    rw [(Entry.refs_eq_one.mp hrefs).2, h.rc hnone] at hrc
    exact hrc hmap rfl
  refine (h.updated (hok.sharedEntry hp) (by simp) hmaps).updated (hok.sharedEntry hp) (by simp) ?_
  rwa [frameToPage_updated]

lemma stackCopied {mapping : ℕ} (h : Settled f m)
    (hrun : copyPageToOtherProcess self child page mapping m = .ok m') : Settled f m' := by
  rcases copyPageToOtherProcess_cases hrun with ⟨-, rfl⟩ |
    ⟨hz, frame, sysPe, m₁, hs, -, hpage, hmapping, hsys, hun, hfree, hp, rfl⟩
  · exact h
  have hused : (m.pte (.user self) page).used = true := by
    by_contra hun
    exact hz ((h.entries (.user self) page).unused (by simpa using hun))
  have hok : ∀ g, (⟨g, (m₁.pte (.user self) page).flags⟩ : Entry).Ok := by
    intro g
    rw [hs.pte]
    exact (h.entries (.user self) page).of_flags hused
  have hlt : (m₁.pte (.user self) page).flags.present = true → frame < numFrames := by
    rw [hs.pte]
    exact fun h' => (hp h').1
  refine Settled.congr ?_ pte_copyPage rfl rfl
  have hfirst : Settled f (m₁.allocated frame sysPe (m₁.pte (.user self) page).flags) := by
    refine (h.scanned hs).allocated hsys ?_ (hok _) (by rw [hs.pte]; exact hused) ?_ hlt
    · rw [hs.pte]
      exact Entry.mapped_of_unused hun
    · rwa [hs.frameToPage]
  refine (hfirst.updated (hok _) (by simp) (fresh_used hlt)).updated (hok _) (by simp) ?_
  rw [frameToPage_updated]
  exact fresh_used hlt

lemma copyOnWrite {higherHalf : Bool} (h : Settled f m) (hcow : (m.pte proc page).flags.cow = true)
    (hrun : handleCowPageFault proc higherHalf page m = .ok m') :
    Settled f m' ∧ ∃ pid c m₁, proc = .user pid ∧ Scanned m m₁ ∧ c.mappingPe ≠ page ∧
      CowFault pid page c m₁ ∧ m'.pte = (cowHandled pid page c m₁).pte := by
  obtain ⟨pid, c, m₁, rfl, -, hs, hc, hlast⟩ := handleCowPageFault_spec hrun
  replace h := h.scanned hs
  rw [← hs.pte] at hcow
  have hok := h.entries (.user pid) page
  have hpres := hok.cow hcow
  have hmap := hok.mapped_iff.mpr hpres
  have hne := hc.mappingPe_ne (Entry.used_of_mapped hmap)
  have hprivate : (c.entry (m₁.pte (.user pid) page)).Ok := hok.private hpres
  have hlt := (hc.frame_rc hpres).1
  have hall : Settled f (m₁.allocated c.frame c.sysPe
      (privatePolicy (m₁.pte (.user pid) page).flags)) :=
    h.allocated hc.sysPe_lt (Entry.mapped_of_unused hc.sysPe_unused) (hok.private hpres)
      (Entry.used_of_present (e := ⟨c.frame, _⟩) hpres) hc.frame_free fun _ => hlt
  -- the old frame is used: otherwise its count is 0, and the handler could not unmap it again
  have hold : (m₁.pte (.user pid) page).refs f = 1 → (m₁.allocated c.frame c.sysPe
      (privatePolicy (m₁.pte (.user pid) page).flags)).frameToPage f ≠ none := by
    intro hrefs hnone
    obtain ⟨-, hframe⟩ := Entry.refs_eq_one.mp hrefs
    have hzero := hall.rc hnone
    have hnew : (c.entry (m₁.pte (.user pid) page)).refs f = 0 := by
      by_contra hne'
      refine fresh_used (fun _ => hlt) (Entry.refs_eq_one.mpr ?_) hnone
      exact not_not.mp fun h' => hne' (Entry.refs_eq_zero.mpr h')
    refine hc.rc_ne ?_ ?_
    · simp only [cowMapped]
      rwa [pte_updated_of_ne fun _ => hne, pte_updated_self]
    · simp only [cowMapped]
      rw [pte_updated_of_ne fun _ => hne, pte_updated_self, frameRc_updated, frameRc_updated,
        pte_updated_of_ne fun _ => hne.symm, pte_allocated_user, hframe, hzero, hnew, hrefs]
      simp [pte_allocated_user, hframe]
  have hhandled : Settled f (cowHandled pid page c m₁) := by
    refine Settled.cleared (Settled.congr ?_ pte_copyPage rfl rfl)
    refine (hall.updated hok (by simp) hold).updated hprivate (by simp) ?_
    rw [frameToPage_updated]
    exact fresh_used fun _ => hlt
  split_ifs at hlast with hrc
  · -- the frame the handler would free is not this one
    have hne' : f ≠ c.frame := by
      rintro rfl
      exact frameRc_cowHandled_frame hc hmap (fun _ => h.stray hc.mappingPe_unused) hrc
    obtain ⟨hpte, -, hrcs, hpages⟩ := markFrameFree_eq_ok hrc hlast
    refine ⟨⟨hhandled.toTracked.forgot hne' hpte hpages, ?_⟩, pid, c, m₁, rfl, hs, hne, hc, hpte⟩
    rw [hpages, if_neg hne', hrcs]
    exact hhandled.rc
  · exact Except.ok.inj hlast ▸ ⟨hhandled, pid, c, m₁, rfl, hs, hne, hc, rfl⟩

end Settled

/-! ## Steps -/

/-- The steps that give the frame back when they take away its last mapping: a `free_page` must find
the count at 1, a copy-on-write fault must not replace the last mapping, and a process that ends must
leave one.  A page of the kernel that is freed must not merely name the frame. -/
def GivesBack (f : ℕ) : Op → Memory → Prop
  | .freePage (.user pid) address, m => OnlyMapping f pid (addrPage address) m → m.frameRc f = 1
  | .freePage .kernel address, m => (m.pte .kernel (addrPage address)).frame = f →
      (m.pte .kernel (addrPage address)).mapped = true
  | .fault (.user pid) address _, m => address < kernelVirtualBase →
      (m.pte (.user pid) (addrPage address)).flags.cow = true → ¬ OnlyMapping f pid (addrPage address) m
  | .drop pid, m => UserFrame f m → UserFrame f (m.drop pid)
  | _, _ => True

/-- What a step that gives the frame back does. -/
structure Returned (f : ℕ) (m m' : Memory) : Prop extends Settled f m' where
  given : UserFrame f m → UserFrame f m' ∨ m'.frameToPage f = none

lemma Settled.returned (h : Settled f m') (hk : Keeps f m m') : Returned f m m' :=
  ⟨h, fun hu => Or.inl (hu.keeps hk)⟩

namespace Keeps

lemma refl : Keeps f m m := ⟨fun _ h => h, fun _ _ _ h => h⟩

lemma of_user {m₁ : Memory} (h : Keeps f m m₁) (hlive : m'.live = m₁.live)
    (hpte : ∀ pid i, m'.pte (.user pid) i = m₁.pte (.user pid) i) : Keeps f m m' :=
  ⟨hlive ▸ h.live, fun pid hpid i hi => hpte pid i ▸ h.refs pid hpid i hi⟩

lemma updated {m₁ : Memory} (h : Keeps f m m₁)
    (hval : ∀ pid ∈ m.live, proc = .user pid → (m.pte (.user pid) page).refs f = 1 →
      val.refs f = 1) : Keeps f m (m₁.updated proc page val) := by
  refine ⟨by rw [live_updated]; exact h.live, fun pid hpid i hi => ?_⟩
  rw [pte_updated]
  split_ifs with hc
  · exact hval pid hpid hc.1.symm (hc.2 ▸ hi)
  · exact h.refs pid hpid i hi

end Keeps

namespace Settled

variable {op : Op}

lemma sbrk_step {n addr : ℕ} {info : PageInfo} {hint : HintInfo} (h : Settled f m)
    (hpol : info.policy.present ≠ info.policy.lazyZero)
    (hrun : sbrk proc n info hint m = .ok (addr, m')) : Returned f m m' := by
  rcases sbrk_cases hrun with ⟨-, rfl⟩ | ⟨-, -, -, -, hcow, -⟩
  · exact h.returned .refl
  have hok : ∀ g, (⟨g, info.policy⟩ : Entry).Ok := fun g => .of_policy hcow hpol
  have hused : ∀ g, (⟨g, info.policy⟩ : Entry).used = true := fun g => Entry.used_of_policy hpol
  -- the page of a process that is written was unused, now and hence at the start
  have hwrite : ∀ (pid page : ℕ) (c : Memory) (val : Entry), Keeps f m c →
      (c.pte (.user pid) page).used = false → ∀ q ∈ m.live, ProcId.user pid = .user q →
      (m.pte (.user q) page).refs f = 1 → val.refs f = 1 := by
    intro pid page c val hkeep hun q hq heq hrefs
    rw [ProcId.user.injEq] at heq
    have := hkeep.refs q hq page hrefs
    rw [← heq, Entry.refs_of_not_mapped (Entry.mapped_of_unused hun)] at this
    exact absurd this (by simp)
  obtain ⟨hset, hkeep⟩ : Settled f m' ∧ Keeps f m m' := by
    refine sbrk_rule (P := fun c => Settled f c ∧ Keeps f m c) hrun ⟨h, .refl⟩ ?_ ?_ ?_ ?_
    · rintro - m₁ m₂ page ⟨hc, hkeep⟩ hun hstep
      obtain ⟨frame, m₃, hs, hpage, hfree, hp, rfl⟩ := allocateFreePage_spec hstep
      refine ⟨(hc.scanned hs).allocated hpage ?_ (hok _) (hused _) ?_ fun h' => (hp h').1,
        hkeep.of_user (by rw [live_allocated, hs.live])
          fun pid i => by rw [pte_allocated_user, hs.pte]⟩
      · rw [hs.pte]
        exact Entry.mapped_of_unused hun
      · rwa [hs.frameToPage]
    · rintro pid rfl - m₁ m₂ page ⟨hc, hkeep⟩ hun hstep
      refine ⟨hc.sbrkUserPage hok hused hstep, ?_⟩
      obtain ⟨frame, sysPe, m₃, hs, -, -, -, -, -, rfl⟩ := sbrkUserPage_spec hstep
      refine Keeps.updated ?_ (hwrite pid page m₁ _ hkeep hun)
      exact hkeep.of_user (by rw [live_allocated, hs.live])
        fun pid i => by rw [pte_allocated_user, hs.pte]
    · rintro pid rfl - m₁ page ⟨hc, hkeep⟩ - hun
      refine ⟨hc.updated (hok _) (by simp) fun h' => ?_,
        hkeep.updated (hwrite pid page m₁ _ hkeep hun)⟩
      exact absurd (Entry.refs_eq_one.mp h').2 h.ne_zero.symm
    · rintro m₁ pe ⟨hc, hkeep⟩
      exact ⟨hc.congr (by simp) (by simp) (by simp), hkeep.of_user (by simp) (by simp)⟩
  exact hset.returned hkeep

lemma freePage_step {address : ℕ} (h : Settled f m)
    (hok : GivesBack f (.freePage proc address) m)
    (hrun : freePageOf proc address m = .ok m') : Returned f m m' := by
  cases proc with
  | kernel =>
      obtain ⟨e, rfl, hpage, ⟨rfl, -⟩ | ⟨-, hfree⟩⟩ := freePageOf_kernel_cases hrun
      · -- the count changes, but the frame stays used
        refine Settled.returned ⟨h.toTracked.congr (by simp) rfl, fun hnone => ?_⟩
          (Keeps.refl.of_user rfl (by simp))
        change m.frameToPage f = none at hnone
        rw [frameRc_setRc, Function.update_of_ne, h.rc hnone]
        intro hf
        rw [h.page _ hpage (Entry.refs_eq_one.mpr ⟨hok hf.symm, hf.symm⟩)] at hnone
        exact absurd hnone (by simp)
      · obtain ⟨-, -, rfl⟩ := freePage_eq_ok.mp hfree
        have hzero : Settled f (m.setRc (m.pte .kernel (addrPage address)).frame 0) := by
          refine ⟨h.toTracked.congr (by simp) rfl, fun hnone => ?_⟩
          rw [frameRc_setRc, Function.update_apply]
          split_ifs
          exacts [rfl, h.rc hnone]
        refine (hzero.released (fun _ h' => ?_) hpage).returned (Keeps.refl.of_user ?_ ?_)
        · rw [pte_setRc] at h' ⊢
          exact hok h'
        · rw [live_released]
          rfl
        · intro pid i
          rw [pte_released, if_neg (by simp), pte_setRc]
  | user pid =>
      obtain ⟨e, rfl, hpage, -, ⟨rfl, hleft⟩ | ⟨hlazy, hrc, p, hp, hfree⟩⟩ :=
        freePageOf_user_cases hrun
      · have hnot : ¬ OnlyMapping f pid (addrPage address) m := by
          -- for the last mapping, with a count of 1, the code takes the other branch
          intro honly
          obtain ⟨hmapped, hframe⟩ := Entry.refs_eq_one.mp honly.1
          have hone := hok honly
          rw [hframe, hone] at hleft
          simp only [Entry.mapped, Bool.and_eq_true, Bool.not_eq_true'] at hmapped
          rcases hleft with hleft | hleft
          · rw [hmapped.2] at hleft
            exact Bool.false_ne_true hleft
          · omega
        refine ⟨h.cleared, fun hu => Or.inl (hu.of_not_only hnot live_updated ?_)⟩
        intro q i hne hrefs
        rwa [pte_updated_of_ne fun h' => fun hi => hne ⟨ProcId.user.inj h', hi⟩]
      · obtain ⟨hplt, -, rfl⟩ := freePage_eq_ok.mp hfree
        obtain ⟨hmapped, hframe⟩ := Entry.refs_eq_one.mp (h.back _ _ hp).2
        have hsame : (m.updated (.user pid) (addrPage address) {}).pte .kernel p = m.pte .kernel p :=
          pte_updated_of_ne (by simp)
        have hset : Settled f ((m.updated (.user pid) (addrPage address) {}).released p) :=
          h.cleared.released (fun _ _ => by rwa [hsame]) hplt
        refine ⟨hset, fun hu => ?_⟩
        by_cases honly : OnlyMapping f pid (addrPage address) m
        · -- the duplicate goes with the last mapping
          refine Or.inr ?_
          obtain ⟨-, hef⟩ := Entry.refs_eq_one.mp honly.1
          simp only [Entry.mapped, Bool.and_eq_true, Bool.not_eq_true'] at hmapped
          rw [frameToPage_released, hsame, if_pos ⟨hmapped.2, by rw [hframe, hef]⟩]
        · refine Or.inl (hu.of_not_only honly (by simp) fun q i hne hrefs => ?_)
          rwa [pte_released, if_neg (by simp),
            pte_updated_of_ne fun h' => fun hi => hne ⟨ProcId.user.inj h', hi⟩]

lemma fault_step {address : ℕ} {writeAccess handled : Bool} (h : Settled f m)
    (hok : GivesBack f (.fault proc address writeAccess) m)
    (hrun : pageFaultHandler proc address writeAccess m = .ok (handled, m')) :
    Returned f m m' := by
  set higherHalf := decide (kernelVirtualBase ≤ address) with hhigh
  have hentry := h.entries (faultTable proc higherHalf) (addrPage address)
  obtain ⟨hpage, rfl | ⟨hcow, hcow'⟩ | ⟨hlazy, hlazy'⟩⟩ := pageFaultHandler_cases hhigh
    (fun h' => by simp [hentry.present (hentry.cow h'.1)] at h') hrun
  · exact h.returned .refl
  · obtain ⟨_, _, _, -, hlow, -⟩ := handleCowPageFault_spec hcow'
    rw [hlow] at hcow
    obtain ⟨hset, pid, c, m₁, rfl, hs, hne, hc, hpte⟩ := h.copyOnWrite hcow hcow'
    have hnot : ¬ OnlyMapping f pid (addrPage address) m := by
      refine hok ?_ hcow
      rw [hhigh, decide_eq_false_iff_not] at hlow
      omega
    refine ⟨hset, fun hu => Or.inl (hu.of_not_only hnot (handleCowPageFault_live hcow') ?_)⟩
    intro q i hqi hrefs
    rw [hpte, pte_cowHandled hne, hs.pte, if_neg fun h' => hqi ⟨ProcId.user.inj h'.1, h'.2⟩,
      if_neg, if_neg (by simp)]
    · exact hrefs
    · -- the mapping page was unused
      rintro ⟨h₁, rfl⟩
      have hun := hc.mappingPe_unused
      rw [hs.pte, ← h₁] at hun
      rw [Entry.refs_of_not_mapped (Entry.mapped_of_unused hun)] at hrefs
      exact absurd hrefs (by simp)
  · obtain ⟨sysPe, hf⟩ := handleLazyZeroPageFault_spec (lt_of_lt_of_le hpage (by
      cases faultTable proc higherHalf <;> simp [ProcId.entries, numFrames, userEntries])) hlazy'
    refine (h.lazyFilled hlazy hf).returned ⟨by rw [hf.live], fun pid hpid i hrefs => ?_⟩
    rw [hf.pte, if_neg]
    · exact hrefs
    · rintro (⟨h₁, rfl⟩ | ⟨h₁, -⟩)
      · rw [h₁] at hrefs
        simp [Entry.refs, Entry.mapped, hlazy] at hrefs
      · exact absurd h₁ (by simp)

lemma mprotect_step {addr len : ℕ} {prot : Prot} {r : MprotectResult} (h : Settled f m)
    (hrun : mprotect addr len prot proc m = .ok (r, m')) : Returned f m m' := by
  obtain ⟨hset, hkeep⟩ : Settled f m' ∧ Keeps f m m' := by
    refine mprotect_rule (P := fun c => Settled f c ∧ Keeps f m c) hrun ⟨h, .refl⟩ ?_
    rintro m₁ page - ⟨hc, hkeep⟩ hpage hused hrc
    refine ⟨hc.updated ((hc.entries _ _).withWrite hused) ?_ fun hrefs hnone => ?_,
      hkeep.updated ?_⟩
    · rintro rfl g
      exact Entry.refs_withWrite
    · obtain ⟨hmapped, hframe⟩ := Entry.refs_eq_one.mp hrefs
      rw [show (m₁.pte proc page).frame = f from hframe, hc.rc hnone] at hrc
      exact hrc hmapped rfl
    · rintro pid hpid rfl hrefs
      exact hkeep.refs pid hpid page hrefs
  exact hset.returned hkeep

lemma fork_step {r : Forked} (h : Settled f m) (hrun : fork self m = .ok r) :
    Returned f m r.memory := by
  have hchild := fork_child_not_mem hrun
  have hmap := fork_mapping_empty hrun
  -- the mapping page maps nothing before and after, so what it maps in between does not matter
  have hmapping : ∀ (val : Entry) pid, pid ∈ m.live → ProcId.user self = .user pid →
      (m.pte (.user pid) mappingPage).refs f = 1 → val.refs f = 1 := by
    intro val pid hpid heq hrefs
    rw [pte_withChild, heq, if_neg (by rintro ⟨rfl⟩; exact hchild hpid)] at hmap
    rw [hmap, Entry.refs_default] at hrefs
    exact absurd hrefs (by simp)
  have hnew : ∀ (val : Entry) (page pid : ℕ), pid ∈ m.live → ProcId.user m.getFreePid = .user pid →
      (m.pte (.user pid) page).refs f = 1 → val.refs f = 1 := by
    rintro val page pid hpid ⟨rfl⟩
    exact absurd hpid hchild
  obtain ⟨-, -, m₁, ⟨hset, hkeep⟩, -, -, hmem⟩ :
      _ ∧ _ ∧ ∃ m₁, (Settled f m₁ ∧ Keeps f m m₁) ∧ _ := by
    refine fork_rule hrun ?_ ?_ (fun _ => id) ?_ ?_
    · refine ⟨⟨h.toTracked.withChild, h.rc⟩, fun _ h' => h', fun pid hpid i hrefs => ?_⟩
      rwa [pte_withChild, if_neg (by rintro ⟨rfl⟩; exact hchild hpid)]
    · rintro m₁ m₂ page ⟨hc, hkeep⟩ - hstep
      refine ⟨hc.shared hstep, ?_⟩
      rcases copyPageToOtherProcessShared_cases hstep with ⟨-, rfl⟩ | ⟨-, -, -, rfl⟩
      · exact hkeep
      · refine Keeps.updated (hkeep.updated fun pid hpid heq hrefs => ?_) (hnew _ page)
        rw [Entry.refs_sharedEntry, heq]
        exact hkeep.refs pid hpid page hrefs
    · rintro m₁ m₂ page ⟨hc, hkeep⟩ - hstep
      refine ⟨hc.stackCopied hstep, ?_⟩
      rcases copyPageToOtherProcess_cases hstep with ⟨-, rfl⟩ | ⟨-, frame, sysPe, m₃, hs, -, -, -, -, -,
        -, -, rfl⟩
      · exact hkeep
      · refine Keeps.of_user ?_ (live_copyPage (m := _)) fun pid i => by
          rw [Memory.stackCopied, pte_copyPage]
        refine Keeps.updated (Keeps.updated ?_ (hnew _ page)) (hmapping _)
        exact hkeep.of_user (by rw [live_allocated, hs.live])
          fun pid i => by rw [pte_allocated_user, hs.pte]
    · rintro m₁ ⟨hc, hkeep⟩
      exact ⟨hc.congr pte_copyPdt rfl rfl, hkeep.of_user rfl fun pid i => by rw [pte_copyPdt]⟩
  have hend : Settled f r.memory := by
    rw [hmem]
    refine hset.cleared.congr ?_ rfl rfl
    funext p
    cases p <;> rfl
  have hcleared : Keeps f m (m₁.updated (.user self) mappingPage {}) := hkeep.updated (hmapping _)
  refine hend.returned ?_
  rw [hmem]
  exact ⟨fun pid hpid => Finset.mem_insert_of_mem (hcleared.live hpid), hcleared.refs⟩

lemma exec_step {req : LoadRequest} {o : Option ℕ} (h : Settled f m)
    (hused : ∀ x ∈ req.mappings, (m.pte .kernel x.2).used = true)
    (hrun : exec req m = .ok (o, m')) : Returned f m m' := by
  rcases exec_cases hrun with rfl | ⟨p, hp, hpid, rfl⟩
  · exact h.returned .refl
  have hnew := getFreePid_not_mem hpid
  have hload : Settled f (m.loaded m.getFreePid p) := ⟨h.toTracked.loaded hused hp, h.rc⟩
  refine hload.returned ⟨fun q hq => Finset.mem_insert_of_mem hq, fun q hq i hrefs => ?_⟩
  rwa [pte_loaded, if_neg (by rintro ⟨rfl⟩; exact hnew hq)]

/-- **A step that gives the frame back** keeps the invariant, and when it takes away the last mapping
the frame is free. -/
lemma step (h : Settled f m) (hok : GivesBack f op m) (hrun : op.run m = .ok m') :
    Returned f m m' := by
  cases op with
  | sbrk proc n info hint =>
      obtain ⟨-, hrun⟩ := onBehalf_eq_ok.mp hrun
      split_ifs at hrun with hpol
      obtain ⟨⟨addr, _⟩, hres, rfl⟩ := map_eq_ok.mp hrun
      exact h.sbrk_step hpol hres
  | freePage proc address => exact h.freePage_step hok (onBehalf_eq_ok.mp hrun).2
  | fault proc address writeAccess =>
      obtain ⟨-, hrun⟩ := onBehalf_eq_ok.mp hrun
      obtain ⟨⟨handled, _⟩, hres, rfl⟩ := map_eq_ok.mp hrun
      exact h.fault_step hok hres
  | mprotect proc addr len prot =>
      obtain ⟨-, hrun⟩ := onBehalf_eq_ok.mp hrun
      obtain ⟨⟨r, _⟩, hres, rfl⟩ := map_eq_ok.mp hrun
      exact h.mprotect_step hres
  | fork pid =>
      obtain ⟨-, hrun⟩ := onBehalf_eq_ok.mp hrun
      obtain ⟨r, hres, rfl⟩ := map_eq_ok.mp hrun
      exact h.fork_step hres
  | exec req =>
      rw [Op.run] at hrun
      split_ifs at hrun with hused
      obtain ⟨⟨o, _⟩, hres, rfl⟩ := map_eq_ok.mp hrun
      exact h.exec_step hused hres
  | drop pid =>
      obtain ⟨-, hrun⟩ := onBehalf_eq_ok.mp hrun
      obtain rfl := Except.ok.inj hrun
      refine ⟨h.congr (by funext p; cases p <;> rfl) rfl rfl, fun hu => Or.inl (hok hu)⟩

end Settled

/-! ## Runs -/

/-- The frame has been handed to a process in the course of a run, and has not been allocated again
since: it is mapped by a live process, or it was, and no step has taken it from the free frames. -/
inductive Handed (ok : Op → Memory → Prop) (m₀ : Memory) (f : ℕ) : Memory → Prop
  | mapped {m : Memory} : Run ok m₀ m → UserFrame f m → Handed ok m₀ f m
  | step {m m' : Memory} {op : Op} : Handed ok m₀ f m → ok op m → op.run m = .ok m' →
      (m.frameToPage f ≠ none ∨ m'.frameToPage f = none) → Handed ok m₀ f m'

lemma Handed.run {ok : Op → Memory → Prop} {m₀ : Memory} (h : Handed ok m₀ f m) : Run ok m₀ m := by
  induction h with
  | mapped hrun _ => exact hrun
  | step _ hok hrun _ ih => exact ih.step hok hrun

lemma Run.settled {m₀ : Memory} (hstart : Settled f m₀) (hrun : Run (GivesBack f) m₀ m) :
    Settled f m :=
  hrun.invariant (P := Settled f) hstart fun _ _ _ h hok hstep => (h.step hok hstep).toSettled

lemma freePageOf_user_pte {address : ℕ} (h : freePageOf (.user pid) address m = .ok m') :
    m'.live = m.live ∧ ∀ q i, m'.pte (.user q) i =
      if q = pid ∧ i = addrPage address then {} else m.pte (.user q) i := by
  obtain ⟨e, -, -, -, ⟨rfl, -⟩ | ⟨-, -, p, -, hfree⟩⟩ := freePageOf_user_cases h
  · exact ⟨live_updated, fun q i => by simp [pte_updated]⟩
  · obtain ⟨-, -, rfl⟩ := freePage_eq_ok.mp hfree
    exact ⟨by simp, fun q i => by simp [pte_released, pte_updated]⟩

lemma firstProcess_refs (h : firstProcess = .ok m) {q : ℕ} (hq : q ∈ m.live)
    (hrefs : (m.pte (.user q) i).refs f = 1) :
    q = 0 ∧ ∃ x ∈ firstLoad.mappings, x.1 = i ∧ (m.pte .kernel x.2).frame = f := by
  obtain ⟨m₁, hm₁, hm₂⟩ := firstProcess_eq_ok.mp h
  have hlive : m₁.live = ∅ := by
    have hdec : (firstWindows.run bootMemory).map (fun m => decide (m.live = ∅)) = .ok true := by
      decide +kernel
    rw [hm₁] at hdec
    simpa [Except.map] using hdec
  have hpid : m₁.getFreePid = 0 := by simp [getFreePid, hlive, skipWhile, maxProcesses]
  rw [Op.run] at hm₂
  split_ifs at hm₂ with hused
  obtain ⟨⟨o, _⟩, hres, rfl⟩ := map_eq_ok.mp hm₂
  rcases exec_cases hres with heq | ⟨p, hp, -, heq⟩
  · rw [heq, hlive] at hq
    exact absurd hq (by simp)
  rw [heq, hpid] at hq hrefs ⊢
  have hq : q = 0 := by simpa [loaded, hlive] using hq
  subst hq
  rw [pte_loaded, if_pos rfl] at hrefs
  rcases buildProcess_fromWindows hp i with hz | ⟨w, hw, -, hfrom⟩
  · rw [hz, Entry.refs_default] at hrefs
    exact absurd hrefs (by simp)
  · refine ⟨rfl, (i, w), hw, rfl, ?_⟩
    rw [pte_loaded, if_neg (by simp)]
    exact hfrom.frame.symm.trans (Entry.refs_eq_one.mp hrefs).2

lemma settled_bootMemory (h₁ : 4096 ≤ f) (h₂ : f < 785408 ∨ 789504 ≤ f) : Settled f bootMemory :=
  ⟨tracked_bootMemory h₁, fun _ => if_neg (by omega)⟩

end Memory

end BrebOS
