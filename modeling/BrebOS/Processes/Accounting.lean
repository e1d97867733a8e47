import BrebOS.Lib.Count
import BrebOS.Core.Memory.Heap
import BrebOS.Processes.Frames

/-!
# Reference counts

`frame_rc` is meant to count the entries that map a frame, in the tables of the kernel and of all
processes.  Five places change it, and not all of them agree:

* the loader enters frames in the tables of a new process **without counting** them;
* `free_page` for the kernel lowers the count and keeps the entry when the frame has other
  references, and lowers it for a page that was never touched, whose entry only names a frame;
* a lazy fault of a process on a page of the kernel counts 2 for one entry;
* `fork` copies the lazy pages of a stack as entries that name a frame they do not map;
* the tables of a process disappear without giving back what they still map.

`CountsRight` excludes exactly these for one frame, and `run_accounted` says that nothing else goes
wrong.
-/

namespace BrebOS

namespace Memory

variable {m m' : Memory} {proc : ProcId} {S : Finset ProcId} {self child pid page i frame f : ℕ}
  {e val : Entry} {policy : Flags}

/-! ## Counting entries -/

/-- The number of entries of a set of address spaces that map a frame. -/
def refCount (S : Finset ProcId) (m : Memory) (f : ℕ) : ℕ :=
  ∑ p ∈ S, ∑ i ∈ Finset.range p.entries, (m.pte p i).refs f

lemma refCount_congr (h : ∀ p ∈ S, ∀ i < p.entries, (m'.pte p i).refs f = (m.pte p i).refs f) :
    refCount S m' f = refCount S m f :=
  Finset.sum_congr rfl fun p hp =>
    Finset.sum_congr rfl fun i hi => h p hp i (Finset.mem_range.mp hi)

lemma refCount_change (hproc : proc ∈ S) (hpage : page < proc.entries)
    (h : ∀ p i, ¬ (p = proc ∧ i = page) → m'.pte p i = m.pte p i) :
    refCount S m' f + (m.pte proc page).refs f = refCount S m f + (m'.pte proc page).refs f := by
  have hother : ∀ p ∈ S, p ≠ proc → ∑ i ∈ Finset.range p.entries, (m'.pte p i).refs f =
      ∑ i ∈ Finset.range p.entries, (m.pte p i).refs f := by
    intro p _ hp
    exact Finset.sum_congr rfl fun i _ => by rw [h p i fun h' => hp h'.1]
  have htable : ∑ i ∈ Finset.range proc.entries, (m'.pte proc i).refs f + (m.pte proc page).refs f =
      ∑ i ∈ Finset.range proc.entries, (m.pte proc i).refs f + (m'.pte proc page).refs f := by
    refine sum_change (g := fun i => (m.pte proc i).refs f) (Finset.mem_range.mpr hpage) ?_
    intro i _ hi
    rw [h proc i fun h' => hi h'.2]
  have hspaces := sum_change hproc hother
  simp only [refCount]
  omega

lemma refs_le_refCount (hproc : proc ∈ S) (hpage : page < proc.entries) :
    (m.pte proc page).refs f ≤ refCount S m f :=
  calc (m.pte proc page).refs f
      ≤ ∑ i ∈ Finset.range proc.entries, (m.pte proc i).refs f :=
        Finset.single_le_sum (fun i _ => Nat.zero_le ((m.pte proc i).refs f))
          (Finset.mem_range.mpr hpage)
    _ ≤ refCount S m f := Finset.single_le_sum
        (fun p _ => Nat.zero_le (∑ i ∈ Finset.range p.entries, (m.pte p i).refs f)) hproc

lemma two_le_refCount {j : ℕ} (hk : .kernel ∈ S) (hu : .user pid ∈ S) (hi : i < numFrames)
    (hj : j < userEntries) (hki : (m.pte .kernel i).refs f = 1)
    (huj : (m.pte (.user pid) j).refs f = 1) : 2 ≤ refCount S m f := by
  have hkernel : 1 ≤ refCount {.kernel} m f :=
    hki ▸ refs_le_refCount (Finset.mem_singleton_self _) hi
  have huser : 1 ≤ refCount {.user pid} m f :=
    huj ▸ refs_le_refCount (Finset.mem_singleton_self _) hj
  have hpair : refCount {.kernel} m f + refCount {.user pid} m f = refCount {.kernel, .user pid} m f := by
    simp [refCount]
  have hsub : refCount {.kernel, .user pid} m f ≤ refCount S m f := by
    refine Finset.sum_le_sum_of_subset fun p hp => ?_
    rcases Finset.mem_insert.mp hp with rfl | hp
    · exact hk
    · exact Finset.mem_singleton.mp hp ▸ hu
  omega

/-! ## The invariant -/

/-- The count of a frame is right, and the processes that name the frame map it. -/
structure Counted (S : Finset ProcId) (f : ℕ) (m : Memory) : Prop extends Tracked f m where
  rc : m.frameRc f = refCount S m f
  named : ∀ pid, .user pid ∈ S → ∀ i, (m.pte (.user pid) i).frame = f →
    (m.pte (.user pid) i).mapped = true

namespace Counted

lemma congr (h : Counted S f m) (hpte : m'.pte = m.pte) (hpages : m'.frameToPage = m.frameToPage)
    (hrc : m'.frameRc f = m.frameRc f) : Counted S f m' where
  toTracked := h.toTracked.congr hpte hpages
  rc := by
    rw [hrc, h.rc]
    exact (refCount_congr fun p _ i _ => by rw [hpte]).symm
  named := by
    rw [hpte]
    exact h.named

lemma scanned (h : Counted S f m) (hs : Scanned m m') : Counted S f m' :=
  h.congr hs.pte hs.frameToPage (by rw [hs.frameRc])

lemma updated (h : Counted S f m) (hproc : proc ∈ S) (hpage : page < proc.entries)
    (hval : val.Ok) (hnamed : val.frame = f → val.mapped = true)
    (hprev : (m.pte proc page).frame = f → (m.pte proc page).mapped = true)
    (hkernel : proc = .kernel → ∀ g, val.refs g = (m.pte .kernel page).refs g) :
    Counted S f (m.updated proc page val) := by
  refine ⟨h.toTracked.updated hval hkernel, ?_, fun p hp i => ?_⟩
  · have hchange : refCount S (m.updated proc page val) f + (m.pte proc page).refs f =
        refCount S m f + ((m.updated proc page val).pte proc page).refs f :=
      refCount_change hproc hpage fun p i hne => by rw [pte_updated, if_neg hne]
    have hle : (m.pte proc page).refs f ≤ refCount S m f := refs_le_refCount hproc hpage
    have hold : (m.pte proc page).refs f = if (m.pte proc page).frame = f then 1 else 0 := by
      rw [Entry.refs]
      by_cases hf : (m.pte proc page).frame = f
      · rw [if_pos hf, if_pos ⟨hprev hf, hf⟩]
      · rw [if_neg hf, if_neg fun h' => hf h'.2]
    rw [pte_updated_self] at hchange
    rw [frameRc_updated, ← hold, h.rc]
    omega
  · rw [pte_updated]
    split_ifs
    exacts [hnamed, h.named p hp i]

lemma updated_user (h : Counted S f m) (hpid : .user pid ∈ S) (hpage : page < userEntries)
    (hval : val.Ok) (hnamed : val.frame = f → val.mapped = true) :
    Counted S f (m.updated (.user pid) page val) :=
  h.updated hpid hpage hval hnamed (h.named pid hpid page) (by simp)

lemma cleared (h : Counted S f m) (hpid : .user pid ∈ S) (hpage : page < userEntries) :
    Counted S f (m.updated (.user pid) page {}) :=
  h.updated_user hpid hpage .empty fun h' => absurd h' h.ne_zero.symm

lemma allocated (h : Counted S f m) (hk : .kernel ∈ S) (hpage : page < numFrames)
    (hunmapped : (m.pte .kernel page).mapped = false)
    (hok : (⟨frame, policy⟩ : Entry).Ok) (hused : (⟨frame, policy⟩ : Entry).used = true)
    (hfree : frame < numFrames → m.frameToPage frame = none)
    (hp : policy.present = true → frame < numFrames ∧ m.frameRc frame = 0) :
    Counted S f (m.allocated frame page policy) := by
  refine ⟨h.toTracked.allocated hpage hunmapped hok hused hfree fun h' => (hp h').1, ?_,
    fun p hp' i => ?_⟩
  · have hchange : refCount S (m.allocated frame page policy) f + (m.pte .kernel page).refs f =
        refCount S m f + ((m.allocated frame page policy).pte .kernel page).refs f :=
      refCount_change hk hpage fun p i hne => by rw [pte_allocated, if_neg hne]
    rw [Entry.refs_of_not_mapped hunmapped, pte_allocated, if_pos ⟨rfl, rfl⟩] at hchange
    rw [frameRc_allocated]
    by_cases hc : policy.present = true ∧ f = frame
    · have hnew : (⟨frame % numFrames, policy⟩ : Entry).refs f = 1 := by
        rw [Entry.refs_eq_one, (hok.of_flags hused).mapped_iff]
        exact ⟨hc.1, by rw [Nat.mod_eq_of_lt (hp hc.1).1, hc.2]⟩
      have hzero : m.frameRc f = 0 := hc.2 ▸ (hp hc.1).2
      have := h.rc
      rw [if_pos hc]
      omega
    · have hnew : (⟨frame % numFrames, policy⟩ : Entry).refs f = 0 := by
        rw [Entry.refs_eq_zero, (hok.of_flags hused).mapped_iff]
        rintro ⟨hpres, heq⟩
        rw [Nat.mod_eq_of_lt (hp hpres).1] at heq
        exact hc ⟨hpres, heq.symm⟩
      rw [if_neg hc, h.rc]
      omega
  · rw [pte_allocated_user]
    exact h.named p hp' i

lemma lazyFilled (h : Counted S f m) (hk : .kernel ∈ S) {higherHalf : Bool} {sysPe : ℕ}
    (hproc : faultTable proc higherHalf ∈ S) (hpage : page < (faultTable proc higherHalf).entries)
    (hlazy : (m.pte (faultTable proc higherHalf) page).flags.lazyZero = true)
    (hone : ¬ (proc ≠ .kernel ∧ higherHalf = true ∧ frame = f))
    (hf : LazyFilled proc higherHalf page frame sysPe m m') : Counted S f m' := by
  set z := zeroEntry frame (m.pte (faultTable proc higherHalf) page).flags.user with hz
  have hzero : z.refs f = if f = frame then 1 else 0 := by
    simp only [hz, Entry.refs, zeroEntry, Entry.mapped, Nat.mod_eq_of_lt hf.frame_lt]
    simp [@eq_comm _ frame]
  have hold : (m.pte (faultTable proc higherHalf) page).refs f = 0 := by
    simp [Entry.refs, Entry.mapped, hlazy]
  have hfresh : f = frame → refCount S m f = 0 := by
    rintro rfl
    rw [← h.rc, hf.frame_rc]
  refine ⟨h.toTracked.lazyFilled hlazy hf, ?_, fun p hp i => ?_⟩
  · rw [hf.frameRc]
    rcases hf.sysPe_unused with ⟨htab, rfl⟩ | ⟨⟨pid, htab⟩, hun⟩
    · -- one entry, of the kernel
      have hchange : refCount S m' f + (m.pte .kernel sysPe).refs f =
          refCount S m f + (m'.pte .kernel sysPe).refs f :=
        refCount_change hk hf.sysPe_lt fun p i hne => by rw [hf.pte, htab, if_neg (by tauto)]
      rw [← htab, hold, hf.pte, if_pos (Or.inl ⟨rfl, rfl⟩), hzero] at hchange
      by_cases hff : f = frame
      · have hkernel : proc = .kernel := by
          by_contra hne
          refine hone ⟨hne, ?_, hff.symm⟩
          by_contra hlow
          rw [faultTable, if_neg hlow] at htab
          exact hne htab
        have := hfresh hff
        rw [if_pos hff, if_pos hkernel]
        rw [if_pos hff] at hchange
        omega
      · rw [if_neg hff] at hchange ⊢
        rw [h.rc]
        omega
    · -- one entry of the process, and its duplicate
      have hne : proc ≠ .kernel := by
        rintro rfl
        simp [faultTable] at htab
      rw [htab] at hproc hpage
      have hfirst : refCount S (m.setPte (.user pid) page z) f + (m.pte (.user pid) page).refs f =
          refCount S m f + ((m.setPte (.user pid) page z).pte (.user pid) page).refs f :=
        refCount_change hproc hpage fun p i hne => by rw [pte_setPte, if_neg hne]
      have hsecond : refCount S m' f + ((m.setPte (.user pid) page z).pte .kernel sysPe).refs f =
          refCount S (m.setPte (.user pid) page z) f + (m'.pte .kernel sysPe).refs f := by
        refine refCount_change hk hf.sysPe_lt fun p i hne => ?_
        rw [hf.pte, pte_setPte, htab]
        by_cases hc : p = .user pid ∧ i = page
        · rw [if_pos (Or.inl hc), if_pos hc, ← htab]
        · rw [if_neg hc, if_neg (by tauto)]
      rw [← htab, hold, pte_setPte, if_pos ⟨rfl, rfl⟩, hzero, htab] at hfirst
      rw [pte_setPte, if_neg (by simp), Entry.refs_of_not_mapped (Entry.mapped_of_unused hun), hf.pte,
        if_pos (Or.inr ⟨rfl, rfl⟩), hzero] at hsecond
      by_cases hff : f = frame
      · have := hfresh hff
        rw [if_pos hff, if_neg hne]
        rw [if_pos hff] at hfirst hsecond
        omega
      · rw [if_neg hff] at hfirst hsecond ⊢
        rw [h.rc]
        omega
  · rw [hf.pte]
    by_cases hc : .user p = faultTable proc higherHalf ∧ i = page ∨ ProcId.user p = .kernel ∧ i = sysPe
    · rw [if_pos hc]
      exact fun _ => rfl
    · rw [if_neg hc]
      exact h.named p hp i

lemma released_other (h : Counted S f m) (hpage : page < numFrames)
    (hne : (m.pte .kernel page).frame ≠ f) : Counted S f (m.released page) := by
  refine ⟨h.toTracked.released (fun _ h' => absurd h' hne) hpage, ?_, fun p hp i => ?_⟩
  · rw [frameRc_released, if_neg fun h' => hne h'.2.symm, h.rc]
    refine (refCount_congr fun p _ i _ => ?_).symm
    rw [pte_released]
    split_ifs with hc
    · rw [hc.1, hc.2, Entry.refs_default, Entry.refs_eq_zero.mpr fun h' => hne h'.2]
    · rfl
  · rw [pte_released, if_neg (by simp)]
    exact h.named p hp i

lemma released_last (h : Counted S f m) (hk : .kernel ∈ S) (hpage : page < numFrames)
    (hrefs : (m.pte .kernel page).refs f = 1) (hrc : m.frameRc f = 1) :
    Counted S f ((m.setRc f 0).released page) := by
  obtain ⟨hmapped, hframe⟩ := Entry.refs_eq_one.mp hrefs
  have hlazy : (m.pte .kernel page).flags.lazyZero = false := by
    simp only [Entry.mapped, Bool.and_eq_true, Bool.not_eq_true'] at hmapped
    exact hmapped.2
  have hpte : (m.setRc f 0).pte = m.pte := by simp
  refine ⟨(h.toTracked.congr hpte rfl).released (fun _ _ => by rwa [hpte]) hpage, ?_,
    fun p hp i => ?_⟩
  · have hchange : refCount S ((m.setRc f 0).released page) f + (m.pte .kernel page).refs f =
        refCount S m f + (((m.setRc f 0).released page).pte .kernel page).refs f :=
      refCount_change hk hpage fun p i hne => by rw [pte_released, if_neg hne, hpte]
    rw [hrefs, pte_released, if_pos ⟨rfl, rfl⟩, Entry.refs_default, ← h.rc, hrc] at hchange
    rw [frameRc_released, hpte, if_pos ⟨hlazy, hframe.symm⟩]
    omega
  · rw [pte_released, if_neg (by simp), hpte]
    exact h.named p hp i

/-! ### Page operations -/

lemma sbrkUserPage (h : Counted S f m) (hk : .kernel ∈ S) (hpid : .user pid ∈ S)
    (hcow : policy.cow = false) (hpres : policy.present = true) (hlazy : policy.lazyZero = false)
    (hrun : sbrkUserPage pid policy m page = .ok m') : Counted S f m' := by
  obtain ⟨frame, sysPe, m₁, hs, hpage, hsys, hun, hfree, hp, rfl⟩ := sbrkUserPage_spec hrun
  have hok : ∀ g, (⟨g, policy⟩ : Entry).Ok := fun g => .of_policy hcow (by simp [hpres, hlazy])
  have hmap : (⟨frame % numFrames, policy⟩ : Entry).mapped = true := (hok _).mapped_iff.mpr hpres
  refine Counted.updated_user ?_ hpid hpage (hok _) fun _ => hmap
  refine (h.scanned hs).allocated hk hsys ?_ (hok _) (by simp [Entry.used, hpres]) ?_ ?_
  · rw [hs.pte]
    exact Entry.mapped_of_unused hun
  · rwa [hs.frameToPage]
  · rwa [hs.frameRc]

lemma shared (h : Counted S f m) (hself : .user self ∈ S) (hchild : .user child ∈ S)
    (hrun : copyPageToOtherProcessShared self child page m = .ok m') : Counted S f m' := by
  rcases copyPageToOtherProcessShared_cases hrun with ⟨-, rfl⟩ | ⟨hp, hpage, -, rfl⟩
  · exact h
  · have hok := h.entries (.user self) page
    have hmap : (sharedEntry (m.pte (.user self) page)).mapped = true := hok.mapped_iff.mpr hp
    exact (h.updated_user hself hpage (hok.sharedEntry hp) fun _ => hmap).updated_user hchild hpage
      (hok.sharedEntry hp) fun _ => hmap

lemma stackCopied {mapping : ℕ} (h : Counted S f m) (hk : .kernel ∈ S) (hself : .user self ∈ S)
    (hchild : .user child ∈ S)
    (hmap : m.pte (.user self) page ≠ {} → (m.pte (.user self) page).mapped = true)
    (hrun : copyPageToOtherProcess self child page mapping m = .ok m') : Counted S f m' := by
  rcases copyPageToOtherProcess_cases hrun with ⟨-, rfl⟩ |
    ⟨hz, frame, sysPe, m₁, hs, -, hpage, hmapping, hsys, hun, hfree, hp, rfl⟩
  · exact h
  have hok : ∀ g, (⟨g, (m₁.pte (.user self) page).flags⟩ : Entry).Ok := by
    intro g
    rw [hs.pte]
    exact (h.entries (.user self) page).of_flags (Entry.used_of_mapped (hmap hz))
  have hmapped : (⟨frame % numFrames, (m₁.pte (.user self) page).flags⟩ : Entry).mapped = true := by
    rw [hs.pte]
    exact hmap hz
  refine Counted.congr ?_ pte_copyPage rfl rfl
  refine Counted.updated_user (Counted.updated_user ?_ hchild hpage (hok _) fun _ => hmapped) hself
    hmapping (hok _) fun _ => hmapped
  refine (h.scanned hs).allocated hk hsys ?_ (hok _) (Entry.used_of_mapped hmapped) ?_ ?_
  · rw [hs.pte]
    exact Entry.mapped_of_unused hun
  · rwa [hs.frameToPage]
  · rwa [hs.frameRc, hs.pte]

lemma copyOnWrite {higherHalf : Bool} (h : Counted S f m) (hk : .kernel ∈ S) (hproc : proc ∈ S)
    (hcow : (m.pte proc page).flags.cow = true)
    (hrun : handleCowPageFault proc higherHalf page m = .ok m') : Counted S f m' := by
  obtain ⟨pid, c, m₁, rfl, -, hs, hc, hlast⟩ := handleCowPageFault_spec hrun
  replace h := h.scanned hs
  rw [← hs.pte] at hcow
  have hok := h.entries (.user pid) page
  have hpres := hok.cow hcow
  have hmap := hok.mapped_iff.mpr hpres
  have hprivate : (c.entry (m₁.pte (.user pid) page)).Ok := hok.private hpres
  have hmap' : (c.entry (m₁.pte (.user pid) page)).mapped = true := hprivate.mapped_iff.mpr hpres
  have hhandled : Counted S f (cowHandled pid page c m₁) := by
    refine Counted.cleared (Counted.congr ?_ pte_copyPage rfl rfl) hproc hc.mappingPe_lt
    refine Counted.updated_user (Counted.updated_user ?_ hproc hc.mappingPe_lt hok fun _ => hmap)
      hproc hc.page_lt hprivate fun _ => hmap'
    exact h.allocated hk hc.sysPe_lt (Entry.mapped_of_unused hc.sysPe_unused)
      (hok.private hpres) (Entry.used_of_present (e := ⟨c.frame, _⟩) hpres) hc.frame_free hc.frame_rc
  split_ifs at hlast with hrc
  · -- the frame the handler would free is not this one
    have hne : f ≠ c.frame := by
      rintro rfl
      exact frameRc_cowHandled_frame hc hmap (fun _ => h.stray hc.mappingPe_unused) hrc
    obtain ⟨hpte, -, hrcs, hpages⟩ := markFrameFree_eq_ok hrc hlast
    refine ⟨hhandled.toTracked.forgot hne hpte hpages, ?_, ?_⟩
    · rw [hrcs, hhandled.rc]
      exact (refCount_congr fun p _ i _ => by rw [hpte]).symm
    · rw [hpte]
      exact hhandled.named
  · exact Except.ok.inj hlast ▸ hhandled

end Counted

/-! ## Steps -/

/-- The steps that count the frame right.  A page of the kernel that names the frame must be the only
one that maps it when it is freed; a window of the loader must not name it; the stack pages that
`fork` copies must be mapped; a process must not fault for it on a page of the kernel; and a process
that ends must not map it any more. -/
def CountsRight (f : ℕ) : Op → Memory → Prop
  | .freePage .kernel address, m => (m.pte .kernel (addrPage address)).frame = f →
      (m.pte .kernel (addrPage address)).mapped = true ∧ m.frameRc f = 1
  | .fault proc address _, m => ¬ (proc ≠ .kernel ∧ kernelVirtualBase ≤ address ∧
      (m.pte .kernel (addrPage address)).flags.lazyZero = true ∧ m.getFreeFrame.1 = f)
  | .mprotect .kernel _ _ _, m => ∀ i, (m.pte .kernel i).frame = f →
      (m.pte .kernel i).mapped = true
  | .fork pid, m => ∀ page ∈ stackLoopPages ++ syscallStackLoopPages,
      m.pte (.user pid) page ≠ {} → (m.pte (.user pid) page).mapped = true
  | .exec req, m => ∀ x ∈ req.mappings, (m.pte .kernel x.2).frame ≠ f
  | .drop pid, m => ∀ i < userEntries, (m.pte (.user pid) i).refs f = 0
  | _, _ => True

namespace Counted

variable {op : Op}

lemma sbrk_step {n addr : ℕ} {info : PageInfo} {hint : HintInfo} (h : Counted m.spaces f m)
    (hproc : proc ∈ m.spaces) (hpol : info.policy.present ≠ info.policy.lazyZero)
    (hrun : sbrk proc n info hint m = .ok (addr, m')) : Counted m'.spaces f m' := by
  rcases sbrk_cases hrun with ⟨-, rfl⟩ | ⟨-, -, -, -, hcow, -⟩
  · exact h
  have hok : ∀ g, (⟨g, info.policy⟩ : Entry).Ok := fun g => .of_policy hcow hpol
  have hused : ∀ g, (⟨g, info.policy⟩ : Entry).used = true := fun g => Entry.used_of_policy hpol
  have hmain : Counted m.spaces f m' ∧ m'.live = m.live := by
    refine sbrk_rule (P := fun c => Counted m.spaces f c ∧ c.live = m.live) hrun ⟨h, rfl⟩ ?_ ?_ ?_ ?_
    · rintro - m₁ m₂ page ⟨hc, hlive⟩ hun hstep
      obtain ⟨frame, m₃, hs, hpage, hfree, hp, rfl⟩ := allocateFreePage_spec hstep
      refine ⟨(hc.scanned hs).allocated (by simp) hpage ?_ (hok _) (hused _) ?_ ?_,
        by rw [live_allocated, hs.live, hlive]⟩
      · rw [hs.pte]
        exact Entry.mapped_of_unused hun
      · rwa [hs.frameToPage]
      · rwa [hs.frameRc]
    · rintro pid rfl hlazy m₁ m₂ page ⟨hc, hlive⟩ - hstep
      have hpres : info.policy.present = true := by
        rw [hlazy] at hpol
        simpa using hpol
      refine ⟨hc.sbrkUserPage (by simp) hproc hcow hpres hlazy hstep, ?_⟩
      obtain ⟨frame, sysPe, m₃, hs, -, -, -, -, -, rfl⟩ := sbrkUserPage_spec hstep
      rw [live_updated, live_allocated, hs.live, hlive]
    · rintro pid rfl - m₁ page ⟨hc, hlive⟩ hpage -
      exact ⟨hc.updated_user hproc hpage (hok _) fun h' => absurd h' h.ne_zero.symm, by simpa⟩
    · rintro m₁ pe ⟨hc, hlive⟩
      exact ⟨hc.congr (by simp) (by simp) (by simp), by simpa⟩
  rw [spaces_congr hmain.2]
  exact hmain.1

lemma freePage_step {address : ℕ} (h : Counted m.spaces f m) (hproc : proc ∈ m.spaces)
    (hok : CountsRight f (.freePage proc address) m)
    (hrun : freePageOf proc address m = .ok m') : Counted m'.spaces f m' := by
  cases proc with
  | kernel =>
      obtain ⟨e, rfl, hpage, ⟨rfl, hleft⟩ | ⟨hzero, hfree⟩⟩ := freePageOf_kernel_cases hrun
      · -- other references are left: the frame is not this one
        have hne : (m.pte .kernel (addrPage address)).frame ≠ f := by
          intro hef
          rw [hef, (hok hef).2] at hleft
          exact hleft rfl
        change Counted m.spaces f _
        exact h.congr (by simp) rfl (Function.update_of_ne hne.symm _ _)
      · obtain ⟨-, -, rfl⟩ := freePage_eq_ok.mp hfree
        rw [spaces_congr (m := m) (by simp [setRc])]
        by_cases hef : (m.pte .kernel (addrPage address)).frame = f
        · obtain ⟨hmap, hone⟩ := hok hef
          rw [hef]
          exact h.released_last (by simp) hpage (Entry.refs_eq_one.mpr ⟨hmap, hef⟩) hone
        · have hother : Counted m.spaces f
              (m.setRc (m.pte .kernel (addrPage address)).frame 0) :=
            h.congr (by simp) rfl (Function.update_of_ne (Ne.symm hef) _ _)
          exact hother.released_other hpage (by simpa using hef)
  | user pid =>
      obtain ⟨e, he, hpage, -, ⟨rfl, -⟩ | ⟨hlazy, hrc, p, hp, hfree⟩⟩ := freePageOf_user_cases hrun
      · rw [spaces_congr live_updated]
        exact h.cleared hproc hpage
      · obtain ⟨hplt, -, rfl⟩ := freePage_eq_ok.mp hfree
        have hkern := (h.back _ _ hp).2
        have hne : e.frame ≠ f := by
          intro hef
          rw [hef] at hrc hkern
          have hmap : e.mapped = true := he ▸ h.named pid hproc _ (he ▸ hef)
          have htwo := two_le_refCount (by simp) hproc hplt hpage hkern
            (he ▸ Entry.refs_eq_one.mpr ⟨hmap, hef⟩)
          rw [h.rc] at hrc
          omega
        rw [spaces_congr (m := m) (by simp)]
        refine (h.cleared hproc hpage).released_other hplt ?_
        rw [pte_updated_of_ne (by simp), (Entry.refs_eq_one.mp hkern).2]
        exact hne

lemma fault_step {address : ℕ} {writeAccess handled : Bool} (h : Counted m.spaces f m)
    (hproc : proc ∈ m.spaces) (hok : CountsRight f (.fault proc address writeAccess) m)
    (hrun : pageFaultHandler proc address writeAccess m = .ok (handled, m')) :
    Counted m'.spaces f m' := by
  set higherHalf := decide (kernelVirtualBase ≤ address) with hhigh
  have htable : faultTable proc higherHalf ∈ m.spaces := by
    rw [faultTable]
    split_ifs
    exacts [kernel_mem_spaces m, hproc]
  have hentry := h.entries (faultTable proc higherHalf) (addrPage address)
  obtain ⟨hpage, rfl | ⟨hcow, hcow'⟩ | ⟨hlazy, hlazy'⟩⟩ := pageFaultHandler_cases hhigh
    (fun h' => by simp [hentry.present (hentry.cow h'.1)] at h') hrun
  · exact h
  · rw [spaces_congr (handleCowPageFault_live hcow')]
    have hlow : higherHalf = false := by
      obtain ⟨_, _, _, -, hlow, -⟩ := handleCowPageFault_spec hcow'
      exact hlow
    rw [hlow] at hcow
    exact h.copyOnWrite (by simp) hproc hcow hcow'
  · obtain ⟨sysPe, hf⟩ := handleLazyZeroPageFault_spec (lt_of_lt_of_le hpage (by
      cases faultTable proc higherHalf <;> simp [ProcId.entries, numFrames, userEntries])) hlazy'
    rw [spaces_congr hf.live]
    refine h.lazyFilled (by simp) htable hpage hlazy ?_ hf
    rintro ⟨hne, hhh, hframe⟩
    refine hok ⟨hne, by simpa [hhigh] using hhh, ?_, hframe⟩
    rwa [faultTable, if_pos hhh] at hlazy

lemma mprotect_step {addr len : ℕ} {prot : Prot} {r : MprotectResult} (h : Counted m.spaces f m)
    (hproc : proc ∈ m.spaces) (hok : CountsRight f (.mprotect proc addr len prot) m)
    (hrun : mprotect addr len prot proc m = .ok (r, m')) : Counted m'.spaces f m' := by
  have hnames : ∀ i, (m.pte proc i).frame = f → (m.pte proc i).mapped = true := by
    cases proc with
    | kernel => exact hok
    | user pid => exact h.named pid hproc
  have hmain : (Counted m.spaces f m' ∧ m'.live = m.live) ∧
      ∀ i, (m'.pte proc i).frame = f → (m'.pte proc i).mapped = true := by
    refine mprotect_rule (P := fun c => (Counted m.spaces f c ∧ c.live = m.live) ∧
      ∀ i, (c.pte proc i).frame = f → (c.pte proc i).mapped = true) hrun ⟨⟨h, rfl⟩, hnames⟩ ?_
    rintro m₁ page - ⟨⟨hc, hlive⟩, hn⟩ hpage hused -
    refine ⟨⟨hc.updated hproc hpage ((hc.entries _ _).withWrite hused) (hn page) (hn page) ?_,
      by simpa⟩, ?_⟩
    · rintro rfl g
      exact Entry.refs_withWrite
    · intro i
      rw [pte_updated]
      split_ifs with hi
      · exact hn page
      · exact hn i
  rw [spaces_congr hmain.1.2]
  exact hmain.1.1

lemma insert (h : Counted S f m) (hnone : ∀ i, (m.pte (.user pid) i).frame ≠ f) :
    Counted (insert (.user pid) S) f m := by
  refine ⟨h.toTracked, ?_, fun p hp i hi => ?_⟩
  · have hzero : ∑ i ∈ Finset.range (ProcId.user pid).entries, (m.pte (.user pid) i).refs f = 0 :=
      Finset.sum_eq_zero fun i _ => Entry.refs_eq_zero.mpr fun h' => hnone i h'.2
    by_cases hmem : .user pid ∈ S
    · rw [Finset.insert_eq_of_mem hmem, h.rc]
    · rw [h.rc, refCount, refCount, Finset.sum_insert hmem, hzero, Nat.zero_add]
  · rcases Finset.mem_insert.mp hp with heq | hp
    · rw [ProcId.user.injEq] at heq
      exact absurd hi (heq ▸ hnone i)
    · exact h.named p hp i hi

lemma withChild (h : Counted m.spaces f m) (hchild : child ∉ m.live) :
    Counted (Insert.insert (.user child) m.spaces) f (m.withChild self child) := by
  have hother : ∀ p ∈ m.spaces, ∀ i, (m.withChild self child).pte p i = m.pte p i := by
    intro p hp i
    rw [pte_withChild, if_neg]
    rintro rfl
    exact hchild (user_mem_spaces.mp hp)
  refine Counted.insert ⟨h.toTracked.withChild, ?_, fun p hp i => ?_⟩ fun i => ?_
  · change m.frameRc f = _
    rw [h.rc]
    exact (refCount_congr fun p hp i _ => by rw [hother p hp]).symm
  · rw [hother _ hp]
    exact h.named p hp i
  · rw [pte_withChild, if_pos rfl]
    exact h.ne_zero.symm

lemma fork_step {r : Forked} (h : Counted m.spaces f m) (hself : .user self ∈ m.spaces)
    (hok : CountsRight f (.fork self) m) (hrun : fork self m = .ok r) :
    Counted r.memory.spaces f r.memory := by
  have hchild := fork_child_not_mem hrun
  set child := m.getFreePid with hchild_eq
  set S := Insert.insert (.user child) m.spaces with hS
  have hk : .kernel ∈ S := by simp [hS]
  have hself' : .user self ∈ S := by simp [hS, hself]
  have hchild' : .user child ∈ S := by simp [hS]
  have hne : self ≠ child := by
    rintro rfl
    exact hchild (user_mem_spaces.mp hself)
  -- the stack pages of the parent stay mapped, and so does the mapping page once it is used
  set P : Memory → Prop := fun c => (Counted S f c ∧ c.live = m.live) ∧
    ∀ page ∈ stackLoopPages ++ syscallStackLoopPages, c.pte (.user self) page ≠ {} →
      (c.pte (.user self) page).mapped = true with hP
  obtain ⟨-, -, m₁, ⟨⟨hc, hlive⟩, -⟩, -, -, hmem⟩ : _ ∧ _ ∧ ∃ m₁, P m₁ ∧ _ := by
    refine fork_rule hrun ?_ ?_ (fun _ => id) ?_ ?_
    · refine ⟨⟨h.withChild hchild, rfl⟩, fun page hpage => ?_⟩
      rw [pte_withChild, if_neg (by simpa using hne)]
      exact hok page hpage
    · rintro m₁ m₂ page ⟨⟨hc, hlive⟩, hstack⟩ - hstep
      refine ⟨⟨hc.shared hself' hchild' hstep, ?_⟩, ?_⟩
      · rcases copyPageToOtherProcessShared_cases hstep with ⟨-, rfl⟩ | ⟨-, -, -, rfl⟩
        exacts [hlive, by simpa]
      · rcases copyPageToOtherProcessShared_cases hstep with ⟨-, rfl⟩ | ⟨hp, -, -, rfl⟩
        · exact hstack
        · intro page' hpage'
          rw [pte_updated_of_ne fun h' => absurd (ProcId.user.inj h') hne, pte_updated]
          split_ifs
          · exact fun _ => (hc.entries _ _).mapped_iff.mpr hp
          · exact hstack page' hpage'
    · rintro m₁ m₂ page ⟨⟨hc, hlive⟩, hstack⟩ hpage hstep
      refine ⟨⟨hc.stackCopied hk hself' hchild' (hstack page hpage) hstep, ?_⟩, ?_⟩
      · rcases copyPageToOtherProcess_cases hstep with ⟨-, rfl⟩ | ⟨-, frame, sysPe, m₃, hs, -, -, -, -,
          -, -, -, rfl⟩
        · exact hlive
        · simp only [Memory.stackCopied, live_copyPage, live_updated, live_allocated, hs.live, hlive]
      · rcases copyPageToOtherProcess_cases hstep with ⟨-, rfl⟩ | ⟨hz, frame, sysPe, m₃, hs, -, -, -, -,
          -, -, -, rfl⟩
        · exact hstack
        · intro page' hpage'
          simp only [Memory.stackCopied, pte_copyPage]
          rw [pte_updated]
          split_ifs
          · rw [hs.pte]
            exact fun _ => hstack page hpage hz
          · rw [pte_updated_of_ne fun h' => absurd (ProcId.user.inj h') hne, pte_allocated_user,
              hs.pte]
            exact hstack page' hpage'
    · rintro m₁ ⟨⟨hc, hlive⟩, hstack⟩
      refine ⟨⟨hc.congr pte_copyPdt rfl rfl, hlive⟩, ?_⟩
      rw [pte_copyPdt]
      exact hstack
  have hspaces : r.memory.spaces = S := by
    rw [hmem, spaces]
    simp only [live_updated, hlive, hS, spaces, Finset.image_insert]
    exact Finset.insert_comm _ _ _
  rw [hspaces, hmem]
  refine (hc.cleared hself' (by decide)).congr ?_ rfl rfl
  funext p
  cases p <;> rfl

lemma exec_step {req : LoadRequest} {o : Option ℕ} (h : Counted m.spaces f m)
    (hused : ∀ x ∈ req.mappings, (m.pte .kernel x.2).used = true)
    (hok : CountsRight f (.exec req) m) (hrun : exec req m = .ok (o, m')) :
    Counted m'.spaces f m' := by
  rcases exec_cases hrun with rfl | ⟨p, hp, hpid, rfl⟩
  · exact h
  have hnew := getFreePid_not_mem hpid
  set pid := m.getFreePid
  have hspaces : (m.loaded pid p).spaces = Insert.insert (.user pid) m.spaces := by
    simp only [spaces, loaded, Finset.image_insert]
    exact Finset.insert_comm _ _ _
  have hother : ∀ q ∈ m.spaces, ∀ i, (m.loaded pid p).pte q i = m.pte q i := by
    intro q hq i
    rw [pte_loaded, if_neg]
    rintro rfl
    exact hnew (user_mem_spaces.mp hq)
  rw [hspaces]
  refine Counted.insert ⟨h.toTracked.loaded hused hp, ?_, fun q hq i => ?_⟩ fun i => ?_
  · change m.frameRc f = _
    rw [h.rc]
    exact (refCount_congr fun q hq i _ => by rw [hother q hq]).symm
  · rw [hother _ hq]
    exact h.named q hq i
  · rw [pte_loaded, if_pos rfl]
    rcases buildProcess_fromWindows hp i with hz | ⟨w, hw, -, hfrom⟩
    · rw [hz]
      exact h.ne_zero.symm
    · rw [hfrom.frame]
      exact hok _ hw

lemma drop_step (h : Counted m.spaces f m) (hok : CountsRight f (.drop pid) m) :
    Counted (m.drop pid).spaces f (m.drop pid) := by
  have hpte : (m.drop pid).pte = m.pte := by funext p; cases p <;> rfl
  have hsub : (m.drop pid).spaces ⊆ m.spaces := by
    intro p hp
    cases p with
    | kernel => simp
    | user q => exact user_mem_spaces.mpr (Finset.mem_of_mem_erase (user_mem_spaces.mp hp))
  refine ⟨h.toTracked.congr hpte rfl, ?_, fun q hq i => ?_⟩
  · change m.frameRc f = _
    rw [h.rc]
    refine (Finset.sum_subset hsub fun p hp hnot => Finset.sum_eq_zero fun i hi => ?_).symm
    · cases p with
      | kernel => simp at hnot
      | user q =>
          have hq : q = pid := by
            by_contra hq
            exact hnot (user_mem_spaces.mpr
              (Finset.mem_erase.mpr ⟨hq, user_mem_spaces.mp hp⟩))
          rw [hq]
          exact hok i (by simpa [ProcId.entries] using hi)
  · rw [hpte]
    exact h.named q (hsub hq) i

/-- **A step that counts right keeps the counts right.** -/
lemma step (h : Counted m.spaces f m) (hok : CountsRight f op m) (hrun : op.run m = .ok m') :
    Counted m'.spaces f m' := by
  cases op with
  | sbrk proc n info hint =>
      obtain ⟨hproc, hrun⟩ := onBehalf_eq_ok.mp hrun
      split_ifs at hrun with hpol
      obtain ⟨⟨addr, _⟩, hres, rfl⟩ := map_eq_ok.mp hrun
      exact h.sbrk_step hproc hpol hres
  | freePage proc address =>
      obtain ⟨hproc, hrun⟩ := onBehalf_eq_ok.mp hrun
      exact h.freePage_step hproc hok hrun
  | fault proc address writeAccess =>
      obtain ⟨hproc, hrun⟩ := onBehalf_eq_ok.mp hrun
      obtain ⟨⟨handled, _⟩, hres, rfl⟩ := map_eq_ok.mp hrun
      exact h.fault_step hproc hok hres
  | mprotect proc addr len prot =>
      obtain ⟨hproc, hrun⟩ := onBehalf_eq_ok.mp hrun
      obtain ⟨⟨r, _⟩, hres, rfl⟩ := map_eq_ok.mp hrun
      exact h.mprotect_step hproc hok hres
  | fork pid =>
      obtain ⟨hproc, hrun⟩ := onBehalf_eq_ok.mp hrun
      obtain ⟨r, hres, rfl⟩ := map_eq_ok.mp hrun
      exact h.fork_step hproc hok hres
  | exec req =>
      rw [Op.run] at hrun
      split_ifs at hrun with hused
      obtain ⟨⟨o, _⟩, hres, rfl⟩ := map_eq_ok.mp hrun
      exact h.exec_step hused hok hres
  | drop pid =>
      obtain ⟨-, hrun⟩ := onBehalf_eq_ok.mp hrun
      obtain rfl := Except.ok.inj hrun
      exact h.drop_step hok

end Counted

/-! ## Runs -/

/-- The count of a frame is the number of entries that map it, and `frame_to_page` knows it iff a
present entry of the kernel maps it. -/
def Accounted (f : ℕ) (m : Memory) : Prop :=
  m.frameRc f = refCount m.spaces m f ∧
    (m.frameToPage f ≠ none ↔ ∃ page < numFrames,
      (m.pte .kernel page).flags.present = true ∧ (m.pte .kernel page).frame = f)

lemma Counted.accounted (h : Counted m.spaces f m) : Accounted f m := by
  refine ⟨h.rc, h.frameUsed_iff.trans ?_⟩
  simp only [Entry.refs_eq_one, (h.entries _ _).mapped_iff]

lemma counted_bootMemory (h₁ : 4096 ≤ f) (h₂ : f < 785408 ∨ 789504 ≤ f) :
    Counted bootMemory.spaces f bootMemory := by
  refine ⟨tracked_bootMemory h₁, ?_, ?_⟩
  · have hzero : bootMemory.frameRc f = 0 := if_neg (by omega)
    rw [hzero, refCount]
    exact (Finset.sum_eq_zero fun p _ => Finset.sum_eq_zero fun i _ => bootMemory_refs h₁).symm
  · intro pid hpid
    simp [spaces, bootMemory] at hpid

end Memory

end BrebOS
