import BrebOS.Processes.Effects

/-!
# The frame table

What holds of one frame in every reachable state, whatever the reference counts do.

**Flags.**  An entry is never both present and lazy, only a present entry is copy-on-write, and an
unused entry is empty (`Entry.Ok`).

**`frame_to_page`.**  The kernel maps a frame at most once, and `frame_to_page` knows where.

One lemma for each effect; the operations are put together from them by the modules that use this
one.
-/

namespace BrebOS

/-! ## Entries -/

/-- The entries the kernel produces. -/
structure Entry.Ok (e : Entry) : Prop where
  present : e.flags.present = true → e.flags.lazyZero = false
  cow : e.flags.cow = true → e.flags.present = true
  unused : e.used = false → e = {}

namespace Entry

variable {e w : Entry} {frame f : ℕ} {policy : Flags}

lemma refs_eq_one : e.refs f = 1 ↔ e.mapped = true ∧ e.frame = f := by
  rw [refs]
  split_ifs with h <;> simp [h]

lemma refs_eq_zero : e.refs f = 0 ↔ ¬ (e.mapped = true ∧ e.frame = f) := by
  rw [refs]
  split_ifs with h <;> simp [h]

lemma mapped_of_unused (h : e.used = false) : e.mapped = false := by
  rw [used, Bool.or_eq_false_iff] at h
  simp [mapped, h.1]

lemma used_of_present (h : e.flags.present = true) : e.used = true := by simp [used, h]

lemma Ok.empty : ({} : Entry).Ok := ⟨by simp, by simp, fun _ => rfl⟩

lemma Ok.mapped_iff (h : e.Ok) : e.mapped = true ↔ e.flags.present = true := by
  rw [mapped, Bool.and_eq_true]
  exact ⟨fun h' => h'.1, fun h' => ⟨h', by simp [h.present h']⟩⟩

lemma Ok.of_used (hp : e.flags.present = true → e.flags.lazyZero = false)
    (hc : e.flags.cow = true → e.flags.present = true) (hu : e.used = true) : e.Ok :=
  ⟨hp, hc, fun h => absurd (hu.symm.trans h) (by simp)⟩

lemma Ok.stray (h : e.Ok) (hf : f ≠ 0) (hun : e.used = false) : e.frame ≠ f := by
  rw [h.unused hun]
  exact hf.symm

lemma Ok.of_flags (h : e.Ok) (hu : e.used = true) : (⟨frame, e.flags⟩ : Entry).Ok :=
  .of_used h.present h.cow hu

lemma Ok.of_policy (hcow : policy.cow = false) (hne : policy.present ≠ policy.lazyZero) :
    (⟨frame, policy⟩ : Entry).Ok := by
  cases hp : policy.present with
  | true => exact .of_used (fun _ => by simpa [hp] using hne) (by simp [hcow]) (by simp [used, hp])
  | false => exact .of_used (by simp [hp]) (by simp [hcow]) (by simpa [used, hp] using hne)

lemma used_of_policy (hne : policy.present ≠ policy.lazyZero) :
    (⟨frame, policy⟩ : Entry).used = true := by
  cases hp : policy.present <;> simp_all [used]

lemma Ok.sharedEntry (h : e.Ok) (hp : e.flags.present = true) : (Memory.sharedEntry e).Ok :=
  .of_used (fun _ => h.present hp) (fun _ => hp) (used_of_present hp)

lemma Ok.withWrite (h : e.Ok) (hu : e.used = true) {write : Bool} : (Memory.withWrite write e).Ok :=
  .of_used h.present h.cow hu

lemma Ok.private (h : e.Ok) (hp : e.flags.present = true) :
    (⟨frame, Memory.privatePolicy e.flags⟩ : Entry).Ok :=
  .of_used h.present (by simp [Memory.privatePolicy]) (used_of_present hp)

lemma Ok.zeroEntry {user : Bool} : (Memory.zeroEntry frame user).Ok :=
  .of_used (fun _ => rfl) (by simp [Memory.zeroEntry]) rfl

lemma FromWindow.used (hw : w.FromWindow e) : e.used = w.used := by
  rw [Entry.used, Entry.used, hw.present, hw.lazyZero]

lemma FromWindow.mapped (hw : w.FromWindow e) : e.mapped = w.mapped := by
  rw [Entry.mapped, Entry.mapped, hw.present, hw.lazyZero]

lemma Ok.fromWindow (h : w.Ok) (hu : w.used = true) (hw : w.FromWindow e) : e.Ok :=
  .of_used (fun h' => hw.lazyZero ▸ h.present (hw.present ▸ h'))
    (fun h' => hw.present ▸ h.cow (hw.cow ▸ h')) (hw.used.trans hu)

@[simp] lemma mapped_sharedEntry : (Memory.sharedEntry e).mapped = e.mapped := rfl

@[simp] lemma refs_sharedEntry : (Memory.sharedEntry e).refs f = e.refs f := rfl

@[simp] lemma refs_withWrite {write : Bool} : (Memory.withWrite write e).refs f = e.refs f := rfl

end Entry

namespace Memory

variable {m m' : Memory} {proc : ProcId} {pid page i frame f : ℕ} {e val : Entry} {policy : Flags}

/-! ## The invariant of a frame -/

/-- What the tables say of a frame.  That `frame_to_page` is never wrong holds of all frames at
once; that it knows every kernel page that maps the frame is said of one. -/
structure Tracked (f : ℕ) (m : Memory) : Prop where
  ne_zero : f ≠ 0
  entries : ∀ p i, (m.pte p i).Ok
  back : ∀ g i, m.frameToPage g = some i → i < numFrames ∧ (m.pte .kernel i).refs g = 1
  page : ∀ i < numFrames, (m.pte .kernel i).refs f = 1 → m.frameToPage f = some i

namespace Tracked

lemma congr (h : Tracked f m) (hpte : m'.pte = m.pte) (hpages : m'.frameToPage = m.frameToPage) :
    Tracked f m' :=
  ⟨h.ne_zero, by rw [hpte]; exact h.entries, by rw [hpte, hpages]; exact h.back,
    by rw [hpte, hpages]; exact h.page⟩

lemma scanned (h : Tracked f m) (hs : Scanned m m') : Tracked f m' := h.congr hs.pte hs.frameToPage

lemma stray (h : Tracked f m) (hun : (m.pte proc i).used = false) : (m.pte proc i).frame ≠ f :=
  (h.entries proc i).stray h.ne_zero hun

lemma frameUsed_iff (h : Tracked f m) :
    m.frameToPage f ≠ none ↔ ∃ i < numFrames, (m.pte .kernel i).refs f = 1 := by
  constructor
  · intro hne
    obtain ⟨i, hi⟩ := Option.ne_none_iff_exists'.mp hne
    exact ⟨i, h.back f i hi⟩
  · rintro ⟨i, hlt, hi⟩
    rw [h.page i hlt hi]
    simp

lemma updated (h : Tracked f m) (hval : val.Ok)
    (hkernel : proc = .kernel → ∀ g, val.refs g = (m.pte .kernel page).refs g) :
    Tracked f (m.updated proc page val) := by
  have hsame : ∀ g i, ((m.updated proc page val).pte .kernel i).refs g =
      (m.pte .kernel i).refs g := by
    intro g i
    rw [pte_updated]
    split_ifs with hc
    · rw [hkernel hc.1.symm g, hc.2]
    · rfl
  refine ⟨h.ne_zero, fun p i => ?_, fun g i => ?_, fun i => ?_⟩
  · rw [pte_updated]
    split_ifs
    exacts [hval, h.entries p i]
  · rw [frameToPage_updated, hsame]
    exact h.back g i
  · rw [frameToPage_updated, hsame]
    exact h.page i

lemma updated_user (h : Tracked f m) (hval : val.Ok) :
    Tracked f (m.updated (.user pid) page val) := h.updated hval (by simp)

lemma cleared (h : Tracked f m) : Tracked f (m.updated (.user pid) page {}) :=
  h.updated_user .empty

lemma took (h : Tracked f m) (hlt : frame < numFrames) (hfree : m.frameToPage frame = none)
    (hpage : page < numFrames) (hunmapped : (m.pte .kernel page).mapped = false)
    (hval : e.mapped = true) (hframe : e.frame = frame)
    (hok : ∀ p i, (m'.pte p i).Ok) (hpte : ∀ i, m'.pte .kernel i = if i = page then e else m.pte .kernel i)
    (hpages : ∀ g, m'.frameToPage g = if g = frame then some page else m.frameToPage g) :
    Tracked f m' := by
  have hold : ∀ g, (m.pte .kernel page).refs g = 0 := Entry.refs_of_not_mapped hunmapped
  have hnew : ∀ g, e.refs g = if g = frame then 1 else 0 := by
    intro g
    rw [Entry.refs, hframe]
    simp [hval, @eq_comm _ frame]
  refine ⟨h.ne_zero, hok, fun g i => ?_, fun i hi => ?_⟩
  · rw [hpages, hpte]
    by_cases hg : g = frame
    · rw [if_pos hg, Option.some.injEq]
      rintro rfl
      rw [if_pos rfl, hnew, if_pos hg]
      exact ⟨hpage, rfl⟩
    · rw [if_neg hg]
      intro hgi
      obtain ⟨hi, hrefs⟩ := h.back g i hgi
      have hne : i ≠ page := by
        rintro rfl
        rw [hold] at hrefs
        exact absurd hrefs (by simp)
      rw [if_neg hne]
      exact ⟨hi, hrefs⟩
  · rw [hpages, hpte]
    by_cases hip : i = page
    · rw [if_pos hip, hnew, hip]
      by_cases hf : f = frame <;> simp [hf]
    · rw [if_neg hip]
      intro hrefs
      have hused := h.page i hi hrefs
      have hne : f ≠ frame := by
        rintro rfl
        rw [hfree] at hused
        exact absurd hused (by simp)
      rw [if_neg hne, hused]

lemma allocated (h : Tracked f m) (hpage : page < numFrames)
    (hunmapped : (m.pte .kernel page).mapped = false)
    (hok : (⟨frame, policy⟩ : Entry).Ok) (hused : (⟨frame, policy⟩ : Entry).used = true)
    (hfree : frame < numFrames → m.frameToPage frame = none)
    (hp : policy.present = true → frame < numFrames) : Tracked f (m.allocated frame page policy) := by
  have hentries : ∀ p i, ((m.allocated frame page policy).pte p i).Ok := by
    intro p i
    rw [pte_allocated]
    split_ifs
    exacts [hok.of_flags hused, h.entries p i]
  by_cases hpres : policy.present = true
  · refine h.took (hp hpres) (hfree (hp hpres)) hpage hunmapped (e := ⟨frame % numFrames, policy⟩)
      ((hok.of_flags hused).mapped_iff.mpr hpres) (Nat.mod_eq_of_lt (hp hpres)) hentries
      (fun i => by simp [pte_allocated]) fun g => by simp [frameToPage_allocated, hpres]
  · have hrefs : ∀ g, (⟨frame % numFrames, policy⟩ : Entry).refs g = 0 := by
      intro g
      simp [Entry.refs, Entry.mapped, hpres]
    have hkern : ∀ g i, ((m.allocated frame page policy).pte .kernel i).refs g =
        (m.pte .kernel i).refs g := by
      intro g i
      rw [pte_allocated]
      split_ifs with hc
      · rw [hrefs, hc.2, Entry.refs_of_not_mapped hunmapped]
      · rfl
    refine ⟨h.ne_zero, hentries, fun g i => ?_, fun i => ?_⟩
    · rw [frameToPage_allocated, if_neg (by simp [hpres]), hkern]
      exact h.back g i
    · rw [frameToPage_allocated, if_neg (by simp [hpres]), hkern]
      exact h.page i

lemma lazyFilled (h : Tracked f m) {higherHalf : Bool} {sysPe : ℕ}
    (hlazy : (m.pte (faultTable proc higherHalf) page).flags.lazyZero = true)
    (hf : LazyFilled proc higherHalf page frame sysPe m m') : Tracked f m' := by
  have hold : (m.pte .kernel sysPe).mapped = false := by
    rcases hf.sysPe_unused with ⟨htab, rfl⟩ | ⟨-, hun⟩
    · rw [htab] at hlazy
      simp [Entry.mapped, hlazy]
    · exact Entry.mapped_of_unused hun
  refine h.took hf.frame_lt hf.frame_free hf.sysPe_lt hold
    (e := zeroEntry frame (m.pte (faultTable proc higherHalf) page).flags.user) rfl
    (Nat.mod_eq_of_lt hf.frame_lt) (fun p i => ?_) (fun i => ?_) hf.frameToPage
  · rw [hf.pte]
    split_ifs
    exacts [.zeroEntry, h.entries p i]
  · rw [hf.pte]
    refine if_congr ?_ rfl rfl
    rcases hf.sysPe_unused with ⟨htab, rfl⟩ | ⟨⟨pid, htab⟩, -⟩ <;> simp [htab]

lemma forgot (h : Tracked f m) (hne : f ≠ frame) (hpte : m'.pte = m.pte)
    (hpages : ∀ g, m'.frameToPage g = if g = frame then none else m.frameToPage g) :
    Tracked f m' := by
  refine ⟨h.ne_zero, by rw [hpte]; exact h.entries, fun g i => ?_, fun i => ?_⟩
  · rw [hpte, hpages]
    split_ifs
    · simp
    · exact h.back g i
  · rw [hpte, hpages, if_neg hne]
    exact h.page i

lemma released (h : Tracked f m)
    (hmap : (m.pte .kernel page).flags.lazyZero = false → (m.pte .kernel page).frame = f →
      (m.pte .kernel page).mapped = true) (hpage : page < numFrames) :
    Tracked f (m.released page) := by
  have hcleared : ∀ g i, ((m.released page).pte .kernel i).refs g =
      if i = page then 0 else (m.pte .kernel i).refs g := by
    intro g i
    rw [pte_released]
    by_cases hi : i = page <;> simp [hi]
  refine ⟨h.ne_zero, fun p i => ?_, fun g i => ?_, fun i hi => ?_⟩
  · rw [pte_released]
    split_ifs
    exacts [.empty, h.entries p i]
  · rw [frameToPage_released, hcleared]
    by_cases hc : (m.pte .kernel page).flags.lazyZero = false ∧ g = (m.pte .kernel page).frame
    · simp [hc]
    rw [if_neg hc]
    intro hg
    obtain ⟨hi, hrefs⟩ := h.back g i hg
    have hip : i ≠ page := by
      -- the page mapped the frame, so `frame_to_page` has forgotten it
      rintro rfl
      obtain ⟨hm, heq⟩ := Entry.refs_eq_one.mp hrefs
      simp only [Entry.mapped, Bool.and_eq_true, Bool.not_eq_true'] at hm
      exact hc ⟨hm.2, heq.symm⟩
    rw [if_neg hip]
    exact ⟨hi, hrefs⟩
  · rw [frameToPage_released, hcleared]
    by_cases hip : i = page
    · simp [hip]
    rw [if_neg hip]
    intro hrefs
    have hused := h.page i hi hrefs
    rw [if_neg, hused]
    rintro ⟨hl, hf⟩
    have hother := h.page page hpage (Entry.refs_eq_one.mpr ⟨hmap hl hf.symm, hf.symm⟩)
    rw [hused] at hother
    exact hip (Option.some.inj hother)

lemma replaced (h : Tracked f m) (hpte : ∀ p i, m'.pte p i = m.pte p i ∨
    (p ≠ .kernel ∧ (m'.pte p i).Ok)) (hpages : m'.frameToPage = m.frameToPage) : Tracked f m' := by
  have hkern : ∀ i, m'.pte .kernel i = m.pte .kernel i :=
    fun i => (hpte .kernel i).resolve_right fun h' => h'.1 rfl
  refine ⟨h.ne_zero, fun p i => ?_, fun g i => ?_, fun i => ?_⟩
  · rcases hpte p i with heq | ⟨-, hok⟩
    exacts [heq ▸ h.entries p i, hok]
  · rw [hpages, hkern]
    exact h.back g i
  · rw [hpages, hkern]
    exact h.page i

lemma withChild {self child : ℕ} (h : Tracked f m) : Tracked f (m.withChild self child) := by
  refine h.replaced (fun p i => ?_) rfl
  rw [pte_withChild]
  split_ifs with hc
  · exact Or.inr ⟨by simp [hc], .empty⟩
  · exact Or.inl rfl

lemma loaded {p : Process} {req : LoadRequest} (h : Tracked f m)
    (hused : ∀ x ∈ req.mappings, (m.pte .kernel x.2).used = true)
    (hp : buildProcess req m = .ok p) : Tracked f (m.loaded pid p) := by
  refine h.replaced (fun q i => ?_) rfl
  rw [pte_loaded]
  split_ifs with hc
  · refine Or.inr ⟨by simp [hc], ?_⟩
    rcases buildProcess_fromWindows hp i with hz | ⟨w, hw, -, hfrom⟩
    · rw [hz]
      exact .empty
    · exact (h.entries .kernel w).fromWindow (hused _ hw) hfrom
  · exact Or.inl rfl

end Tracked

/-! ## After the boot -/

lemma bootMemory_pte {p : ProcId} : bootMemory.pte p i = {} ∨ (786432 ≤ i ∧ i < 790528 ∧
    bootMemory.pte p i = ⟨i - 786432, { present := true, write := true }⟩) := by
  cases p with
  | kernel =>
      by_cases hi : 786432 ≤ i ∧ i < 790528
      · exact Or.inr ⟨hi.1, hi.2, if_pos hi⟩
      · exact Or.inl (if_neg hi)
  | user pid => exact Or.inl rfl

lemma bootMemory_refs {p : ProcId} (hf : 4096 ≤ f) : (bootMemory.pte p i).refs f = 0 := by
  rcases bootMemory_pte (p := p) (i := i) with h | ⟨-, hlt, h⟩
  · rw [h, Entry.refs_default]
  · rw [h, Entry.refs_eq_zero]
    rintro ⟨-, heq⟩
    simp only at heq
    omega

lemma tracked_bootMemory (hf : 4096 ≤ f) : Tracked f bootMemory := by
  refine ⟨by omega, fun p i => ?_, fun g i hg => ?_, fun i _ hi => ?_⟩
  · rcases bootMemory_pte (p := p) (i := i) with h | ⟨-, -, h⟩
    · exact h ▸ .empty
    · exact h ▸ .of_used (fun _ => rfl) (by simp) rfl
  · simp only [bootMemory] at hg
    split_ifs at hg with hlt
    obtain rfl := Option.some.inj hg
    have hin : 786432 + g < 790528 := by omega
    refine ⟨by simp only [numFrames]; omega, ?_⟩
    simp [pte, bootMemory, hin, Entry.refs, Entry.mapped]
  · rw [bootMemory_refs hf] at hi
    exact absurd hi (by simp)

/-! ## Every run -/

/-- The entries of all tables are such as the kernel produces. -/
def EntriesOk (m : Memory) : Prop := ∀ p i, (m.pte p i).Ok

namespace EntriesOk

variable {self child : ℕ}

lemma congr (h : EntriesOk m) (hpte : m'.pte = m.pte) : EntriesOk m' := by
  rw [EntriesOk, hpte]
  exact h

lemma updated (h : EntriesOk m) (hval : val.Ok) : EntriesOk (m.updated proc page val) := by
  intro p i
  rw [pte_updated]
  split_ifs
  exacts [hval, h p i]

lemma allocated (h : EntriesOk m) (hok : (⟨frame % numFrames, policy⟩ : Entry).Ok) :
    EntriesOk (m.allocated frame page policy) := by
  intro p i
  rw [pte_allocated]
  split_ifs
  exacts [hok, h p i]

lemma freePage (h : EntriesOk m) (hrun : freePage page m = .ok m') : EntriesOk m' := by
  obtain ⟨-, -, rfl⟩ := freePage_eq_ok.mp hrun
  intro p i
  rw [pte_released]
  split_ifs
  exacts [.empty, h p i]

lemma sbrk_step {n addr : ℕ} {info : PageInfo} {hint : HintInfo} (h : EntriesOk m)
    (hpol : info.policy.present ≠ info.policy.lazyZero)
    (hrun : sbrk proc n info hint m = .ok (addr, m')) : EntriesOk m' := by
  rcases sbrk_cases hrun with ⟨-, rfl⟩ | ⟨-, -, -, -, hcow, -⟩
  · exact h
  have hok : ∀ g, (⟨g, info.policy⟩ : Entry).Ok := fun g => .of_policy hcow hpol
  refine sbrk_rule hrun h ?_ ?_ ?_ ?_
  · rintro - m₁ m₂ page hc - hstep
    obtain ⟨frame, m₃, hs, -, -, -, rfl⟩ := allocateFreePage_spec hstep
    exact (hc.congr hs.pte).allocated (hok _)
  · rintro pid - - m₁ m₂ page hc - hstep
    obtain ⟨frame, sysPe, m₃, hs, -, -, -, -, -, rfl⟩ := sbrkUserPage_spec hstep
    exact ((hc.congr hs.pte).allocated (hok _)).updated (hok _)
  · rintro pid - - m₁ page hc - -
    exact hc.updated (hok _)
  · intro m₁ pe hc
    exact hc.congr (by simp)

lemma freePage_step {address : ℕ} (h : EntriesOk m) (hrun : freePageOf proc address m = .ok m') :
    EntriesOk m' := by
  cases proc with
  | kernel =>
      obtain ⟨e, -, -, ⟨rfl, -⟩ | ⟨-, hfree⟩⟩ := freePageOf_kernel_cases hrun
      · exact h.congr (by simp)
      · exact (h.congr (by simp)).freePage hfree
  | user pid =>
      obtain ⟨e, -, -, -, ⟨rfl, -⟩ | ⟨-, -, p, -, hfree⟩⟩ := freePageOf_user_cases hrun
      · exact h.updated .empty
      · exact (h.updated .empty).freePage hfree

lemma copyOnWrite {higherHalf : Bool} (h : EntriesOk m) (hcow : (m.pte proc page).flags.cow = true)
    (hrun : handleCowPageFault proc higherHalf page m = .ok m') : EntriesOk m' := by
  obtain ⟨pid, c, m₁, rfl, -, hs, hc, hlast⟩ := handleCowPageFault_spec hrun
  have hpres := (h (.user pid) page).cow hcow
  rw [← hs.pte] at hpres
  have hold : EntriesOk m₁ := h.congr hs.pte
  have hnew : (c.entry (m₁.pte (.user pid) page)).Ok := (hold (.user pid) page).private hpres
  have hhandled : EntriesOk (cowHandled pid page c m₁) := by
    intro p i
    rw [pte_cowHandled (hc.mappingPe_ne (Entry.used_of_present hpres))]
    split_ifs
    exacts [hnew, .empty, hnew, hold p i]
  split_ifs at hlast with hrc
  · exact hhandled.congr (markFrameFree_eq_ok hrc hlast).1
  · exact Except.ok.inj hlast ▸ hhandled

lemma fault_step {address : ℕ} {writeAccess handled : Bool} (h : EntriesOk m)
    (hrun : pageFaultHandler proc address writeAccess m = .ok (handled, m')) : EntriesOk m' := by
  set higherHalf := decide (kernelVirtualBase ≤ address) with hhigh
  have hentry := h (faultTable proc higherHalf) (addrPage address)
  obtain ⟨hpage, rfl | ⟨hcow, hrun'⟩ | ⟨-, hrun'⟩⟩ := pageFaultHandler_cases hhigh
    (fun h' => by simp [hentry.present (hentry.cow h'.1)] at h') hrun
  · exact h
  · obtain ⟨_, _, _, -, hlow, -⟩ := handleCowPageFault_spec hrun'
    rw [hlow] at hcow
    exact h.copyOnWrite hcow hrun'
  · obtain ⟨sysPe, hf⟩ := handleLazyZeroPageFault_spec (lt_of_lt_of_le hpage (by
      cases faultTable proc higherHalf <;> simp [ProcId.entries, numFrames, userEntries])) hrun'
    intro p i
    rw [hf.pte]
    split_ifs
    exacts [.zeroEntry, h p i]

lemma fork_step {r : Forked} (h : EntriesOk m) (hrun : fork self m = .ok r) :
    EntriesOk r.memory := by
  obtain ⟨-, -, m₁, hm₁, -, -, heq⟩ : _ ∧ _ ∧ ∃ m₁, EntriesOk m₁ ∧ _ := by
    refine fork_rule (P := EntriesOk) hrun ?_ ?_ (fun _ hc => hc) ?_ fun m₁ hc => hc.congr pte_copyPdt
    · intro p i
      rw [pte_withChild]
      split_ifs
      exacts [.empty, h p i]
    · intro m₁ m₂ page hc _ hstep
      rcases copyPageToOtherProcessShared_cases hstep with ⟨-, rfl⟩ | ⟨hp, -, -, rfl⟩
      · exact hc
      · have hshared := (hc (.user self) page).sharedEntry hp
        exact (hc.updated hshared).updated hshared
    · intro m₁ m₂ page hc _ hstep
      rcases copyPageToOtherProcess_cases hstep with ⟨-, rfl⟩ | ⟨hz, frame, sysPe, m₃, hs, -, -, -, -,
        -, -, -, rfl⟩
      · exact hc
      · have hused : (m₁.pte (.user self) page).used = true := by
          by_contra hun
          exact hz ((hc _ _).unused (by simpa using hun))
        have hok : (⟨frame % numFrames, (m₃.pte (.user self) page).flags⟩ : Entry).Ok := by
          rw [hs.pte]
          exact (hc _ _).of_flags hused
        intro p i
        rw [pte_stackCopied]
        split_ifs
        exacts [hok, hok, hok, hs.pte ▸ hc p i]
  have hdone : EntriesOk (m₁.updated (.user self) mappingPage {}) := hm₁.updated .empty
  rw [heq]
  refine hdone.congr ?_
  funext p
  cases p <;> rfl

lemma exec_step {req : LoadRequest} {o : Option ℕ} (h : EntriesOk m)
    (hused : ∀ x ∈ req.mappings, (m.pte .kernel x.2).used = true)
    (hrun : exec req m = .ok (o, m')) : EntriesOk m' := by
  rcases exec_cases hrun with rfl | ⟨p, hp, -, rfl⟩
  · exact h
  intro q i
  rw [pte_loaded]
  split_ifs
  · rcases buildProcess_fromWindows hp i with hz | ⟨w, hw, -, hfrom⟩
    · exact hz ▸ .empty
    · exact (h .kernel w).fromWindow (hused _ hw) hfrom
  · exact h q i

/-- **Every operation keeps the entries in order.** -/
lemma step {op : Op} (h : EntriesOk m) (hrun : op.run m = .ok m') : EntriesOk m' := by
  cases op with
  | sbrk proc n info hint =>
      obtain ⟨-, hrun⟩ := onBehalf_eq_ok.mp hrun
      split_ifs at hrun with hpol
      obtain ⟨⟨addr, _⟩, hres, rfl⟩ := map_eq_ok.mp hrun
      exact h.sbrk_step hpol hres
  | freePage proc address => exact h.freePage_step (onBehalf_eq_ok.mp hrun).2
  | fault proc address writeAccess =>
      obtain ⟨⟨handled, _⟩, hres, rfl⟩ := map_eq_ok.mp (onBehalf_eq_ok.mp hrun).2
      exact h.fault_step hres
  | mprotect proc addr len prot =>
      obtain ⟨⟨r, _⟩, hres, rfl⟩ := map_eq_ok.mp (onBehalf_eq_ok.mp hrun).2
      exact mprotect_rule hres h fun m₁ page _ hc _ hu _ => hc.updated ((hc _ _).withWrite hu)
  | fork pid =>
      obtain ⟨r, hres, rfl⟩ := map_eq_ok.mp (onBehalf_eq_ok.mp hrun).2
      exact h.fork_step hres
  | exec req =>
      rw [Op.run] at hrun
      split_ifs at hrun with hused
      obtain ⟨⟨o, _⟩, hres, rfl⟩ := map_eq_ok.mp hrun
      exact h.exec_step hused hres
  | drop pid =>
      obtain rfl := Except.ok.inj (onBehalf_eq_ok.mp hrun).2
      exact h.congr (by funext p; cases p <;> rfl)

end EntriesOk

end Memory

open Memory in
lemma Run.entriesOk {ok : Op → Memory → Prop} {m : Memory} (hrun : Run ok bootMemory m) :
    EntriesOk m :=
  hrun.invariant (P := EntriesOk) (tracked_bootMemory le_rfl).entries fun _ _ _ h _ => h.step

end BrebOS
