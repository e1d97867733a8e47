import BrebOS.Processes.Fork

/-!
# Isolation of processes

Between processes, memory is shared only by `fork`, and protected only by the flags of the entries:
a frame that two processes map must not be writable in either, and an entry that is copy-on-write
must not be writable.

The invariant is kept by everything that takes a **fresh** frame (`Isolated.changed`), because every
frame that is mapped is used, and by the sharing of a page.  It is not kept by `mprotect`: the check
of its range rejects a copy-on-write page only if it is neither present nor lazy, which such a page
never is, so `PROT_WRITE` makes a shared frame writable.
-/

namespace BrebOS

namespace Memory

variable {m m' : Memory} {proc : ProcId} {L : Finset ℕ} {self child pid page i frame f : ℕ}
  {e val : Entry} {policy : Flags}

/-! ## The invariant -/

/-- The tables of the processes `L` are isolated from each other. -/
structure Isolated (L : Finset ℕ) (m : Memory) : Prop where
  entries : ∀ p i, (m.pte p i).Ok
  cow : ∀ p i, (m.pte p i).flags.cow = true → (m.pte p i).flags.write = false
  backedKernel : ∀ i < numFrames, (m.pte .kernel i).mapped = true →
    m.frameToPage (m.pte .kernel i).frame ≠ none
  backed : ∀ p ∈ L, ∀ i < userEntries, (m.pte (.user p) i).mapped = true →
    m.frameToPage (m.pte (.user p) i).frame ≠ none
  once : ∀ p ∈ L, ∀ i < userEntries, ∀ j < userEntries, (m.pte (.user p) i).mapped = true →
    (m.pte (.user p) j).mapped = true → (m.pte (.user p) i).frame = (m.pte (.user p) j).frame → i = j
  shared : ∀ p ∈ L, ∀ q ∈ L, p ≠ q → ∀ i < userEntries, ∀ j < userEntries,
    (m.pte (.user p) i).mapped = true → (m.pte (.user q) j).mapped = true →
    (m.pte (.user p) i).frame = (m.pte (.user q) j).frame → (m.pte (.user p) i).flags.write = false

namespace Isolated

lemma congr (h : Isolated L m) (hpte : m'.pte = m.pte) (hpages : m'.frameToPage = m.frameToPage) :
    Isolated L m' := by
  constructor
  · rw [hpte]; exact h.entries
  · rw [hpte]; exact h.cow
  · rw [hpte, hpages]; exact h.backedKernel
  · rw [hpte, hpages]; exact h.backed
  · rw [hpte]; exact h.once
  · rw [hpte]; exact h.shared

lemma scanned (h : Isolated L m) (hs : Scanned m m') : Isolated L m' := h.congr hs.pte hs.frameToPage

lemma mono {L' : Finset ℕ} (h : Isolated L m) (hsub : L' ⊆ L) : Isolated L' m :=
  ⟨h.entries, h.cow, h.backedKernel, fun p hp => h.backed p (hsub hp), fun p hp => h.once p (hsub hp),
    fun p hp q hq => h.shared p (hsub hp) q (hsub hq)⟩

lemma not_write (h : Isolated L m) {p q j : ℕ} (hp : p ∈ L) (hq : q ∈ L) (hi : i < userEntries)
    (hj : j < userEntries) (hne : ¬ (p = q ∧ i = j)) (hpi : (m.pte (.user p) i).mapped = true)
    (hqj : (m.pte (.user q) j).mapped = true)
    (hframe : (m.pte (.user p) i).frame = (m.pte (.user q) j).frame) :
    (m.pte (.user p) i).flags.write = false := by
  by_cases hpq : p = q
  · subst hpq
    exact absurd ⟨rfl, h.once p hp i hi j hj hpi hqj hframe⟩ hne
  · exact h.shared p hp q hq hpq i hi j hj hpi hqj hframe

/-- **A fresh frame isolates.**  Entries are cleared or left alone, but for one page of a process,
which gets a frame that was free. -/
lemma changed (h : Isolated L m) (pid page : ℕ) (hok : ∀ p i, (m'.pte p i).Ok)
    (hcow : ∀ p i, (m'.pte p i).flags.cow = true → (m'.pte p i).flags.write = false)
    (hpages : ∀ g, m.frameToPage g ≠ none → m'.frameToPage g ≠ none)
    (hkernel : ∀ i < numFrames, (m'.pte .kernel i).mapped = true →
      m'.pte .kernel i = m.pte .kernel i ∨ m'.frameToPage (m'.pte .kernel i).frame ≠ none)
    (huser : ∀ p ∈ L, ∀ i < userEntries, (m'.pte (.user p) i).mapped = true →
      m'.pte (.user p) i = m.pte (.user p) i ∨ (p = pid ∧ i = page ∧
        m.frameToPage (m'.pte (.user p) i).frame = none ∧
        m'.frameToPage (m'.pte (.user p) i).frame ≠ none)) : Isolated L m' := by
  -- an old mapping and the new one are of different frames
  have hdiff : ∀ p ∈ L, ∀ i < userEntries, ∀ q j, m'.pte (.user p) i = m.pte (.user p) i →
      (m'.pte (.user p) i).mapped = true → m.frameToPage (m'.pte (.user q) j).frame = none →
      (m'.pte (.user p) i).frame ≠ (m'.pte (.user q) j).frame := by
    intro p hp i hi q j hold hmap hfree heq
    rw [hold] at hmap heq
    rw [← heq] at hfree
    exact h.backed p hp i hi hmap hfree
  refine ⟨hok, hcow, fun i hi hmap => ?_, fun p hp i hi hmap => ?_,
    fun p hp i hi j hj hpi hpj heq => ?_, fun p hp q hq hne i hi j hj hpi hqj heq => ?_⟩
  · rcases hkernel i hi hmap with hold | hnew
    · rw [hold] at hmap ⊢
      exact hpages _ (h.backedKernel i hi hmap)
    · exact hnew
  · rcases huser p hp i hi hmap with hold | ⟨-, -, -, hnew⟩
    · rw [hold] at hmap ⊢
      exact hpages _ (h.backed p hp i hi hmap)
    · exact hnew
  · rcases huser p hp i hi hpi with hi' | ⟨-, rfl, hfree, -⟩
    · rcases huser p hp j hj hpj with hj' | ⟨-, rfl, hfree, -⟩
      · rw [hi'] at hpi heq
        rw [hj'] at hpj heq
        exact h.once p hp i hi j hj hpi hpj heq
      · exact absurd heq (hdiff p hp i hi p j hi' hpi hfree)
    · rcases huser p hp j hj hpj with hj' | ⟨-, rfl, -, -⟩
      · exact absurd heq.symm (hdiff p hp j hj p i hj' hpj hfree)
      · rfl
  · rcases huser p hp i hi hpi with hi' | ⟨rfl, -, hfree, -⟩
    · rcases huser q hq j hj hqj with hj' | ⟨-, -, hfree, -⟩
      · rw [hi'] at hpi heq ⊢
        rw [hj'] at hqj heq
        exact h.shared p hp q hq hne i hi j hj hpi hqj heq
      · exact absurd heq (hdiff p hp i hi q j hi' hpi hfree)
    · rcases huser q hq j hj hqj with hj' | ⟨rfl, -, -, -⟩
      · exact absurd heq.symm (hdiff q hq j hj p i hj' hqj hfree)
      · exact absurd rfl hne

lemma took (h : Isolated L m) (pid page : ℕ) (e : Entry) (hok : e.Ok)
    (hcow : e.flags.cow = true → e.flags.write = false)
    (hpte : ∀ p i, (m'.pte p i = e ∧ (p = .kernel ∨ p = .user pid ∧ i = page)) ∨
      m'.pte p i = {} ∨ m'.pte p i = m.pte p i)
    (hpages : ∀ g, m.frameToPage g ≠ none → m'.frameToPage g ≠ none)
    (hfresh : e.mapped = true → m.frameToPage e.frame = none ∧ m'.frameToPage e.frame ≠ none) :
    Isolated L m' := by
  refine h.changed pid page (fun p i => ?_) (fun p i => ?_) hpages
    (fun i hi hmap => ?_) fun p hp i hi hmap => ?_
  · rcases hpte p i with ⟨he, -⟩ | hz | hold
    exacts [he ▸ hok, hz ▸ .empty, hold ▸ h.entries p i]
  · rcases hpte p i with ⟨he, -⟩ | hz | hold
    · exact he ▸ hcow
    · simp [hz]
    · exact hold ▸ h.cow p i
  · rcases hpte .kernel i with ⟨he, -⟩ | hz | hold
    · rw [he] at hmap ⊢
      exact Or.inr (hfresh hmap).2
    · simp [hz] at hmap
    · exact Or.inl hold
  · rcases hpte (.user p) i with ⟨he, hloc⟩ | hz | hold
    · obtain ⟨h₁, h₂⟩ := hloc.resolve_left (by simp)
      rw [he] at hmap ⊢
      exact Or.inr ⟨ProcId.user.inj h₁, h₂, hfresh hmap⟩
    · simp [hz] at hmap
    · exact Or.inl hold

/-! ## Allocation and faults -/

lemma fresh_allocated {sysPe : ℕ} (hok : (⟨frame % numFrames, policy⟩ : Entry).Ok)
    (hfree : frame < numFrames → m.frameToPage frame = none)
    (hp : policy.present = true → frame < numFrames)
    (hmap : (⟨frame % numFrames, policy⟩ : Entry).mapped = true) :
    m.frameToPage (frame % numFrames) = none ∧
      (m.allocated frame sysPe policy).frameToPage (frame % numFrames) ≠ none := by
  have hpres : policy.present = true := hok.mapped_iff.mp hmap
  rw [Nat.mod_eq_of_lt (hp hpres)]
  exact ⟨hfree (hp hpres), by simp [frameToPage_allocated, hpres]⟩

lemma frameToPage_allocated_ne {sysPe g : ℕ} (h : m.frameToPage g ≠ none) :
    (m.allocated frame sysPe policy).frameToPage g ≠ none := by
  rw [frameToPage_allocated]
  split_ifs
  exacts [by simp, h]

lemma allocated (h : Isolated L m) (hok : (⟨frame % numFrames, policy⟩ : Entry).Ok)
    (hcow : policy.cow = true → policy.write = false)
    (hfree : frame < numFrames → m.frameToPage frame = none)
    (hp : policy.present = true → frame < numFrames) : Isolated L (m.allocated frame page policy) := by
  refine h.took 0 0 _ hok hcow (fun p i => ?_) (fun g => frameToPage_allocated_ne)
    (fresh_allocated hok hfree hp)
  rw [pte_allocated]
  split_ifs with hc
  · exact Or.inl ⟨rfl, Or.inl hc.1⟩
  · exact Or.inr (Or.inr rfl)

lemma allocated_updated (h : Isolated L m) {sysPe : ℕ} (hok : (⟨frame % numFrames, policy⟩ : Entry).Ok)
    (hcow : policy.cow = true → policy.write = false)
    (hfree : frame < numFrames → m.frameToPage frame = none)
    (hp : policy.present = true → frame < numFrames) :
    Isolated L ((m.allocated frame sysPe policy).updated (.user pid) page
      ⟨frame % numFrames, policy⟩) := by
  refine h.took pid page _ hok hcow (fun p i => ?_)
    (fun g hg => by rw [frameToPage_updated]; exact frameToPage_allocated_ne hg)
    fun hmap => by rw [frameToPage_updated]; exact fresh_allocated hok hfree hp hmap
  rw [pte_updated, pte_allocated]
  split_ifs with h₁ h₂
  · exact Or.inl ⟨rfl, Or.inr h₁⟩
  · exact Or.inl ⟨rfl, Or.inl h₂.1⟩
  · exact Or.inr (Or.inr rfl)

lemma reserved (h : Isolated L m) (hok : e.Ok) (hcow : e.flags.cow = false)
    (hlazy : e.flags.lazyZero = true) : Isolated L (m.updated (.user pid) page e) := by
  refine h.took pid page _ hok (by simp [hcow]) (fun p i => ?_)
    (fun g => by simp) fun hmap => ?_
  · rw [pte_updated]
    split_ifs with h₁
    · exact Or.inl ⟨rfl, Or.inr h₁⟩
    · exact Or.inr (Or.inr rfl)
  · simp [Entry.mapped, hlazy] at hmap

lemma lazyFilled (h : Isolated L m) {higherHalf : Bool} {sysPe : ℕ}
    (hf : LazyFilled proc higherHalf page frame sysPe m m') : Isolated L m' := by
  have hmod := Nat.mod_eq_of_lt hf.frame_lt
  have hpages : ∀ g, m.frameToPage g ≠ none → m'.frameToPage g ≠ none := by
    intro g hg
    rw [hf.frameToPage]
    split_ifs
    exacts [by simp, hg]
  have hnew : m.frameToPage (frame % numFrames) = none ∧
      m'.frameToPage (frame % numFrames) ≠ none := by
    rw [hmod, hf.frameToPage, if_pos rfl]
    exact ⟨hf.frame_free, by simp⟩
  have hpte := hf.pte
  generalize (m.pte (faultTable proc higherHalf) page).flags.user = user at hpte
  cases htab : faultTable proc higherHalf with
  | kernel =>
      refine h.took 0 0 (zeroEntry frame user) .zeroEntry (by simp [zeroEntry])
        (fun p i => ?_) hpages fun _ => hnew
      rw [hpte, htab]
      by_cases hc : p = .kernel ∧ i = page ∨ p = .kernel ∧ i = sysPe
      · exact Or.inl ⟨if_pos hc, Or.inl (by tauto)⟩
      · exact Or.inr (Or.inr (if_neg hc))
  | user pid =>
      refine h.took pid page (zeroEntry frame user) .zeroEntry (by simp [zeroEntry])
        (fun p i => ?_) hpages fun _ => hnew
      rw [hpte, htab]
      by_cases hc : p = .user pid ∧ i = page ∨ p = .kernel ∧ i = sysPe
      · exact Or.inl ⟨if_pos hc, by tauto⟩
      · exact Or.inr (Or.inr (if_neg hc))

lemma copyOnWrite {higherHalf : Bool} (h : Isolated L m) (hproc : ∀ pid, proc = .user pid → pid ∈ L)
    (hcow : (m.pte proc page).flags.cow = true)
    (hrun : handleCowPageFault proc higherHalf page m = .ok m') :
    Isolated L m' ∧ ∃ pid c m₁, proc = .user pid ∧ Scanned m m₁ ∧ c.mappingPe ≠ page ∧
      CowFault pid page c m₁ ∧ m' = cowHandled pid page c m₁ := by
  obtain ⟨pid, c, m₁, rfl, -, hs, hc, hlast⟩ := handleCowPageFault_spec hrun
  replace h := h.scanned hs
  rw [← hs.pte] at hcow
  have hok := h.entries (.user pid) page
  have hpres := hok.cow hcow
  have hmap := hok.mapped_iff.mpr hpres
  have hne := hc.mappingPe_ne (Entry.used_of_mapped hmap)
  have hlt := (hc.frame_rc hpres).1
  -- the old frame is used and the new one is not
  have hdiff : (m₁.pte (.user pid) page).frame ≠ c.frame := by
    intro heq
    have hback := h.backed pid (hproc pid rfl) page hc.page_lt hmap
    rw [heq, hc.frame_free hlt] at hback
    exact hback rfl
  have hrc := frameRc_cowHandled_frame hc hmap fun heq => absurd heq hdiff
  rw [if_neg hrc] at hlast
  obtain rfl := Except.ok.inj hlast
  refine ⟨?_, pid, c, m₁, rfl, hs, hne, hc, rfl⟩
  refine h.took pid page (c.entry (m₁.pte (.user pid) page)) (hok.private hpres)
    (by simp [CowPages.entry, privatePolicy])
    (fun p i => ?_) (fun g hg => ?_) fun _ => ?_
  · rw [pte_cowHandled hne]
    split_ifs with h₁ h₂ h₃
    · exact Or.inl ⟨rfl, Or.inr h₁⟩
    · exact Or.inr (Or.inl rfl)
    · exact Or.inl ⟨rfl, Or.inl h₃.1⟩
    · exact Or.inr (Or.inr rfl)
  · rw [frameToPage_cowHandled]
    split_ifs
    exacts [by simp, hg]
  · rw [frameToPage_cowHandled]
    simp only [CowPages.entry, Nat.mod_eq_of_lt hlt]
    exact ⟨hc.frame_free hlt, by simp [hpres]⟩

/-! ## `mprotect` -/

lemma withWrite (h : Isolated L m) {write : Bool} (hused : (m.pte proc page).used = true)
    (hcow : write = true → (m.pte proc page).flags.cow = false)
    (hother : write = true → ∀ p, proc = .user p → (m.pte proc page).mapped = true → ∀ q ∈ L, q ≠ p →
      ∀ j < userEntries, (m.pte (.user q) j).mapped = true →
        (m.pte (.user q) j).frame ≠ (m.pte proc page).frame) :
    Isolated L (m.updated proc page (withWrite write (m.pte proc page))) := by
  set m' := m.updated proc page (Memory.withWrite write (m.pte proc page)) with hm'
  have hpte : ∀ p i, m'.pte p i = m.pte p i ∨ (p = proc ∧ i = page ∧
      m'.pte p i = Memory.withWrite write (m.pte p i)) := by
    intro p i
    rw [hm', pte_updated]
    split_ifs with hc
    · exact Or.inr ⟨hc.1, hc.2, by rw [hc.1, hc.2]⟩
    · exact Or.inl rfl
  have hmap : ∀ p i, (m'.pte p i).mapped = (m.pte p i).mapped := by
    intro p i
    rcases hpte p i with heq | ⟨-, -, heq⟩ <;> rw [heq]
    rfl
  have hframe : ∀ p i, (m'.pte p i).frame = (m.pte p i).frame := by
    intro p i
    rcases hpte p i with heq | ⟨-, -, heq⟩ <;> rw [heq]
    rfl
  have hpages : m'.frameToPage = m.frameToPage := frameToPage_updated
  refine ⟨fun p i => ?_, fun p i hc => ?_, ?_, ?_, ?_, fun p hp q hq hne i hi j hj => ?_⟩
  · rcases hpte p i with heq | ⟨rfl, rfl, heq⟩
    · exact heq ▸ h.entries p i
    · exact heq ▸ (h.entries p i).withWrite hused
  · rcases hpte p i with heq | ⟨rfl, rfl, heq⟩
    · rw [heq] at hc ⊢
      exact h.cow p i hc
    · rw [heq] at hc ⊢
      by_contra hw
      have hw : write = true := by simpa [Memory.withWrite] using hw
      exact Bool.false_ne_true ((hcow hw).symm.trans hc)
  · intro i hi
    rw [hmap, hframe, hpages]
    exact h.backedKernel i hi
  · intro p hp i hi
    rw [hmap, hframe, hpages]
    exact h.backed p hp i hi
  · intro p hp i hi j hj
    rw [hmap, hmap, hframe, hframe]
    exact h.once p hp i hi j hj
  · rw [hmap, hmap, hframe, hframe]
    intro hpi hqj heq
    rcases hpte (.user p) i with hold | ⟨rfl, rfl, hnew⟩
    · rw [hold]
      exact h.shared p hp q hq hne i hi j hj hpi hqj heq
    · rw [hnew]
      by_contra hw
      have hw : write = true := by simpa [Memory.withWrite] using hw
      exact hother hw p rfl hpi q hq (Ne.symm hne) j hj hqj heq.symm

/-! ## `fork` and the loader -/

/-- The pages of the child are pages of the parent, at the same place. -/
def Copies (self child : ℕ) (m : Memory) : Prop :=
  ∀ j < userEntries, (m.pte (.user child) j).mapped = true →
    (m.pte (.user self) j).mapped = true ∧
      (m.pte (.user child) j).frame = (m.pte (.user self) j).frame

lemma insert (h : Isolated L m) (hok : ∀ p i, (m'.pte p i).Ok)
    (hcow : ∀ p i, (m'.pte p i).flags.cow = true → (m'.pte p i).flags.write = false)
    (hold : ∀ p i, p ≠ .user pid → m'.pte p i = m.pte p i) (hpages : m'.frameToPage = m.frameToPage)
    (hnot : pid ∉ L)
    (hback : ∀ i < userEntries, (m'.pte (.user pid) i).mapped = true →
      m.frameToPage (m'.pte (.user pid) i).frame ≠ none)
    (honce : ∀ i < userEntries, ∀ j < userEntries, (m'.pte (.user pid) i).mapped = true →
      (m'.pte (.user pid) j).mapped = true →
      (m'.pte (.user pid) i).frame = (m'.pte (.user pid) j).frame → i = j)
    (hfresh : ∀ i < userEntries, (m'.pte (.user pid) i).mapped = true → ∀ q ∈ L, ∀ j < userEntries,
      (m.pte (.user q) j).mapped = true → (m.pte (.user q) j).frame ≠ (m'.pte (.user pid) i).frame) :
    Isolated (insert pid L) m' := by
  have hL : ∀ q ∈ L, ∀ i, m'.pte (.user q) i = m.pte (.user q) i := by
    intro q hq i
    refine hold _ i fun h' => hnot ?_
    rwa [← ProcId.user.inj h']
  refine ⟨hok, hcow, fun i hi => ?_, fun p hp i hi => ?_, fun p hp i hi j hj => ?_,
    fun p hp q hq hne i hi j hj => ?_⟩
  · rw [hold _ i (by simp), hpages]
    exact h.backedKernel i hi
  · rw [hpages]
    rcases Finset.mem_insert.mp hp with rfl | hp
    · exact hback i hi
    · rw [hL p hp]
      exact h.backed p hp i hi
  · rcases Finset.mem_insert.mp hp with rfl | hp
    · exact honce i hi j hj
    · rw [hL p hp, hL p hp]
      exact h.once p hp i hi j hj
  · intro hpi hqj heq
    rcases Finset.mem_insert.mp hp with rfl | hpL
    · have hqL : q ∈ L := (Finset.mem_insert.mp hq).resolve_left (Ne.symm hne)
      rw [hL q hqL] at hqj heq
      exact absurd heq.symm (hfresh i hi hpi q hqL j hj hqj)
    · rcases Finset.mem_insert.mp hq with rfl | hqL
      · rw [hL p hpL] at hpi heq
        exact absurd heq (hfresh j hj hqj p hpL i hi hpi)
      · rw [hL p hpL] at hpi heq ⊢
        rw [hL q hqL] at hqj heq
        exact h.shared p hpL q hqL hne i hi j hj hpi hqj heq

lemma withChild (h : Isolated L m) (hchild : child ∉ L) :
    Isolated (Insert.insert child L) (m.withChild self child) := by
  have hnone : ∀ i, (m.withChild self child).pte (.user child) i = {} := by
    intro i
    rw [pte_withChild, if_pos rfl]
  refine h.insert (fun p i => ?_) (fun p i => ?_) (fun p i hp => ?_) rfl hchild ?_ ?_ ?_
  · rw [pte_withChild]
    split_ifs
    exacts [.empty, h.entries p i]
  · rw [pte_withChild]
    split_ifs
    exacts [by simp, h.cow p i]
  · rw [pte_withChild, if_neg hp]
  all_goals
    intro i hi
    simp [hnone]

/-- **A page shared by `fork`**: both processes lose the right to write. -/
lemma sharedPage (h : Isolated L m) (hself : self ∈ L) (hne : self ≠ child)
    (hcopy : Copies self child m)
    (hrun : copyPageToOtherProcessShared self child page m = .ok m') :
    Isolated L m' ∧ Copies self child m' := by
  rcases copyPageToOtherProcessShared_cases hrun with ⟨-, rfl⟩ | ⟨hp, hpage, -, rfl⟩
  · exact ⟨h, hcopy⟩
  set e := m.pte (.user self) page with he
  have hok : e.Ok := h.entries (.user self) page
  have hmapped : e.mapped = true := hok.mapped_iff.mpr hp
  set m' := (m.updated (.user self) page (sharedEntry e)).updated (.user child) page (sharedEntry e)
    with hm'
  have hpte : ∀ p i, m'.pte p i = if (p = .user self ∨ p = .user child) ∧ i = page then sharedEntry e
      else m.pte p i := by
    intro p i
    rw [hm', pte_updated, pte_updated]
    by_cases h₁ : p = .user child ∧ i = page
    · rw [if_pos h₁, if_pos ⟨Or.inr h₁.1, h₁.2⟩]
    · rw [if_neg h₁]
      exact if_congr (by tauto) rfl rfl
  have hpages : m'.frameToPage = m.frameToPage := by simp [hm']
  -- where the mapping of a page comes from
  have hsrc : ∀ p i, ∃ q, (q = p ∨ (p = child ∧ i = page ∧ q = self)) ∧
      (m'.pte (.user p) i).mapped = (m.pte (.user q) i).mapped ∧
      (m'.pte (.user p) i).frame = (m.pte (.user q) i).frame ∧
      ((m'.pte (.user p) i).flags.write = false ∨ (q = p ∧
        (m'.pte (.user p) i).flags.write = (m.pte (.user p) i).flags.write)) := by
    intro p i
    rw [hpte]
    by_cases h₁ : (ProcId.user p = .user self ∨ ProcId.user p = .user child) ∧ i = page
    · rw [if_pos h₁]
      obtain ⟨h₁ | h₁, rfl⟩ := h₁
      · rw [ProcId.user.injEq] at h₁
        subst h₁
        exact ⟨p, Or.inl rfl, rfl, rfl, Or.inl rfl⟩
      · rw [ProcId.user.injEq] at h₁
        subst h₁
        exact ⟨self, Or.inr ⟨rfl, rfl, rfl⟩, rfl, rfl, Or.inl rfl⟩
    · rw [if_neg h₁]
      exact ⟨p, Or.inl rfl, rfl, rfl, Or.inr ⟨rfl, rfl⟩⟩
  refine ⟨⟨fun p i => ?_, fun p i => ?_, fun i hi => ?_, fun p hp i hi => ?_,
    fun p hpL i hi j hj hpi hpj heq => ?_, fun p hpL q hqL hpq i hi j hj hpi hqj heq => ?_⟩,
    fun j hj => ?_⟩
  · rw [hpte]
    split_ifs
    exacts [hok.sharedEntry hp, h.entries p i]
  · rw [hpte]
    split_ifs
    exacts [fun _ => rfl, h.cow p i]
  · rw [hpte, if_neg (by simp), hpages]
    exact h.backedKernel i hi
  · obtain ⟨q, hq, hmap, hframe, -⟩ := hsrc p i
    have hqL : q ∈ L := by
      rcases hq with rfl | ⟨-, -, rfl⟩
      exacts [hp, hself]
    rw [hmap, hframe, hpages]
    exact h.backed q hqL i hi
  · obtain ⟨a, ha, hami, hafi, -⟩ := hsrc p i
    obtain ⟨b, hb, hbmj, hbfj, -⟩ := hsrc p j
    rw [hami] at hpi
    rw [hbmj] at hpj
    rw [hafi, hbfj] at heq
    rcases ha with rfl | ⟨hpa, rfl, rfl⟩ <;> rcases hb with rfl | ⟨hpb, rfl, rfl⟩
    · exact h.once _ hpL i hi j hj hpi hpj heq
    · -- the child has the frame at another page: then so has the parent
      rw [hpb] at hpi heq
      obtain ⟨hmi, hfi⟩ := hcopy i hi hpi
      exact h.once _ hself i hi j hj hmi hpj (hfi.symm.trans heq)
    · rw [hpa] at hpj heq
      obtain ⟨hmj, hfj⟩ := hcopy j hj hpj
      exact h.once _ hself i hi j hj hpi hmj (heq.trans hfj)
    · rfl
  · obtain ⟨a, -, hami, hafi, hwrite | ⟨rfl, hwrite⟩⟩ := hsrc p i
    · exact hwrite
    obtain ⟨b, hb, hbmj, hbfj, -⟩ := hsrc q j
    rw [hami] at hpi
    rw [hbmj] at hqj
    rw [hafi, hbfj] at heq
    rcases hb with rfl | ⟨rfl, rfl, rfl⟩
    · rw [hwrite]
      exact h.shared _ hpL _ hqL hpq i hi j hj hpi hqj heq
    · by_cases hab : a = b
      · subst hab
        rw [h.once _ hself i hi j hj hpi hqj heq, hpte, if_pos ⟨Or.inl rfl, rfl⟩]
        rfl
      · rw [hwrite]
        exact h.shared _ hpL _ hself hab i hi j hj hpi hqj heq
  · rw [hpte, hpte]
    by_cases hj' : j = page
    · rw [if_pos ⟨Or.inr rfl, hj'⟩, if_pos ⟨Or.inl rfl, hj'⟩]
      exact fun _ => ⟨hmapped, rfl⟩
    · rw [if_neg fun h' => hj' h'.2, if_neg fun h' => hj' h'.2]
      exact hcopy j hj

/-- The mapping page is left out while stack pages are copied. -/
def Unmapped (self : ℕ) (L : Finset ℕ) (m : Memory) : Prop :=
  Isolated L (m.setPte (.user self) mappingPage {}) ∧ (m.pte (.user self) mappingPage).Ok ∧
    ((m.pte (.user self) mappingPage).flags.cow = true →
      (m.pte (.user self) mappingPage).flags.write = false)

/-- **A stack page copied by `fork`** has a frame of its own. -/
lemma stackCopied (h : Unmapped self L m)
    (hrun : copyPageToOtherProcess self child page mappingPage m = .ok m') :
    Unmapped self L m' := by
  rcases copyPageToOtherProcess_cases hrun with ⟨-, rfl⟩ |
    ⟨hz, frame, sysPe, m₁, hs, -, hpage, hmapping, hsys, hun, hfree, hp, rfl⟩
  · exact h
  obtain ⟨hiso, hok, hcow⟩ := h
  -- the source is a page of the parent, or the mapping page itself
  have hsource : (m.pte (.user self) page).Ok ∧ ((m.pte (.user self) page).flags.cow = true →
      (m.pte (.user self) page).flags.write = false) := by
    by_cases hpm : page = mappingPage
    · rw [hpm]
      exact ⟨hok, hcow⟩
    · have h₁ := hiso.entries (.user self) page
      have h₂ := hiso.cow (.user self) page
      rw [pte_setPte, if_neg fun h' => hpm h'.2] at h₁ h₂
      exact ⟨h₁, h₂⟩
  have hused : (m.pte (.user self) page).used = true := by
    by_contra hun'
    exact hz (hsource.1.unused (by simpa using hun'))
  set e : Entry := ⟨frame % numFrames, (m.pte (.user self) page).flags⟩ with he
  have heok : e.Ok := hsource.1.of_flags hused
  have hpte : ∀ p i, (Memory.stackCopied self child page mappingPage frame sysPe m₁).pte p i =
      if p = .user self ∧ i = mappingPage then e
      else if p = .user child ∧ i = page then e
      else if p = .kernel ∧ i = sysPe then e else m.pte p i := by
    intro p i
    rw [pte_stackCopied, hs.pte]
  have hpages : (Memory.stackCopied self child page mappingPage frame sysPe m₁).frameToPage =
      (m₁.allocated frame sysPe (m.pte (.user self) page).flags).frameToPage := by
    simp [Memory.stackCopied, hs.pte]
  refine ⟨hiso.took child page e heok hsource.2 (fun p i => ?_) (fun g hg => ?_) fun hmap => ?_,
    ?_, ?_⟩
  · rw [pte_setPte, pte_setPte, hpte]
    by_cases h₁ : p = .user self ∧ i = mappingPage
    · rw [if_pos h₁]
      exact Or.inr (Or.inl rfl)
    · rw [if_neg h₁, if_neg h₁, if_neg h₁]
      split_ifs with h₂ h₃
      · exact Or.inl ⟨rfl, Or.inr h₂⟩
      · exact Or.inl ⟨rfl, Or.inl h₃.1⟩
      · exact Or.inr (Or.inr rfl)
  · rw [frameToPage_setPte] at hg ⊢
    rw [hpages]
    exact frameToPage_allocated_ne (by rwa [hs.frameToPage])
  · rw [frameToPage_setPte, frameToPage_setPte, hpages, ← hs.frameToPage]
    exact fresh_allocated heok (by rwa [hs.frameToPage]) (fun h' => (hp h').1) hmap
  · rw [hpte, if_pos ⟨rfl, rfl⟩]
    exact heok
  · rw [hpte, if_pos ⟨rfl, rfl⟩]
    exact hsource.2

/-- **`fork` isolates the child** from a set of processes that its parent belongs to. -/
lemma fork_insert (h : Isolated L m) (hself : self ∈ L) (hchild : m.getFreePid ∉ L) {r : Forked}
    (hrun : fork self m = .ok r) : Isolated (Insert.insert m.getFreePid L) r.memory := by
  set child := m.getFreePid with hchild_eq
  set L' := Insert.insert child L with hL
  have hself' : self ∈ L' := Finset.mem_insert_of_mem hself
  have hne : self ≠ child := by
    rintro rfl
    exact hchild hself
  have hempty : (m.withChild self child).pte (.user self) mappingPage = {} := fork_mapping_empty hrun
  -- while pages are shared the mapping page is empty
  set P : Memory → Prop := fun c => (Isolated L' c ∧ Copies self child c) ∧
    c.pte (.user self) mappingPage = {} with hP
  obtain ⟨-, -, m₁, ⟨hiso, -, -⟩, -, -, hmem⟩ : _ ∧ _ ∧ ∃ m₁, Unmapped self L' m₁ ∧ _ := by
    refine fork_rule (P := P) hrun ?_ ?_ ?_ ?_ ?_
    · refine ⟨⟨h.withChild hchild, fun j _ => ?_⟩, hempty⟩
      rw [pte_withChild, if_pos rfl]
      simp
    · rintro m₁ m₂ page ⟨⟨hi, hc⟩, hmap⟩ hpage hstep
      refine ⟨hi.sharedPage hself' hne hc hstep, ?_⟩
      rcases copyPageToOtherProcessShared_cases hstep with ⟨-, rfl⟩ | ⟨-, -, -, rfl⟩
      · exact hmap
      · have hnot : mappingPage ≠ page := by
          rintro rfl
          exact absurd hpage (by decide)
        rw [pte_updated_of_ne fun _ => hnot, pte_updated_of_ne fun _ => hnot, hmap]
    · rintro m₁ ⟨⟨hi, -⟩, hmap⟩
      refine ⟨hi.congr ?_ (by simp), ?_, ?_⟩
      · funext p i
        rw [pte_setPte]
        split_ifs with hc
        · rw [hc.1, hc.2, hmap]
        · rfl
      · rw [hmap]
        exact .empty
      · simp [hmap]
    · intro m₁ m₂ page hu _ hstep
      exact stackCopied hu hstep
    · rintro m₁ ⟨hi, hok, hcow⟩
      refine ⟨hi.congr ?_ (by simp [copyPdt]), by rwa [pte_copyPdt], by rwa [pte_copyPdt]⟩
      funext p i
      rw [pte_setPte, pte_setPte, pte_copyPdt]
  rw [hmem]
  refine hiso.congr ?_ (by simp)
  funext p i
  rw [pte_setPte, ← pte_updated]
  cases p <;> rfl

lemma fork (h : Isolated m.live m) (hself : self ∈ m.live) {r : Forked}
    (hrun : fork self m = .ok r) : Isolated r.memory.live r.memory := by
  rw [fork_live hrun]
  exact h.fork_insert hself (fork_child_not_mem hrun) hrun

/-- The windows of the loader: their frames are mapped by no process, and by no two pages of the new
one. -/
def FreshWindows (req : LoadRequest) (m : Memory) : Prop :=
  ∀ x ∈ req.mappings, (m.pte .kernel x.2).mapped = true →
    (∀ y ∈ req.mappings, (m.pte .kernel y.2).mapped = true →
      (m.pte .kernel x.2).frame = (m.pte .kernel y.2).frame → x.1 = y.1) ∧
    ∀ q ∈ m.live, ∀ j < userEntries, (m.pte (.user q) j).mapped = true →
      (m.pte (.user q) j).frame ≠ (m.pte .kernel x.2).frame

/-- **The loader isolates the new process** when its windows are fresh. -/
lemma loaded {p : Process} {req : LoadRequest} (h : Isolated m.live m) (hpid : pid ∉ m.live)
    (hused : ∀ x ∈ req.mappings, (m.pte .kernel x.2).used = true) (hfresh : FreshWindows req m)
    (hp : buildProcess req m = .ok p) : Isolated (m.loaded pid p).live (m.loaded pid p) := by
  have hnew : ∀ i, (m.loaded pid p).pte (.user pid) i = p.pageTables i := by
    intro i
    rw [pte_loaded, if_pos rfl]
  have hfrom := buildProcess_fromWindows hp
  -- a mapped page has the frame of its window
  have hwin : ∀ i, (p.pageTables i).mapped = true → ∃ w, (i, w) ∈ req.mappings ∧ w < numFrames ∧
      (m.pte .kernel w).mapped = true ∧ (p.pageTables i).frame = (m.pte .kernel w).frame := by
    intro i hmap
    rcases hfrom i with hz | ⟨w, hw, hlt, hf⟩
    · simp [hz] at hmap
    · exact ⟨w, hw, hlt, hf.mapped ▸ hmap, hf.frame⟩
  refine h.insert (fun q i => ?_) (fun q i => ?_) (fun q i hq => ?_) rfl hpid ?_ ?_ ?_
  · rw [pte_loaded]
    split_ifs
    · rcases hfrom i with hz | ⟨w, hw, -, hf⟩
      · exact hz ▸ .empty
      · exact (h.entries .kernel w).fromWindow (hused _ hw) hf
    · exact h.entries q i
  · rw [pte_loaded]
    split_ifs
    · rcases hfrom i with hz | ⟨w, -, -, hf⟩
      · simp [hz]
      · intro hc
        by_contra hw
        have hw' := hf.write (by simpa using hw)
        exact Bool.false_ne_true ((h.cow .kernel w (hf.cow ▸ hc)).symm.trans hw')
    · exact h.cow q i
  · rw [pte_loaded, if_neg hq]
  · intro i _ hmap
    rw [hnew] at hmap ⊢
    obtain ⟨w, -, hlt, hm, hframe⟩ := hwin i hmap
    rw [hframe]
    exact h.backedKernel w hlt hm
  · intro i _ j _ hi hj heq
    rw [hnew] at hi hj heq
    rw [hnew] at heq
    obtain ⟨w, hw, -, hwm, hwf⟩ := hwin i hi
    obtain ⟨v, hv, -, hvm, hvf⟩ := hwin j hj
    exact (hfresh _ hw hwm).1 _ hv hvm (hwf.symm.trans (heq.trans hvf))
  · intro i _ hmap q hq j hj hqj
    rw [hnew] at hmap ⊢
    obtain ⟨w, hw, -, hwm, hwf⟩ := hwin i hmap
    rw [hwf]
    exact (hfresh _ hw hwm).2 q hq j hj hqj

end Isolated

/-! ## Steps -/

/-- The steps of a run without frees and exits that keep processes apart: `mprotect` must not set
`PAGE_WRITE` on a copy-on-write page or on a frame that another process maps, and the windows of the
loader must be fresh. -/
def Separates : Op → Memory → Prop
  | .mprotect proc addr len prot, m => prot.write = true → mprotectApplies addr len prot proc m →
      ∀ page ∈ mprotectPages addr len, (m.pte proc page).flags.cow = false ∧
        ∀ p, proc = .user p → (m.pte proc page).mapped = true → ∀ q ∈ m.live, q ≠ p →
          ∀ j < userEntries, (m.pte (.user q) j).mapped = true →
            (m.pte (.user q) j).frame ≠ (m.pte proc page).frame
  | .exec req, m => Isolated.FreshWindows req m
  | .freePage _ _, _ => False
  | .drop _, _ => False
  | _, _ => True

namespace Isolated

variable {op : Op}

lemma sbrk_step {n addr : ℕ} {info : PageInfo} {hint : HintInfo} (h : Isolated m.live m)
    (hpol : info.policy.present ≠ info.policy.lazyZero)
    (hrun : sbrk proc n info hint m = .ok (addr, m')) : Isolated m'.live m' := by
  rcases sbrk_cases hrun with ⟨-, rfl⟩ | ⟨-, -, -, -, hcow, -⟩
  · exact h
  have hok : ∀ g, (⟨g, info.policy⟩ : Entry).Ok := fun g => .of_policy hcow hpol
  have hcow' : info.policy.cow = true → info.policy.write = false := by simp [hcow]
  have hmain : Isolated m.live m' ∧ m'.live = m.live := by
    refine sbrk_rule (P := fun c => Isolated m.live c ∧ c.live = m.live) hrun ⟨h, rfl⟩ ?_ ?_ ?_ ?_
    · rintro - m₁ m₂ page ⟨hc, hlive⟩ - hstep
      obtain ⟨frame, m₃, hs, -, hfree, hp, rfl⟩ := allocateFreePage_spec hstep
      exact ⟨(hc.scanned hs).allocated (hok _) hcow' (by rwa [hs.frameToPage]) fun h' => (hp h').1,
        by rw [live_allocated, hs.live, hlive]⟩
    · rintro pid - - m₁ m₂ page ⟨hc, hlive⟩ - hstep
      obtain ⟨frame, sysPe, m₃, hs, -, -, -, hfree, hp, rfl⟩ := sbrkUserPage_spec hstep
      exact ⟨(hc.scanned hs).allocated_updated (hok _) hcow' (by rwa [hs.frameToPage])
        fun h' => (hp h').1, by rw [live_updated, live_allocated, hs.live, hlive]⟩
    · rintro pid - hlazy m₁ page ⟨hc, hlive⟩ - -
      exact ⟨hc.reserved (hok _) hcow hlazy, by simpa⟩
    · rintro m₁ pe ⟨hc, hlive⟩
      exact ⟨hc.congr (by simp) (by simp), by simpa⟩
  rw [hmain.2]
  exact hmain.1

lemma fault_step {address : ℕ} {writeAccess handled : Bool} (h : Isolated m.live m)
    (hproc : proc ∈ m.spaces)
    (hrun : pageFaultHandler proc address writeAccess m = .ok (handled, m')) :
    Isolated m'.live m' := by
  set higherHalf := decide (kernelVirtualBase ≤ address) with hhigh
  have hentry := h.entries (faultTable proc higherHalf) (addrPage address)
  obtain ⟨hpage, rfl | ⟨hcow, hcow'⟩ | ⟨-, hlazy'⟩⟩ := pageFaultHandler_cases hhigh
    (fun h' => by simp [hentry.present (hentry.cow h'.1)] at h') hrun
  · exact h
  · obtain ⟨_, _, _, -, hlow, -⟩ := handleCowPageFault_spec hcow'
    rw [hlow] at hcow
    rw [handleCowPageFault_live hcow']
    exact (h.copyOnWrite (fun pid hp => user_mem_spaces.mp (hp ▸ hproc)) hcow hcow').1
  · obtain ⟨sysPe, hf⟩ := handleLazyZeroPageFault_spec (lt_of_lt_of_le hpage (by
      cases faultTable proc higherHalf <;> simp [ProcId.entries, numFrames, userEntries])) hlazy'
    rw [hf.live]
    exact h.lazyFilled hf

lemma mprotect_step {addr len : ℕ} {prot : Prot} {r : MprotectResult} (h : Isolated m.live m)
    (hok : Separates (.mprotect proc addr len prot) m)
    (hrun : mprotect addr len prot proc m = .ok (r, m')) : Isolated m'.live m' := by
  rcases mprotect_cases hrun with rfl | ⟨happ, -⟩
  · exact h
  have hmain : (Isolated m.live m' ∧ m'.live = m.live) ∧ ∀ p i, (m'.pte p i).mapped =
      (m.pte p i).mapped ∧ (m'.pte p i).frame = (m.pte p i).frame ∧
        (m'.pte p i).flags.cow = (m.pte p i).flags.cow := by
    refine mprotect_rule (P := fun c => (Isolated m.live c ∧ c.live = m.live) ∧ ∀ p i,
      (c.pte p i).mapped = (m.pte p i).mapped ∧ (c.pte p i).frame = (m.pte p i).frame ∧
        (c.pte p i).flags.cow = (m.pte p i).flags.cow) hrun ⟨⟨h, rfl⟩, by simp⟩ ?_
    rintro c page hpage ⟨⟨hc, hlive⟩, hsame⟩ - hused -
    refine ⟨⟨hc.withWrite hused (fun hw => ?_) fun hw p hp hmap q hq hne j hj hqj => ?_, by simpa⟩,
      fun p i => ?_⟩
    · rw [(hsame proc page).2.2]
      exact (hok hw happ page hpage).1
    · rw [(hsame _ _).1] at hmap hqj
      rw [(hsame _ _).2.1, (hsame _ _).2.1]
      exact (hok hw happ page hpage).2 p hp hmap q hq hne j hj hqj
    · rw [pte_updated]
      split_ifs with hi
      · rw [hi.1, hi.2]
        exact hsame proc page
      · exact hsame p i
  rw [hmain.1.2]
  exact hmain.1.1

/-- **A step that separates keeps processes isolated.** -/
lemma step (h : Isolated m.live m) (hok : Separates op m) (hrun : op.run m = .ok m') :
    Isolated m'.live m' := by
  cases op with
  | sbrk proc n info hint =>
      obtain ⟨-, hrun⟩ := onBehalf_eq_ok.mp hrun
      split_ifs at hrun with hpol
      obtain ⟨⟨addr, _⟩, hres, rfl⟩ := map_eq_ok.mp hrun
      exact h.sbrk_step hpol hres
  | freePage proc address => exact hok.elim
  | fault proc address writeAccess =>
      obtain ⟨hproc, hrun⟩ := onBehalf_eq_ok.mp hrun
      obtain ⟨⟨handled, _⟩, hres, rfl⟩ := map_eq_ok.mp hrun
      exact h.fault_step hproc hres
  | mprotect proc addr len prot =>
      obtain ⟨-, hrun⟩ := onBehalf_eq_ok.mp hrun
      obtain ⟨⟨r, _⟩, hres, rfl⟩ := map_eq_ok.mp hrun
      exact h.mprotect_step hok hres
  | fork pid =>
      obtain ⟨hproc, hrun⟩ := onBehalf_eq_ok.mp hrun
      obtain ⟨r, hres, rfl⟩ := map_eq_ok.mp hrun
      exact h.fork (user_mem_spaces.mp hproc) hres
  | exec req =>
      rw [Op.run] at hrun
      split_ifs at hrun with hused
      obtain ⟨⟨o, _⟩, hres, rfl⟩ := map_eq_ok.mp hrun
      rcases exec_cases hres with heq | ⟨p, hp, hpid, heq⟩
      · exact heq ▸ h
      · exact heq ▸ h.loaded (getFreePid_not_mem hpid) hused hok hp
  | drop pid => exact hok.elim

end Isolated

/-! ## Runs -/

/-- No entry is both copy-on-write and writable, and no frame that two live processes map is writable
in either. -/
def Separated (m : Memory) : Prop :=
  (∀ p ∈ m.spaces, ∀ i, ¬ ((m.pte p i).flags.cow = true ∧ (m.pte p i).flags.write = true)) ∧
    ∀ p ∈ m.live, ∀ q ∈ m.live, p ≠ q → ∀ i < userEntries, ∀ j < userEntries,
      (m.pte (.user p) i).flags.present = true → (m.pte (.user q) j).flags.present = true →
      (m.pte (.user p) i).frame = (m.pte (.user q) j).frame →
        (m.pte (.user p) i).flags.write = false ∧ (m.pte (.user q) j).flags.write = false

lemma Isolated.separated (h : Isolated m.live m) : Separated m := by
  refine ⟨fun p _ i hi => ?_, fun p hp q hq hne i hi j hj hpi hqj heq => ?_⟩
  · exact Bool.false_ne_true ((h.cow p i hi.1).symm.trans hi.2)
  · have hpi := (h.entries _ _).mapped_iff.mpr hpi
    have hqj := (h.entries _ _).mapped_iff.mpr hqj
    exact ⟨h.shared p hp q hq hne i hi j hj hpi hqj heq,
      h.shared q hq p hp (Ne.symm hne) j hj i hi hqj hpi heq.symm⟩

/-- **Processes stay separated** over every run whose steps separate. -/
theorem run_separated {m₀ : Memory} (hstart : Isolated m₀.live m₀) (hrun : Run Separates m₀ m) :
    Separated m :=
  (hrun.invariant (P := fun m => Isolated m.live m) hstart
    fun _ _ _ h hok hstep => h.step hok hstep).separated

lemma isolated_bootMemory : Isolated bootMemory.live bootMemory := by
  refine ⟨(tracked_bootMemory le_rfl).entries, fun p i => ?_, fun i _ hmap => ?_, ?_, ?_, ?_⟩
  · rcases bootMemory_pte (p := p) (i := i) with h | ⟨-, -, h⟩ <;> simp [h]
  · rcases bootMemory_pte (p := .kernel) (i := i) with h | ⟨-, hlt, h⟩
    · simp [h] at hmap
    · rw [h]
      have : i - 786432 < 4096 := by omega
      simp [bootMemory, this]
  all_goals
    intro p hp
    exact absurd hp (by simp [bootMemory])

lemma freshWindows_firstLoad (h : firstWindows.run bootMemory = .ok m) :
    Isolated.FreshWindows firstLoad m := by
  have hdec : (firstWindows.run bootMemory).map (fun m => decide (m.live = ∅ ∧
      ∀ x ∈ firstLoad.mappings, 790528 ≤ x.2 ∧ (m.pte .kernel x.2).frame = x.2 - 786432)) =
        .ok true := by decide +kernel
  rw [h] at hdec
  obtain ⟨hlive, hframe⟩ := of_decide_eq_true (Except.ok.inj hdec)
  have hpages : ∀ x ∈ firstLoad.mappings, ∀ y ∈ firstLoad.mappings, x.2 = y.2 → x.1 = y.1 := by
    decide +kernel
  refine fun x hx _ => ⟨fun y hy _ heq => hpages x hx y hy ?_, by simp [hlive]⟩
  obtain ⟨hx₁, hx₂⟩ := hframe x hx
  obtain ⟨hy₁, hy₂⟩ := hframe y hy
  omega

lemma firstProcess_run (h : firstProcess = .ok m) : Run Separates bootMemory m := by
  obtain ⟨m₁, hm₁, hm₂⟩ := firstProcess_eq_ok.mp h
  have hok₁ : Separates firstWindows bootMemory := trivial
  have hok₂ : Separates (.exec firstLoad) m₁ := freshWindows_firstLoad hm₁
  exact (Run.refl.step hok₁ hm₁).step hok₂ hm₂

/-- The first process asks for a page. -/
theorem run_separated_first_page : ∃ m, Run Separates bootMemory m ∧ m.live = {0} ∧
    Separated m := by
  have hdec : (firstProcess.bind fun m => (firstPage.run m).map fun m' => decide (m'.live = {0})) =
      .ok true := by decide +kernel
  obtain ⟨m, hm, hdec⟩ := bind_eq_ok.mp hdec
  obtain ⟨m', hm', hlive⟩ := map_eq_ok.mp hdec
  have hok : Separates firstPage m := trivial
  have hrun : Run Separates bootMemory m' := (firstProcess_run hm).step hok hm'
  exact ⟨m', hrun, of_decide_eq_true hlive, run_separated isolated_bootMemory hrun⟩

/-- **`mprotect` breaks the separation.**  The first process forks and asks for write access to the
page it now shares with its child: the entry becomes copy-on-write and writable, and the frame
writable in the parent while the child maps it. -/
theorem mprotect_not_separated : ∃ m, Run (fun _ _ => True) bootMemory m ∧ ¬ Separated m := by
  obtain ⟨m, r, m₁, -, hm, hfork, hm₁, -, ⟨hlive, -⟩, ⟨hlive₁, hcow, hwrite⟩, -⟩ :=
    firstProcess_forked
  have hrun : Run (fun _ _ => True) bootMemory m := .of_foldlM hm
  have hforked : Op.run m (.fork 0) = .ok r.memory :=
    onBehalf_eq_ok.mpr ⟨user_mem_spaces.mpr hlive, map_eq_ok.mpr ⟨r, hfork, rfl⟩⟩
  exact ⟨m₁, (hrun.step trivial hforked).step trivial hm₁,
    fun h => h.1 (.user 0) (user_mem_spaces.mpr hlive₁) 1 ⟨hcow, hwrite⟩⟩

end Memory

end BrebOS
