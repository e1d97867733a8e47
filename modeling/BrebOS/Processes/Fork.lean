import BrebOS.Processes.Frames

/-!
# What a child inherits

The exact result of `fork`: which pages the child has, with which flags, and which stack pages were
copied.

**Shared pages.**  `SharedUpTo` says what the tables look like when the pages below `k` have had
their turn; a page is shared when its table is in the page directory and the page is present.

**Stacks.**  Both stack loops run one turn too far.  Their ranges overlap in one page, which is
copied twice, and the last turn of the second one copies the *mapping page*, which by then holds the
page copied before it.  So the child of a process with a stack has a page just below its stacks, and
that is the page its own `fork` insists on finding empty.
-/

namespace BrebOS

namespace Memory

variable {m m' m₀ : Memory} {proc : ProcId} {self child pid page i j k : ℕ} {val : Entry}

/-! ## Page directories -/

lemma pdt_updated : ((m.updated proc page val).process pid).pdt =
    if proc = .user pid then Function.update (m.process pid).pdt (page / ptEntries) true
    else (m.process pid).pdt := by
  have hacq : ∀ c : Memory, (acquireFrame val c).process = c.process := by
    intro c
    rw [acquireFrame]
    split_ifs <;> rfl
  rw [updated, hacq]
  cases proc with
  | kernel => rfl
  | user p =>
      by_cases hp : p = pid
      · subst hp
        simp [fillPdt, setPte, setRc]
      · have hp' : pid ≠ p := Ne.symm hp
        simp [fillPdt, setPte, setRc, hp, hp']

lemma pdt_updated_of_set (h : ∀ p, proc = .user p → (m.process p).pdt (page / ptEntries) = true) :
    ((m.updated proc page val).process pid).pdt = (m.process pid).pdt := by
  rw [pdt_updated]
  split_ifs with hp
  · rw [← h pid hp, Function.update_eq_self]
  · rfl

lemma pdt_updated_of_true {t : ℕ} (h : (m.process pid).pdt t = true) :
    ((m.updated proc page val).process pid).pdt t = true := by
  rw [pdt_updated]
  split_ifs
  · rw [Function.update_apply]
    split_ifs
    exacts [rfl, h]
  · exact h

/-! ## Shared pages -/

/-- The pages `fork` shares. -/
def Shares (self : ℕ) (m : Memory) (i : ℕ) : Prop :=
  (m.process self).pdt (i / ptEntries) = true ∧ (m.pte (.user self) i).flags.present = true

/-- The state when the pages below `k` have had their turn, from the state `m₀` before the first. -/
structure SharedUpTo (parent child k : ℕ) (m₀ m : Memory) : Prop where
  shared : ∀ p i, p = .user parent ∨ p = .user child → i < k → Shares parent m₀ i →
    m.pte p i = sharedEntry (m₀.pte (.user parent) i)
  same : ∀ p i, ¬ ((p = .user parent ∨ p = .user child) ∧ i < k ∧ Shares parent m₀ i) →
    m.pte p i = m₀.pte p i
  pdt : (m.process parent).pdt = (m₀.process parent).pdt
  memtree : ∀ p, (m.process p).memtree = (m₀.process p).memtree
  live : m.live = m₀.live

namespace SharedUpTo

lemma refl : SharedUpTo self child 0 m₀ m₀ :=
  ⟨fun _ _ _ h => by omega, fun _ _ _ => rfl, rfl, fun _ => rfl, rfl⟩

lemma skip (h : SharedUpTo self child k m₀ m) {l : ℕ} (hkl : k ≤ l)
    (hnot : ∀ i, k ≤ i → i < l → ¬ Shares self m₀ i) : SharedUpTo self child l m₀ m := by
  refine ⟨fun p i hp hi hs => ?_, fun p i hn => ?_, h.pdt, h.memtree, h.live⟩
  · refine h.shared p i hp ?_ hs
    by_contra hk
    exact hnot i (by omega) hi hs
  · refine h.same p i fun ⟨hp, hi, hs⟩ => hn ⟨hp, by omega, hs⟩

lemma current (h : SharedUpTo self child k m₀ m) : m.pte (.user self) k = m₀.pte (.user self) k :=
  h.same _ _ fun h' => absurd h'.2.1 (by omega)

/-- **One turn of the inner loop.** -/
lemma step (h : SharedUpTo self child k m₀ m) (hne : self ≠ child)
    (hdir : (m₀.process self).pdt (k / ptEntries) = true)
    (hrun : (if m.pte (.user self) k = {} then .ok m
      else copyPageToOtherProcessShared self child k m) = .ok m') :
    SharedUpTo self child (k + 1) m₀ m' := by
  have hskip : (m₀.pte (.user self) k).flags.present = false → SharedUpTo self child (k + 1) m₀ m := by
    intro hp
    refine h.skip (by omega) fun i hi hlt hs => ?_
    obtain rfl : i = k := by omega
    exact Bool.false_ne_true (hp.symm.trans hs.2)
  split_ifs at hrun with hz
  · obtain rfl := Except.ok.inj hrun
    rw [h.current] at hz
    exact hskip (by rw [hz])
  rcases copyPageToOtherProcessShared_cases hrun with ⟨hp, rfl⟩ | ⟨hp, hlt, -, rfl⟩
  · rw [h.current] at hp
    exact hskip hp
  rw [h.current] at hp ⊢
  have hs : Shares self m₀ k := ⟨hdir, hp⟩
  have hpte : ∀ p i, ((m.updated (.user self) k (sharedEntry (m₀.pte (.user self) k))).updated
      (.user child) k (sharedEntry (m₀.pte (.user self) k))).pte p i =
        if (p = .user self ∨ p = .user child) ∧ i = k then sharedEntry (m₀.pte (.user self) k)
        else m.pte p i := by
    intro p i
    rw [pte_updated, pte_updated]
    by_cases h₁ : p = .user child ∧ i = k
    · rw [if_pos h₁, if_pos ⟨Or.inr h₁.1, h₁.2⟩]
    · rw [if_neg h₁]
      exact if_congr (by tauto) rfl rfl
  refine ⟨fun p i hp hi hs => ?_, fun p i hn => ?_, ?_, fun p => ?_, ?_⟩
  · rw [hpte]
    by_cases hik : i = k
    · rw [if_pos ⟨hp, hik⟩, hik]
    · rw [if_neg fun h' => hik h'.2]
      exact h.shared p i hp (by omega) hs
  · rw [hpte, if_neg]
    · exact h.same p i fun ⟨hp, hi, hs⟩ => hn ⟨hp, by omega, hs⟩
    · rintro ⟨hq, rfl⟩
      exact hn ⟨hq, by omega, hs⟩
  · rw [pdt_updated, if_neg fun h' => hne (ProcId.user.inj h').symm, pdt_updated_of_set, h.pdt]
    intro p hp
    rw [← ProcId.user.inj hp, h.pdt]
    exact hdir
  · rw [memtree_updated, memtree_updated, h.memtree]
  · rw [live_updated, live_updated, h.live]

/-- **One turn of the outer loop.** -/
lemma table (h : SharedUpTo self child (i * ptEntries) m₀ m) (hne : self ≠ child)
    (hrun : shareTable self child m i = .ok m') :
    SharedUpTo self child ((i + 1) * ptEntries) m₀ m' := by
  have hdiv : ∀ j < ptEntries, (i * ptEntries + j) / ptEntries = i := by
    intro j hj
    simp only [ptEntries] at hj ⊢
    omega
  rw [shareTable] at hrun
  by_cases hdir : (m.process self).pdt i = true
  · rw [if_pos hdir, List.range_eq_range'] at hrun
    have hloop := foldlM_range'_invariant
      (fun j c => SharedUpTo self child (i * ptEntries + j) m₀ c) hrun ?_ ?_
    · rwa [Nat.zero_add, ← Nat.succ_mul] at hloop
    · rwa [Nat.add_zero]
    · intro j c c' _ hj hc hstep
      rw [← Nat.add_assoc]
      refine hc.step hne ?_ hstep
      rw [hdiv j (by omega), ← h.pdt]
      exact hdir
  · rw [if_neg hdir] at hrun
    obtain rfl := Except.ok.inj hrun
    refine h.skip (Nat.mul_le_mul_right _ (by omega)) fun j hj hlt hs => hdir ?_
    have hj' : j / ptEntries = i := by
      simp only [ptEntries] at hj hlt ⊢
      omega
    rw [h.pdt, ← hj']
    exact hs.1

end SharedUpTo

lemma shareTables_spec (hne : self ≠ child)
    (hrun : (List.range sharedTables).foldlM (shareTable self child) m₀ = .ok m) :
    SharedUpTo self child (sharedTables * ptEntries) m₀ m := by
  rw [List.range_eq_range'] at hrun
  have := foldlM_range'_invariant (fun i c => SharedUpTo self child (i * ptEntries) m₀ c) hrun
    (by simpa using SharedUpTo.refl) fun i c c' _ _ hc hstep => hc.table hne hstep
  rwa [Nat.zero_add] at this

/-! ## Stacks -/

/-- The state when the pages of `l` have been copied, from the state `m₀` before the first. -/
structure StacksCopied (parent child : ℕ) (l : List ℕ) (m₀ m : Memory) : Prop where
  copied : ∀ i ∈ l, m₀.pte (.user parent) i ≠ {} →
    (m.pte (.user child) i).flags = (m₀.pte (.user parent) i).flags
  same : ∀ p i, p ≠ .kernel → ¬ (p = .user parent ∧ i = mappingPage) →
    ¬ (p = .user child ∧ i ∈ l ∧ m₀.pte (.user parent) i ≠ {}) → m.pte p i = m₀.pte p i
  mapping : ((∀ q ∈ l, m₀.pte (.user parent) q = {}) ∧
      m.pte (.user parent) mappingPage = m₀.pte (.user parent) mappingPage) ∨
    ∃ q ∈ l, m₀.pte (.user parent) q ≠ {} ∧
      (m.pte (.user parent) mappingPage).flags = (m₀.pte (.user parent) q).flags
  pdt : ∀ t, (m₀.process parent).pdt t = true → (m.process parent).pdt t = true
  memtree : ∀ p, (m.process p).memtree = (m₀.process p).memtree
  live : m.live = m₀.live

lemma process_stackCopied {frame sysPe : ℕ} {p : ℕ} :
    ((stackCopied self child page mappingPage frame sysPe m).process p).memtree =
        (m.process p).memtree ∧
      ∀ t, (m.process p).pdt t = true →
        ((stackCopied self child page mappingPage frame sysPe m).process p).pdt t = true := by
  refine ⟨by simp [stackCopied], fun t ht => ?_⟩
  simp only [stackCopied, process_copyPage]
  exact pdt_updated_of_true (pdt_updated_of_true (by rw [process_allocated]; exact ht))

namespace StacksCopied

variable {l : List ℕ}

lemma refl : StacksCopied self child [] m₀ m₀ :=
  ⟨by simp, fun _ _ _ _ _ => rfl, Or.inl (by simp), fun _ h => h, fun _ => rfl, rfl⟩

lemma source (h : StacksCopied self child l m₀ m) (hne : self ≠ child) (hpage : page ≠ mappingPage) :
    m.pte (.user self) page = m₀.pte (.user self) page :=
  h.same _ _ (by simp) (fun h' => hpage h'.2) fun h' => hne (ProcId.user.inj h'.1)

/-- **One turn of a stack loop**, at a page other than the mapping page. -/
lemma step (h : StacksCopied self child l m₀ m) (hne : self ≠ child) (hpage : page ≠ mappingPage)
    (hrun : copyPageToOtherProcess self child page mappingPage m = .ok m') :
    StacksCopied self child (l ++ [page]) m₀ m' := by
  have hsource := h.source hne hpage
  rcases copyPageToOtherProcess_cases hrun with ⟨hz, rfl⟩ | ⟨hz, frame, sysPe, m₁, hs, -, -, -, -, -, -, -,
    rfl⟩
  · rw [hsource] at hz
    refine ⟨fun i hi hn => ?_, fun p i hp hm hn => ?_, ?_, h.pdt, h.memtree, h.live⟩
    · rcases List.mem_append.mp hi with hi | hi
      · exact h.copied i hi hn
      · obtain rfl := List.mem_singleton.mp hi
        exact absurd hz hn
    · exact h.same p i hp hm fun ⟨h₁, h₂, h₃⟩ => hn ⟨h₁, List.mem_append_left _ h₂, h₃⟩
    · rcases h.mapping with ⟨hall, heq⟩ | ⟨q, hq, hq'⟩
      · refine Or.inl ⟨fun q hq => ?_, heq⟩
        rcases List.mem_append.mp hq with hq | hq
        · exact hall q hq
        · exact List.mem_singleton.mp hq ▸ hz
      · exact Or.inr ⟨q, List.mem_append_left _ hq, hq'⟩
  · rw [hsource] at hz
    have hflags : (m₁.pte (.user self) page).flags = (m₀.pte (.user self) page).flags := by
      rw [hs.pte, hsource]
    refine ⟨fun i hi hn => ?_, fun p i hp hm hn => ?_, Or.inr ⟨page, by simp, hz, ?_⟩, fun t ht => ?_,
      fun p => ?_, ?_⟩
    · rw [pte_stackCopied, if_neg fun h' => hne (ProcId.user.inj h'.1).symm]
      by_cases hi' : i = page
      · rw [if_pos ⟨rfl, hi'⟩, hi']
        exact hflags
      · rw [if_neg fun h' => hi' h'.2, if_neg (by simp), hs.pte]
        exact h.copied i ((List.mem_append.mp hi).resolve_right (by simpa using hi')) hn
    · rw [pte_stackCopied, if_neg hm, if_neg, if_neg fun h' => hp h'.1, hs.pte]
      · exact h.same p i hp hm fun ⟨h₁, h₂, h₃⟩ => hn ⟨h₁, List.mem_append_left _ h₂, h₃⟩
      · rintro ⟨h₁, rfl⟩
        exact hn ⟨h₁, by simp, hz⟩
    · rw [pte_stackCopied, if_pos ⟨rfl, rfl⟩]
      exact hflags
    · refine process_stackCopied.2 t ?_
      rw [hs.process]
      exact h.pdt t ht
    · rw [process_stackCopied.1, hs.process, h.memtree]
    · simp only [stackCopied, live_copyPage, live_updated, live_allocated, hs.live, h.live]

lemma loop (hne : self ≠ child) : ∀ {l' : List ℕ} {l : List ℕ} {s s' : List ℕ × Memory},
    StacksCopied self child l m₀ s.2 → s.1 = l.filter (fun q => m₀.pte (.user self) q ≠ {}) →
    mappingPage ∉ l' → l'.foldlM (copyStackPage self child) s = .ok s' →
      StacksCopied self child (l ++ l') m₀ s'.2 ∧
        s'.1 = (l ++ l').filter (fun q => m₀.pte (.user self) q ≠ {})
  | [], l, s, s', h, hlog, _, hrun => by
      obtain rfl := Except.ok.inj hrun
      rw [List.append_nil]
      exact ⟨h, hlog⟩
  | page :: l', l, s, s', h, hlog, hnot, hrun => by
      rw [List.mem_cons, not_or] at hnot
      rw [List.foldlM_cons] at hrun
      obtain ⟨s₁, hs₁, hrun⟩ := bind_eq_ok.mp hrun
      rw [copyStackPage] at hs₁
      obtain ⟨m₁, hm₁, hs₁⟩ := bind_eq_ok.mp hs₁
      obtain rfl := Except.ok.inj hs₁
      have hpage : page ≠ mappingPage := fun h' => hnot.1 h'.symm
      have := loop hne (l := l ++ [page]) (h.step hne hpage hm₁) ?_ hnot.2 hrun
      · rwa [List.append_assoc, List.singleton_append] at this
      · rw [h.source hne hpage, hlog, List.filter_append]
        by_cases hz : m₀.pte (.user self) page = {} <;> simp [hz]

end StacksCopied

/-! ## The result -/

/-- The pages of the two stacks: `PROCESS_N_STACKS_PAGES` of them, below `KERNEL_VIRTUAL_BASE`. -/
def StackPage (i : ℕ) : Prop := kstackStartPageId ≤ i ∧ i < userEntries

/-- The turns of the two stack loops but for the last one. -/
def stackTurns : List ℕ := (stackLoopPages ++ syscallStackLoopPages).dropLast

lemma stackTurns_append : stackLoopPages ++ syscallStackLoopPages = stackTurns ++ [mappingPage] := by
  decide +kernel

lemma mem_stackTurns : i ∈ stackTurns ↔ StackPage i := by
  have hin : ∀ q ∈ stackTurns, kstackStartPageId ≤ q ∧ q < userEntries := by decide +kernel
  have hall : ∀ d < processNStacksPages, kstackStartPageId + d ∈ stackTurns := by decide +kernel
  have hsum : kstackStartPageId + processNStacksPages = userEntries := by decide
  refine ⟨hin i, fun ⟨h₁, h₂⟩ => ?_⟩
  have := hall (i - kstackStartPageId) (by omega)
  rwa [Nat.add_sub_cancel' h₁] at this

lemma mappingPage_not_stackPage : ¬ StackPage mappingPage := by
  rintro ⟨h, -⟩
  exact absurd h (by decide)

lemma sharedTables_lt : sharedTables * ptEntries < mappingPage := by decide

lemma StackPage.not_shared (h : StackPage i) : ¬ i < sharedTables * ptEntries := by
  have : mappingPage < kstackStartPageId := by decide
  have := sharedTables_lt
  have := h.1
  omega

/-- **What a child inherits.** -/
structure Inherited (parent : ℕ) (m : Memory) (r : Forked) : Prop where
  child : r.child = m.getFreePid
  live : r.memory.live = insert r.child m.live
  shared : ∀ p i, p = parent ∨ p = r.child → i < sharedTables * ptEntries → Shares parent m i →
    r.memory.pte (.user p) i = sharedEntry (m.pte (.user parent) i)
  kept : ∀ p i, p ≠ r.child → ¬ (p = parent ∧ i < sharedTables * ptEntries ∧ Shares parent m i) →
    r.memory.pte (.user p) i = m.pte (.user p) i
  stack : ∀ i, StackPage i →
    (r.memory.pte (.user r.child) i).flags = (m.pte (.user parent) i).flags
  mapping : (r.memory.pte (.user r.child) mappingPage).used = true ↔
    ∃ i, StackPage i ∧ (m.pte (.user parent) i).used = true
  absent : ∀ i, ¬ (i < sharedTables * ptEntries ∧ Shares parent m i) → ¬ StackPage i →
    i ≠ mappingPage → r.memory.pte (.user r.child) i = {}
  pdt : ∀ t, (m.process parent).pdt t = true → (r.memory.process r.child).pdt t = true
  memtree : (r.memory.process r.child).memtree = .nil
  copied : r.copied = stackTurns.filter (fun q => m.pte (.user parent) q ≠ {}) ++
    if ∃ q ∈ stackTurns, m.pte (.user parent) q ≠ {} then [mappingPage] else []

lemma copyStackPage_mapping {l : List ℕ} {s s' : List ℕ × Memory} (hne : self ≠ child)
    (h : StacksCopied self child l m₀ s.2) (hempty : m₀.pte (.user self) mappingPage = {})
    (hok : ∀ q ∈ l, (m₀.pte (.user self) q).Ok)
    (hrun : copyStackPage self child s mappingPage = .ok s') :
    s'.1 = s.1 ++ (if ∃ q ∈ l, m₀.pte (.user self) q ≠ {} then [mappingPage] else []) ∧
      (∀ p i, p ≠ .kernel → ¬ ((p = .user self ∨ p = .user child) ∧ i = mappingPage) →
        s'.2.pte p i = s.2.pte p i) ∧
      ((s'.2.pte (.user child) mappingPage).used = true ↔
        (s.2.pte (.user child) mappingPage).used = true ∨ ∃ q ∈ l, m₀.pte (.user self) q ≠ {}) ∧
      (∀ t, (s.2.process self).pdt t = true → (s'.2.process self).pdt t = true) ∧
      (∀ p, (s'.2.process p).memtree = (s.2.process p).memtree) ∧ s'.2.live = s.2.live := by
  rw [copyStackPage] at hrun
  obtain ⟨m₁, hm₁, hrun⟩ := bind_eq_ok.mp hrun
  obtain rfl := Except.ok.inj hrun
  -- the mapping page holds the page copied last
  have hused : (∃ q ∈ l, m₀.pte (.user self) q ≠ {}) ↔
      (s.2.pte (.user self) mappingPage).used = true := by
    rcases h.mapping with ⟨hall, heq⟩ | ⟨q, hq, hnz, hflags⟩
    · rw [heq, hempty]
      simpa using hall
    · refine ⟨fun _ => ?_, fun _ => ⟨q, hq, hnz⟩⟩
      rw [Entry.used, hflags]
      by_contra hun
      exact hnz ((hok q hq).unused (by simpa [Entry.used] using hun))
  have hzero : s.2.pte (.user self) mappingPage = {} ↔ ¬ ∃ q ∈ l, m₀.pte (.user self) q ≠ {} := by
    rw [hused]
    rcases h.mapping with ⟨-, heq⟩ | ⟨q, hq, hnz, hflags⟩
    · simp [heq, hempty]
    · have := hused.mp ⟨q, hq, hnz⟩
      simp only [this, not_true_eq_false, iff_false]
      intro hz
      simp [hz] at this
  rcases copyPageToOtherProcess_cases hm₁ with ⟨hz, rfl⟩ | ⟨hz, frame, sysPe, m₂, hs, -, -, -, -, -, -,
    -, rfl⟩
  · have hnone := hzero.mp hz
    simp [hz, hnone]
  · have hsome : ∃ q ∈ l, m₀.pte (.user self) q ≠ {} := by
      by_contra hn
      exact hz (hzero.mpr hn)
    refine ⟨by rw [if_neg hz, if_pos hsome], fun p i hp hn => ?_, ?_, fun t ht => ?_, fun p => ?_, ?_⟩
    · rw [pte_stackCopied, if_neg fun h' => hn ⟨Or.inl h'.1, h'.2⟩,
        if_neg fun h' => hn ⟨Or.inr h'.1, h'.2⟩, if_neg fun h' => hp h'.1, hs.pte]
    · rw [pte_stackCopied, if_neg fun h' => hne (ProcId.user.inj h'.1).symm, if_pos ⟨rfl, rfl⟩]
      have := hused.mp hsome
      simp only [hsome, or_true, iff_true]
      rwa [Entry.used, hs.pte]
    · exact process_stackCopied.2 t (by rwa [hs.process])
    · rw [process_stackCopied.1, hs.process]
    · simp only [stackCopied, live_copyPage, live_updated, live_allocated, hs.live]

lemma shares_withChild (hne : self ≠ child) :
    Shares self (m.withChild self child) i ↔ Shares self m i := by
  rw [Shares, Shares, pte_withChild, if_neg fun h => hne (ProcId.user.inj h)]
  simp only [withChild, Function.update_of_ne hne]

/-- **`fork`**, when it returns. -/
lemma fork_inherited {r : Forked} (hok : EntriesOk m) (hself : self ∈ m.live)
    (hrun : fork self m = .ok r) : Inherited self m r := by
  have hfresh := fork_child_not_mem hrun
  obtain ⟨-, hempty, m₁, s, hm₁, hs, -, hchild, hcopied, hmem⟩ := fork_parts hrun
  set child := m.getFreePid with hchild_eq
  have hne : self ≠ child := by
    rintro rfl
    exact hfresh hself
  have hshared := shareTables_spec hne hm₁
  rw [stackTurns_append, List.foldlM_append] at hs
  obtain ⟨s₁, hs₁, hs⟩ := bind_eq_ok.mp hs
  rw [List.foldlM_cons] at hs
  obtain ⟨s₂, hs₂, hs⟩ := bind_eq_ok.mp hs
  obtain rfl := Except.ok.inj hs
  obtain ⟨hstack, hlog⟩ := StacksCopied.loop hne (l := []) .refl rfl
    (fun h => mappingPage_not_stackPage (mem_stackTurns.mp h)) hs₁
  simp only [List.nil_append] at hstack hlog
  -- the tables between the two kinds of loops, told from `m`
  have hself_pte : ∀ i, (m.withChild self child).pte (.user self) i = m.pte (.user self) i := by
    intro i
    rw [pte_withChild, if_neg fun h' => hne (ProcId.user.inj h')]
  have hmid_shared : ∀ p i, p = .user self ∨ p = .user child → i < sharedTables * ptEntries →
      Shares self m i → m₁.pte p i = sharedEntry (m.pte (.user self) i) := by
    intro p i hp hi hs
    rw [hshared.shared p i hp hi ((shares_withChild hne).mpr hs), hself_pte]
  have hmid_same : ∀ p i, ¬ ((p = .user self ∨ p = .user child) ∧ i < sharedTables * ptEntries ∧
      Shares self m i) → m₁.pte p i = if p = .user child then {} else m.pte p i := by
    intro p i hn
    rw [hshared.same p i fun ⟨h₁, h₂, h₃⟩ => hn ⟨h₁, h₂, (shares_withChild hne).mp h₃⟩, pte_withChild]
  have hmid_stack : ∀ i, ¬ i < sharedTables * ptEntries →
      m₁.pte (.user self) i = m.pte (.user self) i ∧ m₁.pte (.user child) i = {} := by
    intro i hi
    rw [hmid_same _ _ fun h' => hi h'.2.1, hmid_same _ _ fun h' => hi h'.2.1, if_pos rfl,
      if_neg fun h' => hne (ProcId.user.inj h')]
    exact ⟨rfl, rfl⟩
  have hmapping := hmid_stack mappingPage (by have := sharedTables_lt; omega)
  have hnonempty : ∀ q ∈ stackTurns, m₁.pte (.user self) q = m.pte (.user self) q :=
    fun q hq => (hmid_stack q (mem_stackTurns.mp hq).not_shared).1
  rw [← hself_pte, hempty] at hmapping
  obtain ⟨hlog', hlast, hlast_map, hlast_pdt, hlast_tree, hlast_live⟩ := copyStackPage_mapping hne hstack
    hmapping.1 (fun q hq => by rw [hnonempty q hq]; exact hok _ _) hs₂
  -- the tables at the end
  have hend : ∀ p i, r.memory.pte p i = if p = .user self ∧ i = mappingPage then {}
      else s₂.2.pte p i := by
    intro p i
    rw [hmem, ← @pte_copyPdt s₂.2 self child, ← pte_updated]
    cases p <;> rfl
  have hend_mid : ∀ p i, p ≠ .kernel → i ≠ mappingPage →
      ¬ (p = .user child ∧ i ∈ stackTurns ∧ m₁.pte (.user self) i ≠ {}) →
      r.memory.pte p i = m₁.pte p i := by
    intro p i hp hi hn
    rw [hend, if_neg fun h' => hi h'.2, hlast p i hp fun h' => hi h'.2,
      hstack.same p i hp (fun h' => hi h'.2) hn]
  have hany : (∃ q ∈ stackTurns, m₁.pte (.user self) q ≠ {}) ↔
      ∃ i, StackPage i ∧ (m.pte (.user self) i).used = true := by
    constructor
    · rintro ⟨q, hq, hnz⟩
      rw [hnonempty q hq] at hnz
      refine ⟨q, mem_stackTurns.mp hq, ?_⟩
      by_contra hun
      exact hnz ((hok _ q).unused (by simpa using hun))
    · rintro ⟨q, hq, hu⟩
      refine ⟨q, mem_stackTurns.mpr hq, ?_⟩
      rw [hnonempty q (mem_stackTurns.mpr hq)]
      intro hz
      simp [hz] at hu
  refine ⟨hchild, ?_, fun p i hp hi hs => ?_, fun p i hp hn => ?_, fun i hi => ?_, ?_,
    fun i hn hi hmap => ?_, fun t ht => ?_, ?_, ?_⟩
  · rw [hchild, hmem, hlast_live, hstack.live, hshared.live]
    rfl
  · rw [hchild] at hp
    have hi' : i ≠ mappingPage := by have := sharedTables_lt; omega
    have hnot : i ∉ stackTurns := fun h => (mem_stackTurns.mp h).not_shared hi
    rw [hend_mid _ i (by simp) hi' fun h' => hnot h'.2.1]
    exact hmid_shared _ i (by simpa using hp) hi hs
  · rw [hchild] at hp
    have hp' : ProcId.user p ≠ .user child := fun h' => hp (ProcId.user.inj h')
    have hmid : m₁.pte (.user p) i = m.pte (.user p) i := by
      rw [hmid_same _ i, if_neg hp']
      rintro ⟨h₁ | h₁, h₂, h₃⟩
      · exact hn ⟨ProcId.user.inj h₁, h₂, h₃⟩
      · exact hp' h₁
    by_cases hi : i = mappingPage
    · by_cases hps : p = self
      · rw [hend, if_pos ⟨by rw [hps], hi⟩, hps, hi, ← hself_pte, hempty]
      · have hps' : ProcId.user p ≠ .user self := fun h' => hps (ProcId.user.inj h')
        rw [hend, if_neg fun h' => hps' h'.1, hlast _ i (by simp) fun h' => h'.1.elim hps' hp',
          hstack.same _ i (by simp) (fun h' => hps' h'.1) fun h' => hp' h'.1, hmid]
    · rw [hend_mid _ i (by simp) hi fun h' => hp' h'.1, hmid]
  · have hi' : i ≠ mappingPage := by
      rintro rfl
      exact mappingPage_not_stackPage hi
    have hq := mem_stackTurns.mpr hi
    obtain ⟨h₁, h₂⟩ := hmid_stack i hi.not_shared
    rw [hchild, ← h₁]
    by_cases hz : m₁.pte (.user self) i = {}
    · rw [hend_mid _ i (by simp) hi' fun h' => h'.2.2 hz, h₂, hz]
    · rw [hend, if_neg fun h' => hi' h'.2, hlast _ i (by simp) fun h' => hi' h'.2]
      exact hstack.copied i hq hz
  · have hne' : ProcId.user child ≠ .user self := fun h' => hne (ProcId.user.inj h').symm
    have hbefore : s₁.2.pte (.user child) mappingPage = {} := by
      rw [hstack.same _ _ (by simp) (fun h' => hne' h'.1), hmapping.2]
      exact fun h' => mappingPage_not_stackPage (mem_stackTurns.mp h'.2.1)
    rw [hchild, hend, if_neg fun h' => hne' h'.1, hlast_map, hbefore, ← hany]
    simp
  · rw [hchild, hend_mid _ i (by simp) hmap fun h' => hi (mem_stackTurns.mp h'.2.1),
      hmid_same _ i fun h' => hn h'.2, if_pos rfl]
  · have hdir : (s₂.2.process self).pdt t = true := by
      refine hlast_pdt t (hstack.pdt t ?_)
      rw [hshared.pdt, withChild]
      simpa [Function.update_of_ne hne] using ht
    rw [hchild, hmem]
    change (((s₂.2.copyPdt self child).updated (.user self) mappingPage {}).process child).pdt t = true
    refine pdt_updated_of_true ?_
    simpa [copyPdt] using hdir
  · have htree : (s₂.2.process child).memtree = .nil := by
      rw [hlast_tree, hstack.memtree, hshared.memtree, withChild]
      simp [newChild]
    rw [hchild, hmem]
    change (((s₂.2.copyPdt self child).updated (.user self) mappingPage {}).process child).memtree = _
    rw [memtree_updated]
    simpa [copyPdt] using htree
  · have hany' : (∃ q ∈ stackTurns, m₁.pte (.user self) q ≠ {}) ↔
        ∃ q ∈ stackTurns, m.pte (.user self) q ≠ {} :=
      exists_congr fun q => and_congr_right fun hq => by rw [hnonempty q hq]
    have hfilter : stackTurns.filter (fun q => m₁.pte (.user self) q ≠ {}) =
        stackTurns.filter (fun q => m.pte (.user self) q ≠ {}) :=
      List.filter_congr fun q hq => by rw [hnonempty q hq]
    rw [hcopied, hlog', hlog, if_congr hany' rfl rfl, hfilter]

/-! ## The whole address space -/

/-- The child has in use the pages its parent had, and the allocations its parent has. -/
def InheritsAll (self : ℕ) (m : Memory) (r : Forked) : Prop :=
  (∀ i < userEntries, (r.memory.pte (.user r.child) i).used = (m.pte (.user self) i).used) ∧
    ∀ a ∈ (m.process self).memtree.inorder, a.used = true →
      a ∈ (r.memory.process r.child).memtree.inorder

/-- A process that `fork` can give to a child as it is: every page in use is shared, none is in the
table of the stacks, and nothing is allocated. -/
def FullyShared (self : ℕ) (m : Memory) : Prop :=
  (∀ i < sharedTables * ptEntries, (m.pte (.user self) i).used = true → Shares self m i) ∧
    (∀ i < userEntries, sharedTables * ptEntries ≤ i → (m.pte (.user self) i).used = false) ∧
    ∀ a ∈ (m.process self).memtree.inorder, a.used = false

lemma Inherited.unused {r : Forked} (h : Inherited self m r)
    (hn : ¬ (i < sharedTables * ptEntries ∧ Shares self m i)) (hi : ¬ StackPage i)
    (hmap : i ≠ mappingPage) : (r.memory.pte (.user r.child) i).used = false := by
  rw [h.absent i hn hi hmap, Entry.used_default]

lemma fork_mapping_unused {r : Forked} (hself : self ∈ m.live) (hrun : fork self m = .ok r) :
    (m.pte (.user self) mappingPage).used = false := by
  have hne : self ≠ m.getFreePid := by
    rintro heq
    exact fork_child_not_mem hrun (heq ▸ hself)
  have hempty := fork_mapping_empty hrun
  rw [pte_withChild, if_neg fun h => hne (ProcId.user.inj h)] at hempty
  rw [hempty, Entry.used_default]

/-- **What a child inherits is its parent's whole address space only if that has no stack, no lazily
allocated page and no allocation.** -/
theorem fork_inherits_iff {ok : Op → Memory → Prop} {r : Forked} (hreach : Run ok bootMemory m)
    (hself : self ∈ m.live) (hrun : fork self m = .ok r) :
    InheritsAll self m r ↔ FullyShared self m := by
  have h := fork_inherited hreach.entriesOk hself hrun
  have hmap := fork_mapping_unused hself hrun
  have hlt : mappingPage < userEntries := by decide
  have hlow : ∀ i < sharedTables * ptEntries, ¬ StackPage i ∧ i ≠ mappingPage := by
    intro i hi
    refine ⟨fun hs => hs.not_shared hi, ?_⟩
    have := sharedTables_lt
    omega
  constructor
  · rintro ⟨hpages, halloc⟩
    refine ⟨fun i hi hu => ?_, fun i hi hge => ?_, fun a ha => ?_⟩
    · by_contra hs
      have hi' : i < userEntries := by have := sharedTables_lt; omega
      rw [← hpages i hi', h.unused (fun h' => hs h'.2) (hlow i hi).1 (hlow i hi).2] at hu
      exact Bool.false_ne_true hu
    · by_contra hu
      rw [Bool.not_eq_false] at hu
      by_cases hstack : StackPage i
      · -- a stack page in use leaves its mark at the mapping page of the child
        have hused := h.mapping.mpr ⟨i, hstack, hu⟩
        rw [hpages mappingPage hlt, hmap] at hused
        exact Bool.false_ne_true hused
      · have hne : i ≠ mappingPage := by
          rintro rfl
          exact Bool.false_ne_true (hmap.symm.trans hu)
        rw [← hpages i hi, h.unused (by omega) hstack hne] at hu
        exact Bool.false_ne_true hu
    · by_contra hu
      have := halloc a ha (by simpa using hu)
      rw [h.memtree] at this
      exact absurd this (by simp)
  · rintro ⟨hshared, hhigh, halloc⟩
    refine ⟨fun i hi => ?_, fun a ha hu => ?_⟩
    · by_cases hs : i < sharedTables * ptEntries ∧ Shares self m i
      · rw [h.shared _ i (Or.inr rfl) hs.1 hs.2, Entry.used_of_present hs.2.2]
        exact Entry.used_of_present hs.2.2
      · have hun : (m.pte (.user self) i).used = false := by
          by_contra hu
          rw [Bool.not_eq_false] at hu
          by_cases hi' : i < sharedTables * ptEntries
          · exact hs ⟨hi', hshared i hi' hu⟩
          · rw [hhigh i hi (by omega)] at hu
            exact Bool.false_ne_true hu
        rw [hun]
        by_cases hstack : StackPage i
        · rw [Entry.used, h.stack i hstack]
          exact hun
        · by_cases hne : i = mappingPage
          · rw [← Bool.not_eq_true, hne, h.mapping]
            rintro ⟨j, hj, hu⟩
            rw [hhigh j hj.2 (by have := hj.not_shared; omega)] at hu
            exact Bool.false_ne_true hu
          · exact h.unused hs hstack hne
    · rw [halloc a ha] at hu
      exact absurd hu (by simp)

/-- What the fork of the first process leaves, and a call of `mprotect` or a copy-on-write fault on the
data page behind it. -/
def FirstForked (m : Memory) (r : Forked) (m₁ m₂ : Memory) : Prop :=
  (0 ∈ m.live ∧ (m.pte (.user 0) kstackStartPageId).used = true ∧
    (m.pte (.user 0) (kstackStartPageId + 1)).used = true ∧
    (∃ a ∈ (m.process 0).memtree.inorder, a.used = true) ∧ r.memory.getFreePid < maxProcesses) ∧
  (0 ∈ m₁.live ∧ (m₁.pte (.user 0) 1).flags.cow = true ∧ (m₁.pte (.user 0) 1).flags.write = true) ∧
  (r.memory.pte (.user 0) 1).flags.cow = true ∧ (r.memory.pte (.user 0) 1).flags.write = false ∧
  r.memory.lowestFreeFrame < numFrames ∧ m₂.lowestFreeFrame < numFrames

instance {m m₁ m₂ : Memory} {r : Forked} : Decidable (FirstForked m r m₁ m₂) :=
  inferInstanceAs (Decidable (_ ∧ _))

-- the kernel evaluates this fork once, for all that is said of it
lemma firstProcess_forked : ∃ m r m₁ m₂, firstProcess = .ok m ∧ fork 0 m = .ok r ∧
    Op.run r.memory (.mprotect (.user 0) 4096 4096 { write := true }) = .ok m₁ ∧
    handleCowPageFault (.user 0) false 1 r.memory = .ok m₂ ∧ FirstForked m r m₁ m₂ := by
  have hdec : (firstProcess.bind fun m => (fork 0 m).bind fun r =>
      (Op.run r.memory (.mprotect (.user 0) 4096 4096 { write := true })).bind fun m₁ =>
      (handleCowPageFault (.user 0) false 1 r.memory).map fun m₂ =>
        decide (FirstForked m r m₁ m₂)) = .ok true := by decide +kernel
  obtain ⟨m, hm, hdec⟩ := bind_eq_ok.mp hdec
  obtain ⟨r, hr, hdec⟩ := bind_eq_ok.mp hdec
  obtain ⟨m₁, hm₁, hdec⟩ := bind_eq_ok.mp hdec
  obtain ⟨m₂, hm₂, hfacts⟩ := map_eq_ok.mp hdec
  exact ⟨m, r, m₁, m₂, hm, hr, hm₁, hm₂, of_decide_eq_true hfacts⟩

lemma firstProcess_forks : ∃ m r, Run (fun _ _ => True) bootMemory m ∧ 0 ∈ m.live ∧
    fork 0 m = .ok r ∧ (m.pte (.user 0) kstackStartPageId).used = true ∧
    (m.pte (.user 0) (kstackStartPageId + 1)).used = true ∧
    (∃ a ∈ (m.process 0).memtree.inorder, a.used = true) ∧ r.memory.getFreePid < maxProcesses := by
  obtain ⟨m, r, -, -, hm, hfork, -, -, ⟨hlive, hstacks⟩, -⟩ := firstProcess_forked
  exact ⟨m, r, .of_foldlM hm, hlive, hfork, hstacks⟩

/-- The first process. -/
theorem fork_inherits_iff_first : ∃ m r, Run (fun _ _ => True) bootMemory m ∧ 0 ∈ m.live ∧
    fork 0 m = .ok r ∧ (InheritsAll 0 m r ↔ FullyShared 0 m) := by
  obtain ⟨m, r, hrun, hlive, hfork, -⟩ := firstProcess_forks
  exact ⟨m, r, hrun, hlive, hfork, fork_inherits_iff hrun hlive hfork⟩

/-- **The child of the first process** has none of its allocations. -/
theorem fork_not_inherits : ∃ m r, Run (fun _ _ => True) bootMemory m ∧ 0 ∈ m.live ∧
    fork 0 m = .ok r ∧ ¬ InheritsAll 0 m r := by
  obtain ⟨m, r, hrun, hlive, hfork, -, -, ⟨a, ha, hu⟩, -⟩ := firstProcess_forks
  refine ⟨m, r, hrun, hlive, hfork, fun h => ?_⟩
  have := h.2 a ha hu
  rw [(fork_inherited hrun.entriesOk hlive hfork).memtree] at this
  exact absurd this (by simp)

/-! ## Chains of forks -/

/-- Every stack page is copied once, and nothing else is. -/
def CopiesStacksOnce (r : Forked) : Prop :=
  (∀ i, StackPage i → r.copied.count i = 1) ∧ ∀ i ∈ r.copied, StackPage i

/-- A chain of `n` forks, each by the child of the one before, in which the kernel never stops and
every fork copies the stacks as it should.  A fork that finds no pid, or no entry for a page, ends
the chain. -/
def ChainRight : ℕ → ℕ → Memory → Prop
  | 0, _, _ => True
  | n + 1, self, m =>
      match fork self m with
      | .ok r => CopiesStacksOnce r ∧ ChainRight n r.child r.memory
      | .error .outOfBounds => True
      | .error _ => False

lemma Inherited.count_common {r : Forked} (h : Inherited self m r) :
    r.copied.count (kstackStartPageId + 1) ≠ 1 := by
  have htwice : stackTurns.count (kstackStartPageId + 1) = 2 := by decide +kernel
  have hne : mappingPage ≠ kstackStartPageId + 1 := by decide
  have htail : (if ∃ q ∈ stackTurns, m.pte (.user self) q ≠ {} then [mappingPage] else []).count
      (kstackStartPageId + 1) = 0 := by
    split_ifs
    · rw [List.count_eq_zero, List.mem_singleton]
      exact Ne.symm hne
    · rfl
  rw [h.copied, List.count_append, htail, Nat.add_zero]
  by_cases hz : m.pte (.user self) (kstackStartPageId + 1) = {}
  · rw [List.count_eq_zero.mpr]
    · simp
    · simp [hz]
  · rw [List.count_filter (by simpa using hz), htwice]
    simp

lemma fork_mapping_used (hself : self ∈ m.live) (hpid : m.getFreePid < maxProcesses)
    (hused : (m.pte (.user self) mappingPage).used = true) :
    fork self m = .error (.irrecoverableError "mapping mage is not empty") := by
  have hne : self ≠ m.getFreePid := by
    rintro heq
    exact getFreePid_not_mem hpid (heq ▸ hself)
  have hnonempty : (m.withChild self m.getFreePid).pte (.user self) mappingPage ≠ {} := by
    rw [pte_withChild, if_neg fun h => hne (ProcId.user.inj h)]
    intro hz
    simp [hz] at hused
  rw [fork]
  simp only [if_neg (Nat.not_le.mpr hpid)]
  exact if_pos hnonempty

/-- **No chain of forks is right**: the first fork already copies the page that the two loops share
twice, or not at all.  If the first process has a stack, the child cannot even fork. -/
theorem chain_never_right {ok : Op → Memory → Prop} (n : ℕ) (hreach : Run ok bootMemory m)
    (hself : self ∈ m.live) (hsupply : fork self m ≠ .error .outOfBounds) :
    (ChainRight n self m ↔ n = 0) ∧
      ∀ r, fork self m = .ok r → (∃ i, StackPage i ∧ (m.pte (.user self) i).used = true) →
        mappingPage ∈ r.copied ∧ (r.memory.getFreePid < maxProcesses →
          fork r.child r.memory = .error (.irrecoverableError "mapping mage is not empty")) := by
  constructor
  · cases n with
    | zero => simp [ChainRight]
    | succ n =>
        simp only [ChainRight, Nat.add_one_ne_zero, iff_false]
        cases hrun : fork self m with
        | error e =>
            cases e with
            | outOfBounds => exact absurd hrun hsupply
            | irrecoverableError msg => simp
            | killed => simp
        | ok r =>
            rintro ⟨⟨honce, -⟩, -⟩
            refine (fork_inherited hreach.entriesOk hself hrun).count_common (honce _ ?_)
            exact ⟨by omega, by decide⟩
  · intro r hrun hstack
    have h := fork_inherited hreach.entriesOk hself hrun
    refine ⟨?_, fun hpid => fork_mapping_used ?_ hpid (h.mapping.mpr hstack)⟩
    · obtain ⟨i, hi, hu⟩ := hstack
      rw [h.copied, if_pos, List.mem_append]
      · exact Or.inr (by simp)
      · refine ⟨i, mem_stackTurns.mpr hi, fun hz => ?_⟩
        simp [hz] at hu
    · rw [h.live]
      exact Finset.mem_insert_self _ _

/-- The first process. -/
theorem chain_never_right_first : ∃ m, Run (fun _ _ => True) bootMemory m ∧ 0 ∈ m.live ∧
    fork 0 m ≠ .error .outOfBounds ∧ ¬ ChainRight 2 0 m := by
  obtain ⟨m, r, hrun, hlive, hfork, -⟩ := firstProcess_forks
  have hsupply : fork 0 m ≠ .error .outOfBounds := by rw [hfork]; simp
  exact ⟨m, hrun, hlive, hsupply, by simp [(chain_never_right 2 hrun hlive hsupply).1]⟩

/-- **The child of the first process cannot fork**, and the fork it comes from copied a stack page
twice. -/
theorem chain_of_two_stops : ∃ m r, Run (fun _ _ => True) bootMemory m ∧ 0 ∈ m.live ∧
    fork 0 m = .ok r ∧ ¬ CopiesStacksOnce r ∧
    fork r.child r.memory = .error (.irrecoverableError "mapping mage is not empty") ∧
    ¬ ChainRight 2 0 m := by
  obtain ⟨m, r, hrun, hlive, hfork, hstack, -, -, hpid⟩ := firstProcess_forks
  have h := fork_inherited hrun.entriesOk hlive hfork
  have honce : ¬ CopiesStacksOnce r := fun h' => h.count_common (h'.1 _ ⟨by omega, by decide⟩)
  have hused := h.mapping.mpr ⟨_, ⟨le_rfl, by decide⟩, hstack⟩
  have hchild : r.child ∈ r.memory.live := by
    rw [h.live]
    exact Finset.mem_insert_self _ _
  refine ⟨m, r, hrun, hlive, hfork, honce, fork_mapping_used hchild hpid hused, ?_⟩
  simp only [ChainRight, hfork]
  exact fun h' => honce h'.1

end Memory

end BrebOS
