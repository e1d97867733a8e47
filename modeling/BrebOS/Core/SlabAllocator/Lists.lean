import BrebOS.Core.SlabAllocator
import BrebOS.Lib.Linked

/-!
# The lists of a slab allocator

The pages are in three lists and the slots of a page in one.  `Consistent` is what the lists and the
counters should say of each other.  `Inv` says more: which slots a free list holds, given the slots
that are in use.
-/

namespace BrebOS

namespace SlabAllocator

variable (T : AllocSize)

/-! ## The three lists -/

/-- The list a page belongs to. -/
inductive PageKind
  | empty
  | inPartial
  | full
  deriving DecidableEq, Repr

/-- The list for a page with `n` free slots: the empty one for `max_allocs_per_page`, the full one
for 0, and the partial one in between. -/
def kindOf (n : ℕ) : PageKind :=
  if n = T.maxAllocsPerPage then .empty else if n = 0 then .full else .inPartial

def kind (s : SlabAllocator) (p : ℕ) : PageKind := kindOf T (s.header p).numFreeAllocs

/-- The head of each of the three lists. -/
def head (s : SlabAllocator) : PageKind → Option ℕ
  | .empty => s.emptyPages
  | .inPartial => s.partialPages
  | .full => s.fullPages

/-- The three lists hold each page once, in the list `kind` says. -/
structure Listed (s : SlabAllocator) (kind : ℕ → PageKind) (lists : PageKind → List ℕ) : Prop where
  linked : ∀ k, Linked s.nextPage (s.head k) (lists k)
  nodup : ∀ k, (lists k).Nodup
  mem : ∀ k p, p ∈ lists k ↔ p ∈ s.pages ∧ kind p = k

/-- What the lists and the counters should say: each page is in the list its number of free slots
asks for, that number is the length of its free list, and the empty pages are counted. -/
def Consistent (s : SlabAllocator) : Prop :=
  (∃ lists, Listed s (s.kind T) lists ∧ s.numEmptyPages = (lists .empty).length) ∧
    ∀ p ∈ s.pages, (s.header p).numFreeAllocs ≤ T.maxAllocsPerPage ∧
      ∃ l, Linked s.next (s.header p).freep l ∧ l.length = (s.header p).numFreeAllocs

/-- The free lists hold the slots that are not live, once each. -/
structure FreeList (live : Finset Slot) (s : SlabAllocator) (p : ℕ) (l : List Slot) : Prop where
  linked : Linked s.next (s.header p).freep l
  nodup : l.Nodup
  mem : ∀ t, t ∈ l ↔ t.page = p ∧ t.index < T.maxAllocsPerPage ∧ t ∉ live
  length : l.length = (s.header p).numFreeAllocs

/-- The free lists against the slots that are live. -/
structure Slots (live : Finset Slot) (s : SlabAllocator) : Prop where
  free : ∀ p ∈ s.pages, ∃ l, FreeList T live s p l
  live : ∀ t ∈ live, t.page ∈ s.pages ∧ t.index < T.maxAllocsPerPage

/-- The state of an allocator that was never asked to `free` the wrong page. -/
structure Inv (live : Finset Slot) (s : SlabAllocator) : Prop where
  listed : ∃ lists, Listed s (s.kind T) lists ∧ s.numEmptyPages = (lists .empty).length
  few : s.numEmptyPages ≤ nFreePageThreshold
  slots : Slots T live s

section Lists

variable {s s' : SlabAllocator} {kinds : ℕ → PageKind} {lists : PageKind → List ℕ} {k k' : PageKind}
  {p q : ℕ} {x : Option ℕ}

@[simp]
lemma nextPage_setNextPage :
    (s.setNextPage p x).nextPage = Function.update s.nextPage p x := by
  funext q
  rcases eq_or_ne q p with rfl | hq
  · simp [setNextPage, setHeader, nextPage]
  · simp [setNextPage, setHeader, nextPage, hq]

/-- What a move of page `p`, the head of list `k`, to the front of list `k'` changes. -/
structure Moved (p : ℕ) (k k' : PageKind) (s s' : SlabAllocator) : Prop where
  nextPage : s'.nextPage = Function.update s.nextPage p (s.head k')
  head : s'.head = Function.update (Function.update s.head k (s.nextPage p)) k' (some p)
  pages : s'.pages = s.pages
  next : s'.next = s.next
  freep : ∀ q, (s'.header q).freep = (s.header q).freep
  numFreeAllocs : ∀ q, (s'.header q).numFreeAllocs = (s.header q).numFreeAllocs

lemma header_setNextPage (q : ℕ) :
    ((s.setNextPage p x).header q).freep = (s.header q).freep ∧
      ((s.setNextPage p x).header q).numFreeAllocs = (s.header q).numFreeAllocs := by
  rcases eq_or_ne q p with rfl | hq
  · simp [setNextPage, setHeader]
  · simp [setNextPage, setHeader, hq]

lemma deref_some (hp : p ∈ s.pages) : s.deref (some p) = .ok p := if_pos hp

lemma emptyToPartial_moved (he : s.emptyPages = some p) (hp : p ∈ s.pages) :
    ∃ s', s.emptyToPartial p = .ok s' ∧ Moved p .empty .inPartial s s' ∧
      s'.numEmptyPages = u32Sub s.numEmptyPages 1 := by
  refine ⟨{ ({ s with emptyPages := s.nextPage p }.setNextPage p s.partialPages) with
    partialPages := some p, numEmptyPages := u32Sub s.numEmptyPages 1 }, ?_,
    ⟨nextPage_setNextPage, ?_, rfl, rfl, fun q => (header_setNextPage q).1,
      fun q => (header_setNextPage q).2⟩, by dsimp only⟩
  · rw [emptyToPartial, he, deref_some hp]
    rfl
  · funext k
    cases k <;> rfl

lemma partialToFull_moved (hh : s.partialPages = some p) (hp : p ∈ s.pages) :
    ∃ s', s.partialToFull p = .ok s' ∧ Moved p .inPartial .full s s' ∧
      s'.numEmptyPages = s.numEmptyPages := by
  refine ⟨{ ({ s with partialPages := s.nextPage p }.setNextPage p s.fullPages) with
    fullPages := some p }, ?_,
    ⟨nextPage_setNextPage, ?_, rfl, rfl, fun q => (header_setNextPage q).1,
      fun q => (header_setNextPage q).2⟩, rfl⟩
  · rw [partialToFull, hh, deref_some hp]
    rfl
  · funext k
    cases k <;> rfl

lemma partialToEmpty_ok (hh : s.partialPages = some q) (hq : q ∈ s.pages) (p : ℕ) :
    ∃ s', s.partialToEmpty p = .ok s' ∧
      s'.nextPage = Function.update s.nextPage p s.emptyPages ∧
      s'.head = Function.update (Function.update s.head .inPartial (s.nextPage q)) .empty (some p) ∧
      s'.pages = s.pages ∧ s'.next = s.next ∧ (∀ r, (s'.header r).freep = (s.header r).freep) ∧
      (∀ r, (s'.header r).numFreeAllocs = (s.header r).numFreeAllocs) ∧
      s'.numEmptyPages = u32 (s.numEmptyPages + 1) := by
  refine ⟨{ ({ s with partialPages := s.nextPage q }.setNextPage p s.emptyPages) with
    emptyPages := some p, numEmptyPages := u32 (s.numEmptyPages + 1) }, ?_, nextPage_setNextPage, ?_,
    rfl, rfl, fun r => (header_setNextPage r).1, fun r => (header_setNextPage r).2, rfl⟩
  · rw [partialToEmpty, hh, deref_some hq]
    rfl
  · funext k
    cases k <;> rfl

lemma Moved.kind (h : Moved p k k' s s') : s'.kind T = s.kind T := by
  funext q
  rw [SlabAllocator.kind, h.numFreeAllocs, SlabAllocator.kind]

namespace Listed

lemma move (h : Listed s kinds lists) (hp : s.head k = some p) (hk : k ≠ k')
    (hm : Moved p k k' s s') :
    ∃ l, lists k = p :: l ∧ Listed s' (Function.update kinds p k')
      (Function.update (Function.update lists k l) k' (p :: lists k')) := by
  obtain ⟨l, hl, hlinked⟩ := (hp ▸ h.linked k).eq_cons
  have hkind : p ∈ s.pages ∧ kinds p = k := (h.mem k p).mp (by simp [hl])
  have hnotMem : ∀ j, j ≠ k → p ∉ lists j := by
    intro j hj hmem
    exact hj (((h.mem j p).mp hmem).2.symm.trans hkind.2)
  have hnodup : p ∉ l ∧ l.Nodup := by
    have := h.nodup k
    rwa [hl, List.nodup_cons] at this
  refine ⟨l, hl, ?_, ?_, ?_⟩
  · intro j
    rw [hm.nextPage, hm.head]
    rcases eq_or_ne j k' with rfl | hj'
    · rw [Function.update_self, Function.update_self]
      exact (h.linked j).push (hnotMem j hk.symm)
    rw [Function.update_of_ne hj', Function.update_of_ne hj']
    rcases eq_or_ne j k with rfl | hj
    · rw [Function.update_self, Function.update_self]
      exact hlinked.update hnodup.1 _
    · rw [Function.update_of_ne hj, Function.update_of_ne hj]
      exact (h.linked j).update (hnotMem j hj) _
  · intro j
    rcases eq_or_ne j k' with rfl | hj'
    · rw [Function.update_self]
      exact List.nodup_cons.mpr ⟨hnotMem j hk.symm, h.nodup j⟩
    rw [Function.update_of_ne hj']
    rcases eq_or_ne j k with rfl | hj
    · rw [Function.update_self]
      exact hnodup.2
    · rw [Function.update_of_ne hj]
      exact h.nodup j
  · intro j q
    have hq := h.mem j q
    rw [hm.pages]
    rcases eq_or_ne q p with rfl | hqp
    · rw [Function.update_self]
      rcases eq_or_ne j k' with rfl | hj'
      · simp [hkind.1]
      rw [Function.update_of_ne hj']
      rcases eq_or_ne j k with rfl | hj
      · simp [hnodup.1, hj'.symm]
      · simp [Function.update_of_ne hj, hnotMem j hj, hj'.symm]
    · rw [Function.update_of_ne hqp, ← hq]
      rcases eq_or_ne j k' with rfl | hj'
      · simp [hqp]
      rw [Function.update_of_ne hj']
      rcases eq_or_ne j k with rfl | hj
      · simp [hl, hqp]
      · rw [Function.update_of_ne hj]

lemma congr (h : Listed s kinds lists) (hnext : s'.nextPage = s.nextPage) (hhead : s'.head = s.head)
    (hpages : s'.pages = s.pages) : Listed s' kinds lists := by
  refine ⟨?_, h.nodup, ?_⟩
  · rw [hnext, hhead]
    exact h.linked
  · rw [hpages]
    exact h.mem

lemma unique {lists' : PageKind → List ℕ} {kinds' : ℕ → PageKind} (h : Listed s kinds lists)
    (h' : Listed s' kinds' lists') (hnext : s'.nextPage = s.nextPage) (hhead : s'.head k = s.head k) :
    lists' k = lists k :=
  (hhead ▸ hnext ▸ h'.linked k).unique (h.linked k)

end Listed

end Lists

/-! ## The free lists -/

section Slots

variable {T : AllocSize} {s s' : SlabAllocator} {live : Finset Slot} {p q pe : ℕ} {t : Slot}
  {l : List Slot}

lemma maxAllocsPerPage_pos : 0 < T.maxAllocsPerPage := by
  have h := T.fits
  refine Nat.div_pos ?_ T.pos
  show T.bytes ≤ pageSize - 12
  omega

lemma maxAllocsPerPage_lt : T.maxAllocsPerPage < 4294967295 := by
  have h : T.maxAllocsPerPage ≤ pageSize - 12 := Nat.div_le_self _ _
  exact lt_of_le_of_lt h (by decide)

lemma FreeList.length_le (h : FreeList T live s p l) : l.length ≤ T.maxAllocsPerPage := by
  have hsub : l.map Slot.index ⊆ List.range T.maxAllocsPerPage := by
    intro i hi
    obtain ⟨t, ht, rfl⟩ := List.mem_map.mp hi
    exact List.mem_range.mpr ((h.mem t).mp ht).2.1
  have hnodup : (l.map Slot.index).Nodup := by
    refine h.nodup.map_on ?_
    intro a ha b hb hab
    have hpage : a.page = b.page := ((h.mem a).mp ha).1.trans ((h.mem b).mp hb).1.symm
    cases a
    cases b
    simp_all
  have := (hnodup.subperm hsub).length_le
  simpa using this

lemma FreeList.congr {live' : Finset Slot} (h : FreeList T live s p l)
    (hheader : (s'.header p).freep = (s.header p).freep)
    (hnum : (s'.header p).numFreeAllocs = (s.header p).numFreeAllocs)
    (hnext : ∀ t, t.page = p → t ∉ live → s'.next t = s.next t)
    (hlive : ∀ t, t.page = p → (t ∈ live' ↔ t ∈ live)) : FreeList T live' s' p l := by
  refine ⟨?_, h.nodup, ?_, hnum ▸ h.length⟩
  · rw [hheader]
    exact h.linked.congr fun t ht => hnext t ((h.mem t).mp ht).1 ((h.mem t).mp ht).2.2
  · intro t
    rw [h.mem t]
    constructor
    · intro ht
      exact ⟨ht.1, ht.2.1, fun hl => ht.2.2 ((hlive t ht.1).mp hl)⟩
    · intro ht
      exact ⟨ht.1, ht.2.1, fun hl => ht.2.2 ((hlive t ht.1).mpr hl)⟩

lemma linked_getNewPage (s : SlabAllocator) (pe : ℕ) : ∀ n i, i + n = T.maxAllocsPerPage →
    Linked (s.getNewPage T pe).next (if i < T.maxAllocsPerPage then some ⟨pe, i⟩ else none)
      ((List.range' i n).map (Slot.mk pe))
  | 0, i, h => by
      have hi : ¬ i < T.maxAllocsPerPage := by omega
      simp [hi]
  | n + 1, i, h => by
      have hi : i < T.maxAllocsPerPage := by omega
      have ih := linked_getNewPage s pe n (i + 1) (by omega)
      rw [List.range'_succ, List.map_cons, linked_cons, if_pos hi]
      refine ⟨rfl, ?_⟩
      have hnext : (s.getNewPage T pe).next ⟨pe, i⟩ =
          if i + 1 < T.maxAllocsPerPage then some ⟨pe, i + 1⟩ else none := by
        simp [getNewPage, hi]
      rw [hnext]
      exact ih

lemma freeList_getNewPage (hlive : ∀ t ∈ live, t.page ≠ pe) :
    FreeList T live (s.getNewPage T pe) pe ((List.range' 0 T.maxAllocsPerPage).map (Slot.mk pe)) := by
  have hlinked := linked_getNewPage (T := T) s pe T.maxAllocsPerPage 0 (Nat.zero_add _)
  rw [if_pos maxAllocsPerPage_pos] at hlinked
  refine ⟨?_, ?_, ?_, ?_⟩
  · simpa [getNewPage] using hlinked
  · refine List.Nodup.map ?_ List.nodup_range'
    intro a b hab
    simpa using hab
  · intro t
    constructor
    · intro ht
      obtain ⟨i, hi, rfl⟩ := List.mem_map.mp ht
      rw [List.mem_range'_1] at hi
      exact ⟨rfl, show i < _ by omega, fun h => hlive _ h rfl⟩
    · intro ht
      refine List.mem_map.mpr ⟨t.index, ?_, ?_⟩
      · rw [List.mem_range'_1]
        omega
      · rw [← ht.1]
  · simp [getNewPage]

lemma Slots.getNewPage (h : Slots T live s) (hpe : pe ∉ s.pages) :
    Slots T live (s.getNewPage T pe) := by
  have hlive : ∀ t ∈ live, t.page ≠ pe := by
    intro t ht heq
    exact hpe (heq ▸ (h.live t ht).1)
  refine ⟨?_, ?_⟩
  · intro p hp
    rcases eq_or_ne p pe with rfl | hne
    · exact ⟨_, freeList_getNewPage hlive⟩
    · have hp : p ∈ s.pages := by simpa [SlabAllocator.getNewPage, hne] using hp
      obtain ⟨l, hl⟩ := h.free p hp
      refine ⟨l, hl.congr ?_ ?_ ?_ fun _ _ => Iff.rfl⟩
      · simp [SlabAllocator.getNewPage, hne]
      · simp [SlabAllocator.getNewPage, hne]
      · intro t ht _
        simp [SlabAllocator.getNewPage, ht, hne]
  · intro t ht
    exact ⟨by simp [SlabAllocator.getNewPage, (h.live t ht).1], (h.live t ht).2⟩

lemma Slots.move {k k' : PageKind} (h : Slots T live s) (hm : Moved p k k' s s') :
    Slots T live s' := by
  refine ⟨?_, ?_⟩
  · intro q hq
    rw [hm.pages] at hq
    obtain ⟨l, hl⟩ := h.free q hq
    exact ⟨l, hl.congr (hm.freep q) (hm.numFreeAllocs q) (fun _ _ _ => by rw [hm.next])
      fun _ _ => Iff.rfl⟩
  · rw [hm.pages]
    exact h.live

lemma Slots.take (h : Slots T live s) (hp : p ∈ s.pages) (hfree : (s.header p).freep = some t)
    (hpages : s'.pages = s.pages) (hnext : s'.next = s.next)
    (hother : ∀ q, q ≠ p → (s'.header q).freep = (s.header q).freep ∧
      (s'.header q).numFreeAllocs = (s.header q).numFreeAllocs)
    (hheader : (s'.header p).freep = s.next t ∧
      (s'.header p).numFreeAllocs = (s.header p).numFreeAllocs - 1) :
    t ∉ live ∧ Slots T (insert t live) s' := by
  obtain ⟨l, hl⟩ := h.free p hp
  obtain ⟨l, rfl, hlinked⟩ := (hfree ▸ hl.linked).eq_cons
  have ht := (hl.mem t).mp (by simp)
  have hnodup := List.nodup_cons.mp hl.nodup
  refine ⟨ht.2.2, ?_, ?_⟩
  · intro q hq
    rw [hpages] at hq
    rcases eq_or_ne q p with rfl | hqp
    · refine ⟨l, ?_, hnodup.2, ?_, ?_⟩
      · rw [hheader.1, hnext]
        exact hlinked
      · intro a
        have ha := hl.mem a
        rw [List.mem_cons] at ha
        rw [Finset.mem_insert, not_or]
        constructor
        · intro hal
          have hne : a ≠ t := by
            intro heq
            exact hnodup.1 (heq ▸ hal)
          have := ha.mp (Or.inr hal)
          exact ⟨this.1, this.2.1, hne, this.2.2⟩
        · intro hal
          exact (ha.mpr ⟨hal.1, hal.2.1, hal.2.2.2⟩).resolve_left hal.2.2.1
      · have := hl.length
        rw [List.length_cons] at this
        omega
    · obtain ⟨l', hl'⟩ := h.free q hq
      refine ⟨l', hl'.congr (hother q hqp).1 (hother q hqp).2 (fun _ _ _ => by rw [hnext]) ?_⟩
      intro a ha
      have hne : a ≠ t := by
        intro heq
        exact hqp (ha ▸ heq ▸ ht.1)
      simp [hne]
  · intro a ha
    rw [hpages]
    rcases Finset.mem_insert.mp ha with rfl | ha
    · exact ⟨ht.1 ▸ hp, ht.2.1⟩
    · exact h.live a ha

lemma Slots.put (h : Slots T live s) (ht : t ∈ live) : Slots T (live.erase t) (s.putSlot t) := by
  have hpage := h.live t ht
  have hlt := maxAllocsPerPage_lt (T := T)
  refine ⟨?_, fun a ha => h.live a (Finset.mem_of_mem_erase ha)⟩
  intro q hq
  obtain ⟨l, hl⟩ := h.free q hq
  rcases eq_or_ne q t.page with rfl | hqp
  · have hnotMem : t ∉ l := fun hmem => ((hl.mem t).mp hmem).2.2 ht
    refine ⟨t :: l, ?_, List.nodup_cons.mpr ⟨hnotMem, hl.nodup⟩, ?_, ?_⟩
    · simpa [putSlot, setHeader] using hl.linked.update hnotMem (s.header t.page).freep
    · intro a
      rw [List.mem_cons, hl.mem a, Finset.mem_erase]
      rcases eq_or_ne a t with rfl | hat
      · simp [hpage.2]
      · simp [hat]
    · have := hl.length
      have := hl.length_le
      simp [putSlot, setHeader, u32]
      omega
  · refine ⟨l, hl.congr ?_ ?_ ?_ ?_⟩
    · simp [putSlot, setHeader, hqp]
    · simp [putSlot, setHeader, hqp]
    · intro a ha _
      have hat : a ≠ t := by
        intro heq
        exact hqp (ha ▸ heq ▸ rfl)
      simp [putSlot, setHeader, hat]
    · intro a ha
      have hat : a ≠ t := by
        intro heq
        exact hqp (ha ▸ heq ▸ rfl)
      simp [hat]

end Slots

end SlabAllocator

end BrebOS
