import BrebOS.Lib.HeapOrder

/-!
# Binary heaps

`utils/min_heap.hxx`.  `elements` are the first `count` entries of the array.  Both loops move along
a path of the tree, so the number of elements is fuel enough for them.
-/

namespace BrebOS

/-- `MinHeap`. -/
structure MinHeap (α : Type) where
  capacity : ℕ
  elements : List α := []

namespace MinHeap

variable {α : Type} [LT α] [DecidableLT α]

/-- Whether both are positions, and the element at `i` is smaller than the one at `j`. -/
def lessAt (l : List α) (i j : ℕ) : Bool :=
  match l[i]?, l[j]? with
  | some x, some y => decide (x < y)
  | _, _ => false

/-- The position with the smallest element among `i` and its children. -/
def smallest (l : List α) (i : ℕ) : ℕ :=
  let m := if lessAt l (2 * i + 1) i then 2 * i + 1 else i
  if lessAt l (2 * i + 2) m then 2 * i + 2 else m

/-- `MinHeap::min_heapify`. -/
def minHeapify : ℕ → List α → ℕ → List α
  | 0, l, _ => l
  | fuel + 1, l, i =>
    let m := smallest l i
    if m ≠ i then minHeapify fuel (l.swap i m) m else l

/-- The loop of `MinHeap::insert`. -/
def siftUp : ℕ → List α → ℕ → List α
  | 0, l, _ => l
  | fuel + 1, l, cur =>
    let p := (cur - 1) / 2
    if cur ≠ 0 ∧ lessAt l cur p then siftUp fuel (l.swap cur p) p else l

/-- `MinHeap::insert`; there is no result when the heap is full. -/
def insert (x : α) (h : MinHeap α) : Option (MinHeap α) :=
  if h.elements.length = h.capacity then none
  else
    let l := h.elements ++ [x]
    some { h with elements := siftUp l.length l (l.length - 1) }

/-- `MinHeap::min`. -/
def min? (h : MinHeap α) : Option α := h.elements.head?

/-- `MinHeap::delete_min` of a heap that is not empty. -/
def deleteMin (h : MinHeap α) : MinHeap α :=
  match h.elements.getLast? with
  | none => h
  | some x =>
    let l := (h.elements.set 0 x).dropLast
    { h with elements := minHeapify l.length l 0 }

lemma minHeapify_perm : ∀ (fuel : ℕ) (l : List α) (i : ℕ), (minHeapify fuel l i).Perm l := by
  intro fuel
  induction fuel with
  | zero =>
    intro l i
    exact List.Perm.refl l
  | succ fuel ih =>
    intro l i
    unfold minHeapify
    simp only
    split_ifs
    · exact (ih _ _).trans (List.swap_perm l i _)
    · exact List.Perm.refl l

lemma siftUp_perm : ∀ (fuel : ℕ) (l : List α) (i : ℕ), (siftUp fuel l i).Perm l := by
  intro fuel
  induction fuel with
  | zero =>
    intro l i
    exact List.Perm.refl l
  | succ fuel ih =>
    intro l i
    unfold siftUp
    simp only
    split_ifs
    · exact (ih _ _).trans (List.swap_perm l i _)
    · exact List.Perm.refl l

lemma insert_perm {x : α} {h h' : MinHeap α} (hins : h.insert x = some h') :
    h'.elements.Perm (x :: h.elements) := by
  unfold insert at hins
  split_ifs at hins
  obtain rfl : _ = h' := by simpa using hins
  exact (siftUp_perm _ _ _).trans (List.perm_append_singleton x h.elements)

lemma deleteMin_perm {x : α} {h : MinHeap α} (hmin : h.min? = some x) :
    (x :: h.deleteMin.elements).Perm h.elements := by
  unfold min? at hmin
  obtain ⟨l, hl⟩ : ∃ l, h.elements = x :: l := List.head?_eq_some_iff.mp hmin
  have hset : (x :: (h.deleteMin).elements).Perm
      (x :: ((h.elements.set 0 (h.elements.getLast?.getD x)).dropLast)) := by
    unfold deleteMin
    rw [hl, List.getLast?_cons]
    exact (minHeapify_perm _ _ _).cons x
  refine hset.trans ?_
  rw [hl]
  rcases List.eq_nil_or_concat l with rfl | ⟨l, y, rfl⟩
  · simp
  · -- the last element takes the place of the root
    rw [List.concat_eq_append, ← List.cons_append, List.getLast?_concat]
    show (x :: ((x :: l ++ [y]).set 0 y).dropLast).Perm (x :: l ++ [y])
    rw [List.cons_append, List.set_cons_zero, ← List.cons_append, List.dropLast_concat]
    exact (List.Perm.swap y x l).trans (List.perm_append_singleton y (x :: l)).symm

end MinHeap

end BrebOS

/-!
## The order of the heap

Elements are compared by a key, and different elements may have the same one.  `insert` moves the new
element up to where it belongs, `delete_min` the last one down from the root; the keys of what is deleted
one after the other never go down.
-/

namespace BrebOS

/-- A call on a heap. -/
inductive HeapOp (α : Type)
  | insert (x : α)
  | deleteMin

namespace MinHeap

variable {α κ : Type} {key : α → κ} {l : List α} {x : α} {i j : ℕ}

/-- The key of the element at a position. -/
def rank (key : α → κ) (l : List α) (i : ℕ) : WithTop κ := l[i]?.elim ⊤ fun x => (key x : WithTop κ)

lemma rank_of_lt (h : i < l.length) : rank key l i = key l[i] := by
  rw [rank, List.getElem?_eq_getElem h]
  rfl

lemma rank_of_le (h : l.length ≤ i) : rank key l i = ⊤ := by
  rw [rank, List.getElem?_eq_none h]
  rfl

section Compare

variable [LinearOrder κ]

/-- No key is smaller than the one of its parent. -/
def Ordered (key : α → κ) (l : List α) : Prop := HeapOrdered (rank key l)

lemma lt_length_of_rank_lt (h : rank key l i < rank key l j) : i < l.length := by
  by_contra hi
  rw [rank_of_le (by omega)] at h
  exact absurd h not_top_lt

omit [LinearOrder κ] in
lemma rank_swap (hi : i < l.length) (hj : j < l.length) :
    rank key (l.swap i j) = exchanged (rank key l) i j := by
  funext k
  by_cases hki : k = i
  · subst hki
    rw [exchanged_left, rank_of_lt hj, rank_of_lt (by rwa [List.length_swap]), List.getElem_swap_left,
      dif_pos hj]
  by_cases hkj : k = j
  · subst hkj
    rw [exchanged_right, rank_of_lt hi, rank_of_lt (by rwa [List.length_swap]), List.getElem_swap_right,
      dif_pos hi]
  rw [exchanged_of_ne hki hkj]
  by_cases hk : k < l.length
  · rw [rank_of_lt hk, rank_of_lt (by rwa [List.length_swap]), List.getElem_swap_of_ne hki hkj]
  · have hk : l.length ≤ k := by omega
    rw [rank_of_le hk, rank_of_le (by rwa [List.length_swap])]

variable [LT α] [DecidableLT α] (hkey : ∀ x y : α, x < y ↔ key x < key y)

include hkey

lemma lessAt_iff (hj : j < l.length) : lessAt l i j = true ↔ rank key l i < rank key l j := by
  rw [lessAt, rank_of_lt hj, List.getElem?_eq_getElem hj]
  by_cases hi : i < l.length
  · rw [rank_of_lt hi, List.getElem?_eq_getElem hi, WithTop.coe_lt_coe, ← hkey]
    exact decide_eq_true_iff
  · rw [rank_of_le (by omega), List.getElem?_eq_none (by omega)]
    simp

lemma smaller_spec (hj : j < l.length) {m : ℕ} (hm : m = if lessAt l i j then i else j) :
    m < l.length ∧ rank key l m ≤ rank key l i ∧ rank key l m ≤ rank key l j ∧
      (m = j ∨ m = i ∧ rank key l i < rank key l j) := by
  by_cases hlt : lessAt l i j = true
  · rw [if_pos hlt] at hm
    rw [lessAt_iff hkey hj] at hlt
    subst hm
    exact ⟨lt_length_of_rank_lt hlt, le_rfl, hlt.le, Or.inr ⟨rfl, hlt⟩⟩
  · rw [if_neg hlt] at hm
    rw [lessAt_iff hkey hj, not_lt] at hlt
    subst hm
    exact ⟨hj, hlt, le_rfl, Or.inl rfl⟩

lemma smallest_spec (hi : i < l.length) : smallest l i < l.length ∧
    (smallest l i = i ∨
      heapParent (smallest l i) = i ∧ i < smallest l i ∧ rank key l (smallest l i) < rank key l i) ∧
    ∀ c, 0 < c → heapParent c = i → rank key l (smallest l i) ≤ rank key l c := by
  obtain ⟨m, hm⟩ : ∃ m, m = if lessAt l (2 * i + 1) i then 2 * i + 1 else i := ⟨_, rfl⟩
  have hsmallest : smallest l i = if lessAt l (2 * i + 2) m then 2 * i + 2 else m := by
    rw [smallest, ← hm]
  obtain ⟨hmlt, hleft, -, hmcase⟩ := smaller_spec hkey hi hm
  obtain ⟨hlt, hright, hle, hcase⟩ := smaller_spec hkey hmlt hsmallest
  refine ⟨hlt, ?_, fun c hc hparent => ?_⟩
  · have hparent : ∀ c, c = 2 * i + 1 ∨ c = 2 * i + 2 → heapParent c = i ∧ i < c := by
      intro c hc
      unfold heapParent
      omega
    rcases hcase with hcase | ⟨hcase, hless⟩
    · rcases hmcase with hmcase | ⟨hmcase, hmless⟩
      · exact Or.inl (hcase.trans hmcase)
      · obtain ⟨hp, hgt⟩ := hparent m (Or.inl hmcase)
        rw [hcase]
        exact Or.inr ⟨hp, hgt, hmcase ▸ hmless⟩
    · obtain ⟨hp, hgt⟩ := hparent _ (Or.inr hcase)
      refine Or.inr ⟨hp, hgt, ?_⟩
      have hmi : rank key l m ≤ rank key l i := by
        rcases hmcase with rfl | ⟨hmcase, hmless⟩
        · exact le_rfl
        · exact hmcase ▸ hmless.le
      rw [hcase]
      exact hless.trans_le hmi
  · rcases (heapParent_eq_iff hc).mp hparent with rfl | rfl
    · exact hle.trans hleft
    · exact hright

/-! ## The two loops -/

lemma minHeapify_ordered : ∀ {fuel : ℕ} {l : List α} {i : ℕ}, l.length ≤ fuel + i →
    OrderedDownTo i (rank key l) → Ordered key (minHeapify fuel l i) := by
  intro fuel
  induction fuel with
  | zero =>
    intro l i hfuel h
    refine h.ordered fun c hc hparent => ?_
    have := heapParent_lt hc
    rw [rank_of_le (by omega : l.length ≤ c)]
    exact le_top
  | succ fuel ih =>
    intro l i hfuel h
    by_cases hi : i < l.length
    · obtain ⟨hlt, hcase, hleast⟩ := smallest_spec hkey hi
      unfold minHeapify
      dsimp only
      by_cases hm : smallest l i = i
      · rw [if_neg (not_not.mpr hm)]
        rw [hm] at hleast
        exact h.ordered hleast
      · rw [if_pos hm]
        obtain ⟨hparent, hgt, hless⟩ := hcase.resolve_left hm
        refine ih (by rw [List.length_swap]; omega) ?_
        rw [rank_swap hi hlt]
        exact h.down (by omega) hparent hless hleast
    · -- a position behind the elements has no children
      have hleaf : ∀ c, 0 < c → heapParent c = i → rank key l i ≤ rank key l c := by
        intro c hc hparent
        have := heapParent_lt hc
        rw [rank_of_le (by omega : l.length ≤ c)]
        exact le_top
      have hsmallest : smallest l i = i := by
        have hnone : ∀ j, lessAt l j i = false := by
          intro j
          rw [lessAt, List.getElem?_eq_none (by omega : l.length ≤ i)]
          rcases l[j]? with _ | _ <;> rfl
        simp [smallest, hnone]
      unfold minHeapify
      dsimp only
      rw [if_neg (not_not.mpr hsmallest)]
      exact h.ordered hleaf

lemma siftUp_ordered : ∀ {fuel : ℕ} {l : List α} {i : ℕ}, i < fuel → i < l.length →
    OrderedUpTo i (rank key l) → Ordered key (siftUp fuel l i) := by
  intro fuel
  induction fuel with
  | zero =>
    intro l i hfuel
    exact absurd hfuel (Nat.not_lt_zero i)
  | succ fuel ih =>
    intro l i hfuel hi h
    unfold siftUp
    dsimp only
    by_cases hmove : i ≠ 0 ∧ lessAt l i ((i - 1) / 2) = true
    · rw [if_pos hmove]
      obtain ⟨hne, hless⟩ := hmove
      have hpos := Nat.pos_of_ne_zero hne
      have hp := heapParent_lt hpos
      have hparent : heapParent i < l.length := hp.trans hi
      have hless : rank key l i < rank key l (heapParent i) := (lessAt_iff hkey hparent).mp hless
      refine ih (hp.trans_le (Nat.le_of_lt_succ hfuel)) (by rwa [List.length_swap]) ?_
      show OrderedUpTo (heapParent i) (rank key (l.swap i (heapParent i)))
      rw [rank_swap hi hparent]
      exact h.up hpos hless
    · rw [if_neg hmove]
      refine h.ordered fun hpos => ?_
      have hparent : heapParent i < l.length := (heapParent_lt hpos).trans hi
      by_contra hle
      rw [not_le] at hle
      exact hmove ⟨hpos.ne', (lessAt_iff hkey hparent).mpr hle⟩

/-! ## The operations -/

lemma insert_ordered {h h' : MinHeap α} (hord : Ordered key h.elements) (hins : h.insert x = some h') :
    Ordered key h'.elements := by
  unfold insert at hins
  split_ifs at hins
  cases hins
  have hlen : (h.elements ++ [x]).length = h.elements.length + 1 := by simp
  dsimp only
  rw [hlen, Nat.add_sub_cancel]
  refine siftUp_ordered hkey (Nat.lt_succ_self _) (by omega) (hord.orderedUpTo ?_ ?_)
  · intro i hi hparent b
    have := heapParent_lt hi
    rw [rank_of_le (by omega)]
    exact le_top
  · intro i hne
    by_cases hi : i < h.elements.length
    · rw [rank_of_lt hi, rank_of_lt (by omega), List.getElem_append_left hi]
    · rw [rank_of_le (by omega), rank_of_le (by omega)]

lemma deleteMin_ordered {h : MinHeap α} (hord : Ordered key h.elements) :
    Ordered key h.deleteMin.elements := by
  unfold deleteMin
  rcases hlast : h.elements.getLast? with _ | x
  · exact hord
  · dsimp only
    have hlen : ((h.elements.set 0 x).dropLast).length = h.elements.length - 1 := by simp
    refine minHeapify_ordered hkey (by omega) (hord.orderedDownTo ?_ ?_)
    · intro i hi
      by_cases hlt : i < h.elements.length - 1
      · refine Or.inl ?_
        rw [rank_of_lt (by omega), rank_of_lt (by omega), List.getElem_dropLast, List.getElem_set_ne hi.ne]
      · refine Or.inr fun b => ?_
        rw [rank_of_le (by omega)]
        exact le_top
    · intro i hi hchanged hpos b
      -- only the last position has another value, and it has no children
      have hparent : ¬heapParent i < h.elements.length - 1 := by
        intro hlt
        refine hchanged ?_
        rw [rank_of_lt (by omega), rank_of_lt (by omega), List.getElem_dropLast, List.getElem_set_ne hpos.ne]
      have := heapParent_lt hi
      rw [rank_of_le (by omega)]
      exact le_top

/-! ## The least element -/

omit [DecidableLT α] in
lemma Ordered.min_le {h : MinHeap α} (hord : Ordered key h.elements) (hmin : h.min? = some x) :
    ∀ y ∈ h.elements, ¬y < x := by
  intro y hy
  obtain ⟨l, hl⟩ : ∃ l, h.elements = x :: l := List.head?_eq_some_iff.mp hmin
  obtain ⟨i, hi, rfl⟩ := List.getElem_of_mem hy
  have hroot := HeapOrdered.root_le hord i
  have hpos : 0 < h.elements.length := by omega
  have hzero : h.elements[0] = x := by simp [hl]
  rw [rank_of_lt hi, rank_of_lt hpos, WithTop.coe_le_coe, hzero] at hroot
  rw [hkey, not_lt]
  exact hroot

omit [DecidableLT α] in
lemma Ordered.parent (hord : Ordered key l) {y : α} (hi : 0 < i) (hx : l[i]? = some x)
    (hy : l[(i - 1) / 2]? = some y) : ¬x < y := by
  have hle := hord i hi
  have hpar : l[heapParent i]? = some y := hy
  rw [rank, rank, hx, hpar] at hle
  rw [hkey, not_lt]
  exact WithTop.coe_le_coe.mp hle

end Compare

/-! ## Runs -/

section Runs

variable [LT α] [DecidableLT α]

/-- The elements that calls of `delete_min` return, one after the other, at most `n`. -/
def deletes : ℕ → MinHeap α → List α
  | 0, _ => []
  | n + 1, h =>
    match h.min? with
    | none => []
    | some x => x :: deletes n h.deleteMin

lemma mem_of_mem_deletes : ∀ {n : ℕ} {h : MinHeap α}, x ∈ deletes n h → x ∈ h.elements := by
  intro n
  induction n with
  | zero =>
    intro h hx
    exact absurd hx List.not_mem_nil
  | succ n ih =>
    intro h hx
    rw [deletes] at hx
    rcases hmin : h.min? with _ | y
    · rw [hmin] at hx
      exact absurd hx List.not_mem_nil
    · rw [hmin] at hx
      rw [← (deleteMin_perm hmin).mem_iff, List.mem_cons]
      rcases List.mem_cons.mp hx with rfl | hx
      · exact Or.inl rfl
      · exact Or.inr (ih hx)

lemma deletes_sorted [LinearOrder κ] (hkey : ∀ x y : α, x < y ↔ key x < key y) :
    ∀ {n : ℕ} {h : MinHeap α}, Ordered key h.elements → (deletes n h).Pairwise fun x y => ¬y < x := by
  intro n
  induction n with
  | zero =>
    intro h _
    exact List.Pairwise.nil
  | succ n ih =>
    intro h hord
    rw [deletes]
    rcases hmin : h.min? with _ | x
    · exact List.Pairwise.nil
    · refine List.Pairwise.cons (fun y hy => ?_) (ih (deleteMin_ordered hkey hord))
      refine hord.min_le hkey hmin y ?_
      rw [← (deleteMin_perm hmin).mem_iff]
      exact List.mem_cons_of_mem x (mem_of_mem_deletes hy)

/-- A call, and the element that `delete_min` returns; there is no result where the code stops. -/
def step (h : MinHeap α) : HeapOp α → Option (List α × MinHeap α)
  | .insert x => (h.insert x).map fun h => ([], h)
  | .deleteMin => h.min?.map fun x => ([x], h.deleteMin)

/-- A run, and the elements it returns. -/
def run : List (HeapOp α) → MinHeap α → Option (List α × MinHeap α)
  | [], h => some ([], h)
  | op :: ops, h => do
      let (removed, h) ← h.step op
      let (rest, h) ← run ops h
      return (removed ++ rest, h)

/-- What the calls of a run insert. -/
def inserted : List (HeapOp α) → List α
  | [] => []
  | .insert x :: ops => x :: inserted ops
  | .deleteMin :: ops => inserted ops

/-- A heap after a run: no element is smaller than its parent, the elements are those that were inserted
and not returned, `min` is a least one, and the calls of `delete_min` to come return them in order. -/
structure HeapRight (ops : List (HeapOp α)) (removed : List α) (h : MinHeap α) : Prop where
  ordered : ∀ i x y, 0 < i → h.elements[i]? = some x → h.elements[(i - 1) / 2]? = some y → ¬x < y
  elements : (removed ++ h.elements).Perm (inserted ops)
  empty : h.min? = none ↔ h.elements = []
  least : ∀ x, h.min? = some x → x ∈ h.elements ∧ ∀ y ∈ h.elements, ¬y < x
  deletes : (h.deletes h.elements.length).Perm h.elements ∧
    (h.deletes h.elements.length).Pairwise fun x y => ¬y < x

variable {h h' : MinHeap α} {removed : List α} {op : HeapOp α} {ops : List (HeapOp α)}

lemma step_perm (hstep : h.step op = some (removed, h')) :
    (removed ++ h'.elements).Perm (h.elements ++ inserted [op]) := by
  cases op with
  | insert x =>
    obtain ⟨h₁, hins, heq⟩ := Option.map_eq_some_iff.mp hstep
    cases heq
    exact (insert_perm hins).trans (List.perm_append_singleton x h.elements).symm
  | deleteMin =>
    obtain ⟨x, hmin, heq⟩ := Option.map_eq_some_iff.mp hstep
    cases heq
    show (x :: h.deleteMin.elements).Perm (h.elements ++ [])
    rw [List.append_nil]
    exact deleteMin_perm hmin

omit [LT α] [DecidableLT α] in
lemma inserted_cons : inserted (op :: ops) = inserted [op] ++ inserted ops := by
  cases op with
  | insert x => rfl
  | deleteMin => rfl

lemma run_perm : ∀ {ops : List (HeapOp α)} {h : MinHeap α} {removed : List α},
    run ops h = some (removed, h') → (removed ++ h'.elements).Perm (h.elements ++ inserted ops) := by
  intro ops
  induction ops with
  | nil =>
    intro h removed hrun
    cases hrun
    exact List.Perm.of_eq (List.append_nil _).symm
  | cons op ops ih =>
    intro h removed hrun
    obtain ⟨⟨first, h₁⟩, hstep, hrun⟩ := Option.bind_eq_some_iff.mp hrun
    obtain ⟨⟨rest, h₂⟩, hrest, hrun⟩ := Option.bind_eq_some_iff.mp hrun
    cases hrun
    have hrest := (ih hrest).append_left first
    rw [← List.append_assoc, ← List.append_assoc] at hrest
    rw [inserted_cons, ← List.append_assoc]
    exact hrest.trans ((step_perm hstep).append_right _)

lemma deletes_perm : ∀ {n : ℕ} {h : MinHeap α}, h.elements.length = n → (deletes n h).Perm h.elements := by
  intro n
  induction n with
  | zero =>
    intro h hlen
    rw [List.eq_nil_of_length_eq_zero hlen]
    exact List.Perm.refl []
  | succ n ih =>
    intro h hlen
    rw [deletes]
    obtain ⟨x, l, hl⟩ : ∃ x l, h.elements = x :: l := List.exists_cons_of_length_eq_add_one hlen
    have hmin : h.min? = some x := by rw [min?, hl, List.head?_cons]
    have hperm := deleteMin_perm hmin
    have hlen' : h.deleteMin.elements.length = n := by
      have := hperm.length_eq
      rw [List.length_cons, hlen] at this
      omega
    rw [hmin]
    exact ((ih hlen').cons x).trans hperm

section Order

variable [LinearOrder κ] (hkey : ∀ x y : α, x < y ↔ key x < key y)

include hkey

lemma step_ordered (hord : Ordered key h.elements) (hstep : h.step op = some (removed, h')) :
    Ordered key h'.elements := by
  cases op with
  | insert x =>
    obtain ⟨h₁, hins, heq⟩ := Option.map_eq_some_iff.mp hstep
    cases heq
    exact insert_ordered hkey hord hins
  | deleteMin =>
    obtain ⟨x, hmin, heq⟩ := Option.map_eq_some_iff.mp hstep
    cases heq
    exact deleteMin_ordered hkey hord

lemma run_ordered : ∀ {ops : List (HeapOp α)} {h : MinHeap α} {removed : List α},
    Ordered key h.elements → run ops h = some (removed, h') → Ordered key h'.elements := by
  intro ops
  induction ops with
  | nil =>
    intro h removed hord hrun
    cases hrun
    exact hord
  | cons op ops ih =>
    intro h removed hord hrun
    obtain ⟨⟨first, h₁⟩, hstep, hrun⟩ := Option.bind_eq_some_iff.mp hrun
    obtain ⟨⟨rest, h₂⟩, hrest, hrun⟩ := Option.bind_eq_some_iff.mp hrun
    cases hrun
    exact ih (step_ordered hkey hord hstep) hrest

lemma run_new_ordered {capacity : ℕ} (hrun : run ops { capacity } = some (removed, h)) :
    Ordered key h.elements := by
  refine run_ordered hkey (fun i _ => ?_) hrun
  have htop : rank key ([] : List α) i = ⊤ := rank_of_le (Nat.zero_le i)
  show rank key [] (heapParent i) ≤ rank key [] i
  rw [htop]
  exact le_top

lemma run_right {capacity : ℕ} (hrun : run ops { capacity } = some (removed, h)) :
    HeapRight ops removed h := by
  have hord := run_new_ordered hkey hrun
  refine ⟨fun i x y => hord.parent hkey, run_perm hrun, ?_, ?_, deletes_perm rfl, deletes_sorted hkey hord⟩
  · rw [min?, List.head?_eq_none_iff]
  · intro x hmin
    exact ⟨List.mem_of_mem_head? hmin, hord.min_le hkey hmin⟩

end Order

end Runs

end MinHeap

end BrebOS
