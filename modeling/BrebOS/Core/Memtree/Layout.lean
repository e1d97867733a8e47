import BrebOS.Core.Memtree
import BrebOS.Lib.Ranges

/-!
# The layout of a `MemTree`

What the operations do to the tree, read off its in-order list.  `Layout` is the invariant that
survives every operation of the allocator: ranges in order, the non-empty ones disjoint, the used
ones not empty, nothing reaching `2^32`.  It allows empty free nodes, which `realloc` inserts; a
layout without them (`Layout.Full`) is the strict search tree of disjoint blocks one expects.

Each tree function gets one lemma that says how it rewrites the list (`inorder_removeNode`,
`inorder_addNode`, `mergeSuccessor_eq`, `mergePredecessor_eq`, …); everything later is about lists.
`Coalesced` collects what a run of merges of *free* nodes keeps.
-/

namespace BrebOS.MemTree

open BinaryTree Ranges

/-- The invariant of the in-order list. -/
structure Layout (l : List Allocation) : Prop where
  ordered : Ordered Allocation.start Allocation.end_ l
  lt_max : ∀ a ∈ l, a.end_ < 4294967296
  used_nonempty : ∀ a ∈ l, a.used = true → a.start < a.end_

/-- No node is empty. -/
def Full (l : List Allocation) : Prop := ∀ a ∈ l, a.start < a.end_

/-- The addresses the nodes cover. -/
abbrev Covers (l : List Allocation) (x : ℕ) : Prop :=
  Covered Allocation.start Allocation.end_ l x

/-- Two ranges have no address in common. -/
def Apart (a b : Allocation) : Prop := a.end_ ≤ b.start ∨ b.end_ ≤ a.start

namespace Layout

variable {A B l : List Allocation} {c d m x : Allocation}

lemma sublist {l' : List Allocation} (h : Layout l) (hs : l'.Sublist l) : Layout l' :=
  ⟨h.ordered.sublist hs, fun a ha => h.lt_max a (hs.subset ha),
    fun a ha => h.used_nonempty a (hs.subset ha)⟩

lemma start_le (h : Layout l) (hd : d ∈ l) : d.start ≤ d.end_ := h.ordered.le d hd

lemma nodeSize_eq (h : Layout l) (hd : d ∈ l) : nodeSize d = d.end_ - d.start :=
  u32Sub_of_le (h.start_le hd) (h.lt_max d hd)

private lemma mem_replace {a : Allocation} (ha : a ∈ A ++ m :: B) : a = m ∨ a ∈ A ++ B := by
  simp only [List.mem_append, List.mem_cons] at ha ⊢
  tauto

lemma cut (h : Layout (A ++ d :: B)) (hlo : m.start = d.start) (hle : m.start ≤ m.end_)
    (hhi : m.end_ ≤ d.end_) (hused : m.used = true → m.start < m.end_) : Layout (A ++ m :: B) := by
  have hd := h.lt_max d (by simp)
  refine ⟨h.ordered.cut hlo hle hhi, fun a ha => ?_, fun a ha => ?_⟩
  · rcases mem_replace ha with rfl | ha
    · omega
    · exact h.lt_max a (by simp only [List.mem_append, List.mem_cons] at ha ⊢; tauto)
  · rcases mem_replace ha with rfl | ha
    · exact hused
    · exact h.used_nonempty a (by simp only [List.mem_append, List.mem_cons] at ha ⊢; tauto)

lemma join (h : Layout (A ++ c :: d :: B)) (htouch : c.end_ = d.start) (hlo : m.start = c.start)
    (hhi : m.end_ = d.end_) (hused : m.used = true → c.used = true) : Layout (A ++ m :: B) := by
  have hd := h.lt_max d (by simp)
  have hdle := h.start_le (d := d) (by simp)
  have hc := h.used_nonempty c (by simp)
  refine ⟨h.ordered.join htouch hlo hhi, fun a ha => ?_, fun a ha hu => ?_⟩
  · rcases mem_replace ha with rfl | ha
    · omega
    · exact h.lt_max a (by simp only [List.mem_append, List.mem_cons] at ha ⊢; tauto)
  · rcases mem_replace ha with rfl | ha
    · have := hc (hused hu)
      omega
    · exact h.used_nonempty a (by simp only [List.mem_append, List.mem_cons] at ha ⊢; tauto) hu

lemma insert (h : Layout (A ++ B)) (hx : x.start ≤ x.end_) (hmax : x.end_ < 4294967296)
    (hused : x.used = true → x.start < x.end_) (hA : ∀ a ∈ A, a.start < x.start)
    (hB : ∀ b ∈ B, x.start ≤ b.start)
    (hapart : ∀ a ∈ A ++ B, a.start < a.end_ → x.start < x.end_ → Apart a x) :
    Layout (A ++ x :: B) := by
  refine ⟨h.ordered.insert hx hA hB hapart, fun a ha => ?_, fun a ha => ?_⟩
  · rcases mem_replace ha with rfl | ha
    · exact hmax
    · exact h.lt_max a ha
  · rcases mem_replace ha with rfl | ha
    · exact hused
    · exact h.used_nonempty a ha

lemma notMem_of_split (h : Layout (A ++ d :: B)) (hd : d.start < d.end_) : d ∉ A ∧ d ∉ B :=
  h.ordered.notMem_of_split hd

lemma eq_of_start (h : Layout l) (hc : c ∈ l) (hd : d ∈ l) (hce : c.start < c.end_)
    (hde : d.start < d.end_) (hs : c.start = d.start) : c = d :=
  h.ordered.eq_of_mem hc hd ⟨le_rfl, hce⟩ ⟨by omega, by omega⟩

lemma apart (h : Layout l) (hc : c ∈ l) (hd : d ∈ l) (hne : c ≠ d) (hce : c.start < c.end_)
    (hde : d.start < d.end_) : Apart c d :=
  h.ordered.apart hc hd hne hce hde

lemma apart_part (h : Layout (A ++ d :: B))
    (hd : d.start < d.end_) (hx₁ : d.start ≤ x.start) (hx₂ : x.end_ ≤ d.end_) (hc : c ∈ A ++ B)
    (hce : c.start < c.end_) : Apart c x := by
  obtain ⟨hdA, hdB⟩ := h.notMem_of_split hd
  have hcd : c ≠ d := by
    rintro rfl
    exact (List.mem_append.mp hc).elim hdA hdB
  have hcm : c ∈ A ++ d :: B := by
    simp only [List.mem_append, List.mem_cons] at hc ⊢
    tauto
  rcases h.apart hcm (by simp) hcd hce hd with h | h
  · exact Or.inl (by omega)
  · exact Or.inr (by omega)

end Layout

/-! ## What each tree function does to the list -/

lemma compareFunc_neg {a b : Allocation} : compareFunc a b < 0 ↔ a.start < b.start := by
  unfold compareFunc
  split_ifs <;> omega

lemma compareFunc_pos {a b : Allocation} : 0 < compareFunc a b ↔ b.start < a.start := by
  unfold compareFunc
  split_ifs <;> omega

lemma compareFunc_zero {a b : Allocation} : compareFunc a b = 0 ↔ a.start = b.start := by
  unfold compareFunc
  split_ifs <;> simp_all

lemma inorder_removeNode (d : Allocation) (l r : MemTree) :
    (removeNode (node d l r)).inorder = l.inorder ++ r.inorder := by
  cases l with
  | nil => simp [removeNode]
  | node a l₁ l₂ =>
      cases r with
      | nil => simp [removeNode]
      | node b r₁ r₂ =>
          obtain ⟨s, q, post, h₁, h₂, h₃⟩ := leftmostPath_spec (node b r₁ r₂) (by simp)
          simp only [removeNode, h₁, inorder_node, h₃]
          rw [← inorder_node b r₁ r₂, h₂]

lemma inorder_addNode {t : MemTree} (h : Layout t.inorder) (x : Allocation) :
    ∃ l₁ l₂, t.inorder = l₁ ++ l₂ ∧ (addNode x t).inorder = l₁ ++ x :: l₂ ∧
      (∀ a ∈ l₁, a.start < x.start) ∧ ∀ a ∈ l₂, x.start ≤ a.start := by
  have hp : t.inorder.Pairwise fun a b => compareFunc b x < 0 → compareFunc a x < 0 :=
    h.ordered.before.imp fun {a b} hab hb => by
      have h₁ := hab.1
      rw [compareFunc_neg] at hb ⊢
      omega
  obtain ⟨l₁, l₂, e₁, e₂, h₁, h₂⟩ := BST.inorder_addNode x t hp
  refine ⟨l₁, l₂, e₁, e₂, fun a ha => compareFunc_neg.mp (h₁ a ha), fun a ha => ?_⟩
  have := h₂ a ha
  by_contra hlt
  rw [not_le, ← compareFunc_neg] at hlt
  omega

lemma exists_split {t : MemTree} {p : Path} {d : Allocation} {l r : MemTree}
    (h : t.subtree p = node d l r) :
    ∃ A B, t.inorder = A ++ d :: B ∧
      (∀ f, (modifyAt (mapRoot f) p t).inorder = A ++ f d :: B) ∧
      (modifyAt removeNode p t).inorder = A ++ B := by
  obtain ⟨pre, post, h₁, h₂⟩ := exists_context p t (by simp [h])
  refine ⟨pre ++ l.inorder, r.inorder ++ post, ?_, fun f => ?_, ?_⟩
  · simp [h₁, h]
  · simp [h₂, h, mapRoot]
  · simp [h₂, h, inorder_removeNode]

lemma exists_of_root? {t : MemTree} {d : Allocation} (h : t.root? = some d) :
    ∃ l r, t = node d l r := by
  cases t with
  | nil => simp [root?] at h
  | node a l r =>
      simp only [root?, Option.some.injEq] at h
      exact ⟨l, r, by rw [h]⟩

lemma mergeSuccessor_eq (d : Allocation) (l r : MemTree) :
    mergeNodeWithFreeSuccessor (node d l r) = (false, node d l r) ∨
      ∃ cur post r', r.inorder = cur :: post ∧ cur.isSimilarAndContiguous d = true ∧
        mergeNodeWithFreeSuccessor (node d l r) =
          (true, node { d with end_ := u32 (d.end_ + nodeSize cur) } l r') ∧
        r'.inorder = post := by
  by_cases hr : r = nil
  · subst hr
    simp [mergeNodeWithFreeSuccessor, leftmostPath, root?]
  · obtain ⟨cur, q, post, h₁, h₂, h₃⟩ := leftmostPath_spec r hr
    by_cases hsim : cur.isSimilarAndContiguous d = true
    · refine Or.inr ⟨cur, q.inorder ++ post, modifyAt removeNode r.leftmostPath r, h₂, hsim, ?_, ?_⟩
      · simp [mergeNodeWithFreeSuccessor, h₁, root?, hsim]
      · simp [h₃, inorder_removeNode]
    · exact Or.inl (by simp [mergeNodeWithFreeSuccessor, h₁, root?, hsim])

lemma mergePredecessor_eq (d : Allocation) (l r : MemTree) :
    mergeNodeWithFreePredecessor (node d l r) = (false, node d l r) ∨
      ∃ cur pre l', l.inorder = pre ++ [cur] ∧ cur.isSimilarAndContiguous d = true ∧
        mergeNodeWithFreePredecessor (node d l r) =
          (true, node { d with start := cur.start } l' r) ∧
        l'.inorder = pre := by
  by_cases hl : l = nil
  · subst hl
    simp [mergeNodeWithFreePredecessor, rightmostPath, root?]
  · obtain ⟨cur, q, pre, h₁, h₂, h₃⟩ := rightmostPath_spec l hl
    by_cases hsim : cur.isSimilarAndContiguous d = true
    · refine Or.inr
        ⟨cur, pre ++ q.inorder, modifyAt removeNode l.rightmostPath l, h₂, hsim, ?_, ?_⟩
      · simp [mergeNodeWithFreePredecessor, h₁, root?, hsim]
      · simp [h₃, inorder_removeNode]
    · exact Or.inl (by simp [mergeNodeWithFreePredecessor, h₁, root?, hsim])

lemma isSimilarAndContiguous_iff {a b : Allocation} : a.isSimilarAndContiguous b = true ↔
    (a.start = b.end_ ∨ a.end_ = b.start) ∧ a.pageInfo = b.pageInfo ∧ a.used = b.used := by
  simp [Allocation.isSimilarAndContiguous, and_assoc]

end BrebOS.MemTree
