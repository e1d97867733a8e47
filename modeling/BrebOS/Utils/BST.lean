import BrebOS.Lib.InorderTree

/-!
# `BST<T>`

The search tree of `utils/BST.hxx` over an arbitrary comparison function: `cmp a b` is `0` when
the two compare equal, positive when `a` is the larger and negative when `a` is the smaller one.
A `Node*` (and the `Node**` slot that holds it) is the path of the node.

`add_node` sends an equal key to the left, so a new node lands just before the first value that is
not smaller than it (`inorder_addNode`).
-/

namespace BrebOS.BST

open BinaryTree

variable {α : Type*} (cmp : α → α → ℤ)

/-- `BST::add_node`. -/
def addNode (x : α) : BinaryTree α → BinaryTree α
  | nil => node x nil nil
  | node a l r => if cmp a x ≥ 0 then node a (addNode x l) r else node a l (addNode x r)

/-- The slot in which `add_node` stores the new node. -/
def addNodePath (x : α) : BinaryTree α → Path
  | nil => []
  | node a l r =>
      if cmp a x ≥ 0 then .left :: addNodePath x l else .right :: addNodePath x r

/-- `BST::find_node`: the node and the slot `node_ptr` that points to it. -/
def findNode (elem : α) : BinaryTree α → Option Path
  | nil => none
  | node a l r =>
      if cmp a elem = 0 then some []
      else if cmp a elem > 0 then (findNode elem l).map (.left :: ·)
      else (findNode elem r).map (.right :: ·)

variable {cmp}

lemma subtree_addNodePath (x : α) (t : BinaryTree α) :
    (addNode cmp x t).subtree (addNodePath cmp x t) = node x nil nil := by
  induction t with
  | nil => rfl
  | node a l r ihl ihr =>
      simp only [addNode, addNodePath]
      split
      · exact ihl
      · exact ihr

lemma subtree_addNodePath_eq_nil (x : α) (t : BinaryTree α) :
    t.subtree (addNodePath cmp x t) = nil := by
  induction t with
  | nil => rfl
  | node a l r ihl ihr =>
      simp only [addNodePath]
      split
      · exact ihl
      · exact ihr

lemma mem_addNode {x a : α} {t : BinaryTree α} :
    a ∈ (addNode cmp x t).inorder ↔ a = x ∨ a ∈ t.inorder := by
  induction t with
  | nil => simp [addNode]
  | node b l r ihl ihr =>
      simp only [addNode]
      split
      · simp only [inorder_node, List.mem_append, List.mem_cons, ihl]
        tauto
      · simp only [inorder_node, List.mem_append, List.mem_cons, ihr]
        tauto

lemma inorder_addNode (x : α) (t : BinaryTree α)
    (h : t.inorder.Pairwise fun a b => cmp b x < 0 → cmp a x < 0) :
    ∃ l₁ l₂, t.inorder = l₁ ++ l₂ ∧ (addNode cmp x t).inorder = l₁ ++ x :: l₂ ∧
      (∀ a ∈ l₁, cmp a x < 0) ∧ ∀ a ∈ l₂, 0 ≤ cmp a x := by
  induction t with
  | nil => exact ⟨[], [], by simp [addNode]⟩
  | node a l r ihl ihr =>
      simp only [inorder_node, List.pairwise_append, List.pairwise_cons] at h
      obtain ⟨hl, ⟨har, hr⟩, hlr⟩ := h
      by_cases ha : cmp a x ≥ 0
      · obtain ⟨l₁, l₂, e₁, e₂, h₁, h₂⟩ := ihl hl
        refine ⟨l₁, l₂ ++ a :: r.inorder, by simp [e₁], by simp [addNode, ha, e₂], h₁, ?_⟩
        intro b hb
        simp only [List.mem_append, List.mem_cons] at hb
        rcases hb with hb | rfl | hb
        · exact h₂ b hb
        · exact ha
        · by_contra hlt
          exact absurd (har b hb (by omega)) (by omega)
      · obtain ⟨l₁, l₂, e₁, e₂, h₁, h₂⟩ := ihr hr
        refine ⟨l.inorder ++ a :: l₁, l₂, by simp [e₁], by simp [addNode, ha, e₂], ?_, h₂⟩
        intro b hb
        simp only [List.mem_append, List.mem_cons] at hb
        rcases hb with hb | rfl | hb
        · exact hlr b hb a (by simp) (by omega)
        · omega
        · exact h₁ b hb

lemma addNode_modifyAt_mapRoot (x : α) (f : α → α) (hf : ∀ a, cmp (f a) x = cmp a x) :
    ∀ (p : Path) (t : BinaryTree α), t.subtree p ≠ nil →
      modifyAt (mapRoot f) p (addNode cmp x t) = addNode cmp x (modifyAt (mapRoot f) p t)
  | [], nil, h => by simp at h
  | [], node a l r, _ => by
      by_cases ha : cmp a x ≥ 0 <;> simp [addNode, mapRoot, ha, hf]
  | _ :: _, nil, h => by simp at h
  | .left :: p, node a l r, h => by
      by_cases ha : cmp a x ≥ 0
      · simp [addNode, modifyAt, ha, addNode_modifyAt_mapRoot x f hf p l h]
      · simp [addNode, modifyAt, ha]
  | .right :: p, node a l r, h => by
      by_cases ha : cmp a x ≥ 0
      · simp [addNode, modifyAt, ha]
      · simp [addNode, modifyAt, ha, addNode_modifyAt_mapRoot x f hf p r h]

lemma subtree_addNode (x : α) : ∀ (p : Path) (t : BinaryTree α) (a : α) (l r : BinaryTree α),
    t.subtree p = node a l r → ∃ l' r', (addNode cmp x t).subtree p = node a l' r'
  | [], nil, a, l, r, h => by simp at h
  | [], node b l r, a, l', r', h => by
      simp only [subtree_nil_path, node.injEq] at h
      obtain ⟨rfl, rfl, rfl⟩ := h
      by_cases hb : cmp b x ≥ 0 <;> simp [addNode, hb]
  | _ :: _, nil, a, l, r, h => by simp at h
  | .left :: p, node b l r, a, l', r', h => by
      by_cases hb : cmp b x ≥ 0
      · simpa [addNode, hb, subtree] using subtree_addNode x p l a l' r' h
      · exact ⟨l', r', by simpa [addNode, hb, subtree] using h⟩
  | .right :: p, node b l r, a, l', r', h => by
      by_cases hb : cmp b x ≥ 0
      · exact ⟨l', r', by simpa [addNode, hb, subtree] using h⟩
      · simpa [addNode, hb, subtree] using subtree_addNode x p r a l' r' h

lemma findNode_some (elem : α) : ∀ (t : BinaryTree α) (p : Path), findNode cmp elem t = some p →
    ∃ a l r, t.subtree p = node a l r ∧ cmp a elem = 0
  | nil, p, h => by simp [findNode] at h
  | node a l r, p, h => by
      simp only [findNode] at h
      split_ifs at h with h₀ h₁
      · obtain rfl := Option.some.inj h
        exact ⟨a, l, r, by simp, h₀⟩
      · obtain ⟨q, hq, rfl⟩ := Option.map_eq_some_iff.mp h
        exact findNode_some elem l q hq
      · obtain ⟨q, hq, rfl⟩ := Option.map_eq_some_iff.mp h
        exact findNode_some elem r q hq

lemma findNode_none (elem : α) (t : BinaryTree α)
    (h : t.inorder.Pairwise fun a b =>
      (0 < cmp a elem → 0 < cmp b elem) ∧ (cmp b elem < 0 → cmp a elem < 0))
    (hnot : findNode cmp elem t = none) : ∀ a ∈ t.inorder, cmp a elem ≠ 0 := by
  induction t with
  | nil => simp
  | node b l r ihl ihr =>
      simp only [inorder_node, List.pairwise_append, List.pairwise_cons] at h
      obtain ⟨hl, ⟨hbr, hr⟩, hlr⟩ := h
      simp only [findNode] at hnot
      intro a ha
      simp only [inorder_node, List.mem_append, List.mem_cons] at ha
      split_ifs at hnot with h₀ h₁
      · simp only [Option.map_eq_none_iff] at hnot
        rcases ha with ha | rfl | ha
        · exact ihl hl hnot a ha
        · exact h₀
        · have := (hbr a ha).1 (by omega)
          omega
      · simp only [Option.map_eq_none_iff] at hnot
        rcases ha with ha | rfl | ha
        · have := (hlr a ha b (by simp)).2 (by omega)
          omega
        · exact h₀
        · exact ihr hr hnot a ha

end BrebOS.BST
