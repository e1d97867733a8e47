import Mathlib.Tactic
import Mathlib.Data.Tree.Basic

/-!
# Binary trees seen through their in-order list

A pointer into a mutable binary tree is modelled by the path that leads to it from the root, and
a write through the pointer by a `modifyAt` at that path.  What an operation does to the *set and
order* of the stored values is then read off one list, `inorder`: `exists_context` says that a
modification at a path rewrites one segment of that list and leaves the rest alone, and
`leftmostPath_spec` / `rightmostPath_spec` say that the two extreme nodes are its two ends.

Nothing here assumes that the tree is ordered; that is a property of the list.
-/

namespace BinaryTree

variable {α : Type*}

/-- The stored values from left to right. -/
def inorder : BinaryTree α → List α
  | nil => []
  | node a l r => l.inorder ++ a :: r.inorder

@[simp] lemma inorder_nil : (nil : BinaryTree α).inorder = [] := rfl

@[simp] lemma inorder_node (a : α) (l r : BinaryTree α) :
    (node a l r).inorder = l.inorder ++ a :: r.inorder := rfl

/-- One step of a descent from the root. -/
inductive Turn
  | left
  | right
  deriving DecidableEq, Repr

/-- The position of a node (or of the slot that holds it): the turns taken from the root. -/
abbrev Path := List Turn

/-- The value stored at the root. -/
def root? : BinaryTree α → Option α
  | nil => none
  | node a _ _ => some a

/-- The tree hanging at a path, `nil` when the path leaves the tree. -/
def subtree : BinaryTree α → Path → BinaryTree α
  | t, [] => t
  | nil, _ :: _ => nil
  | node _ l _, .left :: p => l.subtree p
  | node _ _ r, .right :: p => r.subtree p

/-- Rewrite the tree hanging at a path. -/
def modifyAt (f : BinaryTree α → BinaryTree α) : Path → BinaryTree α → BinaryTree α
  | [], t => f t
  | _ :: _, nil => nil
  | .left :: p, node a l r => node a (modifyAt f p l) r
  | .right :: p, node a l r => node a l (modifyAt f p r)

/-- Rewrite the value at the root and nothing else. -/
def mapRoot (f : α → α) : BinaryTree α → BinaryTree α
  | nil => nil
  | node a l r => node (f a) l r

/-- The path of the leftmost node: keep turning left while there is a left child. -/
def leftmostPath : BinaryTree α → Path
  | nil => []
  | node _ nil _ => []
  | node _ (node b l r) _ => .left :: leftmostPath (node b l r)

/-- The path of the rightmost node. -/
def rightmostPath : BinaryTree α → Path
  | nil => []
  | node _ _ nil => []
  | node _ _ (node b l r) => .right :: rightmostPath (node b l r)

@[simp] lemma subtree_nil_path (t : BinaryTree α) : t.subtree [] = t := by
  cases t <;> rfl

@[simp] lemma modifyAt_nil_path (f : BinaryTree α → BinaryTree α) (t : BinaryTree α) :
    modifyAt f [] t = f t := by
  cases t <;> rfl

@[simp] lemma subtree_nil (p : Path) : (nil : BinaryTree α).subtree p = nil := by
  cases p <;> rfl

lemma subtree_modifyAt (f : BinaryTree α → BinaryTree α) :
    ∀ (p : Path) (t : BinaryTree α), t.subtree p ≠ nil →
      (modifyAt f p t).subtree p = f (t.subtree p)
  | [], t, _ => by simp
  | _ :: _, nil, h => by simp at h
  | .left :: p, node a l r, h => subtree_modifyAt f p l h
  | .right :: p, node a l r, h => subtree_modifyAt f p r h

lemma modifyAt_modifyAt (f g : BinaryTree α → BinaryTree α) :
    ∀ (p : Path) (t : BinaryTree α), modifyAt g p (modifyAt f p t) = modifyAt (g ∘ f) p t
  | [], t => by simp
  | _ :: _, nil => rfl
  | .left :: p, node a l r => by simp [modifyAt, modifyAt_modifyAt f g p l]
  | .right :: p, node a l r => by simp [modifyAt, modifyAt_modifyAt f g p r]

lemma root?_subtree_mapRoot (f : α → α) : ∀ (p q : Path) (t : BinaryTree α), p ≠ q →
    ((modifyAt (mapRoot f) q t).subtree p).root? = (t.subtree p).root?
  | [], [], _, h => absurd rfl h
  | _, [], nil, _ => by simp [mapRoot]
  | .left :: p, [], node a l r, _ => by simp [mapRoot, subtree]
  | .right :: p, [], node a l r, _ => by simp [mapRoot, subtree]
  | _, _ :: _, nil, _ => by simp [modifyAt]
  | [], .left :: q, node a l r, _ => by simp [modifyAt, root?]
  | [], .right :: q, node a l r, _ => by simp [modifyAt, root?]
  | .left :: p, .left :: q, node a l r, h => by
      simpa [modifyAt, subtree] using root?_subtree_mapRoot f p q l (by simpa using h)
  | .right :: p, .right :: q, node a l r, h => by
      simpa [modifyAt, subtree] using root?_subtree_mapRoot f p q r (by simpa using h)
  | .left :: p, .right :: q, node a l r, _ => by simp [modifyAt, subtree]
  | .right :: p, .left :: q, node a l r, _ => by simp [modifyAt, subtree]

/-- **A modification at a path rewrites one segment of the in-order list.** -/
lemma exists_context : ∀ (p : Path) (t : BinaryTree α), t.subtree p ≠ nil →
    ∃ pre post, t.inorder = pre ++ (t.subtree p).inorder ++ post ∧
      ∀ f, (modifyAt f p t).inorder = pre ++ (f (t.subtree p)).inorder ++ post
  | [], t, _ => ⟨[], [], by simp, by simp⟩
  | _ :: _, nil, h => by simp at h
  | .left :: p, node a l r, h => by
      obtain ⟨pre, post, h₁, h₂⟩ := exists_context p l h
      refine ⟨pre, post ++ a :: r.inorder, ?_, fun f => ?_⟩
      · simp [h₁, subtree]
      · simp [modifyAt, h₂ f, subtree]
  | .right :: p, node a l r, h => by
      obtain ⟨pre, post, h₁, h₂⟩ := exists_context p r h
      refine ⟨l.inorder ++ a :: pre, post, ?_, fun f => ?_⟩
      · simp [h₁, subtree]
      · simp [modifyAt, h₂ f, subtree]

lemma leftmostPath_spec : ∀ t : BinaryTree α, t ≠ nil →
    ∃ a q post, t.subtree t.leftmostPath = node a nil q ∧ t.inorder = a :: (q.inorder ++ post) ∧
      ∀ f, (modifyAt f t.leftmostPath t).inorder = (f (node a nil q)).inorder ++ post
  | nil, h => absurd rfl h
  | node a nil r, _ => ⟨a, r, [], by simp [leftmostPath], by simp, by simp [leftmostPath]⟩
  | node a (node b l r) s, _ => by
      obtain ⟨c, q, post, h₁, h₂, h₃⟩ := leftmostPath_spec (node b l r) (by simp)
      refine ⟨c, q, post ++ a :: s.inorder, ?_, ?_, fun f => ?_⟩
      · simpa [leftmostPath, subtree] using h₁
      · rw [inorder_node, h₂]; simp
      · simp [leftmostPath, modifyAt, h₃ f]

lemma rightmostPath_spec : ∀ t : BinaryTree α, t ≠ nil →
    ∃ a q pre, t.subtree t.rightmostPath = node a q nil ∧ t.inorder = pre ++ q.inorder ++ [a] ∧
      ∀ f, (modifyAt f t.rightmostPath t).inorder = pre ++ (f (node a q nil)).inorder
  | nil, h => absurd rfl h
  | node a l nil, _ => ⟨a, l, [], by simp [rightmostPath], by simp, by simp [rightmostPath]⟩
  | node a s (node b l r), _ => by
      obtain ⟨c, q, pre, h₁, h₂, h₃⟩ := rightmostPath_spec (node b l r) (by simp)
      refine ⟨c, q, s.inorder ++ a :: pre, ?_, ?_, fun f => ?_⟩
      · simpa [rightmostPath, subtree] using h₁
      · rw [inorder_node, h₂]; simp
      · simp [rightmostPath, modifyAt, h₃ f]

/-- Every value of a left subtree stands in relation `r` to its root, and every root to the values
of its right subtree. -/
def Ordered (r : α → α → Prop) : BinaryTree α → Prop
  | nil => True
  | node a lt rt => (∀ b ∈ lt.inorder, r b a) ∧ (∀ b ∈ rt.inorder, r a b) ∧
      lt.Ordered r ∧ rt.Ordered r

lemma ordered_of_pairwise {r : α → α → Prop} (t : BinaryTree α) (h : t.inorder.Pairwise r) :
    t.Ordered r := by
  induction t with
  | nil => trivial
  | node a lt rt ihl ihr =>
      simp only [inorder_node, List.pairwise_append, List.pairwise_cons] at h
      obtain ⟨hl, ⟨har, hr⟩, hlr⟩ := h
      exact ⟨fun b hb => hlr b hb a (by simp), har, ihl hl, ihr hr⟩

lemma Ordered.pairwise {r : α → α → Prop} (htrans : ∀ a b c, r a b → r b c → r a c) :
    ∀ {t : BinaryTree α}, t.Ordered r → t.inorder.Pairwise r
  | nil, _ => by simp
  | node a lt rt, ⟨hl, hr, hlt, hrt⟩ => by
      simp only [inorder_node, List.pairwise_append, List.pairwise_cons]
      refine ⟨hlt.pairwise htrans, ⟨hr, hrt.pairwise htrans⟩, fun b hb c hc => ?_⟩
      rcases List.mem_cons.mp hc with rfl | hc
      · exact hl b hb
      · exact htrans b a c (hl b hb) (hr c hc)

lemma length_inorder (t : BinaryTree α) : t.inorder.length = t.numNodes := by
  induction t with
  | nil => rfl
  | node a l r ihl ihr => simp [ihl, ihr]; omega

end BinaryTree
