import BrebOS.Core.Defs
import BrebOS.Utils.BST

/-!
# The validity check of a search tree

`BST::ensure_validity` compares a node with its children.  It goes down to the left child, but to the right
one only when it has already found it to be out of order, so that it looks at the left spine and no further.
-/

namespace BrebOS.BST

open BinaryTree

variable {α : Type*} (cmp : α → α → ℤ)

/-- `BST::ensure_validity_aux`. -/
def ensureValidityAux : BinaryTree α → Except Fault Unit
  | nil => .ok ()
  | node a l r => do
      match l.root? with
      | none => .ok ()
      | some b => do
          if cmp a b < 0 then throw (.irrecoverableError "BST invalid")
          ensureValidityAux l
      match r.root? with
      | none => .ok ()
      | some c =>
          if cmp a c > 0 then do
            -- the condition under which the right subtree is looked at is the error itself
            if cmp a c > 0 then throw (.irrecoverableError "BST invalid")
            ensureValidityAux r

/-- `BST::ensure_validity`. -/
def ensureValidity (root : BinaryTree α) : Except Fault Unit := ensureValidityAux cmp root

/-- In every subtree no value on the left is greater than the root, and none on the right is less. -/
def Ordered : BinaryTree α → Prop
  | nil => True
  | node a l r =>
      (∀ x ∈ l.inorder, 0 ≤ cmp a x) ∧ (∀ x ∈ r.inorder, cmp a x ≤ 0) ∧ Ordered l ∧ Ordered r

/-- A node is out of order with a child of its own. -/
def ChildMisplaced : BinaryTree α → Prop
  | nil => False
  | node a l r => (∃ b, l.root? = some b ∧ cmp a b < 0) ∨ ∃ c, r.root? = some c ∧ 0 < cmp a c

/-- So is a node that is reached from the root by left turns only. -/
def MisplacedOnLeftSpine (t : BinaryTree α) : Prop :=
  ∃ n, ChildMisplaced cmp (t.subtree (List.replicate n .left))

variable {cmp} {a : α} {l r t : BinaryTree α}

lemma mem_inorder_of_root {b : α} : ∀ {t : BinaryTree α}, t.root? = some b → b ∈ t.inorder
  | node _ _ _, h => by
      cases h
      simp

lemma not_misplaced_nil : ¬ MisplacedOnLeftSpine cmp nil := by
  rintro ⟨n, h⟩
  rw [subtree_nil] at h
  exact h

lemma misplaced_node : MisplacedOnLeftSpine cmp (node a l r) ↔
    ChildMisplaced cmp (node a l r) ∨ MisplacedOnLeftSpine cmp l := by
  constructor
  · rintro ⟨n, h⟩
    cases n with
    | zero => exact Or.inl h
    | succ n => exact Or.inr ⟨n, h⟩
  · rintro (h | ⟨n, h⟩)
    · exact ⟨0, h⟩
    · exact ⟨n + 1, h⟩

lemma Ordered.not_misplaced (h : Ordered cmp t) : ¬ MisplacedOnLeftSpine cmp t := by
  induction t with
  | nil => exact not_misplaced_nil
  | node a l r ihl ihr =>
      obtain ⟨hleft, hright, hl, -⟩ := h
      rw [misplaced_node]
      rintro ((⟨b, hb, hlt⟩ | ⟨c, hc, hlt⟩) | hspine)
      · have := hleft b (mem_inorder_of_root hb)
        omega
      · have := hright c (mem_inorder_of_root hc)
        omega
      · exact ihl hl hspine

lemma checkRight (a : α) (r : BinaryTree α) :
    (match r.root? with
      | none => .ok ()
      | some c => if cmp a c > 0 then do
          if cmp a c > 0 then throw (.irrecoverableError "BST invalid")
          ensureValidityAux cmp r
        else pure () : Except Fault Unit) =
      if (r.root?.any fun c => decide (0 < cmp a c)) = true then .error (.irrecoverableError "BST invalid")
      else .ok () := by
  cases r.root? with
  | none => rfl
  | some c =>
      simp only [Option.any_some, decide_eq_true_eq, gt_iff_lt]
      split_ifs <;> rfl

lemma ensureValidityAux_node (a : α) (l r : BinaryTree α) :
    ensureValidityAux cmp (node a l r) =
      if (l.root?.any fun b => decide (cmp a b < 0)) = true then .error (.irrecoverableError "BST invalid")
      else ensureValidityAux cmp l >>= fun _ =>
        if (r.root?.any fun c => decide (0 < cmp a c)) = true then
          .error (.irrecoverableError "BST invalid")
        else .ok () := by
  rw [ensureValidityAux, checkRight]
  cases l with
  | nil => rfl
  | node b l' r' =>
      simp only [root?, Option.any_some, decide_eq_true_eq]
      split_ifs <;> rfl

lemma childMisplaced_node : ChildMisplaced cmp (node a l r) ↔
    (l.root?.any fun b => decide (cmp a b < 0)) = true ∨
      (r.root?.any fun c => decide (0 < cmp a c)) = true := by
  simp [ChildMisplaced, Option.any_eq_true]

lemma ensureValidityAux_spec (cmp : α → α → ℤ) (t : BinaryTree α) :
    MisplacedOnLeftSpine cmp t ∧ ensureValidityAux cmp t = .error (.irrecoverableError "BST invalid") ∨
      ¬ MisplacedOnLeftSpine cmp t ∧ ensureValidityAux cmp t = .ok () := by
  induction t with
  | nil => exact Or.inr ⟨not_misplaced_nil, rfl⟩
  | node a l r ihl ihr =>
      rw [ensureValidityAux_node, misplaced_node, childMisplaced_node]
      by_cases hleft : (l.root?.any fun b => decide (cmp a b < 0)) = true
      · rw [if_pos hleft]
        exact Or.inl ⟨Or.inl (Or.inl hleft), rfl⟩
      rw [if_neg hleft]
      rcases ihl with ⟨hspine, hl⟩ | ⟨hspine, hl⟩
      · rw [hl]
        exact Or.inl ⟨Or.inr hspine, rfl⟩
      · rw [hl]
        by_cases hright : (r.root?.any fun c => decide (0 < cmp a c)) = true
        · simp only [hright, if_true]
          exact Or.inl ⟨Or.inl (Or.inr trivial), rfl⟩
        · simp only [hright]
          refine Or.inr ⟨?_, rfl⟩
          simp [hleft, hspine]

/-- The check is right about the trees that are ordered and about those out of order on the left spine. -/
theorem ensureValidity_iff (cmp : α → α → ℤ) (root : BinaryTree α) :
    (ensureValidity cmp root = .error (.irrecoverableError "BST invalid") ↔ ¬ Ordered cmp root) ∧
        (ensureValidity cmp root = .ok () ↔ Ordered cmp root) ↔
      Ordered cmp root ∨ MisplacedOnLeftSpine cmp root := by
  rw [ensureValidity]
  rcases ensureValidityAux_spec cmp root with ⟨hspine, hrun⟩ | ⟨hspine, hrun⟩
  · have hwrong : ¬ Ordered cmp root := fun h => h.not_misplaced hspine
    simp [hrun, hspine, hwrong]
  · simp [hrun, hspine]

/-- `3` is behind `1`, and the `5` before it goes unnoticed. -/
theorem ensureValidity_right_subtree :
    ¬ (ensureValidity (fun a b : ℤ => a - b) (node 1 nil (node 3 (node 5 nil nil) nil)) =
        .error (.irrecoverableError "BST invalid") ↔
      ¬ Ordered (fun a b : ℤ => a - b) (node 1 nil (node 3 (node 5 nil nil) nil))) := by
  have hwrong : ¬ Ordered (fun a b : ℤ => a - b) (node 1 nil (node 3 (node 5 nil nil) nil)) := by
    simp [Ordered]
  have hrun :
      ensureValidity (fun a b : ℤ => a - b) (node 1 nil (node 3 (node 5 nil nil) nil)) = .ok () := rfl
  simp [hrun, hwrong]

end BrebOS.BST
