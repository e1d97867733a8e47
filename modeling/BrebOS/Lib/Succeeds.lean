import Mathlib.Tactic

/-!
# Preconditions of checked computations

`Succeeds x Q` is the weakest precondition of a computation that may fail: it comes to its end, and what
it returns meets `Q`.  The rules below rewrite it along the shape of the computation, so that
`simp` with them turns a function into the exact condition under which it does its work.
-/

namespace BrebOS

variable {α β ε : Type}

/-- `x` does not fail, and what it returns meets `Q`. -/
def Succeeds (x : Except ε α) (Q : α → Prop) : Prop := ∃ a, x = .ok a ∧ Q a

@[simp] lemma succeeds_ok {a : α} {Q : α → Prop} : Succeeds (.ok a : Except ε α) Q ↔ Q a := by
  simp [Succeeds]

@[simp] lemma succeeds_pure {a : α} {Q : α → Prop} : Succeeds (pure a : Except ε α) Q ↔ Q a :=
  succeeds_ok

@[simp] lemma not_succeeds_error {e : ε} {Q : α → Prop} : ¬ Succeeds (.error e) Q := by
  simp [Succeeds]

@[simp] lemma succeeds_bind {x : Except ε α} {f : α → Except ε β} {Q : β → Prop} :
    Succeeds (x >>= f) Q ↔ Succeeds x fun a => Succeeds (f a) Q := by
  cases x with
  | error e => simp [bind, Except.bind]
  | ok a => simp [bind, Except.bind]

@[simp] lemma succeeds_ite {c : Prop} [Decidable c] {x y : Except ε α} {Q : α → Prop} :
    Succeeds (if c then x else y) Q ↔ if c then Succeeds x Q else Succeeds y Q := by
  split <;> rfl

lemma succeeds_and_left {x : Except ε α} {P : Prop} {Q : α → Prop} :
    Succeeds x (fun a => P ∧ Q a) ↔ P ∧ Succeeds x Q := by
  simp only [Succeeds, and_left_comm, exists_and_left]

lemma Succeeds.mono {x : Except ε α} {Q Q' : α → Prop} (h : Succeeds x Q) (himp : ∀ a, Q a → Q' a) :
    Succeeds x Q' := by
  obtain ⟨a, ha, hq⟩ := h
  exact ⟨a, ha, himp a hq⟩

lemma Succeeds.and {x : Except ε α} {Q Q' : α → Prop} (h : Succeeds x Q) (h' : Succeeds x Q') :
    Succeeds x fun a => Q a ∧ Q' a := by
  obtain ⟨a, ha, hq⟩ := h
  obtain ⟨a', ha', hq'⟩ := h'
  rw [ha] at ha'
  cases ha'
  exact ⟨a, ha, hq, hq'⟩

end BrebOS
