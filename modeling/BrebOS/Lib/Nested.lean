import Mathlib.Tactic

/-!
# Nested runs of a machine with a stack

A machine has a stack of entries.  Its steps change the entry on top at most, put an entry on the stack,
or take one off.  In a nested run each entry that is put on the stack is taken off again; such a run leaves
the entries below the top as they were, and of the top what no step changes.
-/

namespace BrebOS

variable {σ α β : Type}

/-- A run in which each `push` is followed by its `pop`. -/
inductive Nested (quiet push pop : σ → σ → Prop) : σ → σ → Prop
  | refl (s : σ) : Nested quiet push pop s s
  | quiet {s s₁ s₂ : σ} (h : Nested quiet push pop s s₁) (hstep : quiet s₁ s₂) : Nested quiet push pop s s₂
  | call {s s₁ s₂ s₃ s₄ : σ} (h : Nested quiet push pop s s₁) (hpush : push s₁ s₂)
      (hrun : Nested quiet push pop s₂ s₃) (hpop : pop s₃ s₄) : Nested quiet push pop s s₄

namespace Nested

variable {quiet push pop : σ → σ → Prop} {s s' : σ}

lemma stack_eq (stack : σ → List α) (key : α → β)
    (hquiet : ∀ s s' a rest, quiet s s' → stack s = a :: rest →
      ∃ a', stack s' = a' :: rest ∧ key a' = key a)
    (hpush : ∀ s s', push s s' → ∃ a, stack s' = a :: stack s)
    (hpop : ∀ s s' a rest, pop s s' → stack s = a :: rest → stack s' = rest)
    (h : Nested quiet push pop s s') : ∀ a rest, stack s = a :: rest →
      ∃ a', stack s' = a' :: rest ∧ key a' = key a := by
  induction h with
  | refl s =>
    intro a rest hs
    exact ⟨a, hs, rfl⟩
  | quiet _ hstep ih =>
    intro a rest hs
    obtain ⟨a₁, hs₁, hkey₁⟩ := ih a rest hs
    obtain ⟨a₂, hs₂, hkey₂⟩ := hquiet _ _ a₁ rest hstep hs₁
    exact ⟨a₂, hs₂, hkey₂.trans hkey₁⟩
  | call _ hstep _ hback ih ih' =>
    intro a rest hs
    obtain ⟨a₁, hs₁, hkey₁⟩ := ih a rest hs
    obtain ⟨b, hs₂⟩ := hpush _ _ hstep
    obtain ⟨b', hs₃, -⟩ := ih' b _ hs₂
    refine ⟨a₁, ?_, hkey₁⟩
    rw [hpop _ _ b' _ hback hs₃, hs₁]

end Nested

end BrebOS
