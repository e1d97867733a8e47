import Mathlib.Tactic

/-!
# Runs of calls that may fail

A machine with a checked `step` is run on a list of calls, one after the other, until one fails.
`EachCall` says something of every call in the state it is made in; an invariant that a call keeps
when `P` holds of it is kept by a run when `P` holds of each of its calls.
-/

namespace BrebOS

variable {σ α ε : Type}

/-- `P` holds of each call of a run in the state the call is made in. -/
def EachCall (step : σ → α → Except ε σ) (P : σ → α → Prop) : List α → σ → Prop
  | [], _ => True
  | a :: as, s => P s a ∧
      match step s a with
      | .ok s' => EachCall step P as s'
      | .error _ => True

instance EachCall.decidable (step : σ → α → Except ε σ) (P : σ → α → Prop)
    [∀ s a, Decidable (P s a)] : (as : List α) → (s : σ) → Decidable (EachCall step P as s)
  | [], _ => inferInstanceAs (Decidable True)
  | a :: as, s =>
      have : Decidable (match step s a with
          | .ok s' => EachCall step P as s'
          | .error _ => True) :=
        match step s a with
        | .ok s' => EachCall.decidable step P as s'
        | .error _ => inferInstanceAs (Decidable True)
      inferInstanceAs (Decidable (_ ∧ _))

lemma EachCall.concat {step : σ → α → Except ε σ} {P : σ → α → Prop} {a : α} :
    ∀ {as : List α} {s : σ}, EachCall step P (as ++ [a]) s ↔
      EachCall step P as s ∧ ∀ s', as.foldlM step s = .ok s' → P s' a
  | [], s => by
      constructor
      · rintro ⟨h, -⟩
        refine ⟨trivial, ?_⟩
        rintro s' ⟨⟩
        exact h
      · rintro ⟨-, h⟩
        refine ⟨h s rfl, ?_⟩
        split <;> trivial
  | b :: as, s => by
      rcases hstep : step s b with e | s₁
      · simp [EachCall, hstep, List.foldlM_cons, bind, Except.bind]
      · simp only [List.cons_append, EachCall, hstep, List.foldlM_cons, bind, Except.bind,
          EachCall.concat, and_assoc]

lemma EachCall.imp {step : σ → α → Except ε σ} {P P' : σ → α → Prop} (himp : ∀ s a, P s a → P' s a) :
    ∀ {as : List α} {s : σ}, EachCall step P as s → EachCall step P' as s
  | [], _, _ => trivial
  | a :: as, s, ⟨hp, hrest⟩ => by
      refine ⟨himp s a hp, ?_⟩
      rcases hstep : step s a with e | s'
      · trivial
      · rw [hstep] at hrest
        exact hrest.imp himp

lemma EachCall.and {step : σ → α → Except ε σ} {P P' : σ → α → Prop} :
    ∀ {as : List α} {s : σ}, EachCall step P as s → EachCall step P' as s →
      EachCall step (fun s a => P s a ∧ P' s a) as s
  | [], _, _, _ => trivial
  | a :: as, s, ⟨hp, hrest⟩, ⟨hp', hrest'⟩ => by
      refine ⟨⟨hp, hp'⟩, ?_⟩
      rcases hstep : step s a with e | s'
      · trivial
      · rw [hstep] at hrest hrest'
        exact hrest.and hrest'

/-- `Q` holds of the state a call leads to. -/
def After (step : σ → α → Except ε σ) (Q : σ → Prop) (s : σ) (a : α) : Prop :=
  match step s a with
  | .ok s' => Q s'
  | .error _ => True

instance After.decidable (step : σ → α → Except ε σ) (Q : σ → Prop) [DecidablePred Q] (s : σ) (a : α) :
    Decidable (After step Q s a) :=
  match h : step s a with
  | .ok s' => decidable_of_iff (Q s') (by rw [After, h])
  | .error _ => isTrue (by rw [After, h]; trivial)

lemma After.imp {step : σ → α → Except ε σ} {Q Q' : σ → Prop} {s : σ} {a : α} (h : After step Q s a)
    (himp : ∀ s, Q s → Q' s) : After step Q' s a := by
  rw [After] at h ⊢
  rcases hstep : step s a with e | s'
  · trivial
  · rw [hstep] at h
    exact himp s' h

lemma EachCall.reached {step : σ → α → Except ε σ} {Q : σ → Prop} : ∀ {as : List α} {s : σ}, Q s →
    EachCall step (After step Q) as s → ∀ s', as.foldlM step s = .ok s' → Q s'
  | [], s, hs, _, s', hrun => by
      cases hrun
      exact hs
  | a :: as, s, hs, ⟨hafter, hrest⟩, s', hrun => by
      rcases hstep : step s a with e | s₁
      · simp [List.foldlM_cons, hstep, bind, Except.bind] at hrun
      · rw [After, hstep] at hafter
        rw [hstep] at hrest
        simp only [List.foldlM_cons, hstep, bind, Except.bind] at hrun
        exact hrest.reached hafter s' hrun

lemma exists_reached {step : σ → α → Except ε σ} {P : σ → Bool} {as : List α} {s : σ}
    (h : (as.foldlM step s).toOption.any P) : ∃ s', as.foldlM step s = .ok s' ∧ P s' := by
  obtain ⟨s', hs', hP⟩ := (Option.any_eq_true ..).mp h
  refine ⟨s', ?_, hP⟩
  rcases hrun : as.foldlM step s with e | s₁
  · simp [hrun, Except.toOption] at hs'
  · simpa [hrun, Except.toOption] using hs'

lemma EachCall.invariant {step : σ → α → Except ε σ} {P : σ → α → Prop} {Q : σ → Prop}
    (hkeeps : ∀ s a s', Q s → P s a → step s a = .ok s' → Q s') :
    ∀ {as : List α} {s : σ}, Q s → EachCall step P as s → EachCall step (After step Q) as s
  | [], _, _, _ => trivial
  | a :: as, s, hs, ⟨hp, hrest⟩ => by
      rcases hstep : step s a with e | s'
      · simp [EachCall, After, hstep]
      · have hs' := hkeeps s a s' hs hp hstep
        rw [hstep] at hrest
        simp only [EachCall, After, hstep]
        exact ⟨hs', EachCall.invariant hkeeps hs' hrest⟩

lemma EachCall.imp_of_invariant {step : σ → α → Except ε σ} {P P' : σ → α → Prop} {Q : σ → Prop}
    (himp : ∀ s a, Q s → P s a → P' s a)
    (hkeeps : ∀ s a s', Q s → P s a → step s a = .ok s' → Q s') :
    ∀ {as : List α} {s : σ}, Q s → EachCall step P as s → EachCall step P' as s
  | [], _, _, _ => trivial
  | a :: as, s, hs, ⟨hp, hrest⟩ => by
      refine ⟨himp s a hs hp, ?_⟩
      rcases hstep : step s a with e | s'
      · trivial
      · rw [hstep] at hrest
        exact EachCall.imp_of_invariant himp hkeeps (hkeeps s a s' hs hp hstep) hrest

lemma EachCall.of_forall {step : σ → α → Except ε σ} {P : σ → α → Prop} (h : ∀ s a, P s a) :
    ∀ (as : List α) (s : σ), EachCall step P as s
  | [], _ => trivial
  | a :: as, s => by
      refine ⟨h s a, ?_⟩
      split
      · exact EachCall.of_forall h as _
      · trivial

lemma EachCall.congr {step : σ → α → Except ε σ} {A P P' : σ → α → Prop} {Q : σ → Prop}
    (hiff : ∀ s a, Q s → A s a → (P s a ↔ P' s a))
    (hkeeps : ∀ s a s', Q s → A s a → P' s a → step s a = .ok s' → Q s') :
    ∀ {as : List α} {s : σ}, Q s → EachCall step A as s →
      (EachCall step P as s ↔ EachCall step P' as s)
  | [], _, _, _ => Iff.rfl
  | a :: as, s, hs, ⟨ha, hrest⟩ => by
      have hfirst := hiff s a hs ha
      by_cases hp' : P' s a
      · rcases hstep : step s a with e | s'
        · simp [EachCall, hstep, hfirst]
        · rw [hstep] at hrest
          simp only [EachCall, hstep, hfirst, hp', true_and]
          exact EachCall.congr hiff hkeeps (hkeeps s a s' hs ha hp' hstep) hrest
      · simp [EachCall, hfirst, hp']

/-- What holds of the state a computation leads to can be tried. -/
instance decidableForallOk (r : Except ε σ) (P : σ → Prop) [DecidablePred P] :
    Decidable (∀ s, r = .ok s → P s) :=
  match r with
  | .ok s => decidable_of_iff (P s) (by simp)
  | .error _ => isTrue nofun

end BrebOS
