import Mathlib.Tactic

/-!
# Loops and checked computations

Rules for the two shapes of loop the kernel uses: `while (step(x)) {}` and "find the first index
from `i` on", and the inversion of a sequenced computation that may fail.
-/

namespace BrebOS

variable {α β ε : Type}

/-! ## Sequencing -/

lemma bind_eq_ok {x : Except ε α} {f : α → Except ε β} {b : β} :
    (x >>= f) = .ok b ↔ ∃ a, x = .ok a ∧ f a = .ok b := by
  cases x with
  | error e => simp [bind, Except.bind]
  | ok a => simp [bind, Except.bind]

lemma exists_bind_eq_ok {x : Except ε α} {f : α → Except ε β} {a : α} (hx : x = .ok a)
    (h : ∃ b, f a = .ok b) : ∃ b, (x >>= f) = .ok b := by
  obtain ⟨b, hb⟩ := h
  exact ⟨b, bind_eq_ok.mpr ⟨a, hx, hb⟩⟩

lemma map_eq_ok {x : Except ε α} {g : α → β} {b : β} :
    x.map g = .ok b ↔ ∃ a, x = .ok a ∧ g a = b := by
  cases x <;> simp [Except.map]

lemma foldlM_invariant (P : β → Prop) {f : β → α → Except ε β} :
    ∀ {l : List α} {b b' : β}, l.foldlM f b = .ok b' → P b →
      (∀ a ∈ l, ∀ c c', P c → f c a = .ok c' → P c') → P b'
  | [], b, b', h, hb, _ => by
      simp only [List.foldlM_nil, pure, Except.pure, Except.ok.injEq] at h
      exact h ▸ hb
  | a :: l, b, b', h, hb, hstep => by
      rw [List.foldlM_cons, bind_eq_ok] at h
      obtain ⟨c, hc, h⟩ := h
      refine foldlM_invariant P h (hstep a (by simp) b c hb hc) fun a' ha' => ?_
      exact hstep a' (by simp [ha'])

lemma foldlM_succeeds (P : β → Prop) {f : β → α → Except ε β} :
    ∀ {l : List α} {b : β}, P b → (∀ a ∈ l, ∀ c, P c → ∃ c', f c a = .ok c' ∧ P c') →
      ∃ b', l.foldlM f b = .ok b' ∧ P b'
  | [], b, hb, _ => ⟨b, rfl, hb⟩
  | a :: l, b, hb, hstep => by
      obtain ⟨c, hc, hPc⟩ := hstep a (by simp) b hb
      have hrest : ∀ a' ∈ l, ∀ c, P c → ∃ c', f c a' = .ok c' ∧ P c' :=
        fun a' ha' => hstep a' (List.mem_cons_of_mem a ha')
      obtain ⟨b', hb', hPb'⟩ := foldlM_succeeds P hPc hrest
      refine ⟨b', ?_, hPb'⟩
      rw [List.foldlM_cons, hc]
      exact hb'

lemma foldlM_range'_invariant (P : ℕ → β → Prop) {f : β → ℕ → Except ε β} :
    ∀ {n b : ℕ} {x y : β}, (List.range' b n).foldlM f x = .ok y → P b x →
      (∀ i c c', b ≤ i → i < b + n → P i c → f c i = .ok c' → P (i + 1) c') → P (b + n) y
  | 0, b, x, y, h, hx, _ => by
      simp only [List.range'_zero, List.foldlM_nil, pure, Except.pure, Except.ok.injEq] at h
      exact h ▸ hx
  | n + 1, b, x, y, h, hx, hstep => by
      rw [List.range'_succ, List.foldlM_cons, bind_eq_ok] at h
      obtain ⟨c, hc, h⟩ := h
      have := foldlM_range'_invariant P h (hstep b x c le_rfl (by omega) hx hc)
        fun i c c' h₁ h₂ => hstep i c c' (by omega) (by omega)
      rwa [Nat.add_assoc, Nat.add_comm 1] at this

/-! ## `while (step(x)) {}` -/

/-- Run `step` until it answers `false`, at most `n` times. -/
def whileTrue (step : β → Bool × β) : ℕ → β → β
  | 0, x => x
  | n + 1, x => match step x with
      | (true, y) => whileTrue step n y
      | (false, y) => y

lemma whileTrue_invariant (P : β → Prop) {step : β → Bool × β}
    (hstep : ∀ x, P x → P (step x).2) : ∀ (n : ℕ) (x : β), P x → P (whileTrue step n x)
  | 0, x, hx => hx
  | n + 1, x, hx => by
      have := hstep x hx
      rw [whileTrue]
      split
      · next y heq => exact whileTrue_invariant P hstep n y (by simpa [heq] using this)
      · next y heq => simpa [heq] using this

lemma whileTrue_stops (m : β → ℕ) {step : β → Bool × β}
    (hlt : ∀ x, (step x).1 = true → m (step x).2 < m x)
    (hfix : ∀ x, (step x).1 = false → (step x).2 = x) :
    ∀ (n : ℕ) (x : β), m x < n → (step (whileTrue step n x)).1 = false
  | 0, x, h => by omega
  | n + 1, x, h => by
      have hl := hlt x
      have hf := hfix x
      rw [whileTrue]
      split
      · next y heq =>
          rw [heq] at hl
          exact whileTrue_stops m hlt hfix n y (by have := hl rfl; simp only at this; omega)
      · next y heq =>
          rw [heq] at hf
          have hy : y = x := hf rfl
          rw [hy, heq]

/-! ## First index -/

/-- Starting at `i`, skip at most `fuel` indices while `p` holds. -/
def skipWhile (p : ℕ → Bool) : ℕ → ℕ → ℕ
  | 0, i => i
  | fuel + 1, i => if p i then skipWhile p fuel (i + 1) else i

lemma skipWhile_spec (p : ℕ → Bool) : ∀ (fuel i : ℕ),
    i ≤ skipWhile p fuel i ∧ skipWhile p fuel i ≤ i + fuel ∧
      (∀ j, i ≤ j → j < skipWhile p fuel i → p j = true) ∧
      (skipWhile p fuel i < i + fuel → p (skipWhile p fuel i) = false)
  | 0, i => by
      refine ⟨le_rfl, le_rfl, fun j h₁ h₂ => ?_, fun h => ?_⟩
      · simp only [skipWhile] at h₂; omega
      · simp only [skipWhile] at h; omega
  | fuel + 1, i => by
      by_cases hp : p i = true
      · obtain ⟨h₁, h₂, h₃, h₄⟩ := skipWhile_spec p fuel (i + 1)
        simp only [skipWhile, hp, if_true]
        refine ⟨by omega, by omega, fun j hj hlt => ?_, fun h => h₄ (by omega)⟩
        rcases Nat.eq_or_lt_of_le hj with rfl | hj
        · exact hp
        · exact h₃ j (by omega) hlt
      · simp only [Bool.not_eq_true] at hp
        simp only [skipWhile, hp]
        exact ⟨by simp, by simp, fun j h₁ h₂ => by simp at h₂; omega, fun _ => by simpa using hp⟩

end BrebOS

/-!
## What computations keep

A checked computation on states keeps a precondition `P` and a relation `R` when, from a state with `P`, it
succeeds only with a state that has `P` again and is related to the first one.  With a transitive `R` these
computations compose.
-/

namespace BrebOS

variable {σ α ε : Type}

/-- Where `f` succeeds from a state with `P`, the states before and after are related, and `P` holds again. -/
def Keeps (P : σ → Prop) (R : σ → σ → Prop) (f : σ → Except ε σ) : Prop :=
  ∀ s s', P s → f s = .ok s' → R s s' ∧ P s'

/-- The same of a computation that also returns a value. -/
def KeepsWith (P : σ → Prop) (R : σ → σ → Prop) (f : σ → Except ε (α × σ)) : Prop :=
  ∀ s a s', P s → f s = .ok (a, s') → R s s' ∧ P s'

variable {P : σ → Prop} {R : σ → σ → Prop} {f g : σ → Except ε σ}

lemma keeps_error {e : ε} : Keeps P R fun _ => .error e := by
  intro s s' _ h
  cases h

lemma keeps_ok {h : σ → σ} (hkeep : ∀ s, P s → R s (h s) ∧ P (h s)) :
    Keeps P R fun s => (.ok (h s) : Except ε σ) := by
  intro s s' hp heq
  cases heq
  exact hkeep s hp

lemma keeps_at {f : α → σ → Except ε σ} (hf : ∀ a, Keeps P R (f a)) (arg : σ → α) :
    Keeps P R fun s => f (arg s) s :=
  fun s s' => hf (arg s) s s'

lemma Keeps.after (htrans : ∀ s s' s'', R s s' → R s' s'' → R s s'') {h : σ → σ}
    (hkeep : ∀ s, P s → R s (h s) ∧ P (h s)) (hf : Keeps P R f) : Keeps P R fun s => f (h s) := by
  intro s s' hp heq
  obtain ⟨hr, hp₁⟩ := hkeep s hp
  obtain ⟨hr', hp'⟩ := hf _ _ hp₁ heq
  exact ⟨htrans _ _ _ hr hr', hp'⟩

lemma Keeps.bind (htrans : ∀ s s' s'', R s s' → R s' s'' → R s s'') (hf : Keeps P R f) (hg : Keeps P R g) :
    Keeps P R fun s => f s >>= g := by
  intro s s'' hp heq
  obtain ⟨s', hs', hs''⟩ := bind_eq_ok.mp heq
  obtain ⟨hr, hp'⟩ := hf s s' hp hs'
  obtain ⟨hr', hp''⟩ := hg s' s'' hp' hs''
  exact ⟨htrans _ _ _ hr hr', hp''⟩

lemma KeepsWith.bind (htrans : ∀ s s' s'', R s s' → R s' s'' → R s s'') {f : σ → Except ε (α × σ)}
    {g : α × σ → Except ε σ} (hf : KeepsWith P R f) (hg : ∀ a, Keeps P R fun s => g (a, s)) :
    Keeps P R fun s => f s >>= g := by
  intro s s'' hp heq
  obtain ⟨⟨a, s'⟩, hs', hs''⟩ := bind_eq_ok.mp heq
  obtain ⟨hr, hp'⟩ := hf s a s' hp hs'
  obtain ⟨hr', hp''⟩ := hg a s' s'' hp' hs''
  exact ⟨htrans _ _ _ hr hr', hp''⟩

lemma Keeps.ite {c : σ → Prop} [DecidablePred c] (hf : Keeps P R f) (hg : Keeps P R g) :
    Keeps P R fun s => if c s then f s else g s := by
  intro s s' hp heq
  dsimp only at heq
  split_ifs at heq
  · exact hf s s' hp heq
  · exact hg s s' hp heq

end BrebOS

/-!
## Loops with an input for each turn

A loop goes on while `go` holds, and a turn of it may fail.  What a turn does depends on an input, and the
inputs are a list: a loop with `n` inputs makes `n` turns at most.  It ends when it has stopped for each
list that is long enough.
-/

namespace BrebOS

variable {σ α ε : Type}

/-- The loop. -/
def whileM (go : σ → Prop) [DecidablePred go] (step : σ → α → Except ε σ) : List α → σ → Except ε σ
  | [], s => .ok s
  | a :: as, s => if go s then step s a >>= whileM go step as else .ok s

/-- `Q` holds of a turn of the loop, in the state the turn is made in. -/
def DuringM (go : σ → Prop) (step : σ → α → Except ε σ) (Q : σ → α → Prop) : List α → σ → Prop
  | [], _ => False
  | a :: as, s => go s ∧ (Q s a ∨ ∃ s', step s a = .ok s' ∧ DuringM go step Q as s')

variable {go : σ → Prop} {step : σ → α → Except ε σ} {Q : σ → α → Prop} {I A : σ → Prop} {as : List α}
  {a : α} {s s' : σ}

lemma not_duringM_stop (h : ¬ go s) : ¬ DuringM go step Q as s := by
  cases as with
  | nil => exact id
  | cons a as => exact fun hduring => h hduring.1

variable [DecidablePred go]

lemma whileM_stop (h : ¬ go s) : whileM go step as s = .ok s := by
  cases as with
  | nil => rfl
  | cons a as => rw [whileM, if_neg h]

lemma whileM_turn (h : go s) (hs' : step s a = .ok s') :
    whileM go step (a :: as) s = whileM go step as s' := by
  rw [whileM, if_pos h, hs']
  rfl

lemma whileM_ends (m : σ → ℕ) (hturn : ∀ s a, I s → go s →
    ∃ s', step s a = .ok s' ∧ I s' ∧ (go s' → m s' < m s)) :
    I s → m s < as.length → ∃ s', whileM go step as s = .ok s' ∧ I s' ∧ ¬ go s' := by
  induction as generalizing s with
  | nil => exact fun _ hlt => absurd hlt (Nat.not_lt_zero _)
  | cons a as ih =>
    intro hs hlt
    by_cases hgo : go s
    · obtain ⟨s₁, hs₁, hinv, hless⟩ := hturn s a hs hgo
      rw [whileM_turn hgo hs₁]
      by_cases hgo₁ : go s₁
      · rw [List.length_cons] at hlt
        exact ih hinv (lt_of_lt_of_le (hless hgo₁) (Nat.lt_succ_iff.mp hlt))
      · exact ⟨s₁, whileM_stop hgo₁, hinv, hgo₁⟩
    · exact ⟨s, whileM_stop hgo, hs, hgo⟩

lemma whileM_tracks (hturn : ∀ s a s', I s → go s → step s a = .ok s' → I s' ∧ (A s' ↔ A s ∨ Q s a)) :
    I s → whileM go step as s = .ok s' → (A s' ↔ A s ∨ DuringM go step Q as s) := by
  induction as generalizing s with
  | nil =>
    intro _ hrun
    cases hrun
    exact ⟨Or.inl, fun h => h.elim id False.elim⟩
  | cons a as ih =>
    intro hs hrun
    by_cases hgo : go s
    · rw [whileM, if_pos hgo] at hrun
      obtain ⟨s₁, hs₁, hrun⟩ := bind_eq_ok.mp hrun
      obtain ⟨hinv, hkept⟩ := hturn s a s₁ hs hgo hs₁
      have hduring : DuringM go step Q (a :: as) s ↔ Q s a ∨ DuringM go step Q as s₁ := by
        simp [DuringM, hgo, hs₁]
      rw [ih hinv hrun, hkept, hduring, or_assoc]
    · rw [whileM_stop hgo] at hrun
      cases hrun
      exact ⟨Or.inl, fun h => h.elim id fun hduring => absurd hduring (not_duringM_stop hgo)⟩

end BrebOS
