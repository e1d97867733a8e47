import Mathlib.Tactic

/-!
# Attempts

A computation on a state that may give up: it then leaves the state as far as it got, and so does what
was to come after it.  It may also not return at all.
-/

namespace BrebOS

/-- A computation that returns a value, gives up (`none`), or does not return. -/
structure Attempt (ε σ α : Type) where
  toFun : σ → Except ε (Option α × σ)

namespace Attempt

variable {ε σ α β : Type}

/-- Run a computation from a state. -/
def run (x : Attempt ε σ α) (s : σ) : Except ε (Option α × σ) := x.toFun s

/-- Return a value. -/
protected def pure (a : α) : Attempt ε σ α := ⟨fun s => .ok (some a, s)⟩

/-- One computation after another. -/
protected def bind (x : Attempt ε σ α) (f : α → Attempt ε σ β) : Attempt ε σ β := ⟨fun s =>
  match x.run s with
  | .error e => .error e
  | .ok (none, s) => .ok (none, s)
  | .ok (some a, s) => (f a).run s⟩

instance : Monad (Attempt ε σ) where
  pure := Attempt.pure
  bind := Attempt.bind

/-- Give up. -/
def giveUp : Attempt ε σ α := ⟨fun s => .ok (none, s)⟩

/-- Do not return. -/
def stop (e : ε) : Attempt ε σ α := ⟨fun _ => .error e⟩

/-- The state. -/
def state : Attempt ε σ σ := ⟨fun s => .ok (some s, s)⟩

def update (f : σ → σ) : Attempt ε σ Unit := ⟨fun s => .ok (some (), f s)⟩

/-- A computation that does not return, or returns with another state. -/
def check (f : σ → Except ε σ) : Attempt ε σ Unit := ⟨fun s => (f s).map fun s => (some (), s)⟩

/-- A computation that must not give up. -/
def orStop (e : ε) (x : Attempt ε σ α) : Attempt ε σ α := ⟨fun s =>
  match x.run s with
  | .ok (none, _) => .error e
  | r => r⟩

/-- A computation and whether it gives up; what follows goes on from where it got. -/
def attempt (x : Attempt ε σ α) : Attempt ε σ (Option α) := ⟨fun s => (x.run s).map fun r => (some r.1, r.2)⟩

variable {x y : Attempt ε σ α} {f : α → Attempt ε σ β} {a : α} {s s' : σ} {e : ε}

@[simp] lemma pure_run : (pure a : Attempt ε σ α).run s = .ok (some a, s) := rfl

@[simp] lemma giveUp_run : (giveUp : Attempt ε σ α).run s = .ok (none, s) := rfl

@[simp] lemma stop_run : (stop e : Attempt ε σ α).run s = .error e := rfl

@[simp] lemma update_run {g : σ → σ} : (update g : Attempt ε σ Unit).run s = .ok (some (), g s) := rfl

@[simp] lemma state_bind {f : σ → Attempt ε σ β} : (state >>= f).run s = (f s).run s := rfl

@[simp] lemma update_bind {g : σ → σ} {f : Unit → Attempt ε σ β} :
    (update g >>= f).run s = (f ()).run (g s) := rfl

@[simp] lemma pure_bind_run : ((pure a : Attempt ε σ α) >>= f).run s = (f a).run s := rfl

@[simp] lemma giveUp_bind : ((giveUp : Attempt ε σ α) >>= f).run s = .ok (none, s) := rfl

lemma run_bind : (x >>= f).run s =
    match x.run s with
    | .error e => .error e
    | .ok (none, s) => .ok (none, s)
    | .ok (some a, s) => (f a).run s := rfl

@[simp] lemma bind_bind {γ : Type} {g : β → Attempt ε σ γ} :
    ((x >>= f) >>= g).run s = (x >>= fun a => f a >>= g).run s := by
  rcases h : x.run s with e | ⟨_ | a, s'⟩ <;> simp only [run_bind, h]

lemma bind_run (h : x.run s = .ok (some a, s')) : (x >>= f).run s = (f a).run s' := by
  rw [run_bind, h]

lemma bind_giveUp (h : x.run s = .ok (none, s')) : (x >>= f).run s = .ok (none, s') := by
  rw [run_bind, h]

lemma bind_stop (h : x.run s = .error e) : (x >>= f).run s = .error e := by
  rw [run_bind, h]

lemma check_run {g : σ → Except ε σ} (h : g s = .ok s') : (check g).run s = .ok (some (), s') := by
  show (g s).map _ = _
  rw [h]
  rfl

@[simp] lemma ite_run {c : Prop} [Decidable c] :
    (if c then x else y).run s = if c then x.run s else y.run s := by
  split <;> rfl

lemma attempt_run {r : Option α} (h : x.run s = .ok (r, s')) : (attempt x).run s = .ok (some r, s') := by
  show (x.run s).map _ = _
  rw [h]
  rfl

lemma attempt_stop (h : x.run s = .error e) : (attempt x).run s = .error e := by
  show (x.run s).map _ = _
  rw [h]
  rfl

lemma bind_eq_some {b : β} (h : (x >>= f).run s = .ok (some b, s')) :
    ∃ a t, x.run s = .ok (some a, t) ∧ (f a).run t = .ok (some b, s') := by
  rw [run_bind] at h
  rcases hx : x.run s with e | ⟨_ | a, t⟩
  · simp [hx] at h
  · simp [hx] at h
  · rw [hx] at h
    exact ⟨a, t, rfl, h⟩

lemma orStop_run (h : x.run s = .ok (some a, s')) : (orStop e x).run s = .ok (some a, s') := by
  have hrun : (orStop e x).run s = match x.run s with
    | .ok (none, _) => .error e
    | r => r := rfl
  rw [hrun, h]

lemma orStop_bind {r : Option β} (h : (orStop e x >>= f).run s = .ok (r, s')) :
    ∃ a t, x.run s = .ok (some a, t) ∧ (f a).run t = .ok (r, s') := by
  have hrun : (orStop e x).run s = match x.run s with
    | .ok (none, _) => .error e
    | r => r := rfl
  rw [run_bind, hrun] at h
  rcases hx : x.run s with e' | ⟨_ | a, t⟩
  · simp [hx] at h
  · simp [hx] at h
  · rw [hx] at h
    exact ⟨a, t, rfl, h⟩

/-! ## Computations that return -/

/-- From a state, a computation returns: with a value, or because it gives up. -/
def Returns (x : Attempt ε σ α) (s : σ) : Prop := ∃ r, x.run s = .ok r

lemma returns_pure : Returns (pure a : Attempt ε σ α) s := ⟨_, rfl⟩

lemma returns_giveUp : Returns (giveUp : Attempt ε σ α) s := ⟨_, rfl⟩

lemma Returns.bind (hx : Returns x s) (hf : ∀ a t, x.run s = .ok (some a, t) → Returns (f a) t) :
    Returns (x >>= f) s := by
  obtain ⟨⟨_ | a, t⟩, hrun⟩ := hx
  · exact ⟨_, bind_giveUp hrun⟩
  · obtain ⟨r, hr⟩ := hf a t hrun
    exact ⟨r, (bind_run hrun).trans hr⟩

lemma Returns.attempt_bind {f : Option α → Attempt ε σ β} (hx : Returns x s)
    (hf : ∀ r t, x.run s = .ok (r, t) → Returns (f r) t) : Returns (attempt x >>= f) s := by
  obtain ⟨⟨r, t⟩, hrun⟩ := hx
  obtain ⟨r', hr⟩ := hf r t hrun
  exact ⟨r', (bind_run (attempt_run hrun)).trans hr⟩

/-! ## What a computation leaves -/

/-- From states with `pre`, a computation that returns a value leaves one with `post`, and a computation
that gives up leaves one with `fail`. -/
structure Ends (pre : σ → Prop) (x : Attempt ε σ α) (post : α → σ → Prop) (fail : σ → Prop) : Prop where
  returns : ∀ s a s', pre s → x.run s = .ok (some a, s') → post a s'
  givesUp : ∀ s s', pre s → x.run s = .ok (none, s') → fail s'

section Ends

variable {pre pre' fail : σ → Prop} {mid post post' : α → σ → Prop} {post₂ : β → σ → Prop}

lemma Ends.bind (hx : Ends pre x mid fail) (hf : ∀ a, Ends (mid a) (f a) post₂ fail) :
    Ends pre (x >>= f) post₂ fail where
  returns s b s' hs h := by
    obtain ⟨a, t, hrun, h⟩ := bind_eq_some h
    exact (hf a).returns t b s' (hx.returns s a t hs hrun) h
  givesUp s s' hs h := by
    rw [run_bind] at h
    rcases hrun : x.run s with e | ⟨_ | a, t⟩
    · simp [hrun] at h
    · rw [hrun] at h
      cases h
      exact hx.givesUp s _ hs hrun
    · rw [hrun] at h
      exact (hf a).givesUp t s' (hx.returns s a t hs hrun) h

lemma Ends.imp (hx : Ends pre x post fail) (hpre : ∀ s, pre' s → pre s) (hpost : ∀ a s, post a s → post' a s) :
    Ends pre' x post' fail where
  returns s a s' hs h := hpost a s' (hx.returns s a s' (hpre s hs) h)
  givesUp s s' hs h := hx.givesUp s s' (hpre s hs) h

lemma ends_pure (h : ∀ s, pre s → post a s) : Ends pre (pure a : Attempt ε σ α) post fail where
  returns s b s' hs hrun := by
    cases hrun
    exact h s hs
  givesUp s s' _ hrun := by cases hrun

lemma ends_giveUp (h : ∀ s, pre s → fail s) : Ends pre (giveUp : Attempt ε σ α) post fail where
  returns s b s' _ hrun := by cases hrun
  givesUp s s' hs hrun := by
    cases hrun
    exact h s hs

lemma ends_stop : Ends pre (stop e : Attempt ε σ α) post fail where
  returns s b s' _ hrun := by cases hrun
  givesUp s s' _ hrun := by cases hrun

lemma ends_state {f : σ → Attempt ε σ β} (h : ∀ t, pre t → Ends (fun s => s = t ∧ pre s) (f t) post₂ fail) :
    Ends pre (state >>= f) post₂ fail where
  returns s b s' hs hrun := (h s hs).returns s b s' ⟨rfl, hs⟩ hrun
  givesUp s s' hs hrun := (h s hs).givesUp s s' ⟨rfl, hs⟩ hrun

lemma ends_ite {p : Prop} [Decidable p] (hx : p → Ends pre x post fail) (hy : ¬p → Ends pre y post fail) :
    Ends pre (if p then x else y) post fail := by
  split
  · exact hx ‹_›
  · exact hy ‹_›

/-- Whatever comes of a computation, it keeps a property of the states. -/
def Preserves (p : σ → Prop) (x : Attempt ε σ α) : Prop := Ends p x (fun _ => p) p

lemma Preserves.bind {p : σ → Prop} (hx : Preserves p x) (hf : ∀ a, Preserves p (f a)) : Preserves p (x >>= f) :=
  Ends.bind hx hf

lemma Preserves.run {p : σ → Prop} {r : Option α} (hx : Preserves p x) (hs : p s)
    (h : x.run s = .ok (r, s')) : p s' := by
  cases r with
  | none => exact hx.givesUp s s' hs h
  | some a => exact hx.returns s a s' hs h

lemma Preserves.attempt {p : σ → Prop} (hx : Preserves p x) : Preserves p (attempt x) where
  returns s r s' hs h := by
    rcases hrun : x.run s with e | ⟨r', t⟩
    · rw [attempt_stop hrun] at h
      cases h
    · rw [attempt_run hrun] at h
      cases h
      exact hx.run hs hrun
  givesUp s s' _ h := by
    rcases hrun : x.run s with e | ⟨r', t⟩
    · rw [attempt_stop hrun] at h
      cases h
    · rw [attempt_run hrun] at h
      cases h

lemma preserves_ite {p : σ → Prop} {c : Prop} [Decidable c] (hx : Preserves p x) (hy : Preserves p y) :
    Preserves p (if c then x else y) := ends_ite (fun _ => hx) fun _ => hy

lemma preserves_stop {p : σ → Prop} : Preserves p (stop e : Attempt ε σ α) := ends_stop

lemma preserves_pure {p : σ → Prop} : Preserves p (pure a : Attempt ε σ α) := ends_pure fun _ hs => hs

lemma preserves_giveUp {p : σ → Prop} : Preserves p (giveUp : Attempt ε σ α) := ends_giveUp fun _ hs => hs

lemma preserves_state {p : σ → Prop} {f : σ → Attempt ε σ β} (hf : ∀ t, Preserves p (f t)) :
    Preserves p (state >>= f) := ends_state fun t _ => (hf t).imp (fun _ hs => hs.2) fun _ _ hs => hs

lemma preserves_update {p : σ → Prop} {g : σ → σ} (hg : ∀ s, p s → p (g s)) :
    Preserves p (update g : Attempt ε σ Unit) where
  returns s a s' hs hrun := by
    cases hrun
    exact hg s hs
  givesUp s s' _ hrun := by cases hrun

end Ends

end Attempt

end BrebOS
