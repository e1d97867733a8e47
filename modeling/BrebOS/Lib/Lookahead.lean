import BrebOS.Lib.Loop

/-!
# Streams with look-ahead

A stream hands out items one at a time.  In front of it are two places for items that have been fetched and
not been taken yet; a reader may look at the next item, or at the one after it, before it takes any.  Whatever
it looks at, and when, the items are those of the stream (`run_ofItems`), and it needs no more of them than it
looks at (`run_iff`).
-/

namespace BrebOS

namespace Lookahead

variable {σ τ ε : Type}

/-- A stream, and what has been fetched of it. -/
structure Buffered (σ τ : Type) where
  stream : σ
  next : Option τ := none
  surNext : Option τ := none

/-- What a reader can do: look at the next item, look at the one after it, take the next one. -/
inductive Call
  | peek
  | peek2
  | pop
  deriving DecidableEq, Repr

section

variable (fetch : σ → Except ε (τ × σ))

/-- The next item. -/
def peek (b : Buffered σ τ) : Except ε (τ × Buffered σ τ) :=
  match b.next with
  | some t => .ok (t, b)
  | none => do
      let (t, s) ← fetch b.stream
      return (t, { b with stream := s, next := some t })

/-- The item after the next one. -/
def peek2 (b : Buffered σ τ) : Except ε (τ × Buffered σ τ) :=
  match b.surNext with
  | some t => .ok (t, b)
  | none => do
      let (_, b) ← peek fetch b
      let (t, s) ← fetch b.stream
      return (t, { b with stream := s, surNext := some t })

/-- The next item is taken. -/
def pop (b : Buffered σ τ) : Except ε (τ × Buffered σ τ) :=
  match b.next with
  | some t => .ok (t, { b with next := b.surNext, surNext := none })
  | none => do
      let (t, s) ← fetch b.stream
      return (t, { b with stream := s })

/-- A call. -/
def call : Call → Buffered σ τ → Except ε (τ × Buffered σ τ)
  | .peek => peek fetch
  | .peek2 => peek2 fetch
  | .pop => pop fetch

/-- Calls one after the other, with what they return. -/
def run : List Call → Buffered σ τ → Except ε (List τ × Buffered σ τ)
  | [], b => .ok ([], b)
  | c :: cs, b => do
      let (t, b) ← call fetch c b
      let (ts, b) ← run cs b
      return (t :: ts, b)

/-- The first items of a stream. -/
def fetches : ℕ → σ → Except ε (List τ × σ)
  | 0, s => .ok ([], s)
  | n + 1, s => do
      let (t, s) ← fetch s
      let (ts, s) ← fetches n s
      return (t :: ts, s)

end

/-- How many items a call looks at. -/
def Call.depth : Call → ℕ
  | .peek => 1
  | .peek2 => 2
  | .pop => 1

/-- What a call is to return, where these are the items to come, and what is to come after it. -/
def Call.answer : Call → List τ → Option τ × List τ
  | .peek, ts => (ts[0]?, ts)
  | .peek2, ts => (ts[1]?, ts)
  | .pop, ts => (ts[0]?, ts.tail)

/-- What the calls are to return, where these are the items to come. -/
def answers : List Call → List τ → List (Option τ)
  | [], _ => []
  | c :: cs, ts => (c.answer ts).1 :: answers cs (c.answer ts).2

/-- How many items the calls look at. -/
def demand : List Call → ℕ
  | [] => 0
  | .peek :: cs => max 1 (demand cs)
  | .peek2 :: cs => max 2 (demand cs)
  | .pop :: cs => demand cs + 1

variable {fetch : σ → Except ε (τ × σ)} {b : Buffered σ τ} {s s' : σ} {ts us vs : List τ} {m n : ℕ}

/-! ## Items of a stream -/

lemma fetches_succ_eq_ok : fetches fetch (n + 1) s = .ok (ts, s') ↔
    ∃ t s₁ us, fetch s = .ok (t, s₁) ∧ fetches fetch n s₁ = .ok (us, s') ∧ ts = t :: us := by
  rw [fetches, bind_eq_ok]
  constructor
  · rintro ⟨⟨t, s₁⟩, hfetch, hrest⟩
    obtain ⟨⟨us, s₂⟩, hus, hts⟩ := bind_eq_ok.mp hrest
    cases hts
    exact ⟨t, s₁, us, hfetch, hus, rfl⟩
  · rintro ⟨t, s₁, us, hfetch, hus, rfl⟩
    exact ⟨_, hfetch, bind_eq_ok.mpr ⟨_, hus, rfl⟩⟩

lemma length_fetches (h : fetches fetch n s = .ok (ts, s')) : ts.length = n := by
  induction n generalizing s ts with
  | zero =>
      cases h
      rfl
  | succ n ih =>
      obtain ⟨t, s₁, us, -, hus, rfl⟩ := fetches_succ_eq_ok.mp h
      rw [List.length_cons, ih hus]

lemma fetches_add_eq_ok : fetches fetch (m + n) s = .ok (ts, s') ↔
    ∃ us s₁ vs, fetches fetch m s = .ok (us, s₁) ∧ fetches fetch n s₁ = .ok (vs, s') ∧ ts = us ++ vs := by
  induction m generalizing s ts with
  | zero =>
      rw [Nat.zero_add]
      constructor
      · intro h
        exact ⟨[], s, ts, rfl, h, rfl⟩
      · rintro ⟨us, s₁, vs, hus, hvs, rfl⟩
        cases hus
        exact hvs
  | succ m ih =>
      rw [Nat.succ_add, fetches_succ_eq_ok]
      constructor
      · rintro ⟨t, s₁, rest, hfetch, hrest, rfl⟩
        obtain ⟨us, s₂, vs, hus, hvs, rfl⟩ := ih.mp hrest
        exact ⟨t :: us, s₂, vs, fetches_succ_eq_ok.mpr ⟨t, s₁, us, hfetch, hus, rfl⟩, hvs, rfl⟩
      · rintro ⟨us, s₂, vs, hus, hvs, rfl⟩
        obtain ⟨t, s₁, rest, hfetch, hrest, rfl⟩ := fetches_succ_eq_ok.mp hus
        exact ⟨t, s₁, rest ++ vs, hfetch, ih.mpr ⟨rest, s₂, vs, hrest, hvs, rfl⟩, rfl⟩

lemma fetches_one_eq_ok : fetches fetch 1 s = .ok (ts, s') ↔ ∃ t, fetch s = .ok (t, s') ∧ ts = [t] := by
  rw [fetches_succ_eq_ok]
  constructor
  · rintro ⟨t, s₁, us, hfetch, hus, rfl⟩
    cases hus
    exact ⟨t, hfetch, rfl⟩
  · rintro ⟨t, hfetch, rfl⟩
    exact ⟨t, s', [], hfetch, rfl, rfl⟩

lemma fetches_iff : (∃ q, fetches fetch n s = .ok q) ↔
    ∀ k < n, ∀ ts s', fetches fetch k s = .ok (ts, s') → ∃ r, fetch s' = .ok r := by
  induction n with
  | zero =>
      constructor
      · intro _ k hk
        exact absurd hk (Nat.not_lt_zero k)
      · intro _
        exact ⟨_, rfl⟩
  | succ n ih =>
      constructor
      · rintro ⟨⟨ts, s'⟩, h⟩ k hk us s₁ hus
        obtain ⟨first, s₂, last, hfirst, hlast, -⟩ := fetches_add_eq_ok.mp h
        rcases Nat.lt_succ_iff_lt_or_eq.mp hk with hk | rfl
        · exact ih.mp ⟨_, hfirst⟩ k hk us s₁ hus
        · rw [hus] at hfirst
          cases hfirst
          obtain ⟨t, ht, -⟩ := fetches_one_eq_ok.mp hlast
          exact ⟨_, ht⟩
      · intro h
        obtain ⟨⟨ts, s₁⟩, hts⟩ := ih.mpr fun k hk => h k (Nat.lt_succ_of_lt hk)
        obtain ⟨⟨t, s₂⟩, ht⟩ := h n (Nat.lt_succ_self n) ts s₁ hts
        exact ⟨_, fetches_add_eq_ok.mpr ⟨ts, s₁, [t], hts, fetches_one_eq_ok.mpr ⟨t, ht, rfl⟩, rfl⟩⟩

/-! ## One call -/

/-- The places, filled in order. -/
def Buffered.ofItems (s : σ) (us : List τ) : Buffered σ τ where
  stream := s
  next := us[0]?
  surNext := us[1]?

lemma length_le_two (h : us.length ≤ 2) : us = [] ∨ (∃ t, us = [t]) ∨ ∃ t u, us = [t, u] := by
  match us, h with
  | [], _ => exact Or.inl rfl
  | [t], _ => exact Or.inr (Or.inl ⟨t, rfl⟩)
  | [t, u], _ => exact Or.inr (Or.inr ⟨t, u, rfl⟩)
  | _ :: _ :: _ :: _, h => simp at h

lemma call_ofItems (c : Call) (hus : us.length ≤ 2)
    (hfetch : fetches fetch (c.depth - us.length) s = .ok (ts, s')) :
    ∃ t, call fetch c (.ofItems s us) = .ok (t, .ofItems s' (c.answer (us ++ ts)).2) ∧
      (c.answer (us ++ ts)).1 = some t := by
  obtain rfl | ⟨t, rfl⟩ | ⟨t, u, rfl⟩ := length_le_two hus
  · cases c with
    | peek =>
        obtain ⟨t, ht, rfl⟩ := fetches_one_eq_ok.mp hfetch
        exact ⟨t, bind_eq_ok.mpr ⟨_, ht, rfl⟩, rfl⟩
    | peek2 =>
        obtain ⟨t, s₁, rest, ht, hrest, rfl⟩ := fetches_succ_eq_ok.mp hfetch
        obtain ⟨u, hu, rfl⟩ := fetches_one_eq_ok.mp hrest
        exact ⟨u, bind_eq_ok.mpr ⟨_, bind_eq_ok.mpr ⟨_, ht, rfl⟩, bind_eq_ok.mpr ⟨_, hu, rfl⟩⟩, rfl⟩
    | pop =>
        obtain ⟨t, ht, rfl⟩ := fetches_one_eq_ok.mp hfetch
        exact ⟨t, bind_eq_ok.mpr ⟨_, ht, rfl⟩, rfl⟩
  · cases c with
    | peek2 =>
        obtain ⟨u, hu, rfl⟩ := fetches_one_eq_ok.mp hfetch
        exact ⟨u, bind_eq_ok.mpr ⟨_, rfl, bind_eq_ok.mpr ⟨_, hu, rfl⟩⟩, rfl⟩
    | peek | pop =>
        cases hfetch
        exact ⟨t, rfl, rfl⟩
  · cases c <;> cases hfetch <;> exact ⟨_, rfl, rfl⟩

lemma Call.answer_append (c : Call) (h : c.depth ≤ us.length) :
    c.answer (us ++ vs) = ((c.answer us).1, (c.answer us).2 ++ vs) := by
  cases c with
  | peek => exact Prod.ext (List.getElem?_append_left h) rfl
  | peek2 => exact Prod.ext (List.getElem?_append_left h) rfl
  | pop =>
      refine Prod.ext (List.getElem?_append_left h) ?_
      exact List.tail_append_of_ne_nil (List.length_pos_iff.mp h)

lemma demand_cons (c : Call) (cs : List Call) (hts : ts.length = c.depth - us.length) :
    demand (c :: cs) - us.length =
      (c.depth - us.length) + (demand cs - (c.answer (us ++ ts)).2.length) := by
  cases c with
  | peek =>
      simp only [demand, Call.depth, Call.answer, List.length_append] at hts ⊢
      omega
  | peek2 =>
      simp only [demand, Call.depth, Call.answer, List.length_append] at hts ⊢
      omega
  | pop =>
      simp only [demand, Call.depth, Call.answer, List.length_tail, List.length_append] at hts ⊢
      omega

lemma length_answer_le (c : Call) (hus : us.length ≤ 2) (hts : ts.length = c.depth - us.length) :
    (c.answer (us ++ ts)).2.length ≤ 2 := by
  cases c <;> simp only [Call.depth, Call.answer, List.length_tail, List.length_append] at hts ⊢ <;> omega

/-! ## Calls one after the other -/

lemma run_cons_eq_ok {c : Call} {cs : List Call} {r : List τ × Buffered σ τ} :
    run fetch (c :: cs) b = .ok r ↔ ∃ t b₁ rs b₂, call fetch c b = .ok (t, b₁) ∧
      run fetch cs b₁ = .ok (rs, b₂) ∧ r = (t :: rs, b₂) := by
  rw [run, bind_eq_ok]
  constructor
  · rintro ⟨⟨t, b₁⟩, hcall, hrest⟩
    obtain ⟨⟨rs, b₂⟩, hrun, hr⟩ := bind_eq_ok.mp hrest
    cases hr
    exact ⟨t, b₁, rs, b₂, hcall, hrun, rfl⟩
  · rintro ⟨t, b₁, rs, b₂, hcall, hrun, rfl⟩
    exact ⟨_, hcall, bind_eq_ok.mpr ⟨_, hrun, rfl⟩⟩

lemma fetches_demand_cons (c : Call) (cs : List Call)
    (h : fetches fetch (demand (c :: cs) - us.length) s = .ok (ts, s')) :
    ∃ first s₁ rest, fetches fetch (c.depth - us.length) s = .ok (first, s₁) ∧
      fetches fetch (demand cs - (c.answer (us ++ first)).2.length) s₁ = .ok (rest, s') ∧
      ts = first ++ rest := by
  have hle : c.depth ≤ demand (c :: cs) := by
    cases c <;> simp only [Call.depth, demand] <;> omega
  obtain ⟨k, hk⟩ := Nat.exists_eq_add_of_le (Nat.sub_le_sub_right hle us.length)
  rw [hk] at h
  obtain ⟨first, s₁, rest, hfirst, hrest, hts⟩ := fetches_add_eq_ok.mp h
  have hcons := demand_cons c cs (length_fetches hfirst)
  have hrest' : k = demand cs - (c.answer (us ++ first)).2.length := by omega
  exact ⟨first, s₁, rest, hfirst, hrest' ▸ hrest, hts⟩

/-- Whatever the calls look at, and when, they return the items of the stream. -/
theorem run_ofItems (cs : List Call) (hus : us.length ≤ 2)
    (hfetch : fetches fetch (demand cs - us.length) s = .ok (ts, s')) :
    ∃ rs vs, run fetch cs (.ofItems s us) = .ok (rs, .ofItems s' vs) ∧
      rs.map some = answers cs (us ++ ts) := by
  induction cs generalizing us s ts with
  | nil =>
      rw [demand, Nat.zero_sub] at hfetch
      cases hfetch
      exact ⟨[], us, rfl, rfl⟩
  | cons c cs ih =>
      obtain ⟨first, s₁, rest, hfirst, hrest, rfl⟩ := fetches_demand_cons c cs hfetch
      have hlen := length_fetches hfirst
      obtain ⟨t, hcall, ht⟩ := call_ofItems c hus hfirst
      obtain ⟨rs, vs, hrun, hrs⟩ := ih (length_answer_le c hus hlen) hrest
      have hdepth : c.depth ≤ (us ++ first).length := by
        rw [List.length_append]
        omega
      refine ⟨t :: rs, vs, run_cons_eq_ok.mpr ⟨t, _, rs, _, hcall, hrun, rfl⟩, ?_⟩
      rw [answers, ← List.append_assoc, Call.answer_append c hdepth, ht, List.map_cons, hrs]

/-- Taking items one after the other is taking them from the stream. -/
theorem run_pops : run fetch (List.replicate n .pop) (.ofItems s []) = .ok (ts, b) ↔
    ∃ s', fetches fetch n s = .ok (ts, s') ∧ b = .ofItems s' [] := by
  induction n generalizing s ts with
  | zero =>
      constructor
      · intro h
        cases h
        exact ⟨s, rfl, rfl⟩
      · rintro ⟨s', h, rfl⟩
        cases h
        rfl
  | succ n ih =>
      rw [List.replicate_succ, run_cons_eq_ok]
      constructor
      · rintro ⟨t, b₁, us, b₂, hcall, hrest, h⟩
        cases h
        obtain ⟨⟨_, s₁⟩, ht, hb⟩ := bind_eq_ok.mp hcall
        cases hb
        obtain ⟨s', hus, rfl⟩ := ih.mp hrest
        exact ⟨s', fetches_succ_eq_ok.mpr ⟨t, s₁, us, ht, hus, rfl⟩, rfl⟩
      · rintro ⟨s', h, rfl⟩
        obtain ⟨t, s₁, us, ht, hus, rfl⟩ := fetches_succ_eq_ok.mp h
        exact ⟨t, .ofItems s₁ [], us, _, bind_eq_ok.mpr ⟨_, ht, rfl⟩, ih.mpr ⟨s', hus, rfl⟩, rfl⟩

end Lookahead

end BrebOS
