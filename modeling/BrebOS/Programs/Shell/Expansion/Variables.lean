import BrebOS.Programs.Shell.Expansion.Resolvers

/-!
# Variables in words

What the expansion of a variable takes from the word is not always its name.  After a single character it takes
all the text up to a blank, a dollar or a double quote; so it does after a name that no variable of the shell
has; and after `$$` it takes nothing, and comes to the second dollar again.
-/

namespace BrebOS.Shell

/-- The name that follows a dollar, where the text goes on behind it: the longest identifier, or a single
character. -/
def IsName (name rest : Word) : Prop :=
  (∃ ch, name = [ch] ∧ IsParameter ch) ∨ (IsIdentifier name ∧ ∀ ch, rest.head? = some ch → ¬ isNameChar ch)

/-- The expansion of a word with a variable comes to the text behind the name, and has appended the text before
the dollar and the value. -/
def VariableLocal (c : Vars) (x : Expansion) (before name rest : Word) : Prop :=
  ∃ moment, Reaches c (x.setRest (before ++ '$' :: (name ++ rest)))
    { ((x.append before).appendArgs (valueOf c x.moment name)).setRest rest with moment := moment }

/-- What makes the expansion take the name, and nothing else. -/
def TakesName (c : Vars) (moment : ℕ) (name rest : Word) : Prop :=
  if name = ['$'] then DollarVanishes c (moment + 1) rest
  else stops rest ∨ (IsIdentifier name ∧ ∃ value, listGetValue c name = some value ∧
    (name = random → [value] = numToArgs (c.rand moment)))

section

variable {c : Vars} {x : Expansion} {name rest : Word}

/-! ## A variable in a word -/

lemma appendArgs_setRest (strs : List Word) (rest : Word) (x : Expansion) :
    (x.setRest rest).appendArgs strs = (x.appendArgs strs).setRest rest := by
  induction strs generalizing x with
  | nil => rfl
  | cons str strs ih =>
      cases strs with
      | nil => rfl
      | cons str' strs => exact ih { x with done := x.done ++ [x.cur ++ str], cur := [] }

lemma expandLoop_dollar {cs : Word} (x : Expansion) :
    expandLoop c (x.setRest ('$' :: cs)) = expandDollar c (x.setRest cs) := rfl

/-- What the word then expands to: the text before the dollar, the value, and what the text behind the name
expands to. -/
theorem VariableLocal.expandWord_eq {before : Word} (h : VariableLocal c x before name rest) :
    ∃ moment, expandWord c (x.setRest (before ++ '$' :: (name ++ rest))) = expandWord c
      { ((x.append before).appendArgs (valueOf c x.moment name)).setRest rest with moment := moment } := by
  obtain ⟨moment, hreaches⟩ := h
  exact ⟨moment, expandWord_of_reaches hreaches⟩

lemma variableLocal_iff_step {before : Word} (hbefore : ∀ ch ∈ before, isSpecial ch = false)
    (hle : ∀ y, expandDollar c ((x.append before).setRest (name ++ rest)) = .ok y →
      y.rest.length ≤ rest.length) :
    VariableLocal c x before name rest ↔ ∃ moment,
      expandDollar c ((x.append before).setRest (name ++ rest)) = .ok
        { ((x.append before).appendArgs (valueOf c x.moment name)).setRest rest with moment := moment } := by
  refine exists_congr fun moment => ?_
  have hlength : rest.length < ('$' :: (name ++ rest)).length := by
    rw [List.length_cons, List.length_append]
    omega
  refine (reaches_iff_of_reaches (reaches_before hbefore x) hlength).trans ?_
  rw [← expandLoop_dollar]
  exact reaches_iff_step hlength hle

lemma IsParameter.endsDollar {ch : Char} (h : IsParameter ch) (hne : ch ≠ '$') : endsDollar ch = false := by
  by_contra hends
  rcases endsDollar_cases (Bool.not_eq_false _ ▸ hends) with rfl | rfl | rfl
  · exact absurd h (by unfold IsParameter; decide)
  · exact hne rfl
  · exact absurd h (by unfold IsParameter; decide)

lemma IsParameter.not_isIdentifier {ch : Char} (h : IsParameter ch) : ¬ IsIdentifier [ch] := by
  rintro ⟨d, ds, heq, hstart, -⟩
  cases heq
  rcases h with h | h
  · have hall : ['@', '*', '?', '$', '#'].all (!isNameStart ·) := by decide
    have hnot := List.all_eq_true.mp hall ch h
    rw [hstart] at hnot
    cases hnot
  · rw [not_isDigit_of_start hstart] at h
    cases h

lemma variableLocal_parameter {before : Word} {ch : Char} (hbefore : ∀ ch ∈ before, isSpecial ch = false)
    (hch : IsParameter ch) (hne : ch ≠ '$') : VariableLocal c x before [ch] rest ↔ stops rest := by
  obtain ⟨strs, hstrs⟩ := hch.expandVar_isSome (c := c) x.moment
  have hvalue : valueOf c x.moment [ch] = strs := by
    rw [valueOf, hstrs, Option.getD_some]
  have hlen : dollarLen (ch :: rest) = 1 + dollarLen rest := by
    have hend : ∀ d ∈ [ch], endsDollar d = false := by
      intro d hd
      rw [List.mem_singleton.mp hd]
      exact hch.endsDollar hne
    exact dollarLen_append hend
  have hstep : expandDollar c ((x.append before).setRest ([ch] ++ rest)) = .ok
      { ((x.append before).appendArgs strs).setRest (rest.drop (dollarLen rest)) with
        moment := x.moment + 1 } := by
    have hdollar := expandDollar_parameter (x := (x.append before).setRest (ch :: rest)) hch rfl hstrs
    rw [appendArgs_setRest, hlen, Nat.add_comm] at hdollar
    exact hdollar
  rw [variableLocal_iff_step hbefore, hstep, hvalue]
  · constructor
    · rintro ⟨moment, heq⟩
      exact stops_of_drop (congrArg Expansion.rest (Except.ok.inj heq))
    · intro hstops
      refine ⟨x.moment + 1, ?_⟩
      rw [dollarLen_eq_zero.mpr hstops]
      rfl
  · intro y hy
    rw [hstep] at hy
    cases hy
    exact (List.drop_suffix _ _).length_le

lemma variableLocal_dollar {before : Word} (hbefore : ∀ ch ∈ before, isSpecial ch = false) :
    VariableLocal c x before ['$'] rest ↔ DollarVanishes c (x.moment + 1) rest := by
  have hdollar : IsParameter '$' := Or.inl (by decide)
  let y : Expansion := { (x.append before).appendArgs (numToArgs c.pid) with moment := x.moment + 1 }
  have hstep : expandLoop c ((x.append before).setRest ('$' :: '$' :: rest)) = .ok (y.setRest ('$' :: rest)) := by
    have hfirst := expandDollar_parameter (c := c) (x := (x.append before).setRest ('$' :: rest)) hdollar rfl rfl
    rw [appendArgs_setRest] at hfirst
    exact hfirst
  have hreaches : ∀ moment, Reaches c (x.setRest (before ++ '$' :: (['$'] ++ rest)))
      { ((x.append before).appendArgs (numToArgs c.pid)).setRest rest with moment := moment } ↔
        expandDollar c (y.setRest rest) =
          .ok { ((x.append before).appendArgs (numToArgs c.pid)).setRest rest with moment := moment } := by
    intro moment
    have hlt : rest.length < ('$' :: '$' :: rest).length := by
      simp only [List.length_cons]
      omega
    refine (reaches_iff_of_reaches (reaches_before hbefore x) hlt).trans ?_
    refine (reaches_iff_of_step (List.cons_ne_nil _ _) hstep hlt).trans ?_
    refine reaches_iff_step (Nat.lt_succ_self _) fun z hz => ?_
    exact (expandDollar_suffix (x := y.setRest rest) hz).length_le
  have hvanishes := dollarVanishes_iff (c := c) (x := y.setRest rest)
  rw [show DollarVanishes c (x.moment + 1) rest = DollarVanishes c (y.setRest rest).moment (y.setRest rest).rest
    from rfl, ← hvanishes]
  constructor
  · rintro ⟨moment, h⟩
    exact ⟨_, (hreaches moment).mp h, rfl, rfl, rfl⟩
  · rintro ⟨z, hz, hdone, hcur, hrest⟩
    refine ⟨z.moment, (hreaches z.moment).mpr ?_⟩
    rw [hz]
    obtain ⟨done, cur, rest', moment⟩ := z
    cases hdone
    cases hcur
    cases hrest
    rfl

lemma setRest_pass (name rest : Word) (x : Expansion) :
    (x.setRest (name ++ rest)).pass name.length = x.setRest rest := by
  show x.setRest ((name ++ rest).drop name.length) = _
  rw [List.drop_left]

lemma variableLocal_stops {before : Word} (hbefore : ∀ ch ∈ before, isSpecial ch = false)
    (h : IsIdentifier name) (hlongest : ∀ ch, rest.head? = some ch → ¬ isNameChar ch) (hstops : stops rest) :
    VariableLocal c x before name rest := by
  have hstep : expandDollar c ((x.append before).setRest (name ++ rest)) = .ok
      { ((x.append before).appendArgs (valueOf c x.moment name)).setRest rest with moment := x.moment + 1 } := by
    rw [expandDollar_identifier h hlongest rfl, if_pos hstops, appendArgs_setRest, setRest_pass]
    rfl
  refine (variableLocal_iff_step hbefore fun y hy => ?_).mpr ⟨x.moment + 1, hstep⟩
  rw [hstep] at hy
  cases hy
  exact le_rfl

lemma variableLocal_set {before value : Word} (hbefore : ∀ ch ∈ before, isSpecial ch = false)
    (h : IsIdentifier name) (hlongest : ∀ ch, rest.head? = some ch → ¬ isNameChar ch) (hstops : ¬ stops rest)
    (hvalue : listGetValue c name = some value) :
    VariableLocal c x before name rest ↔ (name = random → [value] = numToArgs (c.rand x.moment)) := by
  have hstep : expandDollar c ((x.append before).setRest (name ++ rest)) = .ok
      { ((x.append before).append value).setRest rest with moment := x.moment + 1 } := by
    rw [expandDollar_identifier h hlongest rfl, if_neg hstops, hvalue]
    show Except.ok { (((x.append before).append value).setRest (name ++ rest)).pass name.length with
      moment := x.moment + 1 } = _
    rw [setRest_pass]
  have hexpand : expandVar c x.moment name = if name = random then some (numToArgs (c.rand x.moment)) else none := by
    obtain ⟨ch, cs, rfl, hch, -⟩ := h
    exact expandVar_of_start hch x.moment
  rw [variableLocal_iff_step hbefore, hstep, valueOf, hexpand, hvalue]
  · by_cases hrandom : name = random
    · rw [if_pos hrandom, Option.getD_some]
      constructor
      · rintro ⟨moment, heq⟩ -
        have hcur := congrArg Expansion.cur (Except.ok.inj heq)
        exact congrArg (fun str => [str]) (List.append_cancel_left hcur)
      · intro hnumber
        rw [← hnumber hrandom]
        exact ⟨x.moment + 1, rfl⟩
    · rw [if_neg hrandom]
      exact ⟨fun _ heq => absurd heq hrandom, fun _ => ⟨x.moment + 1, rfl⟩⟩
  · intro y hy
    rw [hstep] at hy
    cases hy
    exact le_rfl

lemma not_variableLocal_unset {before : Word} (hbefore : ∀ ch ∈ before, isSpecial ch = false)
    (h : IsIdentifier name) (hlongest : ∀ ch, rest.head? = some ch → ¬ isNameChar ch) (hstops : ¬ stops rest)
    (hvalue : listGetValue c name = none) : ¬ VariableLocal c x before name rest := by
  have hstep : expandDollar c ((x.append before).setRest (name ++ rest)) = .ok
      { (x.append before).setRest (rest.drop (dollarLen rest)) with moment := x.moment + 1 } := by
    rw [expandDollar_identifier h hlongest rfl, if_neg hstops, hvalue]
    show Except.ok { (x.append before).setRest ((name ++ rest).drop (name.length + dollarLen rest)) with
      moment := x.moment + 1 } = _
    rw [List.drop_length_add_append]
  rw [variableLocal_iff_step hbefore, hstep]
  · rintro ⟨moment, heq⟩
    exact hstops (stops_of_drop (congrArg Expansion.rest (Except.ok.inj heq)))
  · intro y hy
    rw [hstep] at hy
    cases hy
    exact (List.drop_suffix _ _).length_le

end

/-- A variable in a word is expanded by itself exactly where the resolvers take the name and nothing else. -/
theorem variableLocal_iff (c : Vars) (x : Expansion) (before name rest : Word)
    (hbefore : ∀ ch ∈ before, isSpecial ch = false) (hname : IsName name rest) :
    VariableLocal c x before name rest ↔ TakesName c x.moment name rest := by
  rw [TakesName]
  rcases hname with ⟨ch, rfl, hch⟩ | ⟨hident, hlongest⟩
  · by_cases hdollar : ch = '$'
    · subst hdollar
      rw [if_pos rfl]
      exact variableLocal_dollar hbefore
    · have hnot : ¬ IsIdentifier [ch] := hch.not_isIdentifier
      rw [if_neg fun heq => hdollar (List.cons.inj heq).1, variableLocal_parameter hbefore hch hdollar]
      exact ⟨Or.inl, fun h => h.resolve_right fun h => hnot h.1⟩
  · have hdollar : name ≠ ['$'] := by
      rintro rfl
      exact ne_of_isNameChar (hident.isNameChar '$' (List.mem_singleton_self _)) rfl rfl
    rw [if_neg hdollar]
    by_cases hstops : stops rest
    · exact ⟨fun _ => Or.inl hstops, fun _ => variableLocal_stops hbefore hident hlongest hstops⟩
    · cases hvalue : listGetValue c name with
      | none =>
          refine ⟨fun h => absurd h (not_variableLocal_unset hbefore hident hlongest hstops hvalue), ?_⟩
          rintro (h | ⟨-, value, h, -⟩)
          · exact absurd h hstops
          · cases h
      | some value =>
          rw [variableLocal_set hbefore hident hlongest hstops hvalue]
          constructor
          · exact fun h => Or.inr ⟨hident, value, rfl, h⟩
          · rintro (h | ⟨-, value', h, hnumber⟩)
            · exact absurd h hstops
            · cases h
              exact hnumber

/-- In `a$x/b`, where `x` is set. -/
theorem variableLocal_set_x : VariableLocal
    { argv := [], lastRv := 0, listVar := [(['x'], ['1'])], getenv := fun _ => none, pid := 1,
      rand := fun _ => 0, substitute := fun _ _ => [] } { rest := [] } ['a'] ['x'] ['/', 'b'] := by
  refine (variableLocal_iff _ _ _ _ _ (by simp [isSpecial]) (Or.inr ⟨⟨'x', [], rfl, rfl, by simp⟩, ?_⟩)).mpr ?_
  · intro ch hch
    cases hch
    decide
  · rw [TakesName, if_neg (by decide)]
    exact Or.inr ⟨⟨'x', [], rfl, rfl, by simp⟩, ['1'], rfl, fun h => by cases h⟩

/-- In `$1b`, the `b` is dropped. -/
theorem variable_not_local : ¬ ∀ c x before name rest, (∀ ch ∈ before, isSpecial ch = false) → IsName name rest →
    VariableLocal c x before name rest := by
  intro h
  have hparameter : IsParameter '1' := Or.inr rfl
  have hlocal := h
    { argv := [['s', 'h'], ['A']], lastRv := 0, listVar := [], getenv := fun _ => none, pid := 1,
      rand := fun _ => 0, substitute := fun _ _ => [] }
    { rest := [] } [] ['1'] ['b'] (by simp) (Or.inl ⟨'1', rfl, hparameter⟩)
  have hstops := (variableLocal_parameter (by simp) hparameter (by decide)).mp hlocal
  cases hstops

end BrebOS.Shell
