import BrebOS.Programs.Shell.Expansion

/-!
# The expansion of a word, step by step

Every step of the expansion of a word takes something of the word, so the expansion comes to an end, and with
as much of the word left it is in at most one place.
-/

namespace BrebOS.Shell

/-- A step of the expansion of a word. -/
def ExpandStep (c : Vars) (x y : Expansion) : Prop := x.rest ≠ [] ∧ expandLoop c x = .ok y

/-- The expansion of a word comes to a place in it. -/
abbrev Reaches (c : Vars) : Expansion → Expansion → Prop := Relation.ReflTransGen (ExpandStep c)

/-- An expansion, with the cursor at another text. -/
def Expansion.setRest (rest : Word) (x : Expansion) : Expansion := { x with rest := rest }

section

variable {c : Vars} {x y z : Expansion} {found : Bool} {n : ℕ}

/-! ## Steps -/

@[simp] lemma appendArgs_rest (strs : List Word) (x : Expansion) : (x.appendArgs strs).rest = x.rest := by
  induction strs generalizing x with
  | nil => rfl
  | cons str strs ih =>
      cases strs with
      | nil => rfl
      | cons str' strs => exact ih _

lemma advance_eq_ok (h : x.advance n = .ok y) : y = x.pass n := by
  rw [Expansion.advance] at h
  split at h
  · cases h
    rfl
  · cases h

lemma pass_suffix (n : ℕ) (x : Expansion) : (x.pass n).rest <:+ x.rest := List.drop_suffix n x.rest

lemma subSubstitution_suffix (h : subSubstitution c x = .ok (found, y)) : y.rest <:+ x.rest := by
  rw [subSubstitution] at h
  split at h
  · cases h
    exact List.suffix_rfl
  · obtain ⟨len, -, h⟩ := bind_eq_ok.mp h
    cases len with
    | some len =>
        cases h
        exact pass_suffix len _
    | none =>
        cases h
        exact List.suffix_rfl

lemma subShellVar_suffix : (subShellVar c x).2.rest <:+ x.rest := by
  rw [subShellVar]
  split
  · next strs =>
      refine (pass_suffix _ _).trans ?_
      rw [appendArgs_rest]
  · exact List.suffix_rfl

lemma subUserVar_suffix (h : subUserVar c x = .ok (found, y)) : y.rest <:+ x.rest := by
  rw [subUserVar] at h
  split at h
  · split at h
    · cases h
      exact pass_suffix _ _
    · cases h
      exact List.suffix_rfl
  · split at h
    · cases h
    · split at h
      · obtain ⟨t, ht, h⟩ := bind_eq_ok.mp h
        cases h
        rw [advance_eq_ok ht]
        exact pass_suffix _ _
      · cases h
        exact List.suffix_rfl

lemma subEnvVar_suffix : (subEnvVar c x).2.rest <:+ x.rest := by
  rw [subEnvVar]
  split
  · exact pass_suffix _ _
  · exact pass_suffix _ _

lemma expandDollar_eq_ok : expandDollar c x = .ok y ↔ ∃ found₁ x₁, subSubstitution c x = .ok (found₁, x₁) ∧
    if found₁ then y = { x₁ with moment := x₁.moment + 1 }
    else if (subShellVar c x₁).1 then
      y = { (subShellVar c x₁).2 with moment := (subShellVar c x₁).2.moment + 1 }
    else ∃ found₃ x₃, subUserVar c (subShellVar c x₁).2 = .ok (found₃, x₃) ∧
      if found₃ then y = { x₃ with moment := x₃.moment + 1 }
      else y = { (subEnvVar c x₃).2 with moment := (subEnvVar c x₃).2.moment + 1 } := by
  rw [expandDollar, bind_eq_ok]
  constructor
  · rintro ⟨⟨found₁, x₁⟩, hsub, h⟩
    refine ⟨found₁, x₁, hsub, ?_⟩
    cases found₁ with
    | true =>
        cases h
        rfl
    | false =>
        cases hshell : subShellVar c x₁ with
        | mk found₂ x₂ =>
            simp only [hshell] at h
            cases found₂ with
            | true =>
                cases h
                rfl
            | false =>
                obtain ⟨⟨found₃, x₃⟩, huser, h⟩ := bind_eq_ok.mp h
                refine ⟨found₃, x₃, huser, ?_⟩
                cases found₃ with
                | true =>
                    cases h
                    rfl
                | false =>
                    cases h
                    rfl
  · rintro ⟨found₁, x₁, hsub, h⟩
    refine ⟨(found₁, x₁), hsub, ?_⟩
    cases found₁ with
    | true => exact congrArg Except.ok h.symm
    | false =>
        cases hshell : subShellVar c x₁ with
        | mk found₂ x₂ =>
            simp only [hshell] at h ⊢
            cases found₂ with
            | true => exact congrArg Except.ok h.symm
            | false =>
                obtain ⟨found₃, x₃, huser, h⟩ := h
                refine bind_eq_ok.mpr ⟨(found₃, x₃), huser, ?_⟩
                cases found₃ with
                | true => exact congrArg Except.ok h.symm
                | false => exact congrArg Except.ok h.symm

lemma expandDollar_suffix (h : expandDollar c x = .ok y) : y.rest <:+ x.rest := by
  obtain ⟨found₁, x₁, hsub, h⟩ := expandDollar_eq_ok.mp h
  have h₁ := subSubstitution_suffix hsub
  split at h
  · rw [h]
    exact h₁
  · have h₂ : (subShellVar c x₁).2.rest <:+ x₁.rest := subShellVar_suffix
    split at h
    · rw [h]
      exact h₂.trans h₁
    · obtain ⟨found₃, x₃, huser, h⟩ := h
      have h₃ := subUserVar_suffix huser
      split at h
      · rw [h]
        exact (h₃.trans h₂).trans h₁
      · rw [h]
        exact ((subEnvVar_suffix.trans h₃).trans h₂).trans h₁

lemma expandBacktick_suffix (h : expandBacktick c x = .ok y) : y.rest <:+ x.rest := by
  obtain ⟨len, -, h⟩ := bind_eq_ok.mp h
  cases len with
  | some len =>
      cases h
      exact pass_suffix len _
  | none =>
      dsimp only at h
      split at h
      · cases h
        exact List.suffix_rfl
      · cases h

lemma expandSingle_suffix (h : expandSingle x = .ok y) : y.rest <:+ x.rest := by
  rw [advance_eq_ok h]
  exact pass_suffix _ _

lemma expandBackslash_suffix (x : Expansion) : (expandBackslash x).rest <:+ x.rest := by
  rw [expandBackslash]
  split
  · exact List.suffix_rfl
  · split
    · exact pass_suffix 1 x
    · exact pass_suffix 1 _

lemma expandDouble_suffix (h : expandDouble c x = .ok y) : y.rest <:+ x.rest := by
  obtain ⟨len, -, h⟩ := bind_eq_ok.mp h
  obtain ⟨t, -, h⟩ := bind_eq_ok.mp h
  rw [advance_eq_ok h]
  exact pass_suffix _ _

lemma expandLoop_lt (hrest : x.rest ≠ []) (h : expandLoop c x = .ok y) : y.rest.length < x.rest.length := by
  cases hx : x.rest with
  | nil => exact absurd hx hrest
  | cons ch cs =>
      have hone : y.rest <:+ (x.pass 1).rest → y.rest.length < (ch :: cs).length := by
        intro hsuffix
        have hle := hsuffix.length_le
        rw [Expansion.pass, hx, List.drop_one, List.tail_cons] at hle
        exact Nat.lt_succ_of_le hle
      rw [expandLoop, hx] at h
      dsimp only at h
      split at h
      · exact hone (expandSingle_suffix h)
      · split at h
        · exact hone (expandDouble_suffix h)
        · split at h
          · exact hone (expandBacktick_suffix h)
          · split at h
            · exact hone (expandDollar_suffix h)
            · split at h
              · cases h
                exact hone (expandBackslash_suffix _)
              · next hquote hdouble hbacktick hdollar hbackslash =>
                  cases h
                  have hplain : isSpecial ch = false := by
                    simp [isSpecial, hquote, hdouble, hbacktick, hdollar, hbackslash]
                  have htake : (ch :: cs).takeWhile (!isSpecial ·) = ch :: cs.takeWhile (!isSpecial ·) := by
                    rw [List.takeWhile_cons, hplain]
                    rfl
                  rw [htake, List.length_cons]
                  show (x.rest.drop _).length < _
                  rw [hx, List.drop_succ_cons]
                  exact Nat.lt_succ_of_le (List.drop_suffix _ cs).length_le

/-! ## Reaching a place -/

lemma Reaches.length_le (h : Reaches c x y) : y.rest.length ≤ x.rest.length := by
  induction h with
  | refl => exact le_rfl
  | tail _ hstep ih => exact (expandLoop_lt hstep.1 hstep.2).le.trans ih

lemma reaches_iff_of_step (hrest : x.rest ≠ []) (hstep : expandLoop c x = .ok y)
    (hlt : z.rest.length < x.rest.length) : Reaches c x z ↔ Reaches c y z := by
  constructor
  · intro h
    rcases h.cases_head with rfl | ⟨y', ⟨-, hy'⟩, hrun⟩
    · exact absurd hlt (lt_irrefl _)
    · rw [hstep] at hy'
      cases hy'
      exact hrun
  · intro h
    exact h.head ⟨hrest, hstep⟩

lemma reaches_iff_eq (hlength : z.rest.length = x.rest.length) : Reaches c x z ↔ x = z := by
  constructor
  · intro h
    rcases h.cases_head with rfl | ⟨y, ⟨hrest, hy⟩, hrun⟩
    · rfl
    · have hlt := expandLoop_lt hrest hy
      have hle := Reaches.length_le hrun
      omega
  · rintro rfl
    exact .refl

lemma reaches_iff_of_reaches (h : Reaches c x y) (hlt : z.rest.length < y.rest.length) :
    Reaches c x z ↔ Reaches c y z := by
  induction h using Relation.ReflTransGen.head_induction_on with
  | refl => exact Iff.rfl
  | head hstep hrun ih =>
      have hle := Reaches.length_le hrun
      have hmore := expandLoop_lt hstep.1 hstep.2
      exact (reaches_iff_of_step hstep.1 hstep.2 (by omega)).trans ih

lemma reaches_iff_step (hlt : z.rest.length < x.rest.length)
    (hle : ∀ y, expandLoop c x = .ok y → y.rest.length ≤ z.rest.length) :
    Reaches c x z ↔ expandLoop c x = .ok z := by
  have hrest : x.rest ≠ [] := List.length_pos_iff.mp (Nat.zero_lt_of_lt hlt)
  constructor
  · intro h
    rcases h.cases_head with rfl | ⟨y, ⟨-, hy⟩, hrun⟩
    · exact absurd hlt (lt_irrefl _)
    · have heq := le_antisymm (Reaches.length_le hrun) (hle y hy)
      rw [hy, (reaches_iff_eq heq).mp hrun]
  · intro h
    exact .single ⟨hrest, h⟩

lemma expandWordLoop_fuel {m : ℕ} (hn : x.rest.length < n) (hm : x.rest.length < m) :
    expandWordLoop c n x = expandWordLoop c m x := by
  induction n generalizing m x with
  | zero => omega
  | succ n ih =>
      obtain ⟨m, rfl⟩ := Nat.exists_eq_add_of_lt (Nat.zero_lt_of_lt hm)
      rw [Nat.zero_add] at hm ⊢
      rw [expandWordLoop, expandWordLoop]
      split
      · rfl
      · next hrest =>
          cases hstep : expandLoop c x with
          | error e => rfl
          | ok y =>
              have hlt := expandLoop_lt hrest hstep
              exact ih (by omega) (by omega)

lemma expandWord_of_reaches (h : Reaches c x y) : expandWord c x = expandWord c y := by
  induction h with
  | refl => rfl
  | @tail y z _ hstep ih =>
      have hlt := expandLoop_lt hstep.1 hstep.2
      rw [ih, expandWord, expandWord, expandWordLoop, if_neg hstep.1, hstep.2]
      exact expandWordLoop_fuel hlt (Nat.lt_succ_self _)

/-! ## The text before a variable -/

lemma expandLoop_plain {ch : Char} {cs rest : Word} (hplain : ∀ d ∈ ch :: cs, isSpecial d = false)
    (hx : x.rest = ch :: cs ++ '$' :: rest) :
    expandLoop c x = .ok ((x.append (ch :: cs)).setRest ('$' :: rest)) := by
  have hne : ch ≠ '`' ∧ ch ≠ '\'' ∧ ch ≠ '\\' ∧ ch ≠ '"' ∧ ch ≠ '$' := by
    simpa [isSpecial] using hplain ch List.mem_cons_self
  have htake : x.rest.takeWhile (!isSpecial ·) = ch :: cs := by
    have hnot : ∀ d ∈ ch :: cs, (!isSpecial d) = true := fun d hd => by rw [hplain d hd]; rfl
    rw [hx, List.takeWhile_append_of_pos hnot, List.takeWhile_cons_of_neg (by decide), List.append_nil]
  have hdrop : x.rest.drop (ch :: cs).length = '$' :: rest := by rw [hx, List.drop_left]
  rw [expandLoop, htake]
  split
  · next hnil =>
      rw [hx] at hnil
      cases hnil
  · next d ds hcons =>
      have hd : d = ch := by
        rw [hx] at hcons
        exact (List.cons.inj hcons).1.symm
      rw [hd, if_neg hne.2.1, if_neg hne.2.2.2.1, if_neg hne.1, if_neg hne.2.2.2.2, if_neg hne.2.2.1]
      show Except.ok ((x.append (ch :: cs)).setRest (x.rest.drop (ch :: cs).length)) = _
      rw [hdrop]

lemma reaches_before {before rest : Word} (hbefore : ∀ ch ∈ before, isSpecial ch = false) (x : Expansion) :
    Reaches c (x.setRest (before ++ '$' :: rest)) ((x.append before).setRest ('$' :: rest)) := by
  cases before with
  | nil =>
      have happend : x.append [] = x := by
        rw [Expansion.append, List.append_nil]
      rw [happend]
      exact .refl
  | cons ch cs => exact .single ⟨List.cons_ne_nil _ _, expandLoop_plain hbefore rfl⟩

end

end BrebOS.Shell
