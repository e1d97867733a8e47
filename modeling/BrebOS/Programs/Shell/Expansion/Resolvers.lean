import BrebOS.Programs.Shell.Expansion.Steps

/-!
# The resolvers

What each of the four resolvers of `expand_dollar` does with a parameter, with an identifier, and with a text
in which no name begins.
-/

namespace BrebOS.Shell

/-- The value of a variable: of the shell, or else of the environment. -/
def valueOf (c : Vars) (moment : ℕ) (name : Word) : List Word :=
  (expandVar c moment name).getD ((listGetValue c name).or (expandEnv c name)).toList

/-- A name that is an identifier. -/
def IsIdentifier (name : Word) : Prop := ∃ ch cs, name = ch :: cs ∧ isNameStart ch ∧ ∀ d ∈ cs, isNameChar d

/-- A parameter that is a single character. -/
def IsParameter (ch : Char) : Prop := ch ∈ ['@', '*', '?', '$', '#'] ∨ ch.isDigit

/-- The resolvers do not take the beginning of this text for a part of the name. -/
def stops (rest : Word) : Bool := rest.head?.all endsDollar

/-- A dollar before a text that expands to nothing, and does not take anything of it. -/
def DollarVanishes (c : Vars) (moment : ℕ) : Word → Prop
  | [] => False
  | ch :: cs =>
      ((ch = ' ' ∨ ch = '"') ∧ listGetValue c (cs.take (strlenVar cs)) = none) ∨
        (ch = '(' ∧ Expansion.readUntilChar ')' (ch :: cs) = .ok none ∧ c.substitute moment cs = [])

section

variable {c : Vars} {x y : Expansion} {n : ℕ}

/-! ## The resolvers -/

lemma dollarLen_append {name rest : Word} (hname : ∀ ch ∈ name, endsDollar ch = false) :
    dollarLen (name ++ rest) = name.length + dollarLen rest := by
  have hnot : ∀ ch ∈ name, (!endsDollar ch) = true := fun ch hch => by rw [hname ch hch]; rfl
  rw [dollarLen, List.takeWhile_append_of_pos hnot, List.length_append]
  rfl

lemma dollarLen_eq_zero {rest : Word} : dollarLen rest = 0 ↔ stops rest := by
  cases rest with
  | nil => simp [dollarLen, stops]
  | cons ch cs =>
      rw [dollarLen, List.takeWhile_cons, stops]
      cases hch : endsDollar ch with
      | true => simp [hch]
      | false => simp [hch]

lemma stops_of_take {rest : Word} (h : rest.take (dollarLen rest) = []) : stops rest := by
  refine dollarLen_eq_zero.mp ?_
  cases rest with
  | nil => rfl
  | cons ch cs => simpa using h

lemma stops_of_drop {rest : Word} (h : rest.drop (dollarLen rest) = rest) : stops rest := by
  refine dollarLen_eq_zero.mp ?_
  have hle : dollarLen rest ≤ rest.length := (List.takeWhile_prefix _).length_le
  have hlength := congrArg List.length h
  rw [List.length_drop] at hlength
  omega

lemma IsParameter.ne_paren {ch : Char} (h : IsParameter ch) : ch ≠ '(' := by
  rintro rfl
  exact absurd h (by unfold IsParameter; decide)

lemma IsParameter.expandVar_isSome {ch : Char} (h : IsParameter ch) (m : ℕ) :
    ∃ strs, expandVar c m [ch] = some strs := by
  rcases h with h | h
  · simp only [List.mem_cons, List.not_mem_nil, or_false] at h
    rcases h with rfl | rfl | rfl | rfl | rfl <;> exact ⟨_, rfl⟩
  · have hhead : ([ch] : Word).head?.any Char.isDigit = true := h
    have hall : ([ch] : Word).all Char.isDigit = true := by
      rw [List.all_cons, h]
      rfl
    rw [expandVar, if_pos hhead, if_pos hall]
    split_ifs <;> exact ⟨_, rfl⟩

@[simp] lemma appendArgs_moment (strs : List Word) (x : Expansion) : (x.appendArgs strs).moment = x.moment := by
  induction strs generalizing x with
  | nil => rfl
  | cons str strs ih =>
      cases strs with
      | nil => rfl
      | cons str' strs => exact ih _

lemma subSubstitution_false (h : x.rest.head? ≠ some '(') : subSubstitution c x = .ok (false, x) := if_pos h

lemma expandDollar_parameter {ch : Char} {rest : Word} {strs : List Word} (hch : IsParameter ch)
    (hx : x.rest = ch :: rest) (hstrs : expandVar c x.moment [ch] = some strs) :
    expandDollar c x = .ok { (x.appendArgs strs).pass (dollarLen (ch :: rest)) with moment := x.moment + 1 } := by
  have hsub : subSubstitution c x = .ok (false, x) := by
    refine subSubstitution_false ?_
    rw [hx]
    exact fun heq => hch.ne_paren (Option.some.inj heq)
  have hshell : subShellVar c x = (true, (x.appendArgs strs).pass (dollarLen (ch :: rest))) := by
    have htake : x.rest.take 1 = [ch] := by rw [hx]; rfl
    rw [subShellVar, htake, hstrs, Option.some_or, hx]
  refine expandDollar_eq_ok.mpr ⟨false, x, hsub, ?_⟩
  rw [if_neg Bool.false_ne_true, hshell, if_pos rfl]
  simp [Expansion.pass]

/-! ## Identifiers -/

lemma isNameChar_of_start {ch : Char} (h : isNameStart ch) : isNameChar ch := by
  rcases Bool.or_eq_true_iff.mp h with h | h
  · exact Bool.or_eq_true_iff.mpr (Or.inl (Bool.or_eq_true_iff.mpr (Or.inl h)))
  · exact Bool.or_eq_true_iff.mpr (Or.inr h)

lemma ne_of_isNameChar {ch d : Char} (hch : isNameChar ch) (hd : isNameChar d = false) : ch ≠ d := by
  rintro rfl
  rw [hch] at hd
  cases hd

lemma endsDollar_of_isNameChar {ch : Char} (h : isNameChar ch) : endsDollar ch = false := by
  have hspace := ne_of_isNameChar h (d := ' ') rfl
  have hdollar := ne_of_isNameChar h (d := '$') rfl
  have hquote := ne_of_isNameChar h (d := '"') rfl
  simp [endsDollar, hspace, hdollar, hquote]

lemma not_isDigit_of_start {ch : Char} (h : isNameStart ch) : ch.isDigit = false := by
  rcases Bool.or_eq_true_iff.mp h with h | h
  · have hcases : ch.isUpper ∨ ch.isLower := Bool.or_eq_true_iff.mp h
    have hletter : 'A'.val ≤ ch.val ∨ 'a'.val ≤ ch.val :=
      hcases.imp (fun h => (of_decide_eq_true h).1) fun h => of_decide_eq_true (Bool.and_eq_true_iff.mp h).1
    simp only [UInt32.le_iff_toNat_le] at hletter
    simp only [Char.isDigit, Bool.and_eq_false_iff, decide_eq_false_iff_not, ge_iff_le,
      UInt32.le_iff_toNat_le]
    have h9 : '9'.val.toNat = 57 := rfl
    have hA : 'A'.val.toNat = 65 := rfl
    have ha : 'a'.val.toNat = 97 := rfl
    omega
  · rw [of_decide_eq_true h]
    rfl

lemma expandVar_of_start {ch : Char} {cs : Word} (h : isNameStart ch) (m : ℕ) :
    expandVar c m (ch :: cs) = if ch :: cs = random then some (numToArgs (c.rand m)) else none := by
  have hne : ∀ d, isNameChar d = false → ch :: cs ≠ [d] := fun d hd heq =>
    ne_of_isNameChar (isNameChar_of_start h) hd (List.cons.inj heq).1
  have hdigit : ¬ (ch :: cs).head?.any Char.isDigit = true := by
    rw [List.head?_cons, Option.any_some, not_isDigit_of_start h]
    exact Bool.false_ne_true
  rw [expandVar, if_neg (hne _ rfl), if_neg (hne _ rfl), if_neg (hne _ rfl), if_neg (hne _ rfl),
    if_neg (hne _ rfl), if_neg hdigit]

variable {name rest : Word}

lemma IsIdentifier.isNameChar (h : IsIdentifier name) : ∀ ch ∈ name, isNameChar ch := by
  obtain ⟨ch, cs, rfl, hch, hcs⟩ := h
  intro d hd
  rcases List.mem_cons.mp hd with rfl | hd
  · exact isNameChar_of_start hch
  · exact hcs d hd

lemma append_take_eq {w : Word} (hw : ∀ ch ∈ w, isNameChar ch) (hlongest : ∀ ch, rest.head? = some ch → ¬ isNameChar ch)
    {k : ℕ} (h : name ++ rest.take k = w) : rest.take k = [] ∧ name = w := by
  have hnil : rest.take k = [] := by
    cases htake : rest.take k with
    | nil => rfl
    | cons d ds =>
        have hhead : rest.head? = some d := by
          obtain ⟨tail, htail⟩ := List.take_prefix k rest
          rw [← htail, htake]
          rfl
        have hmem : d ∈ w := by
          rw [← h, htake]
          exact List.mem_append_right name List.mem_cons_self
        exact absurd (hw d hmem) (hlongest d hhead)
  refine ⟨hnil, ?_⟩
  rw [← h, hnil, List.append_nil]

lemma IsIdentifier.dollarLen_append (h : IsIdentifier name) (rest : Word) :
    dollarLen (name ++ rest) = name.length + dollarLen rest :=
  BrebOS.Shell.dollarLen_append fun ch hch => endsDollar_of_isNameChar (h.isNameChar ch hch)

lemma IsIdentifier.take_dollarLen (h : IsIdentifier name) (rest : Word) :
    (name ++ rest).take (dollarLen (name ++ rest)) = name ++ rest.take (dollarLen rest) := by
  rw [h.dollarLen_append]
  exact List.take_length_add_append _

lemma strlenVar_append (h : IsIdentifier name) (hlongest : ∀ ch, rest.head? = some ch → ¬ isNameChar ch) :
    strlenVar (name ++ rest) = name.length := by
  obtain ⟨ch, cs, rfl, hch, hcs⟩ := h
  have hall : ∀ d ∈ ch :: cs, isNameChar d := by
    intro d hd
    rcases List.mem_cons.mp hd with rfl | hd
    · exact isNameChar_of_start hch
    · exact hcs d hd
  have hrest : rest.takeWhile isNameChar = [] := by
    cases rest with
    | nil => rfl
    | cons d ds => exact List.takeWhile_cons_of_neg (hlongest d rfl)
  have hstart : (ch :: cs ++ rest).head?.any isNameStart = true := hch
  rw [strlenVar, if_pos hstart, List.takeWhile_append_of_pos hall, hrest, List.append_nil]

lemma subSubstitution_identifier (h : IsIdentifier name) (hx : x.rest = name ++ rest) :
    subSubstitution c x = .ok (false, x) := by
  obtain ⟨ch, cs, rfl, hch, -⟩ := h
  refine subSubstitution_false ?_
  rw [hx]
  exact fun heq => ne_of_isNameChar (isNameChar_of_start hch) rfl (Option.some.inj heq)

lemma subShellVar_identifier (h : IsIdentifier name) (hlongest : ∀ ch, rest.head? = some ch → ¬ isNameChar ch)
    (hx : x.rest = name ++ rest) : subShellVar c x =
      if stops rest ∧ name = random then
        (true, (x.appendArgs (numToArgs (c.rand x.moment))).pass name.length)
      else (false, x) := by
  have hlen := h.dollarLen_append rest
  have hall : ∀ ch ∈ random, isNameChar ch := List.all_eq_true.mp rfl
  have htake := h.take_dollarLen rest
  obtain ⟨ch, cs, hname, hch, hcs⟩ := h
  have hone : (name ++ rest).take 1 = [ch] := by rw [hname]; rfl
  have hsingle : [ch] ≠ random := by
    intro heq
    cases heq
  have hhead : name ++ rest.take (dollarLen rest) = ch :: (cs ++ rest.take (dollarLen rest)) := by rw [hname]; rfl
  rw [subShellVar, hx, hone, htake, hhead, expandVar_of_start hch, expandVar_of_start hch, if_neg hsingle,
    Option.none_or, ← hhead]
  by_cases hstops : stops rest ∧ name = random
  · have hzero := dollarLen_eq_zero.mpr hstops.1
    rw [if_pos hstops, hlen, hzero, List.take_zero, List.append_nil, if_pos hstops.2]
    rfl
  · have hne : name ++ rest.take (dollarLen rest) ≠ random := by
      intro heq
      obtain ⟨hnil, hrandom⟩ := append_take_eq hall hlongest heq
      exact hstops ⟨stops_of_take hnil, hrandom⟩
    rw [if_neg hne, if_neg hstops]

lemma subUserVar_identifier (h : IsIdentifier name) (hlongest : ∀ ch, rest.head? = some ch → ¬ isNameChar ch)
    (hx : x.rest = name ++ rest) : subUserVar c x = .ok (match listGetValue c name with
      | some value => (true, (x.append value).pass name.length)
      | none => (false, x)) := by
  have hlen := strlenVar_append h hlongest
  have hne : name.length ≠ 0 := by
    obtain ⟨ch, cs, rfl, -⟩ := h
    exact Nat.succ_ne_zero _
  rw [subUserVar, hx, hlen, if_pos hne, List.take_left]
  cases listGetValue c name with
  | none => rfl
  | some value => rfl

lemma subEnvVar_identifier (h : IsIdentifier name) (hlongest : ∀ ch, rest.head? = some ch → ¬ isNameChar ch)
    (hx : x.rest = name ++ rest) : (subEnvVar c x).2 =
      if stops rest then (x.appendArgs (expandEnv c name).toList).pass name.length
      else x.pass (name.length + dollarLen rest) := by
  have hlen := h.dollarLen_append rest
  rw [subEnvVar, hx, h.take_dollarLen, hlen]
  by_cases hstops : stops rest
  · rw [dollarLen_eq_zero.mpr hstops, List.take_zero, List.append_nil, if_pos hstops]
    cases expandEnv c name with
    | none => rfl
    | some value => rfl
  · have hnone : expandEnv c (name ++ rest.take (dollarLen rest)) = none := by
      have hnames : envNames.all (·.all isNameChar) := by decide
      refine if_neg fun hmem => hstops (stops_of_take ?_)
      have hall := List.all_eq_true.mp (List.all_eq_true.mp hnames _ hmem)
      exact (append_take_eq hall hlongest rfl).1
    rw [hnone, if_neg hstops]

lemma expandDollar_identifier (h : IsIdentifier name) (hlongest : ∀ ch, rest.head? = some ch → ¬ isNameChar ch)
    (hx : x.rest = name ++ rest) : expandDollar c x = .ok
      (if stops rest then
        { (x.appendArgs (valueOf c x.moment name)).pass name.length with moment := x.moment + 1 }
      else match listGetValue c name with
        | some value => { (x.append value).pass name.length with moment := x.moment + 1 }
        | none => { x.pass (name.length + dollarLen rest) with moment := x.moment + 1 }) := by
  have hvalue : expandVar c x.moment name = if name = random then some (numToArgs (c.rand x.moment)) else none := by
    obtain ⟨ch, cs, rfl, hch, -⟩ := h
    exact expandVar_of_start hch x.moment
  have hshell := subShellVar_identifier (c := c) h hlongest hx
  have huser := subUserVar_identifier (c := c) h hlongest hx
  have henv := subEnvVar_identifier (c := c) h hlongest hx
  refine expandDollar_eq_ok.mpr ⟨false, x, subSubstitution_identifier h hx, ?_⟩
  rw [if_neg Bool.false_ne_true, hshell]
  by_cases hrandom : stops rest ∧ name = random
  · rw [if_pos hrandom, if_pos rfl, if_pos hrandom.1, valueOf, hvalue, if_pos hrandom.2, Option.getD_some]
    simp [Expansion.pass]
  · rw [if_neg hrandom, if_neg Bool.false_ne_true]
    have hnone : stops rest → valueOf c x.moment name = ((listGetValue c name).or (expandEnv c name)).toList := by
      intro hstops
      rw [valueOf, hvalue, if_neg fun hname => hrandom ⟨hstops, hname⟩, Option.getD_none]
    cases hlist : listGetValue c name with
    | some value =>
        rw [hlist] at huser hnone
        refine ⟨true, _, huser, ?_⟩
        rw [if_pos rfl]
        by_cases hstops : stops rest
        · rw [if_pos hstops, hnone hstops]
          rfl
        · rw [if_neg hstops]
          rfl
    | none =>
        rw [hlist] at huser hnone
        refine ⟨false, x, huser, ?_⟩
        rw [if_neg Bool.false_ne_true, henv]
        by_cases hstops : stops rest
        · rw [if_pos hstops, if_pos hstops, hnone hstops, Option.none_or]
          simp [Expansion.pass]
        · rw [if_neg hstops, if_neg hstops]
          rfl

/-! ## A dollar that is come to again -/

lemma pass_rest_eq (hrest : x.rest ≠ []) (h : (x.pass n).rest = x.rest) : n = 0 := by
  have hlength := congrArg List.length h
  have hpos := List.length_pos_iff.mpr hrest
  rw [Expansion.pass, List.length_drop] at hlength
  omega

lemma readUntilChar_pos {ch : Char} {cs : List Char} {len : ℕ}
    (h : Expansion.readUntilChar ch cs = .ok (some len)) : 0 < len := by
  cases cs with
  | nil => cases h
  | cons d ds =>
      obtain ⟨found, -, h⟩ := bind_eq_ok.mp h
      cases found with
      | none => cases h
      | some n =>
          cases h
          exact Nat.succ_pos n

lemma append_numToArgs_ne (m : ℤ) (x : Expansion) : (x.appendArgs (numToArgs m)).cur ≠ x.cur := by
  intro heq
  have hnil : (if m < 0 then '-' :: Nat.toDigits 10 m.natAbs else Nat.toDigits 10 m.natAbs) = [] :=
    List.append_cancel_left (heq.trans (List.append_nil _).symm)
  split at hnil
  · cases hnil
  · exact Nat.toDigits_ne_nil hnil

lemma expandVar_nil (m : ℕ) : expandVar c m [] = none := rfl

lemma endsDollar_cases {ch : Char} (h : endsDollar ch) : ch = ' ' ∨ ch = '$' ∨ ch = '"' := by
  simpa [endsDollar] using h

lemma subShellVar_endsDollar {ch : Char} {cs : List Char} (hch : endsDollar ch) (hx : x.rest = ch :: cs) :
    subShellVar c x = if ch = '$' then (true, x.appendArgs (numToArgs c.pid)) else (false, x) := by
  have hzero : dollarLen x.rest = 0 := by
    rw [hx]
    exact dollarLen_eq_zero.mpr hch
  have hone : x.rest.take 1 = [ch] := by rw [hx]; rfl
  rw [subShellVar, hzero, List.take_zero, expandVar_nil, Option.or_none, hone]
  rcases endsDollar_cases hch with rfl | rfl | rfl <;> rfl

lemma subShellVar_false (h : (subShellVar c x).1 = false) : (subShellVar c x).2 = x := by
  rw [subShellVar] at h ⊢
  split at h
  · cases h
  · rfl

lemma subShellVar_stays (hne : x.rest ≠ []) (h : (subShellVar c x).1 = true)
    (hrest : (subShellVar c x).2.rest = x.rest) : (subShellVar c x).2 = x.appendArgs (numToArgs c.pid) := by
  have hzero : dollarLen x.rest = 0 := by
    rw [subShellVar] at h hrest
    split at h
    · next strs hstrs =>
        rw [hstrs] at hrest
        have hpass : ((x.appendArgs strs).pass (dollarLen x.rest)).rest = (x.appendArgs strs).rest :=
          hrest.trans (appendArgs_rest strs x).symm
        exact pass_rest_eq (by rwa [appendArgs_rest]) hpass
    · cases h
  cases hx : x.rest with
  | nil => exact absurd hx hne
  | cons ch cs =>
      rw [hx] at hzero
      have hch : endsDollar ch := dollarLen_eq_zero.mp hzero
      rw [subShellVar_endsDollar hch hx] at h ⊢
      split at h
      · next heq => rw [if_pos heq]
      · cases h

lemma subUserVar_false (h : subUserVar c x = .ok (false, y)) : y = x := by
  rw [subUserVar] at h
  split at h
  · split at h
    · cases h
    · cases h
      rfl
  · split at h
    · cases h
    · split at h
      · obtain ⟨t, -, h⟩ := bind_eq_ok.mp h
        cases h
      · cases h
        rfl

lemma subUserVar_moves (hne : x.rest ≠ []) (h : subUserVar c x = .ok (true, y)) : y.rest ≠ x.rest := by
  intro hrest
  rw [subUserVar] at h
  split at h
  · next hlen =>
      split at h
      · cases h
        exact hlen (pass_rest_eq hne hrest)
      · cases h
  · split at h
    · cases h
    · split at h
      · obtain ⟨t, ht, h⟩ := bind_eq_ok.mp h
        cases h
        rw [advance_eq_ok ht] at hrest
        exact absurd (pass_rest_eq hne hrest) (Nat.succ_ne_zero _)
      · cases h

lemma subEnvVar_rest : (subEnvVar c x).2.rest = (x.pass (dollarLen x.rest)).rest := by
  rw [subEnvVar]
  split <;> rfl

lemma subUserVar_endsDollar {ch : Char} {cs : List Char} (hch : endsDollar ch) (hx : x.rest = ch :: cs) :
    subUserVar c x = .ok (false, x) ↔ listGetValue c (cs.take (strlenVar cs)) = none := by
  have hstart : isNameStart ch = false := by
    rcases endsDollar_cases hch with rfl | rfl | rfl <;> rfl
  have hlen : strlenVar x.rest = 0 := by
    rw [hx, strlenVar, List.head?_cons, Option.any_some, hstart]
    rfl
  rw [subUserVar, if_neg (not_not_intro hlen), hx]
  dsimp only
  split
  · next value hvalue =>
      rw [hvalue]
      constructor
      · intro h
        obtain ⟨t, -, h⟩ := bind_eq_ok.mp h
        cases h
      · intro h
        cases h
  · next hnone => exact ⟨fun _ => hnone, fun _ => rfl⟩

lemma expandDollar_nil (hx : x.rest = []) (y : Expansion) : expandDollar c x ≠ .ok y := by
  intro h
  obtain ⟨found₁, x₁, hsub, h⟩ := expandDollar_eq_ok.mp h
  rw [subSubstitution_false (by rw [hx]; exact fun heq => by cases heq)] at hsub
  cases hsub
  have hshell : subShellVar c x = (false, x) := by
    rw [subShellVar, hx]
    rfl
  have huser : subUserVar c x = .error .undefined := by
    rw [subUserVar, hx]
    rfl
  rw [if_neg Bool.false_ne_true, hshell, if_neg Bool.false_ne_true, huser] at h
  obtain ⟨found₃, x₃, h, -⟩ := h
  cases h

lemma dollarVanishes_paren {cs : List Char} (hx : x.rest = '(' :: cs) :
    (∃ y, expandDollar c x = .ok y ∧ y.done = x.done ∧ y.cur = x.cur ∧ y.rest = x.rest) ↔
      Expansion.readUntilChar ')' ('(' :: cs) = .ok none ∧ c.substitute x.moment cs = [] := by
  have hne : x.rest ≠ [] := by
    rw [hx]
    exact List.cons_ne_nil '(' cs
  have hhead : ¬ x.rest.head? ≠ some '(' := by
    rw [hx]
    exact not_not_intro rfl
  have hcommand : x.rest.drop 1 = cs := by rw [hx]; rfl
  constructor
  · rintro ⟨y, hy, -, hcur, hrest⟩
    obtain ⟨found₁, x₁, hsub, h⟩ := expandDollar_eq_ok.mp hy
    rw [subSubstitution, if_neg hhead] at hsub
    obtain ⟨len, hlen, hsub⟩ := bind_eq_ok.mp hsub
    cases len with
    | some len =>
        cases hsub
        rw [if_pos rfl] at h
        subst h
        exact absurd (pass_rest_eq hne hrest) (readUntilChar_pos hlen).ne'
    | none =>
        cases hsub
        rw [if_pos rfl] at h
        subst h
        rw [hx] at hlen
        have happend : x.cur ++ c.substitute x.moment (x.rest.drop 1) = x.cur := hcur
        rw [hcommand] at happend
        exact ⟨hlen, List.append_cancel_left (happend.trans (List.append_nil _).symm)⟩
  · rintro ⟨hlen, hnothing⟩
    have hsub : subSubstitution c x = .ok (true, x.append []) := by
      rw [subSubstitution, if_neg hhead, hcommand, hnothing, hx, hlen]
      rfl
    refine ⟨_, expandDollar_eq_ok.mpr ⟨true, _, hsub, rfl⟩, rfl, ?_, rfl⟩
    exact List.append_nil _

lemma dollarVanishes_iff : (∃ y, expandDollar c x = .ok y ∧ y.done = x.done ∧ y.cur = x.cur ∧ y.rest = x.rest) ↔
    DollarVanishes c x.moment x.rest := by
  cases hx : x.rest with
  | nil => exact ⟨fun ⟨y, hy, _⟩ => expandDollar_nil hx y hy, False.elim⟩
  | cons ch cs =>
      have hne : x.rest ≠ [] := by
        rw [hx]
        exact List.cons_ne_nil ch cs
      by_cases hparen : ch = '('
      · subst hparen
        rw [← hx, dollarVanishes_paren hx, hx, DollarVanishes]
        simp
      · have hsub : subSubstitution c x = .ok (false, x) := by
          refine subSubstitution_false ?_
          rw [hx]
          exact fun heq => hparen (Option.some.inj heq)
        constructor
        · rintro ⟨y, hy, -, hcur, hrest⟩
          rw [← hx] at hrest
          obtain ⟨found₁, x₁, hsub₁, h⟩ := expandDollar_eq_ok.mp hy
          rw [hsub] at hsub₁
          cases hsub₁
          rw [if_neg Bool.false_ne_true] at h
          split at h
          · next hshell =>
              subst h
              rw [subShellVar_stays hne hshell hrest] at hcur
              exact absurd hcur (append_numToArgs_ne c.pid x)
          · next hshell =>
              have hfalse := Bool.eq_false_iff.mpr hshell
              rw [subShellVar_false hfalse] at h
              obtain ⟨found₃, x₃, huser, h⟩ := h
              cases found₃ with
              | true =>
                  rw [if_pos rfl] at h
                  subst h
                  have hstays : x₃.rest = x.rest := hrest
                  exact absurd hstays (subUserVar_moves hne huser)
              | false =>
                  cases subUserVar_false huser
                  rw [if_neg Bool.false_ne_true] at h
                  subst h
                  have hzero := pass_rest_eq hne (subEnvVar_rest.symm.trans hrest)
                  rw [hx] at hzero
                  have hch : endsDollar ch := dollarLen_eq_zero.mp hzero
                  have hnone := (subUserVar_endsDollar hch hx).mp huser
                  have hdollar : ch ≠ '$' := by
                    intro heq
                    rw [subShellVar_endsDollar hch hx, if_pos heq] at hfalse
                    cases hfalse
                  rcases endsDollar_cases hch with heq | heq | heq
                  · exact Or.inl ⟨Or.inl heq, hnone⟩
                  · exact absurd heq hdollar
                  · exact Or.inl ⟨Or.inr heq, hnone⟩
        · rintro (⟨hblank, hnone⟩ | ⟨heq, -⟩)
          · have hch : endsDollar ch ∧ ch ≠ '$' := by
              rcases hblank with rfl | rfl <;> decide
            have hshell : subShellVar c x = (false, x) := by
              rw [subShellVar_endsDollar hch.1 hx, if_neg hch.2]
            have huser := (subUserVar_endsDollar hch.1 hx).mpr hnone
            have henv : (subEnvVar c x).2 = x := by
              have hzero : dollarLen x.rest = 0 := by
                rw [hx]
                exact dollarLen_eq_zero.mpr hch.1
              rw [subEnvVar, hzero]
              rfl
            refine ⟨{ x with moment := x.moment + 1 }, expandDollar_eq_ok.mpr ⟨false, x, hsub, ?_⟩, rfl, rfl, hx⟩
            rw [if_neg Bool.false_ne_true, hshell, if_neg Bool.false_ne_true]
            refine ⟨false, x, huser, ?_⟩
            rw [if_neg Bool.false_ne_true, henv]
          · exact absurd heq hparen

end

end BrebOS.Shell
