import BrebOS.Programs.Shell.Expansion
import BrebOS.Programs.Shell.Lexer

/-!
# The end of a quoted section

A section in double quotes ends at the first quote with an even number of backslashes before it.  The
lexer finds that quote in one pass.  The expansion looks for it by hops, each as long as the way to the
first quote of all.
-/

namespace BrebOS.Shell

/-- How many backslashes stand right before a position. -/
def backslashesBefore (input : List Char) : ℕ → ℕ
  | 0 => 0
  | q + 1 => if input[q]? = some '\\' then backslashesBefore input q + 1 else 0

/-- A quote that is not escaped. -/
def EndsSection (input : List Char) (q : ℕ) : Prop :=
  input[q]? = some '"' ∧ Even (backslashesBefore input q)

/-- The first quote that is not escaped, or the length. -/
structure IsSectionEnd (input : List Char) (e : ℕ) : Prop where
  bounded : e ≤ input.length
  closed : e < input.length → EndsSection input e
  first : ∀ q < e, ¬ EndsSection input q

/-- `strcspn(input, "\"")` -/
def firstQuote (input : List Char) : ℕ := (input.takeWhile (· ≠ '"')).length

/-- Where a hop to a position ends: a single backslash before it is taken for an escape. -/
def landing (input : List Char) (q : ℕ) : ℕ := if backslashesBefore input q = 1 then q + 1 else q

/-- Hops lead from one position to another, without a quote on the way. -/
inductive Hops (input : List Char) : ℕ → ℕ → Prop
  | here (q : ℕ) : Hops input q q
  | hop {q e : ℕ} (hlt : q < input.length) (hquote : input[q]? ≠ some '"')
      (h : Hops input (landing input (q + firstQuote input)) e) : Hops input q e

/-- What the expansion finds, when it is right: the end of the section, and where the lexer has found one in
this text, the same. -/
def QuoteLenRight (input : List Char) : Prop :=
  ∃ e, getNextQuoteLen input = .ok e ∧ IsSectionEnd input e ∧
    ∀ fuel s s' body, readUntilCharLoop fuel '"' s = .ok (true, s') → s'.taken = s.taken ++ body ++ ['"'] →
      body ++ ['"'] <+: input → e = body.length

/-- The first quote is not escaped, or there is none and no single backslash at the end; or the first quote
has a single backslash before it, and hops lead from behind it to the end of the section. -/
def QuotesPlain (input : List Char) : Prop :=
  if firstQuote input = input.length then backslashesBefore input input.length ≠ 1
  else Even (backslashesBefore input (firstQuote input)) ∨
    backslashesBefore input (firstQuote input) = 1 ∧
      ∃ e, IsSectionEnd input e ∧ Hops input (firstQuote input + 1) e

variable {input : List Char} {q e e' n : ℕ}

/-! ## The end of a section -/

lemma IsSectionEnd.unique (h : IsSectionEnd input e) (h' : IsSectionEnd input e') : e = e' := by
  rcases lt_trichotomy e e' with hlt | heq | hlt
  · exact absurd (h.closed (hlt.trans_le h'.bounded)) (h'.first e hlt)
  · exact heq
  · exact absurd (h'.closed (hlt.trans_le h.bounded)) (h.first e' hlt)

lemma firstQuote_le (input : List Char) : firstQuote input ≤ input.length :=
  (List.takeWhile_prefix _).length_le

lemma not_quote_before (hq : q < firstQuote input) : input[q]? ≠ some '"' := by
  intro hquote
  have hmem : (input.takeWhile (· ≠ '"'))[q]? = some '"' := by
    have htake : input.takeWhile (· ≠ '"') = input.take (firstQuote input) :=
      List.prefix_iff_eq_take.mp (List.takeWhile_prefix _)
    rw [htake, List.getElem?_take_of_lt hq, hquote]
  simpa using List.all_eq_true.mp List.all_takeWhile '"' (List.mem_of_getElem? hmem)

lemma quote_at_first (h : firstQuote input ≠ input.length) : input[firstQuote input]? = some '"' := by
  have hsplit : input = input.takeWhile (· ≠ '"') ++ input.dropWhile (· ≠ '"') :=
    List.takeWhile_append_dropWhile.symm
  have hhead := List.head?_dropWhile_not (fun c => decide (c ≠ '"')) input
  cases hrest : input.dropWhile (· ≠ '"') with
  | nil =>
      rw [hrest, List.append_nil] at hsplit
      exact absurd (congrArg List.length hsplit).symm h
  | cons c rest =>
      rw [hrest] at hsplit hhead
      have hc : c = '"' := by simpa using hhead
      have hget : (input.takeWhile (· ≠ '"') ++ c :: rest)[firstQuote input]? = some c := by
        rw [firstQuote, List.getElem?_append_right le_rfl, Nat.sub_self]
        rfl
      rwa [← hsplit, hc] at hget

lemma isSectionEnd_first (h : firstQuote input = input.length ∨
    Even (backslashesBefore input (firstQuote input))) : IsSectionEnd input (firstQuote input) := by
  refine ⟨firstQuote_le input, ?_, ?_⟩
  · intro hlt
    exact ⟨quote_at_first hlt.ne, h.resolve_left hlt.ne⟩
  · intro q hq hend
    exact not_quote_before hq hend.1

/-! ## The hops -/

lemma backslashesBefore_eq_one (hq : 0 < q) : backslashesBefore input q = 1 ↔
    input[q - 1]? = some '\\' ∧ (q = 1 ∨ input[q - 2]? ≠ some '\\') := by
  obtain ⟨q, rfl⟩ : ∃ k, q = k + 1 := ⟨q - 1, by omega⟩
  cases q with
  | zero => simp [backslashesBefore]
  | succ q =>
      simp only [backslashesBefore, Nat.add_sub_cancel]
      by_cases hlast : input[q + 1]? = some '\\'
      · by_cases hprev : input[q]? = some '\\' <;> simp [hlast, hprev]
      · simp [hlast]

lemma getNextQuoteLenLoop_turn (hq : 0 < q + firstQuote input) (hlt : q < input.length)
    (hquote : input[q]? ≠ some '"') :
    getNextQuoteLenLoop input (n + 1) q =
      getNextQuoteLenLoop input n (landing input (q + firstQuote input)) := by
  have hfirst : (input.takeWhile (· ≠ '"')).length = firstQuote input := rfl
  rw [getNextQuoteLenLoop, if_neg (by simp [hlt.ne, hquote]), if_neg (by omega), landing]
  simp only [hfirst, backslashesBefore_eq_one hq]
  generalize q + firstQuote input = p at hq
  by_cases hone : p = 1
  · subst hone
    by_cases hfront : input[0]? = some '\\' <;> simp [hfront]
  · have hlong : 1 < p := by omega
    simp only [hone, hlong, false_and, true_and, false_or, if_false]
    split_ifs <;> rfl

lemma landing_le (input : List Char) (q : ℕ) : q ≤ landing input q := by
  rw [landing]
  split_ifs
  · exact Nat.le_succ q
  · exact le_rfl

lemma Hops.le (h : Hops input q e) : q ≤ e := by
  induction h with
  | here q => exact le_rfl
  | @hop q e hlt hquote h ih =>
      have hland := landing_le input (q + firstQuote input)
      omega

lemma getNextQuoteLenLoop_eq (hfirst : 0 < firstQuote input) : ∀ {n q : ℕ}, input.length + 1 < n + q →
    (getNextQuoteLenLoop input n q = .ok e ↔
      Hops input q e ∧ e ≤ input.length ∧ (e < input.length → input[e]? = some '"')) := by
  intro n
  induction n with
  | zero =>
      intro q hn
      constructor
      · intro h
        cases h
      · rintro ⟨h, hbound, -⟩
        have := h.le
        omega
  | succ n ih =>
      intro q hn
      by_cases hstop : q = input.length ∨ input[q]? = some '"'
      · rw [getNextQuoteLenLoop, if_pos hstop, Except.ok.injEq]
        constructor
        · rintro rfl
          refine ⟨.here q, ?_, fun hlt => hstop.resolve_left hlt.ne⟩
          rcases hstop with heq | hquote
          · exact heq.le
          · exact (List.getElem?_eq_some_iff.mp hquote).1.le
        · rintro ⟨h, -, -⟩
          cases h with
          | here => rfl
          | hop hlt hquote h => exact absurd (hstop.resolve_left hlt.ne) hquote
      · by_cases hover : input.length < q
        · rw [getNextQuoteLenLoop, if_neg hstop, if_pos hover]
          constructor
          · intro h
            cases h
          · rintro ⟨h, hbound, -⟩
            have := h.le
            omega
        · rw [not_or] at hstop
          have hlt : q < input.length := by omega
          have hland := landing_le input (q + firstQuote input)
          rw [getNextQuoteLenLoop_turn (by omega) hlt hstop.2, ih (by omega)]
          constructor
          · rintro ⟨h, hbound⟩
            exact ⟨.hop hlt hstop.2 h, hbound⟩
          · rintro ⟨h, hbound, hclosed⟩
            cases h with
            | here => exact absurd (hclosed hlt) hstop.2
            | hop _ _ h => exact ⟨h, hbound, hclosed⟩

lemma IsSectionEnd.stops (h : IsSectionEnd input e) :
    e ≤ input.length ∧ (e < input.length → input[e]? = some '"') :=
  ⟨h.bounded, fun hlt => (h.closed hlt).1⟩

lemma Hops.eq_first (h : Hops input (firstQuote input) e) : e = firstQuote input := by
  cases h with
  | here => rfl
  | hop hlt hquote h => exact absurd (quote_at_first hlt.ne) hquote

lemma getNextQuoteLen_hops (hfirst : 0 < firstQuote input) :
    (∃ e, getNextQuoteLen input = .ok e ∧ IsSectionEnd input e) ↔
      ∃ e, IsSectionEnd input e ∧ Hops input (landing input (firstQuote input)) e := by
  have hlen : 0 < input.length := hfirst.trans_le (firstQuote_le input)
  have hstart : input[0]? ≠ some '"' := not_quote_before hfirst
  constructor
  · rintro ⟨e, hrun, hend⟩
    rw [getNextQuoteLen, getNextQuoteLenLoop_eq hfirst (by omega)] at hrun
    refine ⟨e, hend, ?_⟩
    cases hrun.1 with
    | here => exact absurd (hend.stops.2 hlen) hstart
    | hop _ _ h =>
        rw [Nat.zero_add] at h
        exact h
  · rintro ⟨e, hend, h⟩
    refine ⟨e, ?_, hend⟩
    rw [getNextQuoteLen, getNextQuoteLenLoop_eq hfirst (by omega)]
    refine ⟨.hop hlen hstart ?_, hend.stops⟩
    rw [Nat.zero_add]
    exact h

lemma getNextQuoteLen_iff :
    (∃ e, getNextQuoteLen input = .ok e ∧ IsSectionEnd input e) ↔ QuotesPlain input := by
  rw [QuotesPlain]
  rcases Nat.eq_zero_or_pos (firstQuote input) with hzero | hfirst
  · -- the section is empty
    have hstop : 0 = input.length ∨ input[0]? = some '"' := by
      by_cases hlen : firstQuote input = input.length
      · exact Or.inl (hzero.symm.trans hlen)
      · have hquote := quote_at_first hlen
        rw [hzero] at hquote
        exact Or.inr hquote
    have hrun : getNextQuoteLen input = .ok 0 := by rw [getNextQuoteLen, getNextQuoteLenLoop, if_pos hstop]
    have heven : Even (backslashesBefore input (firstQuote input)) := by
      rw [hzero]
      exact Even.zero
    have hend := isSectionEnd_first (Or.inr heven)
    rw [hzero] at hend
    refine iff_of_true ⟨0, hrun, hend⟩ ?_
    split_ifs with hlen
    · rw [← hlen, hzero]
      exact Nat.zero_ne_one
    · exact Or.inl heven
  · rw [getNextQuoteLen_hops hfirst, landing]
    by_cases hone : backslashesBefore input (firstQuote input) = 1
    · rw [if_pos hone]
      split_ifs with hlen
      · -- the hop ends behind the string
        rw [hlen] at hone ⊢
        simp only [hone, ne_eq, not_true_eq_false, iff_false]
        rintro ⟨e, hend, h⟩
        have hle := h.le
        have hbound := hend.bounded
        omega
      · simp [hone]
    · rw [if_neg hone]
      constructor
      · rintro ⟨e, hend, h⟩
        rw [h.eq_first] at hend
        split_ifs with hlen
        · rwa [← hlen]
        · exact Or.inl (hend.closed (lt_of_le_of_ne (firstQuote_le input) hlen)).2
      · intro h
        refine ⟨_, isSectionEnd_first ?_, .here _⟩
        split_ifs at h with hlen
        · exact Or.inl hlen
        · exact Or.inr (h.resolve_right fun h => hone h.1)

/-! ## What the lexer finds -/

/-- The text of a section: single characters, and characters behind a backslash. -/
inductive Body : List Char → Prop
  | nil : Body []
  | plain {c : Char} {cs : List Char} (hquote : c ≠ '"') (hbackslash : c ≠ '\\') (h : Body cs) :
      Body (c :: cs)
  | escaped {c : Char} {cs : List Char} (h : Body cs) : Body ('\\' :: c :: cs)

lemma drop_eq_cons {c : Char} {cs : List Char} (h : input.drop q = c :: cs) :
    input[q]? = some c ∧ input.drop (q + 1) = cs := by
  refine ⟨?_, ?_⟩
  · rw [← List.head?_drop, h]
    rfl
  · rw [← List.tail_drop, h]
    rfl

lemma body_ends {body rest : List Char} (hbody : Body body) : ∀ {q : ℕ}, Even (backslashesBefore input q) →
    input.drop q = body ++ '"' :: rest →
      (∀ i, q ≤ i → i < q + body.length → ¬ EndsSection input i) ∧ EndsSection input (q + body.length) := by
  induction hbody with
  | nil =>
      intro q heven hrest
      refine ⟨?_, (drop_eq_cons hrest).1, heven⟩
      intro i hle hlt
      exact absurd hlt (not_lt.mpr hle)
  | @plain c cs hquote hbackslash h ih =>
      intro q heven hrest
      obtain ⟨hc, hnext⟩ := drop_eq_cons hrest
      have heven' : Even (backslashesBefore input (q + 1)) := by
        rw [backslashesBefore, hc, if_neg (by simpa using hbackslash)]
        exact Even.zero
      obtain ⟨hfirst, hend⟩ := ih heven' hnext
      rw [List.length_cons, Nat.add_comm cs.length, ← Nat.add_assoc]
      refine ⟨?_, hend⟩
      intro i hle hlt hi
      rcases Nat.eq_or_lt_of_le hle with rfl | hlater
      · exact hquote (Option.some.inj (hc.symm.trans hi.1))
      · exact hfirst i hlater hlt hi
  | @escaped c cs h ih =>
      intro q heven hrest
      obtain ⟨hbackslash, hnext⟩ := drop_eq_cons hrest
      obtain ⟨hc, hnext'⟩ := drop_eq_cons hnext
      have hodd : backslashesBefore input (q + 1) = backslashesBefore input q + 1 := by
        rw [backslashesBefore, if_pos hbackslash]
      have heven' : Even (backslashesBefore input (q + 1 + 1)) := by
        rw [backslashesBefore]
        split_ifs
        · rw [hodd]
          exact heven.add (by decide : Even 2)
        · exact Even.zero
      obtain ⟨hfirst, hend⟩ := ih heven' hnext'
      have hlen : q + ('\\' :: c :: cs).length = q + 1 + 1 + cs.length := by
        simp only [List.length_cons]
        omega
      rw [hlen]
      refine ⟨?_, hend⟩
      intro i hle hlt hi
      rcases Nat.eq_or_lt_of_le hle with rfl | hlater
      · have hchar := hbackslash.symm.trans hi.1
        exact absurd (Option.some.inj hchar) (by decide)
      · rcases Nat.eq_or_lt_of_le hlater with rfl | hlater
        · have hparity := hi.2
          rw [hodd, Nat.even_add_one] at hparity
          exact hparity heven
        · exact hfirst i hlater hlt hi

lemma isSectionEnd_body {body : List Char} (hbody : Body body) (hinput : body ++ ['"'] <+: input) :
    IsSectionEnd input body.length := by
  obtain ⟨rest, rfl⟩ := hinput
  have hrest : (body ++ ['"'] ++ rest).drop 0 = body ++ '"' :: rest := by simp
  have heven : Even (backslashesBefore (body ++ ['"'] ++ rest) 0) := Even.zero
  obtain ⟨hfirst, hend⟩ := body_ends hbody heven hrest
  rw [Nat.zero_add] at hfirst hend
  refine ⟨?_, fun _ => hend, fun i hi => hfirst i (Nat.zero_le i) hi⟩
  simp only [List.length_append]
  omega

lemma getNextLine_taken {s s' : Scan} (h : getNextLine s = (true, s')) :
    s'.taken = s.taken ++ s.rest.take 1 := by
  rw [getNextLine] at h
  cases hline : ioBackendGetLine s.file with
  | mk line file =>
      rw [hline] at h
      cases line with
      | none => cases h
      | some line =>
          cases h
          rfl

lemma readUntilCharLoop_body : ∀ {n : ℕ} {s s' : Scan}, readUntilCharLoop n '"' s = .ok (true, s') →
    ∃ body, Body body ∧ s'.taken = s.taken ++ body ++ ['"'] := by
  intro n
  induction n with
  | zero =>
      intro s s' h
      cases h
  | succ n ih =>
      intro s s' h
      rw [readUntilCharLoop] at h
      cases hrest : s.rest with
      | nil =>
          rw [hrest] at h
          cases h
      | cons d cs =>
          rw [hrest] at h
          dsimp only at h
          have hpass : (s.pass 1).taken = s.taken ++ [d] := by simp [Scan.pass, hrest]
          -- one character, and then the rest of the section
          have hplain : ∀ t, t.taken = s.taken ++ [d] → d ≠ '"' → d ≠ '\\' →
              readUntilCharLoop n '"' t = .ok (true, s') →
                ∃ body, Body body ∧ s'.taken = s.taken ++ body ++ ['"'] := by
            intro t ht hquote hbackslash hrun
            obtain ⟨body, hbody, htaken⟩ := ih hrun
            exact ⟨d :: body, hbody.plain hquote hbackslash, by simp [htaken, ht]⟩
          split at h
          · next hquote =>
              cases h
              exact ⟨[], .nil, by simp [hpass, hquote]⟩
          · next hquote =>
              split at h
              · next hbackslash =>
                  subst hbackslash
                  cases cs with
                  | nil => cases h
                  | cons e es =>
                      dsimp only at h
                      -- a backslash and the character behind it, and then the rest of the section
                      have hescaped : ∀ t, t.taken = s.taken ++ ['\\', e] →
                          readUntilCharLoop n '"' t = .ok (true, s') →
                            ∃ body, Body body ∧ s'.taken = s.taken ++ body ++ ['"'] := by
                        intro t ht hrun
                        obtain ⟨body, hbody, htaken⟩ := ih hrun
                        exact ⟨'\\' :: e :: body, hbody.escaped, by simp [htaken, ht]⟩
                      split at h
                      · next hsingle => exact absurd (hsingle.1.symm.trans hsingle.2) (by decide)
                      · split at h
                        · split at h
                          · cases h
                          · next hline =>
                              refine hescaped _ ?_ h
                              rw [getNextLine_taken hline, hpass]
                              simp [hrest]
                        · exact hescaped (s.pass 2) (by simp [Scan.pass, hrest]) h
              · next hbackslash =>
                  split at h
                  · split at h
                    · next hparen => exact absurd hparen (by decide)
                    · exact hplain _ hpass hquote hbackslash h
                  · split at h
                    · split at h
                      · cases h
                      · next hline =>
                          refine hplain _ ?_ hquote hbackslash h
                          rw [getNextLine_taken hline, hrest]
                          rfl
                    · exact hplain _ hpass hquote hbackslash h

end BrebOS.Shell
