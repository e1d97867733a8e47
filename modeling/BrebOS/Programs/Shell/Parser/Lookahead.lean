import BrebOS.Programs.Shell.Parser.Grammar

/-!
# What the parser looks at

How the rules of the parser read tokens, and which tokens they tell apart.  A simple command goes on as far
as it can: its words end where no word and no redirection follows.
-/

namespace BrebOS.Shell

open Attempt

section Basics

variable {α : Type} {f : Token → Rule α} {g : Unit → Rule α} {ts ts' ns rest : List Token} {t : Token}
  {rule last : Rule Ast} {rules : List (Rule Ast)} {type : TokenType} {ast : Ast} {r : Option Ast}

@[simp] lemma peek_bind : (peek >>= f).run ts = (f (ts.headD endToken)).run ts := rfl

@[simp] lemma peek2_bind : (peek2 >>= f).run ts = (f (ts.tail.headD endToken)).run ts := rfl

@[simp] lemma pop_bind : (pop >>= f).run ts = (f (ts.headD endToken)).run ts.tail := rfl

@[simp] lemma skipNewlines_bind :
    (skipNewlines >>= g).run ts = (g ()).run (ts.dropWhile fun t => t.type = .NEWLINE) := rfl

lemma tryRule_run (h : rule.run ts = .ok (r, ts')) :
    (tryRule rule).run ts = .ok (some (r.getD .null), ts') := by
  rw [tryRule, bind_run (attempt_run h)]
  rfl

lemma expect_bind (h : (ts.headD endToken).type = type) : (expect type >>= g).run ts = (g ()).run ts.tail :=
    by
  have hrun : (expect type).run ts = .ok (some (), ts.tail) := by
    rw [expect, peek_bind, if_neg (not_not.mpr h)]
    rfl
  exact bind_run hrun

lemma expect_none (h : (ts.headD endToken).type ≠ type) : (expect type).run ts = .ok (none, ts) := by
  rw [expect, peek_bind, if_pos h]
  rfl

lemma tryRules_skip (h : rule.run ts = .ok (none, ts)) :
    (tryRules last (rule :: rules)).run ts = (tryRules last rules).run ts := by
  rw [tryRules, bind_run (tryRule_run h)]
  rfl

lemma tryRules_take (h : rule.run ts = .ok (some ast, ts')) (hast : isNull ast = false) :
    (tryRules last (rule :: rules)).run ts = .ok (some ast, ts') := by
  rw [tryRules, bind_run (tryRule_run h), Option.getD_some, hast]
  rfl

lemma dropWhile_newlines (hns : Newlines ns) (h : (rest.headD endToken).type ≠ .NEWLINE) :
    (ns ++ rest).dropWhile (fun t => t.type = .NEWLINE) = rest := by
  rw [List.dropWhile_append_of_pos fun t ht => decide_eq_true (hns t ht)]
  cases rest with
  | nil => rfl
  | cons t rest => exact List.dropWhile_cons_of_neg (by simpa using h)

end Basics

/-! ## What may come next -/

/-- The tokens that a simple command begins with. -/
def startsSimple : TokenType → Bool
  | .WORD | .IONUMBER | .REDIR_LG | .REDIR_GO | .REDIR_LA | .REDIR_GA | .REDIR_GG | .REDIR_G | .REDIR_L =>
  true
  | _ => false

/-- The tokens that a shell command begins with. -/
def opens : TokenType → Bool
  | .IF | .WHILE | .UNTIL | .FOR | .LPAREN | .LBRACE => true
  | _ => false

/-- The tokens that a command begins with. -/
def startsCommand (type : TokenType) : Bool := startsSimple type || opens type

/-- The tokens that a list of commands begins with. -/
def starts (type : TokenType) : Bool := type = .NOT || startsCommand type

/-- The tokens that stand for a word. -/
def wordLike (type : TokenType) : Bool := type = .WORD || (reservedWords.lookup type).isSome

/-- The type of the next token. -/
def nextType (ts : List Token) : TokenType := (ts.headD endToken).type

/-- No command begins here, and behind a wordy one there is no word. -/
structure Follows (w : Bool) (rest : List Token) : Prop where
  quiet : starts (nextType rest) = false
  word : w = true → wordLike (nextType rest) = false

section Next

variable {t : Token} {rest : List Token} {type : TokenType} {w : Bool} {str : Word}

lemma wordify_type : (wordify t).type = .WORD ↔ wordLike t.type = true := by
  rw [wordify, wordLike]
  cases h : reservedWords.lookup t.type <;> simp

lemma word_eq_some (h : t.word = some str) : (wordify t).type = .WORD ∧ (wordify t).text = str := by
  rw [Token.word] at h
  split at h
  · exact ⟨‹_›, Option.some.inj h⟩
  · cases h

lemma redirType_none (h : startsSimple type = false) : redirType type = none := by
  cases type <;> first | rfl | cases h

lemma startsSimple_none (h : starts type = false) : startsSimple type = false := by
  rw [starts, startsCommand, Bool.or_eq_false_iff, Bool.or_eq_false_iff] at h
  exact h.2.1

lemma startsSimple_opens (h : opens type = true) : startsSimple type = false := by
  cases type <;> first | rfl | cases h

lemma Follows.ne (h : Follows w rest) (hstart : starts type = true) : nextType rest ≠ type := by
  intro heq
  rw [← heq, h.quiet] at hstart
  cases hstart

lemma nextType_cons (h : t.type = type) : nextType (t :: rest) = type := h

lemma follows_of_eq (h : nextType rest = type) (hstart : starts type = false)
    (hword : wordLike type = false) : Follows w rest :=
  ⟨h ▸ hstart, fun _ => h ▸ hword⟩

end Next

/-! ## Simple commands -/

section Simple

variable {n : ℕ} {ts ts' ts'' us es rest : List Token} {t op : Token} {ps : List (Word ⊕ RedirInfo)}
  {ws : List Word} {w : Word} {rs : List RedirInfo} {r : RedirInfo} {ast p2 : Ast} {rule : Rule Ast}
  {type : RedirType} {fd : ℤ}

lemma prefixed_hangOn : (prefixed ps .null).hangOn ast = prefixed ps ast := by
  induction ps with
  | nil => rfl
  | cons p ps ih => cases p <;> exact congrArg _ ih

lemma redirects_hangOn : (redirects rs .null).hangOn ast = redirects rs ast := by
  induction rs with
  | nil => rfl
  | cons r rs ih => exact congrArg _ ih

lemma isNull_prefixed (hps : ps ≠ []) : isNull (prefixed ps ast) = false := by
  cases ps with
  | nil => exact absurd rfl hps
  | cons p ps => cases p <;> rfl

lemma isNull_redirects : isNull (redirects rs (.argv ws)) = false := by
  cases rs <;> rfl

lemma parseOperator_run (hop : redirType op.type = some type) (hw : t.word = some w) :
    (parseOperator fd).run (op :: t :: rest) = .ok (some (.redir
    { type := type, fd := fd, word := w } .null), rest) := by
  obtain ⟨hword, rfl⟩ := word_eq_some hw
  simp [parseOperator, hop, hword]

lemma IsRedirection.next (h : IsRedirection us r) (rest : List Token) :
    nextType (us ++ rest) = .IONUMBER ∨ ∃ type, redirType (nextType (us ++ rest)) = some type := by
  cases h with
  | plain hop hw => exact .inr ⟨_, hop⟩
  | numbered hio hop hw => exact .inl hio

lemma IsRedirection.pos (h : IsRedirection us r) : 0 < us.length := by
  cases h <;> simp

lemma IsRedirection.not_wordLike (h : IsRedirection us r) (rest : List Token) :
    wordLike (nextType (us ++ rest)) = false := by
  obtain h | ⟨type, h⟩ := h.next rest
  · rw [h]
    rfl
  · revert h
    cases nextType (us ++ rest) <;> first | (intro h; cases h; done) | (intro; rfl)

lemma IsRedirection.ne (h : IsRedirection us r) : nextType (us ++ rest) ≠ .WORD := by
  intro heq
  have hword := h.not_wordLike rest
  rw [heq] at hword
  cases hword

lemma parseRedirection_run (h : IsRedirection us r) :
    parseRedirection.run (us ++ rest) = .ok (some (.redir r .null), rest) := by
  cases h with
  | @plain op t type w hop hw =>
    have hio : op.type ≠ .IONUMBER := by
      intro heq
      rw [heq] at hop
      cases hop
    rw [parseRedirection, peek_bind, if_neg (by simpa using hio)]
    exact parseOperator_run hop hw
  | @numbered io op t type w hio hop hw =>
    rw [parseRedirection, peek_bind, if_pos (by simpa using hio), pop_bind]
    exact parseOperator_run hop hw

lemma parseRedirection_none (hio : nextType rest ≠ .IONUMBER) (hop : redirType (nextType rest) = none) :
    parseRedirection.run rest = .ok (none, rest) := by
  rw [nextType] at hio hop
  rw [parseRedirection, peek_bind, if_neg hio, parseOperator, peek_bind, hop]
  rfl

lemma getChain_end (h : rule.run ts = .ok (none, ts')) :
    (getChain rule (n + 1)).run ts = .ok (some .null, ts') := by
  rw [getChain, bind_run (tryRule_run h)]
  rfl

lemma getChain_step (h : rule.run ts = .ok (some ast, ts')) (hast : isNull ast = false)
    (hp2 : (getChain rule n).run ts' = .ok (some p2, ts'')) :
    (getChain rule (n + 1)).run ts = .ok (some (ast.setP2 p2), ts'') := by
  rw [getChain, bind_run (tryRule_run h), Option.getD_some, hast, if_neg Bool.false_ne_true, bind_run hp2]
  rfl

lemma getPrefix_run (h : Prefixes ts ps) (hn : ts.length < n)
    (hend : parsePrefix.run rest = .ok (none, rest)) :
    (getPrefix n).run (ts ++ rest) = .ok (some (prefixed ps .null), rest) := by
  induction h generalizing n with
  | nil =>
    obtain ⟨n, rfl⟩ := Nat.exists_eq_add_of_lt hn
    exact getChain_end hend
  | @assign t ts ps ht hassign hts ih =>
    obtain ⟨n, rfl⟩ := Nat.exists_eq_succ_of_ne_zero (Nat.ne_zero_of_lt hn)
    have hrun : parsePrefix.run (t :: ts ++ rest) = .ok (some (.assign t.text .null), ts ++ rest) := by
      rw [parsePrefix, peek_bind, if_pos ⟨by simpa using ht, by simpa using hassign⟩]
      rfl
    exact getChain_step hrun rfl (ih (Nat.lt_of_succ_lt_succ hn))
  | @redir us ts r ps hr hts ih =>
    obtain ⟨n, rfl⟩ := Nat.exists_eq_succ_of_ne_zero (Nat.ne_zero_of_lt hn)
    have hne : nextType (us ++ (ts ++ rest)) ≠ .WORD := hr.ne
    have hrun : parsePrefix.run (us ++ (ts ++ rest)) = .ok (some (.redir r .null), ts ++ rest) := by
      rw [nextType] at hne
      rw [parsePrefix, peek_bind, if_neg fun hword => hne hword.1]
      exact parseRedirection_run hr
    rw [List.append_assoc]
    refine getChain_step hrun rfl (ih ?_)
    have := hr.pos
    simp at hn
    omega

lemma getRedirections_run (h : Elements es ws rs) (hws : ws = []) (hn : es.length < n)
    (hend : parseRedirection.run rest = .ok (none, rest)) :
    (getRedirections n).run (es ++ rest) = .ok (some (redirects rs .null), rest) := by
  induction h generalizing n with
  | nil =>
    obtain ⟨n, rfl⟩ := Nat.exists_eq_add_of_lt hn
    exact getChain_end hend
  | word => cases hws
  | @redir us ts r ws rs hr hts ih =>
    obtain ⟨n, rfl⟩ := Nat.exists_eq_succ_of_ne_zero (Nat.ne_zero_of_lt hn)
    rw [List.append_assoc]
    refine getChain_step (parseRedirection_run hr) rfl (ih hws ?_)
    have := hr.pos
    simp at hn
    omega

lemma parseElement_none (h : Follows true rest) : parseElement.run rest = .ok (none, rest) := by
  have hword : ¬(wordify (rest.headD endToken)).type = .WORD := by
    rw [wordify_type, Bool.not_eq_true]
    exact h.word rfl
  rw [parseElement, peek_bind, if_neg hword]
  exact bind_giveUp (parseRedirection_none (h.ne rfl) (redirType_none (startsSimple_none h.quiet)))

lemma getElements_run (h : Elements es ws rs) (hn : es.length < n) (hrest : Follows true rest) :
    (getElements n).run (es ++ rest) = .ok (some (ws, redirects rs .null), rest) := by
  induction h generalizing n with
  | nil =>
    obtain ⟨n, rfl⟩ := Nat.exists_eq_add_of_lt hn
    rw [getElements, List.nil_append, bind_run (attempt_run (parseElement_none hrest))]
    rfl
  | @word t w ts ws rs hw hts ih =>
    obtain ⟨n, rfl⟩ := Nat.exists_eq_succ_of_ne_zero (Nat.ne_zero_of_lt hn)
    obtain ⟨hword, rfl⟩ := word_eq_some hw
    have hrun : parseElement.run (t :: ts ++ rest) = .ok (some (.inl (wordify t).text), ts ++ rest) := by
      rw [parseElement, peek_bind, if_pos (by simpa using hword)]
      rfl
    rw [getElements, bind_run (attempt_run hrun), bind_run (ih (Nat.lt_of_succ_lt_succ hn))]
    rfl
  | @redir us ts r ws rs hr hts ih =>
    obtain ⟨n, rfl⟩ := Nat.exists_eq_succ_of_ne_zero (Nat.ne_zero_of_lt hn)
    have hrun : parseElement.run (us ++ (ts ++ rest)) = .ok (some (.inr (.redir r .null)), ts ++ rest) := by
      have hword : ¬(wordify ((us ++ (ts ++ rest)).headD endToken)).type = .WORD := by
        rw [wordify_type, Bool.not_eq_true]
        exact hr.not_wordLike _
      rw [parseElement, peek_bind, if_neg hword, bind_run (parseRedirection_run hr)]
      rfl
    have hlt : ts.length < n := by
      have := hr.pos
      simp at hn
      omega
    rw [getElements, List.append_assoc, bind_run (attempt_run hrun), bind_run (ih hlt)]
    rfl

lemma Elements.ne (h : Elements es ws rs) (hrest : Follows true rest) : nextType (es ++ rest) ≠ .LPAREN :=
    by
  cases h with
  | nil => exact hrest.ne rfl
  | @word t w ts ws rs hw hts =>
    intro heq
    have hword := wordify_type.mp (word_eq_some hw).1
    rw [show t.type = .LPAREN from heq] at hword
    cases hword
  | @redir us ts r ws rs hr hts =>
    intro heq
    rw [List.append_assoc] at heq
    obtain hio | ⟨type, hop⟩ := hr.next (ts ++ rest)
    · rw [heq] at hio
      cases hio
    · rw [heq] at hop
      cases hop

lemma Prefixes.ne (h : Prefixes ts ps) (hrest : nextType rest ≠ .LPAREN) :
    nextType (ts ++ rest) ≠ .LPAREN := by
  cases h with
  | nil => exact hrest
  | @assign t ts ps ht hassign hts =>
    intro heq
    rw [show t.type = .LPAREN from heq] at ht
    cases ht
  | @redir us ts r ps hr hts =>
    intro heq
    rw [List.append_assoc] at heq
    obtain hio | ⟨type, hop⟩ := hr.next (ts ++ rest)
    · rw [heq] at hio
      cases hio
    · rw [heq] at hop
      cases hop

lemma parsePrefix_none (h : startsSimple (nextType rest) = false) :
    parsePrefix.run rest = .ok (none, rest) := by
  have hword : ¬(rest.headD endToken).type = .WORD := fun heq => by
    rw [nextType, heq] at h
    cases h
  have hio : nextType rest ≠ .IONUMBER := fun heq => by
    rw [heq] at h
    cases h
  rw [parsePrefix, peek_bind, if_neg fun hassign => hword hassign.1]
  exact parseRedirection_none hio (redirType_none h)

lemma parseSimpleCommand_none (h : startsSimple (nextType rest) = false) :
    (parseSimpleCommand (n + 1)).run rest = .ok (none, rest) := by
  have hword : (rest.headD endToken).type ≠ .WORD := fun heq => by
    rw [nextType, heq] at h
    cases h
  rw [parseSimpleCommand, getPrefix, bind_run (getChain_end (parsePrefix_none h)), peek_bind, if_pos hword]
  rfl

lemma parseSimpleCommand_bare (hts : Prefixes ts ps) (hps : ps ≠ []) (hn : ts.length < n)
    (h : startsSimple (nextType rest) = false) :
    (parseSimpleCommand n).run (ts ++ rest) = .ok (some (prefixed ps .null), rest) := by
  have hword : (rest.headD endToken).type ≠ .WORD := fun heq => by
    rw [nextType, heq] at h
    cases h
  rw [parseSimpleCommand, bind_run (getPrefix_run hts hn (parsePrefix_none h)), peek_bind, if_pos hword,
    isNull_prefixed hps]
  rfl

lemma parseSimpleCommand_run (hts : Prefixes ts ps) (ht : t.type = .WORD) (hname : '=' ∉ t.text)
    (hes : Elements es ws rs) (hn : ts.length + es.length < n) (hrest : Follows true rest) :
    (parseSimpleCommand n).run (ts ++ t :: (es ++ rest)) =
      .ok (some (prefixed ps (redirects rs (.argv (t.text :: ws)))), rest) := by
  have hend : parsePrefix.run (t :: (es ++ rest)) = .ok (none, t :: (es ++ rest)) := by
    rw [parsePrefix, peek_bind, if_neg fun hassign => hname hassign.2]
    refine parseRedirection_none ?_ ?_
    · rw [show nextType (t :: (es ++ rest)) = .WORD from ht]
      decide
    · rw [show nextType (t :: (es ++ rest)) = .WORD from ht]
      rfl
  have hargs : (Parser.getArgs n).run (t :: (es ++ rest)) =
      .ok (some (redirects rs (.argv (t.text :: ws))), rest) := by
    rw [Parser.getArgs, peek_bind, if_neg (by simpa using ht), pop_bind, List.tail_cons,
      bind_run (getElements_run hes (by omega) hrest)]
    simp only [List.headD_cons, pure_run, redirects_hangOn]
  rw [parseSimpleCommand, bind_run (getPrefix_run hts (by omega) hend), peek_bind,
    if_neg (by simpa using ht), bind_run hargs, isNull_redirects, prefixed_hangOn]
  rfl

lemma Derives.not_null {lenient : Prop} {wordy : Bool} (h : Derives lenient .shell ts ast wordy) :
    isNull ast = false := by
  cases h with
  | group _ h => cases h; rfl
  | _ => rfl

end Simple

end BrebOS.Shell
