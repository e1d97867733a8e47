import BrebOS.Programs.Shell.Lexer

/-!
# Looking ahead

Whether the next token is looked at before it is taken makes no difference to the tokens, as long as the lexer
can read them: a token that is looked at is read earlier than it is taken, and perhaps never taken.  What
cannot be read is what comes behind a line continuation that no line follows, where the length of the token is
not assigned, and text in which a scan goes wrong.
-/

namespace BrebOS.Shell

open Lookahead (Call Buffered answers demand fetches)

/-- A call. -/
def Lexer.call : Call → Lexer → Except Stop (Token × Lexer)
  | .peek => lexerPeek
  | .peek2 => lexerPeek2
  | .pop => lexerPop

/-- Calls one after the other, and the tokens they return. -/
def Lexer.run : List Call → Lexer → Except Stop (List Token × Lexer)
  | [], lexer => .ok ([], lexer)
  | c :: cs, lexer => do
      let (tok, lexer) ← lexer.call c
      let (toks, lexer) ← lexer.run cs
      return (tok :: toks, lexer)

/-- The calls return the tokens that `lexer_pop` returns when it alone is called: every call of `lexer_pop` the
next one of them, every call of `lexer_peek` the one that is then to come, `lexer_peek_2` the one after that. -/
def LookaheadRight (calls : List Call) (lexer : Lexer) : Prop :=
  ∃ toks rs l₁ l₂, lexer.run (List.replicate (demand calls) .pop) = .ok (toks, l₁) ∧
    lexer.run calls = .ok (rs, l₂) ∧ rs.map some = answers calls toks

/-- The lexer knows where it is, and the scan of the next string does not go wrong. -/
def Stream.Readable (l : Stream) : Prop := ∃ r, getNextStr l = .ok r

section

variable {l l' : Stream} {lexer lexer' : Lexer} {tok : Token} {file : List Char} {calls : List Call}

/-! ## Tokens -/

lemma tokenType_ne_empty (l : Stream) (nextStr : Word) : tokenType l nextStr ≠ .EMPTY := by
  have hoperators : ∀ p ∈ operators, p.2 ≠ .EMPTY := by decide
  have hkeywords : ∀ p ∈ keywords, p.2 ≠ .EMPTY := by decide
  have hchange : ∀ type, changeTokenType l nextStr = some type → type ≠ .EMPTY := by
    intro type h
    rw [changeTokenType] at h
    split at h
    · cases h
      decide
    · cases h
      decide
    · cases h
      decide
    · split at h
      · cases h
        decide
      · exact hkeywords _ (mem_of_lookup h)
  rw [tokenType]
  cases hc : changeTokenType l nextStr with
  | some type => exact hchange type hc
  | none =>
      cases hm : matchSeparator nextStr with
      | some type => exact hoperators _ (mem_of_lookup hm)
      | none => decide

lemma nextToken_ne_empty (h : l.nextToken = .ok (tok, l')) : tok.type ≠ .EMPTY := by
  obtain ⟨⟨t, len, l₁⟩, hnext, hr⟩ := bind_eq_ok.mp h
  cases hr
  obtain ⟨⟨str, l₂⟩, -, ht⟩ := bind_eq_ok.mp hnext
  cases str with
  | none =>
      cases ht
      decide
  | some str =>
      cases ht
      exact tokenType_ne_empty l₂ str

lemma nextToken_iff : (∃ r, l.nextToken = .ok r) ↔ l.Readable := by
  constructor
  · rintro ⟨r, h⟩
    obtain ⟨r₁, hnext, -⟩ := bind_eq_ok.mp h
    obtain ⟨r₂, hstr, -⟩ := bind_eq_ok.mp hnext
    exact ⟨r₂, hstr⟩
  · rintro ⟨⟨str, l₁⟩, hstr⟩
    cases str with
    | none => exact ⟨_, bind_eq_ok.mpr ⟨_, bind_eq_ok.mpr ⟨_, hstr, rfl⟩, rfl⟩⟩
    | some str => exact ⟨_, bind_eq_ok.mpr ⟨_, bind_eq_ok.mpr ⟨_, hstr, rfl⟩, rfl⟩⟩

/-! ## The lexer as a stream with look-ahead -/

/-- The token in a place, if there is one. -/
def Token.slot (tok : Token) : Option Token := if tok.type = .EMPTY then none else some tok

lemma Token.slot_eq_none (h : tok.type = .EMPTY) : tok.slot = none := if_pos h

lemma Token.slot_eq_some (h : tok.type ≠ .EMPTY) : tok.slot = some tok := if_neg h

/-- The lexer, as a stream of tokens in front of which are two places. -/
def Lexer.buffered (lexer : Lexer) : Buffered Stream Token where
  stream := lexer.toStream
  next := lexer.next.slot
  surNext := lexer.surNext.slot

/-- A result, with the lexer seen as such a stream. -/
def buffering (r : Token × Lexer) : Token × Buffered Stream Token := (r.1, r.2.buffered)

lemma peek_buffered (lexer : Lexer) :
    (lexerPeek lexer).map buffering = Lookahead.peek Stream.nextToken lexer.buffered := by
  rw [lexerPeek, Lookahead.peek]
  by_cases hnext : lexer.next.type = .EMPTY
  · rw [if_neg (not_not_intro hnext), Lexer.buffered, Token.slot_eq_none hnext]
    cases h : lexer.nextToken with
    | error e => rfl
    | ok r =>
        have hslot := Token.slot_eq_some (nextToken_ne_empty h)
        simp [bind, Except.bind, pure, Except.pure, Except.map, buffering, Lexer.buffered, hslot]
  · rw [if_pos hnext, Lexer.buffered, Token.slot_eq_some hnext]
    simp [Except.map, buffering, Lexer.buffered, Token.slot_eq_some hnext]

lemma peek2_buffered (lexer : Lexer) :
    (lexerPeek2 lexer).map buffering = Lookahead.peek2 Stream.nextToken lexer.buffered := by
  have hpeek := peek_buffered lexer
  rw [lexerPeek2, Lookahead.peek2]
  by_cases hnext : lexer.surNext.type = .EMPTY
  · rw [if_neg (not_not_intro hnext)]
    have hsur : lexer.buffered.surNext = none := Token.slot_eq_none hnext
    rw [hsur, ← hpeek]
    cases h₁ : lexerPeek lexer with
    | error e => rfl
    | ok r =>
        show _ = (r.2.nextToken >>= _)
        cases h : r.2.nextToken with
        | error e =>
            simp [bind, Except.bind, Except.map, h]
        | ok q =>
            have hslot := Token.slot_eq_some (nextToken_ne_empty h)
            simp [bind, Except.bind, pure, Except.pure, Except.map, h, buffering, Lexer.buffered, hslot]
  · have hsur : lexer.buffered.surNext = some lexer.surNext := Token.slot_eq_some hnext
    rw [if_pos hnext, hsur]
    rfl

lemma pop_buffered (lexer : Lexer) :
    (lexerPop lexer).map buffering = Lookahead.pop Stream.nextToken lexer.buffered := by
  rw [lexerPop, Lookahead.pop]
  by_cases hnext : lexer.next.type = .EMPTY
  · rw [if_neg (not_not_intro hnext), Lexer.buffered, Token.slot_eq_none hnext]
    cases h : lexer.nextToken with
    | error e => rfl
    | ok r =>
        simp [bind, Except.bind, pure, Except.pure, Except.map, buffering, Lexer.buffered,
          Token.slot_eq_none hnext]
  · rw [if_pos hnext, Lexer.buffered, Token.slot_eq_some hnext]
    rfl

lemma call_buffered (c : Call) (lexer : Lexer) :
    (lexer.call c).map buffering = Lookahead.call Stream.nextToken c lexer.buffered := by
  cases c with
  | peek => exact peek_buffered lexer
  | peek2 => exact peek2_buffered lexer
  | pop => exact pop_buffered lexer

lemma run_buffered (cs : List Call) (lexer : Lexer) :
    (lexer.run cs).map (fun r => (r.1, r.2.buffered)) =
      Lookahead.run Stream.nextToken cs lexer.buffered := by
  induction cs generalizing lexer with
  | nil => rfl
  | cons c cs ih =>
      rw [Lexer.run, Lookahead.run, ← call_buffered]
      cases hcall : lexer.call c with
      | error e => rfl
      | ok r =>
          show _ = (Lookahead.run Stream.nextToken cs r.2.buffered >>= _)
          rw [← ih r.2]
          cases hrun : r.2.run cs with
          | error e => simp [bind, Except.bind, Except.map, hrun]
          | ok q => simp [bind, Except.bind, pure, Except.pure, Except.map, hrun]

/-! ## Looking ahead -/

lemma lexerNew_buffered (file : List Char) :
    (lexerNew file).buffered = .ofItems (lexerNew file).toStream [] := by
  have hplaces : (lexerNew file).next = { type := .EMPTY } ∧ (lexerNew file).surNext = { type := .EMPTY } := by
    rw [lexerNew]
    split <;> exact ⟨rfl, rfl⟩
  rw [Lexer.buffered, hplaces.1, hplaces.2]
  rfl

lemma run_pops_iff {n : ℕ} {toks : List Token} :
    (∃ lexer', (lexerNew file).run (List.replicate n .pop) = .ok (toks, lexer') ∧ lexer'.toStream = l) ↔
      fetches Stream.nextToken n (lexerNew file).toStream = .ok (toks, l) := by
  have hrun := run_buffered (List.replicate n .pop) (lexerNew file)
  rw [lexerNew_buffered] at hrun
  constructor
  · rintro ⟨lexer', h, rfl⟩
    rw [h] at hrun
    obtain ⟨s, hfetches, hs⟩ := Lookahead.run_pops.mp hrun.symm
    have hstream : lexer'.toStream = s := congrArg Buffered.stream hs
    rw [hstream]
    exact hfetches
  · intro h
    rw [Lookahead.run_pops.mpr ⟨l, h, rfl⟩] at hrun
    obtain ⟨⟨toks', lexer'⟩, hpops, heq⟩ := map_eq_ok.mp hrun
    have htoks : toks' = toks := congrArg Prod.fst heq
    have hstream : lexer'.toStream = l := congrArg (fun r => Buffered.stream (Prod.snd r)) heq
    exact ⟨lexer', htoks ▸ hpops, hstream⟩

lemma lookaheadRight_iff_fetches (file : List Char) (calls : List Call) :
    LookaheadRight calls (lexerNew file) ↔
      ∃ q, fetches Stream.nextToken (demand calls) (lexerNew file).toStream = .ok q := by
  have hrun := run_buffered calls (lexerNew file)
  rw [lexerNew_buffered] at hrun
  constructor
  · rintro ⟨toks, rs, l₁, l₂, hpops, -, -⟩
    exact ⟨_, run_pops_iff.mp ⟨l₁, hpops, rfl⟩⟩
  · rintro ⟨⟨toks, l⟩, hfetches⟩
    have hnone : ([] : List Token).length ≤ 2 := Nat.zero_le 2
    obtain ⟨rs, vs, hcalls, hrs⟩ := Lookahead.run_ofItems calls hnone hfetches
    rw [hcalls] at hrun
    obtain ⟨⟨rs', l₂⟩, hlexer, heq⟩ := map_eq_ok.mp hrun
    have hrs' : rs' = rs := congrArg Prod.fst heq
    obtain ⟨l₁, hpops, -⟩ := run_pops_iff.mpr hfetches
    exact ⟨toks, rs, l₁, l₂, hpops, hrs' ▸ hlexer, hrs⟩

end

/-- Looking ahead makes no difference exactly where the lexer can read all the tokens that are looked at, one
after the other. -/
theorem lookaheadRight_iff (file : List Char) (calls : List Call) : LookaheadRight calls (lexerNew file) ↔
    ∀ k < demand calls, ∀ toks lexer, (lexerNew file).run (List.replicate k .pop) = .ok (toks, lexer) →
      lexer.Readable := by
  rw [lookaheadRight_iff_fetches, Lookahead.fetches_iff]
  constructor
  · intro h k hk toks lexer hrun
    exact nextToken_iff.mp (h k hk toks lexer.toStream (run_pops_iff.mp ⟨lexer, hrun, rfl⟩))
  · intro h k hk toks l hfetches
    obtain ⟨lexer, hrun, rfl⟩ := run_pops_iff.mpr hfetches
    exact nextToken_iff.mpr (h k hk toks lexer hrun)

/-- Behind a line continuation that no line follows, the lexer does not know where it is. -/
theorem lookahead_not_right :
    (∃ lexer, (lexerNew ['\\', '\n']).run [.pop] = .ok ([{ type := .EOF }], lexer)) ∧
      (lexerNew ['\\', '\n']).run [.peek2, .pop] = .error .undefined ∧
      ¬ LookaheadRight [.peek2, .pop] (lexerNew ['\\', '\n']) := by
  have hrun : (lexerNew ['\\', '\n']).run [.peek2, .pop] = .error .undefined := by rfl
  refine ⟨⟨_, rfl⟩, hrun, ?_⟩
  rintro ⟨toks, rs, l₁, l₂, -, h, -⟩
  rw [hrun] at h
  cases h

section

variable {file file' : List Char} {calls : List Call} {s s' : Scan} {l l' : Stream} {n : ℕ}

end

end BrebOS.Shell
