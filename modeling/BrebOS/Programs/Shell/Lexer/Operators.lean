import BrebOS.Programs.Shell.Lexer

/-!
# Operators

On a separator, the lexer takes the separator and all the characters of `|&<>` that follow it, and looks that
up as a whole.  Where one operator follows another without a blank, the two together are no operator, and the
token is an error, though each of them is one.
-/

namespace BrebOS.Shell

/-! ## What is asked of the lexer -/

/-- The lexer at a text, behind which there is a file. -/
def lexerAt (file text : List Char) : Stream where
  input := .text text
  file := file

/-- An operator, as the text begins with it. -/
structure BeginsWith (text op : Word) : Prop where
  isPrefix : op <+: text
  ne_nil : op ≠ []
  valid : isValidOperator op

/-- The longest operator that the text begins with. -/
def BeginsLongest (text op : Word) : Prop :=
  BeginsWith text op ∧ ∀ op', BeginsWith text op' → op'.length ≤ op.length

/-- The types of the next tokens. -/
def nextTokens (n : ℕ) (l : Stream) : Except Stop (List Token) :=
  (Lookahead.fetches Stream.nextToken n l).map Prod.fst

/-- The longest operator is the next token, and the lexer is then behind it.  Blanks behind it make no
difference to the tokens.  There is an error only where there is no operator. -/
structure OperatorsRight (file text : List Char) : Prop where
  longest : ∀ op rest, op ++ rest = text → BeginsLongest text op → ∃ type, matchSeparator op = some type ∧
    (lexerAt file text).nextToken = .ok ({ type := type }, lexerAt file rest)
  blanks : ∀ op rest, op ++ rest = text → BeginsLongest text op → ∀ ws, (∀ c ∈ ws, isWhitespace c) → ∀ n,
    nextTokens n (lexerAt file (op ++ ws ++ rest)) = nextTokens n (lexerAt file text)
  error : ∀ tok l, (lexerAt file text).nextToken = .ok (tok, l) → tok.type = .ERROR →
    ¬ ∃ op, BeginsWith text op

section

variable {file cs ws rest : List Char} {c : Char} {op : Word}

/-! ## The next token -/

/-- A separator, and what the lexer takes with it. -/
def separatorRun (c : Char) (cs : List Char) : Word := c :: cs.takeWhile isRedirection

/-- The token of the separator, or of what is no operator. -/
def separatorType (c : Char) (cs : List Char) : TokenType := (matchSeparator (separatorRun c cs)).getD .ERROR

lemma separator_cases (P : Char → Prop) [DecidablePred P] (hc : isSeparator c)
    (h : ['&', '|', '<', '>', ';', '\n', '(', ')'].all (P ·)) : P c := by
  have hmem : c ∈ ['&', '|', '<', '>', ';', '\n', '(', ')'] := by simpa [isSeparator] using hc
  exact of_decide_eq_true (List.all_eq_true.mp h c hmem)

lemma skipText_separator (hc : isSeparator c) : skipText (c :: cs) = c :: cs := by
  have hblank : isWhitespace c = false := separator_cases (isWhitespace · = false) hc (by decide)
  have hhash : c ≠ '#' := separator_cases (· ≠ '#') hc (by decide)
  have hkeep : (c :: cs).dropWhile isWhitespace = c :: cs := by
    rw [List.dropWhile_cons, hblank]
    rfl
  rw [skipText, hkeep]
  exact if_neg fun h => hhash (Option.some.inj h)

lemma pass_separator (s : Scan) (htaken : s.taken = []) (hrest : s.rest = c :: cs) :
    s.pass (1 + ((s.rest.drop 1).takeWhile isRedirection).length) =
      { s with taken := separatorRun c cs, rest := cs.dropWhile isRedirection } := by
  have hsplit := List.takeWhile_append_dropWhile (p := isRedirection) (l := cs)
  have htake : (cs.takeWhile isRedirection ++ cs.dropWhile isRedirection).take
      (cs.takeWhile isRedirection).length = cs.takeWhile isRedirection := List.take_left
  have hdrop : (cs.takeWhile isRedirection ++ cs.dropWhile isRedirection).drop
      (cs.takeWhile isRedirection).length = cs.dropWhile isRedirection := List.drop_left
  rw [hsplit] at htake hdrop
  rw [Scan.pass, htaken, hrest, List.drop_one, List.tail_cons, Nat.add_comm, List.take_succ_cons,
    List.drop_succ_cons, htake, hdrop]
  rfl

lemma getNextStr_separator (hc : isSeparator c) : getNextStr (lexerAt file (c :: cs)) =
    .ok (some (separatorRun c cs), {
      input := .text (c :: cs)
      status := if isValidOperator (separatorRun c cs) then .NONE else .ERROR
      file := file }) := by
  have hskip : skipWhitespacesAndComments (lexerAt file (c :: cs)) = lexerAt file (c :: cs) := by
    show { lexerAt file (c :: cs) with input := .text (skipText (c :: cs)) } = _
    rw [skipText_separator hc]
    rfl
  have hloop : ∀ n, readUntilSeparatorLoop (n + 1) { rest := c :: cs, file := file, status := .NONE } =
      .ok (true, { rest := c :: cs, file := file, status := .NONE }) := by
    intro n
    rw [readUntilSeparatorLoop]
    simp only [hc, Bool.true_or, if_true]
  rw [getNextStr, hskip]
  show readUntilSeparator (c :: cs) (lexerAt file (c :: cs)) = _
  have hope : isValidOpe { rest := c :: cs, file := file, status := .NONE } =
      { taken := separatorRun c cs, rest := cs.dropWhile isRedirection, file := file,
        status := if isValidOperator (separatorRun c cs) then .NONE else .ERROR } := by
    rw [isValidOpe, pass_separator _ rfl rfl]
    dsimp only
    split <;> rfl
  have happend : separatorRun c cs ++ cs.dropWhile isRedirection = c :: cs := by
    rw [separatorRun, List.cons_append, List.takeWhile_append_dropWhile]
  refine bind_eq_ok.mpr ⟨_, hloop _, ?_⟩
  have hstop : (true && ([] : Word).isEmpty && (c :: cs).head?.all isSeparator) = true := by
    simpa using hc
  dsimp only
  rw [if_pos hstop, hope, happend]
  rfl

lemma isIoNumber_separator (l : Stream) (hc : isSeparator c) : isIoNumber l (separatorRun c cs) = false := by
  have hdigit : c.isDigit = false := separator_cases (·.isDigit = false) hc (by decide)
  simp [isIoNumber, separatorRun, hdigit]

lemma matchKeyword_separator (hc : isSeparator c) : matchKeyword (separatorRun c cs) = none := by
  have hkeywords : ∀ p ∈ keywords, p.1.head?.all (fun d => !isSeparator d) := by decide
  rw [matchKeyword, List.lookup_eq_none_iff]
  intro p hp
  refine bne_iff_ne.mpr fun heq => ?_
  have hhead := hkeywords p hp
  rw [← heq] at hhead
  simp [separatorRun, hc] at hhead

lemma matchSeparator_ne {type : TokenType} (h : matchSeparator op = some type) :
    type ≠ .WORD ∧ type ≠ .IONUMBER ∧ type ≠ .ERROR := by
  have hoperators : ∀ p ∈ operators, p.2 ≠ .WORD ∧ p.2 ≠ .IONUMBER ∧ p.2 ≠ .ERROR := by decide
  exact hoperators _ (mem_of_lookup h)

lemma tokenType_separator (l : Stream) (hc : isSeparator c)
    (hl : l.status = if isValidOperator (separatorRun c cs) then .NONE else .ERROR) :
    tokenType l (separatorRun c cs) = separatorType c cs := by
  rw [tokenType, changeTokenType, separatorType]
  cases hmatch : matchSeparator (separatorRun c cs) with
  | none =>
      have hvalid : isValidOperator (separatorRun c cs) = false := congrArg Option.isSome hmatch
      rw [hvalid] at hl
      rw [hl]
      rfl
  | some type =>
      have hvalid : isValidOperator (separatorRun c cs) = true := congrArg Option.isSome hmatch
      rw [hvalid] at hl
      rw [hl, isIoNumber_separator l hc, matchKeyword_separator hc]
      rfl

lemma ofStr_separator : Token.ofStr (separatorType c cs) (separatorRun c cs) =
    { type := separatorType c cs } := by
  have hne : ¬ (separatorType c cs = .WORD ∨ separatorType c cs = .IONUMBER) := by
    rw [separatorType]
    cases hmatch : matchSeparator (separatorRun c cs) with
    | none => decide
    | some type =>
        have htype := matchSeparator_ne hmatch
        exact not_or.mpr ⟨htype.1, htype.2.1⟩
  rw [Token.ofStr, if_neg hne]

lemma nextToken_separator (hc : isSeparator c) : (lexerAt file (c :: cs)).nextToken =
    .ok ({ type := separatorType c cs }, lexerAt file (cs.dropWhile isRedirection)) := by
  have happend : c :: cs = separatorRun c cs ++ cs.dropWhile isRedirection := by
    rw [separatorRun, List.cons_append, List.takeWhile_append_dropWhile]
  have hdrop : (c :: cs).drop (separatorRun c cs).length = cs.dropWhile isRedirection := by
    conv_lhs => rw [happend]
    exact List.drop_left
  refine bind_eq_ok.mpr ⟨_, bind_eq_ok.mpr ⟨_, getNextStr_separator hc, rfl⟩, ?_⟩
  dsimp only
  rw [tokenType_separator _ hc rfl, ofStr_separator]
  show Except.ok (_, lexerAt file ((c :: cs).drop (separatorRun c cs).length)) = _
  rw [hdrop]

/-! ## Blanks -/

lemma skipText_blanks (hws : ∀ c ∈ ws, isWhitespace c) : skipText (ws ++ rest) = skipText rest := by
  rw [skipText, skipText, List.dropWhile_append_of_pos hws]

lemma nextToken_blanks (hws : ∀ c ∈ ws, isWhitespace c) :
    (lexerAt file (ws ++ rest)).nextToken = (lexerAt file rest).nextToken := by
  have hskip : skipWhitespacesAndComments (lexerAt file (ws ++ rest)) =
      skipWhitespacesAndComments (lexerAt file rest) := by
    show lexerAt file (skipText (ws ++ rest)) = lexerAt file (skipText rest)
    rw [skipText_blanks hws]
  have hstr : getNextStr (lexerAt file (ws ++ rest)) = getNextStr (lexerAt file rest) := by
    have hinput : ∀ text, (lexerAt file text).input = .text text := fun _ => rfl
    simp only [getNextStr, hinput, hskip]
  rw [Stream.nextToken, lexerNextToken, hstr]
  rfl

lemma nextTokens_blanks (hws : ∀ c ∈ ws, isWhitespace c) (n : ℕ) :
    nextTokens n (lexerAt file (ws ++ rest)) = nextTokens n (lexerAt file rest) := by
  cases n with
  | zero => rfl
  | succ n => rw [nextTokens, nextTokens, Lookahead.fetches, Lookahead.fetches, nextToken_blanks hws]

lemma nextTokens_succ {l l' : Stream} {tok : Token} (h : l.nextToken = .ok (tok, l')) (n : ℕ) :
    nextTokens (n + 1) l = (nextTokens n l').map (tok :: ·) := by
  rw [nextTokens, nextTokens, Lookahead.fetches, h]
  show Except.map _ (Lookahead.fetches Stream.nextToken n l' >>= _) = _
  cases Lookahead.fetches Stream.nextToken n l' <;> rfl

/-! ## Operators at the beginning of a text -/

lemma BeginsWith.isPrefix_separatorRun (h : BeginsWith (c :: cs) op) : op <+: separatorRun c cs := by
  have hoperators : operators.all (·.1.tail.all isRedirection) := by decide
  cases hop : op with
  | nil => exact absurd hop h.ne_nil
  | cons d tail =>
      obtain ⟨type, htype⟩ := Option.isSome_iff_exists.mp h.valid
      have htail : ∀ d ∈ tail, isRedirection d := by
        have htail := List.all_eq_true.mp hoperators _ (mem_of_lookup htype)
        rw [hop] at htail
        exact List.all_eq_true.mp htail
      have hstart := h.isPrefix
      rw [hop, List.cons_prefix_cons] at hstart
      obtain ⟨rest, hrest⟩ := hstart.2
      rw [separatorRun, List.cons_prefix_cons, ← hrest, List.takeWhile_append_of_pos htail]
      exact ⟨hstart.1, List.prefix_append ..⟩

lemma BeginsLongest.eq_separatorRun (h : BeginsLongest (c :: cs) op)
    (hvalid : isValidOperator (separatorRun c cs)) : op = separatorRun c cs := by
  have hrun : BeginsWith (c :: cs) (separatorRun c cs) :=
    ⟨List.cons_prefix_cons.mpr ⟨rfl, List.takeWhile_prefix _⟩, List.cons_ne_nil _ _, hvalid⟩
  exact h.1.isPrefix_separatorRun.eq_of_length_le (h.2 _ hrun)

lemma beginsWith_singleton (hc : isSeparator c) (hamp : c ≠ '&') : BeginsWith (c :: cs) [c] := by
  have hvalid : c ≠ '&' → isValidOperator [c] :=
    separator_cases (fun c => c ≠ '&' → isValidOperator [c]) hc (by decide)
  exact ⟨List.prefix_append [c] cs, List.cons_ne_nil _ _, hvalid hamp⟩

lemma beginsWith_amp : (∃ op, BeginsWith ('&' :: cs) op) ↔ cs.head? = some '&' := by
  constructor
  · rintro ⟨op, h⟩
    have hoperators : ∀ p ∈ operators, p.1.head? = some '&' → p.1 = ['&', '&'] := by decide
    obtain ⟨type, htype⟩ := Option.isSome_iff_exists.mp h.valid
    obtain ⟨rest, hrest⟩ := h.isPrefix
    cases hop : op with
    | nil => exact absurd hop h.ne_nil
    | cons d tail =>
        rw [hop, List.cons_append] at hrest
        have hd : d = '&' := (List.cons.inj hrest).1
        have heq : op = ['&', '&'] := by
          refine hoperators _ (mem_of_lookup htype) ?_
          rw [hop, hd]
          rfl
        rw [hop] at heq
        rw [← (List.cons.inj hrest).2, (List.cons.inj heq).2]
        rfl
  · intro h
    obtain ⟨tail, rfl⟩ := List.head?_eq_some_iff.mp h
    exact ⟨['&', '&'], ⟨tail, rfl⟩, List.cons_ne_nil _ _, rfl⟩

lemma nextToken_operator_blanks (hc : isSeparator c) (hws : ∀ c ∈ ws, isWhitespace c)
    (hrest : cs.dropWhile isRedirection = rest) :
    (lexerAt file (separatorRun c cs ++ ws ++ rest)).nextToken =
      .ok ({ type := separatorType c cs }, lexerAt file (ws ++ rest)) := by
  cases ws with
  | nil =>
      rw [List.append_nil, ← hrest, separatorRun, List.cons_append, List.takeWhile_append_dropWhile,
        nextToken_separator hc]
      rfl
  | cons w ws =>
      have hw : ¬ isRedirection w := by
        have hmem : w ∈ [' ', '\t', '\r'] := by simpa [isWhitespace] using hws w List.mem_cons_self
        have hwhite : [' ', '\t', '\r'].all (!isRedirection ·) := by decide
        simpa using List.all_eq_true.mp hwhite w hmem
      have hrun : ∀ d ∈ cs.takeWhile isRedirection, isRedirection d :=
        List.all_eq_true.mp (List.all_takeWhile ..)
      have htext : separatorRun c cs ++ w :: ws ++ rest =
          c :: (cs.takeWhile isRedirection ++ w :: (ws ++ rest)) := by
        rw [separatorRun, List.append_assoc]
        rfl
      have htake : (cs.takeWhile isRedirection ++ w :: (ws ++ rest)).takeWhile isRedirection =
          cs.takeWhile isRedirection := by
        rw [List.takeWhile_append_of_pos hrun, List.takeWhile_cons_of_neg hw, List.append_nil]
      have hdrop : (cs.takeWhile isRedirection ++ w :: (ws ++ rest)).dropWhile isRedirection =
          w :: (ws ++ rest) := by
        rw [List.dropWhile_append_of_pos hrun, List.dropWhile_cons_of_neg hw]
      rw [htext, nextToken_separator hc, separatorType, separatorRun, htake, hdrop]
      rfl

lemma operatorsRight_of_valid (hc : isSeparator c) (hvalid : isValidOperator (separatorRun c cs)) :
    OperatorsRight file (c :: cs) := by
  obtain ⟨type, htype⟩ := Option.isSome_iff_exists.mp hvalid
  have hseparator : separatorType c cs = type := by
    rw [separatorType, matchSeparator, htype]
    rfl
  have hsplit : ∀ op rest, op ++ rest = c :: cs → BeginsLongest (c :: cs) op →
      op = separatorRun c cs ∧ cs.dropWhile isRedirection = rest := by
    intro op rest happend hop
    have heq := hop.eq_separatorRun hvalid
    refine ⟨heq, ?_⟩
    rw [heq, separatorRun, List.cons_append] at happend
    have htail := (List.cons.inj happend).2
    conv_rhs at htail => rw [← List.takeWhile_append_dropWhile (p := isRedirection) (l := cs)]
    exact (List.append_cancel_left htail).symm
  refine ⟨?_, ?_, ?_⟩
  · intro op rest happend hop
    obtain ⟨rfl, hrest⟩ := hsplit op rest happend hop
    exact ⟨type, htype, by rw [nextToken_separator hc, hseparator, hrest]⟩
  · intro op rest happend hop ws hws n
    obtain ⟨rfl, hrest⟩ := hsplit op rest happend hop
    cases n with
    | zero => rfl
    | succ n =>
        rw [nextTokens_succ (nextToken_operator_blanks hc hws hrest), nextTokens_blanks hws,
          nextTokens_succ (nextToken_separator hc), hrest]
  · intro tok l htok herror
    rw [nextToken_separator hc] at htok
    cases htok
    exact absurd (hseparator.symm.trans herror) (matchSeparator_ne htype).2.2

end

/-- The operators are recognised exactly where the separator is an operator together with all the characters
of `|&<>` behind it, or is an `&` behind which there is no other. -/
theorem operatorsRight_iff (file : List Char) (c : Char) (cs : List Char) (hc : isSeparator c) :
    OperatorsRight file (c :: cs) ↔
      isValidOperator (c :: cs.takeWhile isRedirection) ∨ (c = '&' ∧ cs.head? ≠ some '&') := by
  constructor
  · intro hright
    by_contra hnot
    rw [not_or] at hnot
    obtain ⟨hvalid, hamp⟩ := hnot
    have htype : separatorType c cs = .ERROR := by
      have hnone : matchSeparator (separatorRun c cs) = none := Option.not_isSome_iff_eq_none.mp hvalid
      rw [separatorType, hnone]
      rfl
    refine hright.error _ _ (nextToken_separator hc) htype ?_
    by_cases hc' : c = '&'
    · subst hc'
      exact beginsWith_amp.mpr (not_not.mp fun h => hamp ⟨rfl, h⟩)
    · exact ⟨[c], beginsWith_singleton hc hc'⟩
  · rintro (hvalid | ⟨rfl, hhead⟩)
    · exact operatorsRight_of_valid hc hvalid
    · have hnone : ∀ op, ¬ BeginsWith ('&' :: cs) op := fun op hop => hhead (beginsWith_amp.mp ⟨op, hop⟩)
      refine ⟨?_, ?_, ?_⟩
      · intro op rest _ hop
        exact absurd hop.1 (hnone op)
      · intro op rest _ hop
        exact absurd hop.1 (hnone op)
      · rintro tok l - - ⟨op, hop⟩
        exact hnone op hop

/-- A list that is put into the background of a redirection is recognised. -/
theorem operatorsRight_and : OperatorsRight [] ['&', '&', ' ', 'x'] :=
  (operatorsRight_iff [] '&' ['&', ' ', 'x'] rfl).mpr (Or.inl rfl)

/-- A subshell the output of which is redirected is not: `)>` is no operator. -/
theorem operators_not_right : ¬ ∀ file c cs, isSeparator c → OperatorsRight file (c :: cs) := by
  intro h
  have hright := h [] ')' ['>', 'f'] rfl
  refine hright.error { type := .ERROR } (lexerAt [] ['f']) ?_ rfl ⟨[')'], beginsWith_singleton rfl ?_⟩
  · rfl
  · decide

end BrebOS.Shell
