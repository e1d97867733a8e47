import BrebOS.Programs.Shell.Parser.Lookahead

/-!
# The parser returns

Whatever tokens it gets, the parser returns, and what it leaves is a rest of them. A rule that calls another
one at the same tokens comes to the end of such calls, and every turn of a loop costs a token.
-/

namespace BrebOS.Shell

open Attempt

/-! ## What is left -/

/-- A rule leaves a rest of its tokens, whatever comes of it. -/
def Suffixes {α : Type} (x : Rule α) : Prop := ∀ ts, Preserves (· <:+ ts) x

section Suffixes

variable {α β : Type} {x y : Rule α} {f : α → Rule β} {a : α} {r : Option α} {e : Stop} {n : ℕ}
  {ts rest : List Token} {rule command last : Rule Ast} {rules : List (Rule Ast)} {type : TokenType}

lemma Suffixes.bind (hx : Suffixes x) (hf : ∀ a, Suffixes (f a)) : Suffixes (x >>= f) :=
  fun ts => (hx ts).bind fun a => hf a ts

lemma Suffixes.ite {c : Prop} [Decidable c] (hx : Suffixes x) (hy : Suffixes y) :
    Suffixes (if c then x else y) := fun ts => preserves_ite (hx ts) (hy ts)

lemma Suffixes.attempt (hx : Suffixes x) : Suffixes (attempt x) := fun ts => (hx ts).attempt

lemma Suffixes.run (hx : Suffixes x) (h : x.run ts = .ok (r, rest)) : rest <:+ ts :=
  (hx ts).run List.suffix_rfl h

lemma Suffixes.length_le (hx : Suffixes x) (h : x.run ts = .ok (r, rest)) : rest.length ≤ ts.length :=
  (hx.run h).length_le

lemma suffixes_pure : Suffixes (pure a) := fun _ => preserves_pure

lemma suffixes_giveUp : Suffixes (giveUp : Rule α) := fun _ => preserves_giveUp

lemma suffixes_stop : Suffixes (stop e : Rule α) := fun _ => preserves_stop

lemma peek_suffixes : Suffixes peek := fun _ => preserves_state fun _ => preserves_pure

lemma peek2_suffixes : Suffixes peek2 := fun _ => preserves_state fun _ => preserves_pure

lemma pop_suffixes : Suffixes pop := fun _ => preserves_state fun _ =>
  (preserves_update fun ts hts => (List.tail_suffix ts).trans hts).bind fun _ => preserves_pure

lemma skipNewlines_suffixes : Suffixes skipNewlines :=
  fun _ => preserves_update fun _ hts => (List.dropWhile_suffix _).trans hts

lemma tryRule_suffixes (h : Suffixes rule) : Suffixes (tryRule rule) :=
  h.attempt.bind fun _ => suffixes_pure

lemma expect_suffixes : Suffixes (expect type) :=
  peek_suffixes.bind fun _ => .ite suffixes_giveUp (pop_suffixes.bind fun _ => suffixes_pure)

lemma tryRules_suffixes (hlast : Suffixes last) (hrules : ∀ rule ∈ rules, Suffixes rule) :
    Suffixes (tryRules last rules) := by
  induction rules with
  | nil => exact hlast
  | cons rule rules ih =>
    exact (tryRule_suffixes (hrules rule List.mem_cons_self)).bind fun _ =>
      .ite (ih fun rule hrule => hrules rule (List.mem_cons_of_mem _ hrule)) suffixes_pure

/-! ### Simple commands -/

lemma parseOperator_suffixes {fd : ℤ} : Suffixes (parseOperator fd) := by
  refine peek_suffixes.bind fun t => ?_
  split
  · exact suffixes_giveUp
  · exact pop_suffixes.bind fun _ => peek_suffixes.bind fun _ =>
      .ite suffixes_giveUp (pop_suffixes.bind fun _ => suffixes_pure)

lemma parseRedirection_suffixes : Suffixes parseRedirection :=
  peek_suffixes.bind fun _ => .ite (pop_suffixes.bind fun _ =>
  parseOperator_suffixes) parseOperator_suffixes

lemma parsePrefix_suffixes : Suffixes parsePrefix :=
  peek_suffixes.bind fun _ => .ite (pop_suffixes.bind fun _ => suffixes_pure) parseRedirection_suffixes

lemma parseElement_suffixes : Suffixes parseElement :=
  peek_suffixes.bind fun _ => .ite (pop_suffixes.bind fun _ => suffixes_pure)
    (parseRedirection_suffixes.bind fun _ => suffixes_pure)

lemma getChain_suffixes (h : Suffixes rule) : Suffixes (getChain rule n) := by
  induction n with
  | zero => exact suffixes_stop
  | succ n ih =>
    exact (tryRule_suffixes h).bind fun _ => .ite suffixes_pure (ih.bind fun _ => suffixes_pure)

lemma getElements_suffixes : Suffixes (getElements n) := by
  induction n with
  | zero => exact suffixes_stop
  | succ n ih =>
    refine parseElement_suffixes.attempt.bind fun elt => ?_
    rcases elt with _ | _ | _
    · exact suffixes_pure
    · exact ih.bind fun _ => suffixes_pure
    · exact ih.bind fun _ => suffixes_pure

lemma getArgs_suffixes : Suffixes (Parser.getArgs n) :=
  peek_suffixes.bind fun _ => .ite suffixes_pure
    (pop_suffixes.bind fun _ => getElements_suffixes.bind fun _ => suffixes_pure)

lemma parseSimpleCommand_suffixes : Suffixes (parseSimpleCommand n) :=
  (getChain_suffixes parsePrefix_suffixes).bind fun _ => peek_suffixes.bind fun _ =>
    .ite (.ite suffixes_giveUp suffixes_pure) (getArgs_suffixes.bind fun _ =>
    .ite suffixes_giveUp suffixes_pure)

/-! ### Lists and compound commands -/

section Command

variable (hc : Suffixes command)

include hc

lemma parsePipelineRec_suffixes : Suffixes (parsePipelineRec command n) := by
  induction n with
  | zero => exact suffixes_stop
  | succ n ih =>
    exact hc.bind fun _ => peek_suffixes.bind fun _ => .ite
      (pop_suffixes.bind fun _ => skipNewlines_suffixes.bind fun _ => ih.bind fun _ =>
      suffixes_pure) suffixes_pure

lemma parsePipes_suffixes : Suffixes (parsePipes command n) :=
  hc.bind fun _ => peek_suffixes.bind fun _ => .ite (pop_suffixes.bind fun _ =>
  skipNewlines_suffixes.bind fun _ =>
    (parsePipelineRec_suffixes hc).bind fun _ => suffixes_pure) suffixes_pure

lemma parsePipeline_suffixes : Suffixes (parsePipeline command n) :=
  peek_suffixes.bind fun _ => .ite (pop_suffixes.bind fun _ => (parsePipes_suffixes hc).bind fun _ =>
  suffixes_pure)
    (parsePipes_suffixes hc)

lemma andOrLoop_suffixes {res : Ast} : Suffixes (andOrLoop command n res) := by
  induction n generalizing res with
  | zero => exact suffixes_stop
  | succ n ih =>
    exact peek_suffixes.bind fun _ => .ite (pop_suffixes.bind fun _ => skipNewlines_suffixes.bind fun _ =>
      (parsePipeline_suffixes hc).bind fun _ => ih) suffixes_pure

lemma parseAndOr_suffixes : Suffixes (parseAndOr command n) :=
  (parsePipeline_suffixes hc).bind fun _ => andOrLoop_suffixes hc

lemma listLoop_suffixes : Suffixes (listLoop command n) := by
  induction n with
  | zero => exact suffixes_stop
  | succ n ih =>
    refine peek_suffixes.bind fun _ => .ite (pop_suffixes.bind fun _ => ?_) suffixes_pure
    refine (parseAndOr_suffixes hc).attempt.bind fun p1 => ?_
    cases p1 with
    | none => exact suffixes_pure
    | some p1 => exact ih.bind fun _ => suffixes_pure

lemma parseList_suffixes : Suffixes (parseList command n) :=
  (parseAndOr_suffixes hc).bind fun _ => (listLoop_suffixes hc).bind fun _ => suffixes_pure

lemma compoundLoop_suffixes : Suffixes (compoundLoop command n) := by
  induction n with
  | zero => exact suffixes_stop
  | succ n ih =>
    refine peek_suffixes.bind fun _ => .ite (pop_suffixes.bind fun _ => ?_) suffixes_pure
    refine skipNewlines_suffixes.bind fun _ => (parseAndOr_suffixes hc).attempt.bind fun p1 => ?_
    cases p1 with
    | none => exact suffixes_pure
    | some p1 => exact ih.bind fun _ => suffixes_pure

lemma parseCompoundList_suffixes : Suffixes (parseCompoundList command n) :=
  skipNewlines_suffixes.bind fun _ => (parseAndOr_suffixes hc).bind fun _ =>
    (compoundLoop_suffixes hc).bind fun _ => skipNewlines_suffixes.bind fun _ => suffixes_pure

lemma parseElseClause_suffixes : Suffixes (parseElseClause command n) := by
  induction n with
  | zero => exact suffixes_stop
  | succ n ih =>
    refine peek_suffixes.bind fun _ => .ite (pop_suffixes.bind fun _ => parseCompoundList_suffixes hc) ?_
    refine .ite (pop_suffixes.bind fun _ => (parseCompoundList_suffixes hc).bind fun _ =>
      ?_) suffixes_giveUp
    exact pop_suffixes.bind fun _ => .ite suffixes_giveUp ((parseCompoundList_suffixes hc).bind fun _ =>
      (tryRule_suffixes ih).bind fun _ => suffixes_pure)

lemma parseRuleIf_suffixes : Suffixes (parseRuleIf command n) :=
  expect_suffixes.bind fun _ => (parseCompoundList_suffixes hc).bind fun _ => expect_suffixes.bind fun _ =>
    (parseCompoundList_suffixes hc).bind fun _ => (tryRule_suffixes
    (parseElseClause_suffixes hc)).bind fun _ =>
      expect_suffixes.bind fun _ => suffixes_pure

lemma parseLoop_suffixes {node : Ast → Ast → Ast} : Suffixes (parseLoop command type node n) :=
  expect_suffixes.bind fun _ => (parseCompoundList_suffixes hc).bind fun _ => expect_suffixes.bind fun _ =>
    (parseCompoundList_suffixes hc).bind fun _ => expect_suffixes.bind fun _ => suffixes_pure

omit hc in
lemma getWordsLoop_suffixes : Suffixes (getWordsLoop n) := by
  induction n with
  | zero => exact suffixes_stop
  | succ n ih =>
    exact peek_suffixes.bind fun _ => .ite (pop_suffixes.bind fun _ => ih.bind fun _ =>
      suffixes_pure) suffixes_pure

lemma auxForDo_suffixes {p2 : Word} {p3 : List Word} : Suffixes (auxForDo command p2 p3 n) :=
  expect_suffixes.bind fun _ => (parseCompoundList_suffixes hc).bind fun _ =>
    expect_suffixes.bind fun _ => suffixes_pure

lemma parseRuleFor_suffixes : Suffixes (parseRuleFor command n) := by
  refine expect_suffixes.bind fun _ => peek_suffixes.bind fun _ => .ite suffixes_giveUp ?_
  refine pop_suffixes.bind fun _ => peek_suffixes.bind fun _ => ?_
  refine .ite (pop_suffixes.bind fun _ => skipNewlines_suffixes.bind fun _ => auxForDo_suffixes hc) ?_
  refine skipNewlines_suffixes.bind fun _ => peek_suffixes.bind fun _ => .ite (auxForDo_suffixes hc) ?_
  refine (expect_suffixes.bind fun _ => getWordsLoop_suffixes).bind fun _ => peek_suffixes.bind fun _ => ?_
  exact .ite suffixes_giveUp
    (pop_suffixes.bind fun _ => skipNewlines_suffixes.bind fun _ => auxForDo_suffixes hc)

lemma parseSubshell_suffixes : Suffixes (parseSubshell command n) :=
  expect_suffixes.bind fun _ => (parseCompoundList_suffixes hc).bind fun _ =>
    expect_suffixes.bind fun _ => suffixes_pure

lemma parseGroup_suffixes : Suffixes (parseGroup command n) := by
  refine peek_suffixes.bind fun _ => .ite (pop_suffixes.bind fun _ => ?_) suffixes_pure
  refine (parseCompoundList_suffixes hc).attempt.bind fun res => pop_suffixes.bind fun _ => ?_
  cases res with
  | none => exact suffixes_giveUp
  | some res => exact .ite suffixes_giveUp suffixes_pure

lemma parseShellCommand_suffixes : Suffixes (parseShellCommand command n) := by
  refine tryRules_suffixes (parseGroup_suffixes hc) ?_
  simp only [List.mem_cons, List.not_mem_nil, or_false]
  rintro rule (rfl | rfl | rfl | rfl | rfl)
  · exact parseRuleIf_suffixes hc
  · exact parseLoop_suffixes hc
  · exact parseLoop_suffixes hc
  · exact parseRuleFor_suffixes hc
  · exact parseSubshell_suffixes hc

lemma parseFuncdec_suffixes : Suffixes (parseFuncdec command n) :=
  peek_suffixes.bind fun _ => .ite suffixes_giveUp (peek2_suffixes.bind fun _ => .ite suffixes_giveUp
    (pop_suffixes.bind fun _ => pop_suffixes.bind fun _ => expect_suffixes.bind fun _ =>
      skipNewlines_suffixes.bind fun _ => (parseShellCommand_suffixes hc).bind fun _ => suffixes_pure))

lemma parseRedirected_suffixes : Suffixes (parseRedirected command n) :=
  (tryRule_suffixes (parseShellCommand_suffixes hc)).bind fun _ => .ite suffixes_giveUp
    ((getChain_suffixes parseRedirection_suffixes).bind fun _ => suffixes_pure)

end Command

lemma parseCommand_suffixes : Suffixes (parseCommand n) := by
  induction n with
  | zero => exact suffixes_stop
  | succ n ih =>
    refine tryRules_suffixes (parseRedirected_suffixes ih) ?_
    simp only [List.mem_cons, List.not_mem_nil, or_false]
    rintro rule (rfl | rfl)
    · exact parseFuncdec_suffixes ih
    · exact parseSimpleCommand_suffixes

lemma parseInput_suffixes : Suffixes (parseInput n) := by
  refine peek_suffixes.bind fun _ => .ite suffixes_giveUp (.ite
    (pop_suffixes.bind fun _ => suffixes_pure) ?_)
  refine (parseList_suffixes parseCommand_suffixes).bind fun _ => peek_suffixes.bind fun _ => ?_
  exact .ite (pop_suffixes.bind fun _ => suffixes_pure)
    (.ite (pop_suffixes.bind fun _ => suffixes_pure) suffixes_giveUp)

end Suffixes

/-! ## Rules return -/

section Returns

variable {α β : Type} {x y : Rule α} {n m : ℕ} {ts rest : List Token} {rule command last : Rule Ast}
  {ast : Ast}
  {rules : List (Rule Ast)} {type : TokenType} {elt : Word ⊕ Ast}

lemma returns_peek {f : Token → Rule α} (h : Returns (f (ts.headD endToken)) ts) :
    Returns (peek >>= f) ts :=
  h

lemma returns_peek2 {f : Token → Rule α} (h : Returns (f (ts.tail.headD endToken)) ts) :
    Returns (peek2 >>= f) ts := h

lemma returns_pop {f : Token → Rule α} (h : Returns (f (ts.headD endToken)) ts.tail) :
    Returns (pop >>= f) ts :=
  h

lemma returns_skipNewlines {f : Unit → Rule α} (h : ∀ us, us <:+ ts → Returns (f ()) us) :
    Returns (skipNewlines >>= f) ts := h _ (List.dropWhile_suffix _)

lemma returns_ite {c : Prop} [Decidable c] (hx : c → Returns x ts) (hy : ¬c → Returns y ts) :
    Returns (if c then x else y) ts := by
  split
  · exact hx ‹_›
  · exact hy ‹_›

lemma tail_lt (h : nextType ts ≠ .EOF) : ts.tail.length < ts.length := by
  cases ts with
  | nil => exact absurd rfl h
  | cons t ts => exact Nat.lt_succ_self _

lemma tail_lt_of_eq (h : nextType ts = type) (hne : type ≠ .EOF) : ts.tail.length < ts.length :=
  tail_lt (ne_of_eq_of_ne h hne)

lemma tail_lt_of_word (h : (wordify (ts.headD endToken)).type = .WORD) : ts.tail.length < ts.length := by
  refine tail_lt fun heq => ?_
  have hword := wordify_type.mp h
  rw [← nextType, heq] at hword
  cases hword

lemma returns_expect {f : Unit → Rule α} (hf : nextType ts = type → Returns (f ()) ts.tail) :
    Returns (expect type >>= f) ts := by
  by_cases h : nextType ts = type
  · obtain ⟨r, hr⟩ := hf h
    exact ⟨r, (expect_bind h).trans hr⟩
  · exact ⟨_, bind_giveUp (expect_none h)⟩

lemma tryRule_returns (h : Returns rule ts) : Returns (tryRule rule) ts :=
  h.attempt_bind fun _ _ _ => returns_pure

lemma tryRules_returns (hlast : ∀ ts, ts.length ≤ n → Returns last ts)
    (hrules : ∀ rule ∈ rules, Suffixes rule ∧ ∀ ts, ts.length ≤ n → Returns rule ts) (hn : ts.length ≤ n) :
    Returns (tryRules last rules) ts := by
  induction rules generalizing ts with
  | nil => exact hlast ts hn
  | cons rule rules ih =>
    obtain ⟨hsuffix, hrule⟩ := hrules rule List.mem_cons_self
    refine (tryRule_returns (hrule ts hn)).bind fun res rest hrun => returns_ite (fun _ => ?_) fun _ =>
      returns_pure
    exact ih (fun rule h => hrules rule (List.mem_cons_of_mem _ h))
      (((tryRule_suffixes hsuffix).length_le hrun).trans hn)

/-! ### Simple commands -/

lemma redirType_ne {type : RedirType} (h : redirType (nextType ts) = some type) : nextType ts ≠ .EOF := by
  intro heq
  rw [heq] at h
  cases h

lemma parseOperator_returns {fd : ℤ} : Returns (parseOperator fd) ts := by
  refine returns_peek ?_
  split
  · exact returns_giveUp
  · exact returns_pop (returns_peek (returns_ite (fun _ => returns_giveUp) fun _ =>
      returns_pop returns_pure))

lemma parseOperator_costs {fd : ℤ} (h : (parseOperator fd).run ts = .ok (some ast, rest)) :
    rest.length < ts.length := by
  rw [parseOperator, peek_bind] at h
  split at h
  · cases h
  · rw [pop_bind, peek_bind, ite_run] at h
    split at h
    · cases h
    · cases h
      exact Nat.lt_of_le_of_lt (List.tail_suffix _).length_le (tail_lt (redirType_ne ‹_›))

lemma parseRedirection_returns : Returns parseRedirection ts :=
  returns_peek (returns_ite (fun _ => returns_pop parseOperator_returns) fun _ => parseOperator_returns)

lemma parseRedirection_costs (h : parseRedirection.run ts = .ok (some ast, rest)) :
    rest.length < ts.length := by
  rw [parseRedirection, peek_bind, ite_run] at h
  split at h
  · rw [pop_bind] at h
    exact (parseOperator_costs h).trans_le (List.tail_suffix _).length_le
  · exact parseOperator_costs h

lemma parsePrefix_returns : Returns parsePrefix ts :=
  returns_peek (returns_ite (fun _ => returns_pop returns_pure) fun _ => parseRedirection_returns)

lemma parsePrefix_costs (h : parsePrefix.run ts = .ok (some ast, rest)) : rest.length < ts.length := by
  rw [parsePrefix, peek_bind, ite_run] at h
  split at h
  · cases h
    exact tail_lt_of_eq (And.left ‹_›) (by decide)
  · exact parseRedirection_costs h

lemma parseElement_returns : Returns parseElement ts :=
  returns_peek (returns_ite (fun _ => returns_pop returns_pure) fun _ =>
    parseRedirection_returns.bind fun _ _ _ => returns_pure)

lemma parseElement_costs (h : parseElement.run ts = .ok (some elt, rest)) : rest.length < ts.length := by
  rw [parseElement, peek_bind, ite_run] at h
  split at h
  · cases h
    exact tail_lt_of_word ‹_›
  · obtain ⟨ast, us, hrun, h⟩ := bind_eq_some h
    cases h
    exact parseRedirection_costs hrun

lemma getChain_returns (hrule : ∀ ts, Returns rule ts)
    (hcosts : ∀ ts rest ast, rule.run ts = .ok (some ast, rest) → rest.length < ts.length)
    (hn : ts.length < n) : Returns (getChain rule n) ts := by
  induction n generalizing ts with
  | zero => exact absurd hn (Nat.not_lt_zero _)
  | succ n ih =>
    obtain ⟨⟨_ | ast, rest⟩, hrun⟩ := hrule ts
    · exact ⟨_, getChain_end hrun⟩
    · have hlt := hcosts ts rest ast hrun
      refine (tryRule_returns (hrule ts)).bind fun cur us hcur => ?_
      rw [tryRule_run hrun] at hcur
      cases hcur
      exact returns_ite (fun _ => returns_pure) fun _ => (ih (by omega)).bind fun _ _ _ => returns_pure

lemma getElements_returns (hn : ts.length < n) : Returns (getElements n) ts := by
  induction n generalizing ts with
  | zero => exact absurd hn (Nat.not_lt_zero _)
  | succ n ih =>
    refine parseElement_returns.attempt_bind fun elt rest hrun => ?_
    cases elt with
    | none => exact returns_pure
    | some elt =>
      have hlt := parseElement_costs hrun
      cases elt with
      | inl word => exact (ih (by omega)).bind fun _ _ _ => returns_pure
      | inr redir => exact (ih (by omega)).bind fun _ _ _ => returns_pure

lemma parseSimpleCommand_returns (hn : ts.length < n) : Returns (parseSimpleCommand n) ts := by
  refine (getChain_returns (fun _ => parsePrefix_returns) (fun _ _ _ => parsePrefix_costs) hn).bind ?_
  intro head rest hrun
  have hle : rest.length ≤ ts.length := (getChain_suffixes parsePrefix_suffixes).length_le hrun
  refine returns_peek (returns_ite (fun _ => returns_ite (fun _ => returns_giveUp) fun _ =>
    returns_pure) fun _ => ?_)
  refine Returns.bind ?_ fun _ _ _ => returns_ite (fun _ => returns_giveUp) fun _ => returns_pure
  refine returns_peek (returns_ite (fun _ => returns_pure) fun _ => returns_pop ?_)
  have hle' : rest.tail.length ≤ rest.length := (List.tail_suffix _).length_le
  exact (getElements_returns (by omega)).bind fun _ _ _ => returns_pure

/-! ### Lists and compound commands -/

/-- A rule for commands that returns on fewer than `n` tokens. -/
structure Halting (command : Rule Ast) (n : ℕ) : Prop where
  suffixes : Suffixes command
  returns : ∀ ts : List Token, ts.length < n → Returns command ts

section Command

variable (hc : Halting command n)

include hc

lemma parsePipelineRec_returns (hn : ts.length < n) (hm : ts.length < m) :
    Returns (parsePipelineRec command m) ts := by
  induction m generalizing ts with
  | zero => exact absurd hm (Nat.not_lt_zero _)
  | succ m ih =>
    refine (hc.returns ts hn).bind fun p1 rest hrun => returns_peek
      (returns_ite (fun ht => returns_pop ?_) fun _ =>
      returns_pure)
    have hle := hc.suffixes.length_le hrun
    have hlt := tail_lt_of_eq ht (by decide)
    refine returns_skipNewlines fun us hus => ?_
    have hus := hus.length_le
    exact (ih (by omega) (by omega)).bind fun _ _ _ => returns_pure

lemma parsePipes_returns (hn : ts.length < n) (hm : ts.length < m) : Returns (parsePipes command m) ts := by
  refine (hc.returns ts hn).bind fun p1 rest hrun => returns_peek
    (returns_ite (fun ht => returns_pop ?_) fun _ =>
    returns_pure)
  have hle := hc.suffixes.length_le hrun
  have hlt := tail_lt_of_eq ht (by decide)
  refine returns_skipNewlines fun us hus => ?_
  have hus := hus.length_le
  exact (parsePipelineRec_returns hc (by omega) (by omega)).bind fun _ _ _ => returns_pure

lemma parsePipeline_returns (hn : ts.length < n) (hm : ts.length < m) :
    Returns (parsePipeline command m) ts := by
  refine returns_peek (returns_ite (fun _ => returns_pop ?_) fun _ => parsePipes_returns hc hn hm)
  have hle : ts.tail.length ≤ ts.length := (List.tail_suffix _).length_le
  exact (parsePipes_returns hc (by omega) (by omega)).bind fun _ _ _ => returns_pure

lemma andOrLoop_returns {res : Ast} (hn : ts.length < n) (hm : ts.length < m) :
    Returns (andOrLoop command m res) ts := by
  induction m generalizing ts res with
  | zero => exact absurd hm (Nat.not_lt_zero _)
  | succ m ih =>
    refine returns_peek (returns_ite (fun ht => returns_pop ?_) fun _ => returns_pure)
    have hlt : ts.tail.length < ts.length := ht.elim (tail_lt_of_eq · (by decide))
      (tail_lt_of_eq · (by decide))
    refine returns_skipNewlines fun us hus => ?_
    have hus := hus.length_le
    refine (parsePipeline_returns hc (by omega) (by omega)).bind fun p2 rest hrun => ?_
    have hle := (parsePipeline_suffixes hc.suffixes).length_le hrun
    exact ih (by omega) (by omega)

lemma parseAndOr_returns (hn : ts.length < n) (hm : ts.length < m) : Returns (parseAndOr command m) ts := by
  refine (parsePipeline_returns hc hn hm).bind fun p1 rest hrun => ?_
  have hle := (parsePipeline_suffixes hc.suffixes).length_le hrun
  exact andOrLoop_returns hc (by omega) (by omega)

lemma listLoop_returns (hn : ts.length < n) (hm : ts.length < m) : Returns (listLoop command m) ts := by
  induction m generalizing ts with
  | zero => exact absurd hm (Nat.not_lt_zero _)
  | succ m ih =>
    refine returns_peek (returns_ite (fun ht => returns_pop ?_) fun _ => returns_pure)
    have hlt := tail_lt_of_eq ht (by decide)
    refine (parseAndOr_returns hc (by omega) (by omega)).attempt_bind fun p1 rest hrun => ?_
    have hle := (parseAndOr_suffixes hc.suffixes).length_le hrun
    cases p1 with
    | none => exact returns_pure
    | some p1 => exact (ih (by omega) (by omega)).bind fun _ _ _ => returns_pure

lemma parseList_returns (hn : ts.length < n) (hm : ts.length < m) : Returns (parseList command m) ts := by
  refine (parseAndOr_returns hc hn hm).bind fun p1 rest hrun => ?_
  have hle := (parseAndOr_suffixes hc.suffixes).length_le hrun
  exact (listLoop_returns hc (by omega) (by omega)).bind fun _ _ _ => returns_pure

lemma compoundLoop_returns (hn : ts.length < n) (hm : ts.length < m) :
    Returns (compoundLoop command m) ts := by
  induction m generalizing ts with
  | zero => exact absurd hm (Nat.not_lt_zero _)
  | succ m ih =>
    refine returns_peek (returns_ite (fun ht => returns_pop ?_) fun _ => returns_pure)
    have hlt : ts.tail.length < ts.length := ht.elim (tail_lt_of_eq · (by decide))
      (tail_lt_of_eq · (by decide))
    refine returns_skipNewlines fun us hus => ?_
    have hus := hus.length_le
    refine (parseAndOr_returns hc (by omega) (by omega)).attempt_bind fun p1 rest hrun => ?_
    have hle := (parseAndOr_suffixes hc.suffixes).length_le hrun
    cases p1 with
    | none => exact returns_pure
    | some p1 => exact (ih (by omega) (by omega)).bind fun _ _ _ => returns_pure

lemma parseCompoundList_returns (hn : ts.length < n) (hm : ts.length < m) :
    Returns (parseCompoundList command m) ts := by
  refine returns_skipNewlines fun us hus => ?_
  have hus := hus.length_le
  refine (parseAndOr_returns hc (by omega) (by omega)).bind fun p1 rest hrun => ?_
  have hle := (parseAndOr_suffixes hc.suffixes).length_le hrun
  exact (compoundLoop_returns hc (by omega) (by omega)).bind fun _ _ _ =>
    returns_skipNewlines fun _ _ => returns_pure

lemma parseElseClause_returns (hn : ts.length ≤ n) (hm : ts.length < m) :
    Returns (parseElseClause command m) ts := by
  induction m generalizing ts with
  | zero => exact absurd hm (Nat.not_lt_zero _)
  | succ m ih =>
    refine returns_peek (returns_ite (fun ht => returns_pop ?_) fun _ =>
      returns_ite (fun ht => returns_pop ?_) fun _ =>
      returns_giveUp)
    · have hlt := tail_lt_of_eq ht (by decide)
      exact parseCompoundList_returns hc (by omega) (by omega)
    · have hlt := tail_lt_of_eq ht (by decide)
      refine (parseCompoundList_returns hc (by omega) (by omega)).bind fun p1 us hrun => returns_pop ?_
      have hle := (parseCompoundList_suffixes hc.suffixes).length_le hrun
      have hle' : us.tail.length ≤ us.length := (List.tail_suffix _).length_le
      refine returns_ite (fun _ => returns_giveUp) fun _ => ?_
      refine (parseCompoundList_returns hc (by omega) (by omega)).bind fun p2 vs hrun => ?_
      have hle := (parseCompoundList_suffixes hc.suffixes).length_le hrun
      exact (tryRule_returns (ih (by omega) (by omega))).bind fun _ _ _ => returns_pure

lemma parseRuleIf_returns (hn : ts.length ≤ n) (hm : ts.length < m) :
    Returns (parseRuleIf command m) ts := by
  refine returns_expect fun ht => ?_
  have hlt := tail_lt_of_eq ht (by decide)
  refine (parseCompoundList_returns hc (by omega) (by omega)).bind fun p1 us hus => returns_expect fun _ =>
    ?_
  have hus := (parseCompoundList_suffixes hc.suffixes).length_le hus
  have hus' : us.tail.length ≤ us.length := (List.tail_suffix _).length_le
  refine (parseCompoundList_returns hc (by omega) (by omega)).bind fun p2 vs hvs => ?_
  have hvs := (parseCompoundList_suffixes hc.suffixes).length_le hvs
  refine (tryRule_returns (parseElseClause_returns hc (by omega) (by omega))).bind fun _ _ _ => ?_
  exact returns_expect fun _ => returns_pure

lemma returns_body {f : Ast → Rule α} (hn : ts.length ≤ n) (hm : ts.length < m) (hne : type ≠ .EOF)
    (hf : ∀ p1 us, us.length < ts.length → Returns (f p1) us) :
    Returns (expect type >>= fun _ => parseCompoundList command m >>= f) ts := by
  refine returns_expect fun ht => ?_
  have hlt := tail_lt_of_eq ht hne
  refine (parseCompoundList_returns hc (by omega) (by omega)).bind fun p1 us hus => hf p1 us ?_
  have hus := (parseCompoundList_suffixes hc.suffixes).length_le hus
  omega

lemma parseLoop_returns {node : Ast → Ast → Ast} (hn : ts.length ≤ n) (hm : ts.length < m)
    (hne : type ≠ .EOF) : Returns (parseLoop command type node m) ts :=
  returns_body hc hn hm hne fun _ _ hus => returns_body hc (by omega) (by omega) (by decide) fun _ _ _ =>
    returns_expect fun _ => returns_pure

lemma parseSubshell_returns (hn : ts.length ≤ n) (hm : ts.length < m) :
    Returns (parseSubshell command m) ts :=
  returns_body hc hn hm (by decide) fun _ _ _ => returns_expect fun _ => returns_pure

lemma auxForDo_returns {p2 : Word} {p3 : List Word} (hn : ts.length ≤ n) (hm : ts.length < m) :
    Returns (auxForDo command p2 p3 m) ts :=
  returns_body hc hn hm (by decide) fun _ _ _ => returns_expect fun _ => returns_pure

omit hc in
lemma getWordsLoop_returns (hm : ts.length < m) : Returns (getWordsLoop m) ts := by
  induction m generalizing ts with
  | zero => exact absurd hm (Nat.not_lt_zero _)
  | succ m ih =>
    refine returns_peek (returns_ite (fun ht => returns_pop ?_) fun _ => returns_pure)
    have hlt := tail_lt_of_word ht
    exact (ih (by omega)).bind fun _ _ _ => returns_pure

lemma parseRuleFor_returns (hn : ts.length ≤ n) (hm : ts.length < m) :
    Returns (parseRuleFor command m) ts := by
  refine returns_expect fun _ => returns_peek (returns_ite (fun _ => returns_giveUp) fun _ =>
    returns_pop ?_)
  have hle : ts.tail.tail.length ≤ ts.length := ((List.tail_suffix _).trans (List.tail_suffix _)).length_le
  refine returns_peek (returns_ite (fun _ => returns_pop (returns_skipNewlines fun us hus => ?_)) fun _ =>
    ?_)
  · have hus := (hus.trans (List.tail_suffix _)).length_le
    exact auxForDo_returns hc (by omega) (by omega)
  · refine returns_skipNewlines fun us hus => ?_
    have hus := hus.length_le
    refine returns_peek (returns_ite (fun _ => auxForDo_returns hc (by omega) (by omega)) fun _ => ?_)
    have hwords : Returns (getWords m) us := by
      refine returns_expect fun _ => getWordsLoop_returns ?_
      have hus' : us.tail.length ≤ us.length := (List.tail_suffix _).length_le
      omega
    refine hwords.bind fun p3 vs hvs => returns_peek (returns_ite (fun _ => returns_giveUp) fun _ => ?_)
    have hvs := (expect_suffixes.bind fun _ => getWordsLoop_suffixes).length_le hvs
    refine returns_pop (returns_skipNewlines fun ws hws => ?_)
    have hws := (hws.trans (List.tail_suffix _)).length_le
    exact auxForDo_returns hc (by omega) (by omega)

lemma parseGroup_returns (hn : ts.length ≤ n) (hm : ts.length < m) : Returns (parseGroup command m) ts := by
  refine returns_peek (returns_ite (fun ht => returns_pop ?_) fun _ => returns_pure)
  have hlt := tail_lt_of_eq ht (by decide)
  refine (parseCompoundList_returns hc (by omega) (by omega)).attempt_bind fun res _ _ => returns_pop ?_
  cases res with
  | none => exact returns_giveUp
  | some res => exact returns_ite (fun _ => returns_giveUp) fun _ => returns_pure

lemma parseShellCommand_returns (hn : ts.length ≤ n) (hm : ts.length < m) :
    Returns (parseShellCommand command m) ts := by
  refine tryRules_returns (fun us hus => parseGroup_returns hc (hus.trans hn) (hus.trans_lt hm)) ?_ le_rfl
  simp only [List.mem_cons, List.not_mem_nil, or_false]
  rintro rule (rfl | rfl | rfl | rfl | rfl)
  · exact ⟨parseRuleIf_suffixes hc.suffixes, fun us hus => parseRuleIf_returns hc (by omega) (by omega)⟩
  · exact ⟨parseLoop_suffixes hc.suffixes, fun us hus => parseLoop_returns hc (by omega) (by omega)
      (by decide)⟩
  · exact ⟨parseLoop_suffixes hc.suffixes, fun us hus => parseLoop_returns hc (by omega) (by omega)
      (by decide)⟩
  · exact ⟨parseRuleFor_suffixes hc.suffixes, fun us hus => parseRuleFor_returns hc (by omega) (by omega)⟩
  · exact ⟨parseSubshell_suffixes hc.suffixes, fun us hus => parseSubshell_returns hc (by omega) (by omega)⟩

lemma parseFuncdec_returns (hn : ts.length ≤ n) (hm : ts.length < m) :
    Returns (parseFuncdec command m) ts := by
  refine returns_peek (returns_ite (fun _ => returns_giveUp) fun _ => returns_peek2 (returns_ite (fun _ =>
    returns_giveUp) fun _ => returns_pop (returns_pop (returns_expect fun _ =>
    returns_skipNewlines fun us hus => ?_))))
  have hus := (((hus.trans (List.tail_suffix _)).trans (List.tail_suffix _)).trans
    (List.tail_suffix _)).length_le
  exact (parseShellCommand_returns hc (by omega) (by omega)).bind fun _ _ _ => returns_pure

lemma parseRedirected_returns (hn : ts.length ≤ n) (hm : ts.length < m) :
    Returns (parseRedirected command m) ts := by
  refine (tryRule_returns (parseShellCommand_returns hc hn hm)).bind fun ast us hus => ?_
  have hus := (tryRule_suffixes (parseShellCommand_suffixes hc.suffixes)).length_le hus
  refine returns_ite (fun _ => returns_giveUp) fun _ => Returns.bind ?_ fun _ _ _ => returns_pure
  exact getChain_returns (fun _ => parseRedirection_returns) (fun _ _ _ => parseRedirection_costs)
    (by omega)

end Command

lemma halting (n : ℕ) : Halting (parseCommand (n + 1)) n := by
  refine ⟨parseCommand_suffixes, ?_⟩
  induction n with
  | zero => exact fun ts hn => absurd hn (Nat.not_lt_zero _)
  | succ n ih =>
    have hc : Halting (parseCommand (n + 1)) n := ⟨parseCommand_suffixes, ih⟩
    intro ts hn
    refine tryRules_returns (fun us hus => parseRedirected_returns hc (by omega) (by omega)) ?_ le_rfl
    simp only [List.mem_cons, List.not_mem_nil, or_false]
    rintro rule (rfl | rfl)
    · exact ⟨parseFuncdec_suffixes hc.suffixes, fun us hus => parseFuncdec_returns hc (by omega) (by omega)⟩
    · exact ⟨parseSimpleCommand_suffixes, fun us hus => parseSimpleCommand_returns (by omega)⟩

lemma parseInput_returns (hn : ts.length + 1 < n) : Returns (parseInput n) ts := by
  obtain ⟨n, rfl⟩ := Nat.exists_eq_add_of_lt hn
  refine returns_peek (returns_ite (fun _ => returns_giveUp) fun _ => returns_ite
    (fun _ => returns_pop returns_pure)
    fun _ => ?_)
  refine (parseList_returns (halting _) (by omega) (by omega)).bind fun ast us _ => returns_peek ?_
  exact returns_ite (fun _ => returns_pop returns_pure) fun _ =>
    returns_ite (fun _ => returns_pop returns_pure) fun _ => returns_giveUp

lemma parseInput_costs (h : (parseInput n).run ts = .ok (some (.OK, ast), rest)) :
    rest.length < ts.length := by
  rw [parseInput, peek_bind, ite_run] at h
  split at h
  · cases h
  · rw [ite_run] at h
    split at h
    · rw [pop_bind, pure_run] at h
      split at h
      · cases h
      · cases h
        exact tail_lt ‹_›
    · obtain ⟨ast', us, hrun, h⟩ := bind_eq_some h
      have hle := (parseList_suffixes parseCommand_suffixes).length_le hrun
      rw [peek_bind, ite_run] at h
      split at h
      · cases h
      · rw [ite_run] at h
        split at h
        · cases h
          have hlt := tail_lt_of_eq ‹_› (by decide)
          omega
        · cases h

end Returns

end BrebOS.Shell
