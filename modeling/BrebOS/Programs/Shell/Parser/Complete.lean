import BrebOS.Programs.Shell.Parser.Lookahead

/-!
# Sentences are parsed

Whatever sentence of the grammar the parser reads, it builds the tree of it, and goes on behind it.  What
makes a rule stop is the next token: no command begins with it, and where the words of a simple command have
just ended, it is not a word.
-/

namespace BrebOS.Shell

open Attempt

/-! ## Lists of commands -/

/-- Whether a rule for commands parses the sentences shorter than `m`, and gives up at once where none
begins. -/
structure Commands (command : Rule Ast) (m : ℕ) : Prop where
  none : ∀ {rest : List Token}, starts (nextType rest) = false → command.run rest = .ok (none, rest)
  run : ∀ {ts rest : List Token} {ast : Ast} {w : Bool}, Derives False .command ts ast w → ts.length < m →
    Follows w rest → command.run (ts ++ rest) = .ok (some ast, rest)

/-- The tokens behind the commands of a compound command. -/
def closes : TokenType → Bool
  | .THEN | .ELSE | .ELIF | .FI | .DO | .DONE | .RPAREN | .RBRACE => true
  | _ => false

/-- The tokens behind a command of a list. -/
def breaks (type : TokenType) : Bool := type = .SEMICOLON || type = .NEWLINE || type = .EOF || closes type

/-- The tokens that the sentences of a symbol begin with, as far as they cannot be empty. -/
def Symbol.starts : Symbol → TokenType → Bool
  | .command | .shell | .pipes | .bare => startsCommand
  | .pipeline | .andOr | .list => BrebOS.Shell.starts
  | _ => fun _ => true

section Lists

variable {command : Rule Ast} {m n : ℕ} {lenient : Prop} {sym : Symbol} {ts ns rest : List Token}
  {t : Token} {ps : List (Word ⊕ RedirInfo)} {res p1 p2 ast : Ast} {w w' : Bool} {type : TokenType}

lemma breaks_quiet (h : breaks type = true) :
    starts type = false ∧ type ≠ .PIPE ∧ type ≠ .AND ∧ type ≠ .OR := by
  cases type <;> first | (cases h; done) | decide

lemma starts_of_startsCommand (h : startsCommand type = true) : starts type = true := by
  rw [starts, h, Bool.or_true]

lemma startsCommand_redirection {us : List Token} {r : RedirInfo} (h : IsRedirection us r) :
    startsCommand (nextType (us ++ rest)) = true := by
  obtain h | ⟨type, h⟩ := h.next rest
  · rw [h]
    rfl
  · revert h
    cases nextType (us ++ rest) <;> first | (intro h; cases h; done) | (intro; rfl)

lemma Prefixes.starts (h : Prefixes ts ps) (hrest : ps ≠ [] ∨ startsCommand (nextType rest) = true) :
    startsCommand (nextType (ts ++ rest)) = true := by
  cases h with
  | nil => exact hrest.resolve_left (absurd rfl)
  | @assign t ts ps ht hassign hts =>
    rw [show nextType (t :: ts ++ rest) = .WORD from ht]
    rfl
  | @redir us ts r ps hr hts =>
    rw [List.append_assoc]
    exact startsCommand_redirection hr

lemma startsCommand_of_eq (h : t.type = type) (hstart : startsCommand type = true) :
    startsCommand (nextType (t :: ts)) = true := by
  rwa [nextType, List.headD_cons, h]

lemma Derives.starts (h : Derives lenient sym ts ast w) (rest : List Token) :
    sym.starts (nextType (ts ++ rest)) = true := by
  induction h generalizing rest with
  | bare hts hps => exact hts.starts (.inl hps)
  | @simple ts es t ps ws rs hts ht hname hes =>
    rw [List.append_assoc]
    exact hts.starts (.inr (startsCommand_of_eq ht rfl))
  | funcdef ht | bodiless _ ht => exact startsCommand_of_eq ht rfl
  | lastPipe _ ih | single _ ih => exact ih rest
  | plain _ ih => exact starts_of_startsCommand (ih rest)
  | @not ts t ast w ht =>
    rw [List.cons_append, nextType, List.headD_cons, ht]
    rfl
  | shell _ _ ih | pipe _ _ _ _ ih | piped _ _ _ _ ih | andOr _ _ ih | list _ _ ih =>
    simp only [List.append_assoc]
    exact ih _
  | group ht | subshell ht | ifThen ht | whileLoop ht | untilLoop ht | forArguments ht | forWords ht =>
    exact startsCommand_of_eq ht rfl
  | _ => rfl

lemma Derives.opens (h : Derives lenient .shell ts ast w) (rest : List Token) :
    opens (nextType (ts ++ rest)) = true := by
  cases h with
  | group ht | subshell ht | ifThen ht | whileLoop ht | untilLoop ht | forArguments ht | forWords ht =>
    simp only [List.cons_append]
    rw [nextType_cons ht]
    rfl

lemma dropWhile_starts (hns : Newlines ns) (h : starts (nextType rest) = true) :
    (ns ++ rest).dropWhile (fun t => t.type = .NEWLINE) = rest := by
  refine dropWhile_newlines hns fun heq => ?_
  rw [nextType, heq] at h
  cases h

lemma parsePipelineRec_run (hc : Commands command m) (h : Derives False .pipes ts ast w)
    (hm : ts.length < m) (hn : ts.length < n) (hrest : Follows w rest) (hpipe : nextType rest ≠ .PIPE) :
    (parsePipelineRec command n).run (ts ++ rest) = .ok (some ast, rest) := by
  induction n generalizing ts ast w with
  | zero => exact absurd hn (Nat.not_lt_zero _)
  | succ n ih =>
    cases h with
    | @pipe ts ns us t p1 p2 w w' hp1 ht hns hp2 =>
      simp only [List.length_append, List.length_cons] at hm hn
      have hts : ts ++ t :: ns ++ us ++ rest = ts ++ t :: (ns ++ (us ++ rest)) := by simp
      rw [parsePipelineRec, hts,
        bind_run (hc.run hp1 (by omega) (follows_of_eq (nextType_cons ht) rfl rfl)), peek_bind,
        if_pos (by simpa using ht), pop_bind, skipNewlines_bind, List.tail_cons,
        dropWhile_starts hns (starts_of_startsCommand (hp2.starts rest)),
        bind_run (ih hp2 (by omega) (by omega) hrest)]
      rfl
    | lastPipe hp1 =>
      rw [nextType] at hpipe
      rw [parsePipelineRec, bind_run (hc.run hp1 hm hrest), peek_bind, if_neg hpipe]
      rfl

lemma parsePipes_run (hc : Commands command m) (h : Derives False .bare ts ast w) (hm : ts.length < m)
    (hn : ts.length < n) (hrest : Follows w rest) (hpipe : nextType rest ≠ .PIPE) :
    (parsePipes command n).run (ts ++ rest) = .ok (some ast, rest) := by
  cases h with
  | single h =>
    rw [nextType] at hpipe
    rw [parsePipes, bind_run (hc.run h hm hrest), peek_bind, if_neg hpipe]
    rfl
  | @piped ts ns us t p1 p2 w w' hp1 ht hns hp2 =>
    simp only [List.length_append, List.length_cons] at hm hn
    have hts : ts ++ t :: ns ++ us ++ rest = ts ++ t :: (ns ++ (us ++ rest)) := by simp
    rw [parsePipes, hts, bind_run (hc.run hp1 (by omega) (follows_of_eq (nextType_cons ht) rfl rfl)),
      peek_bind, if_pos (by simpa using ht), pop_bind, skipNewlines_bind, List.tail_cons,
      dropWhile_starts hns (starts_of_startsCommand (hp2.starts rest)),
      bind_run (parsePipelineRec_run hc hp2 (by omega) (by omega) hrest hpipe)]
    rfl

lemma parsePipeline_run (hc : Commands command m) (h : Derives False .pipeline ts ast w)
    (hm : ts.length < m) (hn : ts.length < n) (hrest : Follows w rest) (hpipe : nextType rest ≠ .PIPE) :
    (parsePipeline command n).run (ts ++ rest) = .ok (some ast, rest) := by
  cases h with
  | plain h =>
    have hnot : ¬((ts ++ rest).headD endToken).type = .NOT := fun heq => by
      have hstart := h.starts rest
      rw [nextType, heq] at hstart
      cases hstart
    rw [parsePipeline, peek_bind, if_neg hnot]
    exact parsePipes_run hc h hm hn hrest hpipe
  | @not ts t ast w ht h =>
    rw [List.length_cons] at hm hn
    rw [parsePipeline, List.cons_append, peek_bind, if_pos (by simpa using ht), pop_bind, List.tail_cons,
      bind_run (parsePipes_run hc h (by omega) (by omega) hrest hpipe)]
    rfl

lemma andOrFrom_follows (h : Derives False (.andOrFrom p1 w') ts ast w) (hrest : Follows w rest)
    (hbreak : breaks (nextType rest) = true) : Follows w' (ts ++ rest) ∧ nextType (ts ++ rest) ≠ .PIPE := by
  cases h with
  | done => exact ⟨hrest, (breaks_quiet hbreak).2.1⟩
  | and ht | or ht =>
    simp only [List.cons_append]
    exact ⟨follows_of_eq (nextType_cons ht) rfl rfl, ne_of_eq_of_ne ht (by decide)⟩

lemma andOrLoop_step {us : List Token} (hc : Commands command m) (hns : Newlines ns)
    (hp2 : Derives False .pipeline ts p2 w') (h : Derives False (.andOrFrom p1 w') us ast w)
    (ht : t.type = .AND ∨ t.type = .OR) (hp1 : p1 = if t.type = .OR then .or res p2 else .and res p2)
    (hm : ts.length < m) (hn : ts.length < n) (hrest : Follows w rest)
    (hbreak : breaks (nextType rest) = true)
    (hloop : (andOrLoop command n p1).run (us ++ rest) = .ok (some ast, rest)) :
    (andOrLoop command (n + 1) res).run (t :: ns ++ ts ++ us ++ rest) = .ok (some ast, rest) := by
  obtain ⟨hfollow, hpipe⟩ := andOrFrom_follows h hrest hbreak
  have hts : t :: ns ++ ts ++ us ++ rest = t :: (ns ++ (ts ++ (us ++ rest))) := by simp
  rw [andOrLoop, hts, peek_bind, if_pos (by simpa using ht), pop_bind, skipNewlines_bind, List.tail_cons,
    dropWhile_starts hns (hp2.starts _), bind_run (parsePipeline_run hc hp2 hm hn hfollow hpipe)]
  rwa [List.headD_cons, ← hp1]

lemma andOrLoop_run (hc : Commands command m) (h : Derives False (.andOrFrom p1 w') ts ast w)
    (hm : ts.length < m) (hn : ts.length < n) (hrest : Follows w rest)
    (hbreak : breaks (nextType rest) = true) :
    (andOrLoop command n p1).run (ts ++ rest) = .ok (some ast, rest) := by
  induction n generalizing ts p1 w' with
  | zero => exact absurd hn (Nat.not_lt_zero _)
  | succ n ih =>
    cases h with
    | done =>
      obtain ⟨-, -, hand, hor⟩ := breaks_quiet hbreak
      rw [nextType] at hand hor
      rw [andOrLoop, List.nil_append, peek_bind, if_neg (not_or.mpr ⟨hand, hor⟩)]
      rfl
    | and ht hns hp2 h =>
      simp only [List.length_append, List.length_cons] at hm hn
      exact andOrLoop_step hc hns hp2 h (.inl ht) (by simp [ht]) (by omega) (by omega) hrest hbreak
        (ih h (by omega) (by omega))
    | or ht hns hp2 h =>
      simp only [List.length_append, List.length_cons] at hm hn
      exact andOrLoop_step hc hns hp2 h (.inr ht) (by simp [ht]) (by omega) (by omega) hrest hbreak
        (ih h (by omega) (by omega))

lemma parseAndOr_run (hc : Commands command m) (h : Derives False .andOr ts ast w) (hm : ts.length < m)
    (hn : ts.length < n) (hrest : Follows w rest) (hbreak : breaks (nextType rest) = true) :
    (parseAndOr command n).run (ts ++ rest) = .ok (some ast, rest) := by
  cases h with
  | @andOr ts us p1 ast w w' hp1 h =>
    rw [List.length_append] at hm hn
    obtain ⟨hfollow, hpipe⟩ := andOrFrom_follows h hrest hbreak
    rw [parseAndOr, List.append_assoc,
      bind_run (parsePipeline_run hc hp1 (by omega) (by omega) hfollow hpipe)]
    exact andOrLoop_run hc h (by omega) (by omega) hrest hbreak

lemma parseAndOr_none (hc : Commands command m) (h : starts (nextType rest) = false) :
    (parseAndOr command n).run rest = .ok (none, rest) := by
  have hnot : ¬(rest.headD endToken).type = .NOT := fun heq => by
    rw [nextType, heq] at h
    cases h
  refine bind_giveUp ?_
  rw [parsePipeline, peek_bind, if_neg hnot]
  exact bind_giveUp (hc.none h)

lemma breaks_follows (h : nextType rest = .SEMICOLON ∨ nextType rest = .NEWLINE ∨ nextType rest = .EOF) :
    Follows w rest ∧ breaks (nextType rest) = true := by
  obtain h | h | h := h <;> exact ⟨follows_of_eq h rfl rfl, by rw [h]; rfl⟩

lemma listRest_follows (h : Derives False .listRest ts ast w')
    (hend : nextType rest = .NEWLINE ∨ nextType rest = .EOF) :
    Follows w (ts ++ rest) ∧ breaks (nextType (ts ++ rest)) = true := by
  cases h with
  | listEnd => exact breaks_follows (.inr hend)
  | listSemicolon ht | listMore ht => exact breaks_follows (.inl ht)

lemma listLoop_run (hc : Commands command m) (h : Derives False .listRest ts ast w) (hm : ts.length < m)
    (hn : ts.length < n) (hend : nextType rest = .NEWLINE ∨ nextType rest = .EOF) :
    (listLoop command n).run (ts ++ rest) = .ok (some ast, rest) := by
  induction n generalizing ts ast w with
  | zero => exact absurd hn (Nat.not_lt_zero _)
  | succ n ih =>
    cases h with
    | listEnd =>
      have hne : ¬(rest.headD endToken).type = .SEMICOLON := by
        rw [← nextType]
        obtain h | h := hend <;> exact ne_of_eq_of_ne h (by decide)
      rw [listLoop, List.nil_append, peek_bind, if_neg hne]
      rfl
    | listSemicolon ht =>
      have hquiet : starts (nextType rest) = false := by obtain h | h := hend <;> rw [h] <;> rfl
      rw [listLoop, List.singleton_append, peek_bind, if_pos (by simpa using ht), pop_bind, List.tail_cons,
        bind_run (attempt_run (parseAndOr_none hc hquiet))]
      rfl
    | @listMore t ts us p1 p2 w w' ht hp1 hp2 =>
      simp only [List.length_append, List.length_cons] at hm hn
      obtain ⟨hfollow, hbreak⟩ := listRest_follows hp2 hend
      rw [listLoop, List.append_assoc, List.cons_append, peek_bind, if_pos (by simpa using ht), pop_bind,
        List.tail_cons, bind_run (attempt_run (parseAndOr_run hc hp1 (by omega) (by omega) hfollow hbreak)),
        bind_run (ih hp2 (by omega) (by omega))]
      rfl

lemma parseList_run (hc : Commands command m) (h : Derives False .list ts ast w) (hm : ts.length < m)
    (hn : ts.length < n) (hend : nextType rest = .NEWLINE ∨ nextType rest = .EOF) :
    (parseList command n).run (ts ++ rest) = .ok (some ast, rest) := by
  cases h with
  | @list ts us p1 p2 w w' hp1 hp2 =>
    rw [List.length_append] at hm hn
    obtain ⟨hfollow, hbreak⟩ := listRest_follows hp2 hend
    rw [parseList, List.append_assoc, bind_run (parseAndOr_run hc hp1 (by omega) (by omega) hfollow hbreak),
      bind_run (listLoop_run hc hp2 (by omega) (by omega) hend)]
    rfl

lemma rest_follows (h : Derives False (.rest w') ts ast w) (hrest : Follows w rest)
    (hclose : closes (nextType rest) = true) :
    Follows w' (ts ++ rest) ∧ breaks (nextType (ts ++ rest)) = true := by
  cases h with
  | restEnd => exact ⟨hrest, by rw [List.nil_append, breaks, hclose, Bool.or_true]⟩
  | restSeparator ht | restMore ht => exact breaks_follows (ht.imp_right .inl)

lemma closes_ne (h : closes type = true) : type ≠ .SEMICOLON ∧ type ≠ .NEWLINE := by
  cases type <;> first | (cases h; done) | decide

lemma compoundLoop_run (hc : Commands command m) (h : Derives False (.rest w') ts ast w)
    (hm : ts.length < m) (hn : ts.length < n) (hrest : Follows w rest)
    (hclose : closes (nextType rest) = true) :
    (compoundLoop command n).run (ts ++ rest) = .ok (some ast, rest) := by
  induction n generalizing ts ast w' with
  | zero => exact absurd hn (Nat.not_lt_zero _)
  | succ n ih =>
    obtain ⟨hsemicolon, hnewline⟩ := closes_ne hclose
    rw [nextType] at hsemicolon hnewline
    cases h with
    | restEnd =>
      rw [compoundLoop, List.nil_append, peek_bind, if_neg (not_or.mpr ⟨hsemicolon, hnewline⟩)]
      rfl
    | restSeparator ht hns =>
      rw [compoundLoop, List.cons_append, peek_bind, if_pos (by simpa [Separates] using ht), pop_bind,
        List.tail_cons, skipNewlines_bind, dropWhile_newlines hns hnewline,
        bind_run (attempt_run (parseAndOr_none hc hrest.quiet))]
      rfl
    | @restMore t ns ts us p1 p2 w w' w'' ht hns hp1 hp2 =>
      simp only [List.length_append, List.length_cons] at hm hn
      obtain ⟨hfollow, hbreak⟩ := rest_follows hp2 hrest hclose
      have hts : t :: ns ++ ts ++ us ++ rest = t :: (ns ++ (ts ++ (us ++ rest))) := by simp
      rw [compoundLoop, hts, peek_bind, if_pos (by simpa [Separates] using ht), pop_bind, List.tail_cons,
        skipNewlines_bind, dropWhile_starts hns (hp1.starts _),
        bind_run (attempt_run (parseAndOr_run hc hp1 (by omega) (by omega) hfollow hbreak)),
        bind_run (ih hp2 (by omega) (by omega))]
      rfl

lemma parseCompoundList_run (hc : Commands command m) (h : Derives False .compound ts ast w)
    (hm : ts.length < m) (hn : ts.length < n) (hrest : Follows w rest)
    (hclose : closes (nextType rest) = true) :
    (parseCompoundList command n).run (ts ++ rest) = .ok (some ast, rest) := by
  cases h with
  | @compound ns ts us p1 p2 w w' hns hp1 hp2 =>
    simp only [List.length_append] at hm hn
    obtain ⟨hfollow, hbreak⟩ := rest_follows hp2 hrest hclose
    have hts : ns ++ ts ++ us ++ rest = ns ++ (ts ++ (us ++ rest)) := by simp
    rw [parseCompoundList, hts, skipNewlines_bind, dropWhile_starts hns (hp1.starts _),
      bind_run (parseAndOr_run hc hp1 (by omega) (by omega) hfollow hbreak),
      bind_run (compoundLoop_run hc hp2 (by omega) (by omega) hrest hclose), skipNewlines_bind]
    have hnone : Newlines [] := fun _ h => absurd h List.not_mem_nil
    have hend := dropWhile_newlines hnone (closes_ne hclose).2
    rw [List.nil_append] at hend
    rw [hend]
    rfl

end Lists

/-! ## Compound commands -/

section Compound

variable {command : Rule Ast} {m n : ℕ} {ts us vs ns rest : List Token} {t d e : Token} {p1 p2 p3 ast : Ast}
  {w : Bool} {type : TokenType} {node : Ast → Ast → Ast} {word : Word} {words : List Word}
  {rs : List RedirInfo}

lemma closes_follows (h : nextType rest = type) (hclose : closes type = true) : Follows false rest := by
  refine ⟨(breaks_quiet ?_).1, fun h => by cases h⟩
  rw [h, breaks, hclose, Bool.or_true]

lemma parseCompoundList_close (hc : Commands command m) (h : Derives False .compound ts ast false)
    (hm : ts.length < m) (hn : ts.length < n) (hrest : nextType rest = type) (hclose : closes type = true) :
    (parseCompoundList command n).run (ts ++ rest) = .ok (some ast, rest) :=
  parseCompoundList_run hc h hm hn (closes_follows hrest hclose) (hrest ▸ hclose)

lemma parseLoop_run (hc : Commands command m) (ht : t.type = type)
    (hp1 : Derives False .compound ts p1 false) (hd : d.type = .DO)
    (hp2 : Derives False .compound us p2 false) (he : e.type = .DONE) (hm : ts.length + us.length < m)
    (hn : ts.length + us.length < n) :
    (parseLoop command type node n).run (t :: (ts ++ d :: (us ++ e :: rest))) =
      .ok (some (node p1 p2), rest) := by
  rw [parseLoop, expect_bind (by simpa using ht), List.tail_cons,
    bind_run (parseCompoundList_close hc hp1 (by omega) (by omega) (nextType_cons hd) rfl),
    expect_bind (by simpa using hd), List.tail_cons,
    bind_run (parseCompoundList_close hc hp2 (by omega) (by omega) (nextType_cons he) rfl),
    expect_bind (by simpa using he)]
  rfl

lemma elseClause_closes (h : Derives False .elseClause ts ast w) (hrest : nextType rest = .FI) :
    closes (nextType (ts ++ rest)) = true := by
  cases h with
  | noElse => rw [List.nil_append, hrest]; rfl
  | «else» he => rw [List.cons_append, nextType_cons he]; rfl
  | elif he => simp only [List.cons_append]; rw [nextType_cons he]; rfl

lemma parseElseClause_run (hc : Commands command m) (h : Derives False .elseClause ts ast w)
    (hm : ts.length < m) (hn : ts.length < n) (hrest : nextType rest = .FI) :
    (tryRule (parseElseClause command n)).run (ts ++ rest) = .ok (some ast, rest) := by
  induction n generalizing ts ast w with
  | zero => exact absurd hn (Nat.not_lt_zero _)
  | succ n ih =>
    cases h with
    | noElse =>
      have hrun : (parseElseClause command (n + 1)).run rest = .ok (none, rest) := by
        rw [nextType] at hrest
        rw [parseElseClause, peek_bind, if_neg (by rw [hrest]; decide), if_neg (by rw [hrest]; decide)]
        rfl
      exact tryRule_run hrun
    | @«else» e ts ast he h =>
      rw [List.length_cons] at hm hn
      refine tryRule_run (r := some ast) ?_
      rw [parseElseClause, List.cons_append, peek_bind, if_pos (by simpa using he), pop_bind,
        List.tail_cons]
      exact parseCompoundList_close hc h (by omega) (by omega) hrest rfl
    | @elif e t ts us vs p1 p2 p3 he hp1 ht hp2 hp3 =>
      simp only [List.length_append, List.length_cons] at hm hn
      have hts : e :: ts ++ t :: us ++ vs ++ rest = e :: (ts ++ t :: (us ++ (vs ++ rest))) := by simp
      refine tryRule_run (r := some (.ifThen p1 p2 p3)) ?_
      rw [parseElseClause, hts, peek_bind, if_neg (by simp [he]), if_pos (by simpa using he), pop_bind,
        List.tail_cons,
        bind_run (parseCompoundList_close hc hp1 (by omega) (by omega) (nextType_cons ht) rfl), pop_bind,
        if_neg (by simpa using ht), List.tail_cons,
        bind_run (parseCompoundList_close hc hp2 (by omega) (by omega) rfl (elseClause_closes hp3 hrest)),
        bind_run (ih hp3 (by omega) (by omega))]
      rfl

lemma parseRuleIf_run (hc : Commands command m) (ht : t.type = .IF)
    (hp1 : Derives False .compound ts p1 false) (hd : d.type = .THEN)
    (hp2 : Derives False .compound us p2 false) (hp3 : Derives False .elseClause vs p3 false)
    (he : e.type = .FI) (hm : ts.length + us.length + vs.length < m)
    (hn : ts.length + us.length + vs.length < n) :
    (parseRuleIf command n).run (t :: (ts ++ d :: (us ++ (vs ++ e :: rest)))) =
      .ok (some (.ifThen p1 p2 p3), rest) := by
  rw [parseRuleIf, expect_bind (by simpa using ht), List.tail_cons,
    bind_run (parseCompoundList_close hc hp1 (by omega) (by omega) (nextType_cons hd) rfl),
    expect_bind (by simpa using hd), List.tail_cons,
    bind_run (parseCompoundList_close hc hp2 (by omega) (by omega) rfl
    (elseClause_closes hp3 (nextType_cons he))),
    bind_run (parseElseClause_run hc hp3 (by omega) (by omega) (nextType_cons he)), expect_bind
    (by simpa using he)]
  rfl

lemma getWordsLoop_run (h : Elements ts words rs) (hrs : rs = []) (hn : ts.length < n)
    (hrest : wordLike (nextType rest) = false) :
    (getWordsLoop n).run (ts ++ rest) = .ok (some words, rest) := by
  induction h generalizing n with
  | nil =>
    obtain ⟨n, rfl⟩ := Nat.exists_eq_add_of_lt hn
    have hword : ¬(wordify (rest.headD endToken)).type = .WORD := by
      rw [wordify_type, Bool.not_eq_true]
      exact hrest
    rw [getWordsLoop, List.nil_append, peek_bind, if_neg hword]
    rfl
  | @word t w ts ws rs hw hts ih =>
    obtain ⟨n, rfl⟩ := Nat.exists_eq_succ_of_ne_zero (Nat.ne_zero_of_lt hn)
    obtain ⟨hword, rfl⟩ := word_eq_some hw
    rw [getWordsLoop, List.cons_append, peek_bind, if_pos (by simpa using hword), pop_bind, List.tail_cons,
      bind_run (ih hrs (Nat.lt_of_succ_lt_succ hn))]
    rfl
  | redir => cases hrs

lemma auxForDo_run (hc : Commands command m) (hd : d.type = .DO) (hp1 : Derives False .compound ts p1 false)
    (he : e.type = .DONE) (hm : ts.length < m) (hn : ts.length < n) :
    (auxForDo command word words n).run (d :: (ts ++ e :: rest)) =
      .ok (some (.forLoop p1 word (if words.isEmpty then [['$', '@']] else words)), rest) := by
  rw [auxForDo, expect_bind (by simpa using hd), List.tail_cons,
    bind_run (parseCompoundList_close hc hp1 hm hn (nextType_cons he) rfl), expect_bind (by simpa using he)]
  rfl

lemma parseRuleFor_arguments {l x : Token} {ss : List Token} (hc : Commands command m) (hl : l.type = .FOR)
    (hx : x.word = some word) (hss : ss = [] ∨ ∃ s : Token, ss = [s] ∧ s.type = .SEMICOLON)
    (hns : Newlines ns) (hd : d.type = .DO) (hp1 : Derives False .compound ts p1 false)
    (he : e.type = .DONE) (hm : ts.length < m) (hn : ts.length < n) :
    (parseRuleFor command n).run (l :: x :: (ss ++ (ns ++ d :: (ts ++ e :: rest)))) =
      .ok (some (.forLoop p1 word [['$', '@']]), rest) := by
  obtain ⟨hword, rfl⟩ := word_eq_some hx
  have hdo : nextType (d :: (ts ++ e :: rest)) ≠ .NEWLINE := ne_of_eq_of_ne hd (by decide)
  rw [parseRuleFor, expect_bind (by simpa using hl), List.tail_cons, peek_bind,
    if_neg (by simpa using hword), pop_bind, List.tail_cons, peek_bind]
  obtain rfl | ⟨s, rfl, hs⟩ := hss
  · have hne : ¬(([] ++ (ns ++ d :: (ts ++ e :: rest))).headD endToken).type = .SEMICOLON := by
      cases ns with
      | nil => simp [hd]
      | cons t ns => simp [hns t (List.mem_cons_self)]
    rw [if_neg hne, skipNewlines_bind, List.nil_append, dropWhile_newlines hns hdo, peek_bind,
      if_pos (by simpa using hd)]
    exact auxForDo_run hc hd hp1 he hm hn
  · rw [List.singleton_append, if_pos (by simpa using hs), pop_bind, List.tail_cons, skipNewlines_bind,
      dropWhile_newlines hns hdo]
    exact auxForDo_run hc hd hp1 he hm hn

lemma parseRuleFor_words {l x i s : Token} {ms ws : List Token} (hc : Commands command m)
    (hl : l.type = .FOR) (hx : x.word = some word) (hns : Newlines ns) (hi : i.type = .IN)
    (hws : Elements ws words []) (hs : Separates s) (hms : Newlines ms) (hd : d.type = .DO)
    (hp1 : Derives False .compound ts p1 false) (he : e.type = .DONE) (hm : ts.length < m)
    (hn : ws.length + ts.length < n) :
    (parseRuleFor command n).run (l :: x :: (ns ++ i :: (ws ++ s :: (ms ++ d :: (ts ++ e :: rest))))) =
      .ok (some (.forLoop p1 word (if words.isEmpty then [['$', '@']] else words)), rest) := by
  obtain ⟨hword, rfl⟩ := word_eq_some hx
  have hin : nextType (i :: (ws ++ s :: (ms ++ d :: (ts ++ e :: rest)))) ≠ .NEWLINE := ne_of_eq_of_ne hi
    (by decide)
  have hdo : nextType (d :: (ts ++ e :: rest)) ≠ .NEWLINE := ne_of_eq_of_ne hd (by decide)
  have hne : ¬((ns ++ i :: (ws ++ s :: (ms ++ d :: (ts ++ e :: rest)))).headD endToken).type = .SEMICOLON :=
    by
    cases ns with
    | nil => simp [hi]
    | cons t ns => simp [hns t (List.mem_cons_self)]
  have hend : wordLike (nextType (s :: (ms ++ d :: (ts ++ e :: rest)))) = false := by
    obtain hs | hs := hs <;> rw [nextType_cons hs] <;> rfl
  have hwords : (getWords n).run (i :: (ws ++ s :: (ms ++ d :: (ts ++ e :: rest)))) =
      .ok (some words, s :: (ms ++ d :: (ts ++ e :: rest))) := by
    rw [getWords, expect_bind (by simpa using hi), List.tail_cons]
    exact getWordsLoop_run hws rfl (by omega) hend
  rw [parseRuleFor, expect_bind (by simpa using hl), List.tail_cons, peek_bind,
    if_neg (by simpa using hword), pop_bind, List.tail_cons, peek_bind, if_neg hne, skipNewlines_bind,
    dropWhile_newlines hns hin, peek_bind, if_neg (by simp [hi]), bind_run hwords, peek_bind, if_neg,
    pop_bind, List.tail_cons, skipNewlines_bind, dropWhile_newlines hms hdo]
  · exact auxForDo_run hc hd hp1 he hm (by omega)
  · obtain hs | hs := hs <;> simp [hs]

lemma parseSubshell_run (hc : Commands command m) (ht : t.type = .LPAREN)
    (h : Derives False .compound ts ast w)
    (he : e.type = .RPAREN) (hm : ts.length < m) (hn : ts.length < n) :
    (parseSubshell command n).run (t :: (ts ++ e :: rest)) = .ok (some (.subshell ast), rest) := by
  have hfollow : Follows w (e :: rest) := follows_of_eq (nextType_cons he) rfl rfl
  have hclose : closes (nextType (e :: rest)) = true := by rw [nextType_cons he]; rfl
  rw [parseSubshell, expect_bind (by simpa using ht), List.tail_cons,
    bind_run (parseCompoundList_run hc h hm hn hfollow hclose), expect_bind (by simpa using he)]
  rfl

lemma parseGroup_run (hc : Commands command m) (ht : t.type = .LBRACE)
    (h : Derives False .compound ts ast false) (he : e.type = .RBRACE) (hm : ts.length < m)
    (hn : ts.length < n) : (parseGroup command n).run (t :: (ts ++ e :: rest)) = .ok (some ast, rest) := by
  have hrun : (parseCompoundList command n).run (ts ++ e :: rest) = .ok (some ast, e :: rest) :=
    parseCompoundList_close hc h hm hn (nextType_cons he) rfl
  rw [parseGroup, peek_bind, if_pos (by simpa using ht), pop_bind, List.tail_cons,
    bind_run (attempt_run hrun), pop_bind]
  simp [he]

section Skip

variable {last : Rule Ast} {rules : List (Rule Ast)}

lemma skip_if (h : nextType ts = type) (hne : type ≠ .IF) :
    (tryRules last (parseRuleIf command n :: rules)).run ts = (tryRules last rules).run ts :=
  tryRules_skip (bind_giveUp (expect_none (ne_of_eq_of_ne h hne)))

lemma skip_loop {opening : TokenType} (h : nextType ts = type) (hne : type ≠ opening) :
    (tryRules last (parseLoop command opening node n :: rules)).run ts = (tryRules last rules).run ts :=
  tryRules_skip (bind_giveUp (expect_none (ne_of_eq_of_ne h hne)))

lemma skip_for (h : nextType ts = type) (hne : type ≠ .FOR) :
    (tryRules last (parseRuleFor command n :: rules)).run ts = (tryRules last rules).run ts :=
  tryRules_skip (bind_giveUp (expect_none (ne_of_eq_of_ne h hne)))

lemma skip_subshell (h : nextType ts = type) (hne : type ≠ .LPAREN) :
    (tryRules last (parseSubshell command n :: rules)).run ts = (tryRules last rules).run ts :=
  tryRules_skip (bind_giveUp (expect_none (ne_of_eq_of_ne h hne)))

end Skip

lemma parseShellCommand_null (h : opens (nextType ts) = false) :
    (parseShellCommand command n).run ts = .ok (some .null, ts) := by
  have hne : ∀ {type : TokenType}, opens type = true → nextType ts ≠ type := by
    rintro type hopen rfl
    rw [h] at hopen
    cases hopen
  have hgroup : ¬(ts.headD endToken).type = .LBRACE := hne rfl
  rw [parseShellCommand, parseRuleWhile, parseRuleUntil, skip_if rfl (hne rfl), skip_loop rfl (hne rfl),
    skip_loop rfl (hne rfl), skip_for rfl (hne rfl), skip_subshell rfl (hne rfl), tryRules, parseGroup,
    peek_bind, if_neg hgroup]
  rfl

lemma parseShellCommand_run (hc : Commands command m) (h : Derives False .shell ts ast w)
    (hm : ts.length ≤ m) (hn : ts.length < n) :
    (parseShellCommand command n).run (ts ++ rest) = .ok (some ast, rest) := by
  have hnull := h.not_null
  cases h with
  | @ifThen i t f ts us vs p1 p2 p3 hi hp1 ht hp2 hp3 hf =>
    simp only [List.length_append, List.length_cons] at hm hn
    have hts : i :: ts ++ t :: us ++ vs ++ [f] ++ rest =
        i :: (ts ++ t :: (us ++ (vs ++ f :: rest))) := by simp
    rw [hts]
    exact tryRules_take (parseRuleIf_run hc hi hp1 ht hp2 hp3 hf (by omega) (by omega)) hnull
  | @whileLoop l d e ts us p1 p2 hl hp1 hd hp2 he =>
    simp only [List.length_append, List.length_cons] at hm hn
    have hts : l :: ts ++ d :: us ++ [e] ++ rest = l :: (ts ++ d :: (us ++ e :: rest)) := by simp
    rw [hts, parseShellCommand, parseRuleWhile, parseRuleUntil, skip_if (nextType_cons hl) (by decide)]
    exact tryRules_take (parseLoop_run hc hl hp1 hd hp2 he (by omega) (by omega)) hnull
  | @untilLoop l d e ts us p1 p2 hl hp1 hd hp2 he =>
    simp only [List.length_append, List.length_cons] at hm hn
    have hts : l :: ts ++ d :: us ++ [e] ++ rest = l :: (ts ++ d :: (us ++ e :: rest)) := by simp
    rw [hts, parseShellCommand, parseRuleWhile, parseRuleUntil, skip_if (nextType_cons hl) (by decide),
      skip_loop (nextType_cons hl) (by decide)]
    exact tryRules_take (parseLoop_run hc hl hp1 hd hp2 he (by omega) (by omega)) hnull
  | @forArguments l x d e ss ns ts p1 p2 hl hx hss hns hd hp1 he =>
    simp only [List.length_append, List.length_cons] at hm hn
    have hts : l :: x :: ss ++ ns ++ d :: ts ++ [e] ++ rest = l :: x ::
      (ss ++ (ns ++ d :: (ts ++ e :: rest))) := by
      simp
    rw [hts, parseShellCommand, parseRuleWhile, parseRuleUntil, skip_if (nextType_cons hl) (by decide),
      skip_loop (nextType_cons hl) (by decide), skip_loop (nextType_cons hl) (by decide)]
    exact tryRules_take (parseRuleFor_arguments hc hl hx hss hns hd hp1 he (by omega) (by omega)) hnull
  | @forWords l x i s d e ns ws ms ts p1 p2 p3 hl hx hns hi hws hs hms hd hp1 he =>
    simp only [List.length_append, List.length_cons] at hm hn
    have hts : l :: x :: ns ++ i :: ws ++ s :: ms ++ d :: ts ++ [e] ++ rest =
        l :: x :: (ns ++ i :: (ws ++ s :: (ms ++ d :: (ts ++ e :: rest)))) := by simp
    rw [hts, parseShellCommand, parseRuleWhile, parseRuleUntil, skip_if (nextType_cons hl) (by decide),
      skip_loop (nextType_cons hl) (by decide), skip_loop (nextType_cons hl) (by decide)]
    exact tryRules_take (parseRuleFor_words hc hl hx hns hi hws hs hms hd hp1 he (by omega)
      (by omega)) hnull
  | @subshell l r ts ast w hl h hr =>
    simp only [List.length_append, List.length_cons] at hm hn
    have hts : l :: ts ++ [r] ++ rest = l :: (ts ++ r :: rest) := by simp
    rw [hts, parseShellCommand, parseRuleWhile, parseRuleUntil, skip_if (nextType_cons hl) (by decide),
      skip_loop (nextType_cons hl) (by decide), skip_loop (nextType_cons hl) (by decide),
      skip_for (nextType_cons hl) (by decide)]
    exact tryRules_take (parseSubshell_run hc hl h hr (by omega) (by omega)) hnull
  | @group l r ts ast hl h hr =>
    simp only [List.length_append, List.length_cons] at hm hn
    have hts : l :: ts ++ [r] ++ rest = l :: (ts ++ r :: rest) := by simp
    rw [hts, parseShellCommand, parseRuleWhile, parseRuleUntil, skip_if (nextType_cons hl) (by decide),
      skip_loop (nextType_cons hl) (by decide), skip_loop (nextType_cons hl) (by decide),
      skip_for (nextType_cons hl) (by decide), skip_subshell (nextType_cons hl) (by decide)]
    exact parseGroup_run hc hl h hr (by omega) (by omega)

lemma parseRedirected_none (h : opens (nextType ts) = false) :
    (parseRedirected command n).run ts = .ok (none, ts) := by
  rw [parseRedirected, bind_run (tryRule_run (parseShellCommand_null h))]
  rfl

lemma parseRedirected_run (hc : Commands command m) (h : Derives False .shell ts ast false)
    (hus : Elements us [] rs) (hm : ts.length ≤ m) (hn : ts.length + us.length < n)
    (hrest : Follows false rest) :
    (parseRedirected command n).run (ts ++ us ++ rest) = .ok (some (redirects rs ast), rest) := by
  have hredirections := getRedirections_run hus rfl (n := n) (by omega)
    (parseRedirection_none (hrest.ne rfl) (redirType_none (startsSimple_none hrest.quiet)))
  rw [parseRedirected, List.append_assoc, bind_run (tryRule_run (parseShellCommand_run hc h hm (by omega))),
    Option.getD_some, h.not_null, if_neg Bool.false_ne_true, bind_run hredirections, redirects_hangOn]
  rfl

lemma parseFuncdec_none (h : nextType ts ≠ .WORD ∨ nextType ts.tail ≠ .LPAREN) :
    (parseFuncdec command n).run ts = .ok (none, ts) := by
  rw [nextType, nextType] at h
  by_cases hword : (ts.headD endToken).type = .WORD
  · rw [parseFuncdec, peek_bind, if_neg (not_not.mpr hword), peek2_bind,
      if_pos (h.resolve_left (absurd hword))]
    rfl
  · rw [parseFuncdec, peek_bind, if_pos hword]
    rfl

lemma parseFuncdec_run (hc : Commands command m) (ht : t.type = .WORD) (hd : d.type = .LPAREN)
    (he : e.type = .RPAREN) (hns : Newlines ns) (h : Derives False .shell ts ast w) (hm : ts.length ≤ m)
    (hn : ts.length < n) :
    (parseFuncdec command n).run (t :: d :: e :: (ns ++ (ts ++ rest))) =
      .ok (some (.funcdef 0 t.text ast), rest) := by
  rw [parseFuncdec, peek_bind, if_neg (by simpa using ht), peek2_bind, if_neg (by simpa using hd), pop_bind,
    pop_bind, expect_bind (by simpa using he)]
  simp only [List.tail_cons]
  rw [skipNewlines_bind, dropWhile_starts hns (starts_of_startsCommand (h.starts rest)),
    bind_run (parseShellCommand_run hc h hm hn)]
  rfl

end Compound

/-! ## The input -/

section Input

variable {command : Rule Ast} {m n : ℕ} {ts rest : List Token} {ast : Ast} {w : Bool}

lemma Prefixes.funcdec {ps : List (Word ⊕ RedirInfo)} (h : Prefixes ts ps) (rest : List Token)
    (hrest : nextType rest ≠ .LPAREN ∧ (nextType rest = .WORD → nextType rest.tail ≠ .LPAREN)) :
    nextType (ts ++ rest) ≠ .WORD ∨ nextType (ts ++ rest).tail ≠ .LPAREN := by
  cases h with
  | nil =>
    by_cases hword : nextType rest = .WORD
    · exact .inr (hrest.2 hword)
    · exact .inl hword
  | assign ht hassign hts => exact .inr (hts.ne hrest.1)
  | redir hr hts =>
    rw [List.append_assoc]
    exact .inl hr.ne

lemma command_run (hc : Commands command m) (h : Derives False .command ts ast w) (hm : ts.length ≤ m)
    (hn : ts.length < n) (hrest : Follows w rest) :
    (tryRules (parseRedirected command n) [parseFuncdec command n, parseSimpleCommand n]).run (ts ++ rest) =
      .ok (some ast, rest) := by
  cases h with
  | bare hts hps =>
    have hfuncdec := hts.funcdec rest ⟨hrest.ne rfl, fun heq => absurd heq (hrest.ne rfl)⟩
    rw [tryRules_skip (parseFuncdec_none hfuncdec)]
    exact tryRules_take (parseSimpleCommand_bare hts hps hn (startsSimple_none hrest.quiet))
      (isNull_prefixed hps)
  | @simple ts es t ps ws rs hts ht hname hes =>
    simp only [List.length_append, List.length_cons] at hn
    have hfuncdec := hts.funcdec (t :: (es ++ rest)) ⟨ne_of_eq_of_ne ht (by decide), fun _ => hes.ne hrest⟩
    rw [List.append_assoc, List.cons_append, tryRules_skip (parseFuncdec_none hfuncdec)]
    refine tryRules_take (parseSimpleCommand_run hts ht hname hes (by omega) hrest) ?_
    cases ps with
    | nil => exact isNull_redirects
    | cons p ps => exact isNull_prefixed (List.cons_ne_nil p ps)
  | @funcdef t l r ns ts body ht hl hr hns hbody =>
    simp only [List.length_append, List.length_cons] at hm hn
    have hts : t :: l :: r :: ns ++ ts ++ rest = t :: l :: r :: (ns ++ (ts ++ rest)) := by simp
    rw [hts]
    exact tryRules_take (parseFuncdec_run hc ht hl hr hns hbody (by omega) (by omega)) rfl
  | bodiless hlenient => exact hlenient.elim
  | @shell ts es ast rs hts hes =>
    rw [List.length_append] at hm hn
    obtain ⟨n, rfl⟩ := Nat.exists_eq_succ_of_ne_zero (Nat.ne_zero_of_lt hn)
    have hopen := hts.opens (es ++ rest)
    have hword : nextType (ts ++ es ++ rest) ≠ .WORD := fun heq => by
      rw [List.append_assoc] at heq
      rw [heq] at hopen
      cases hopen
    rw [tryRules_skip (parseFuncdec_none (.inl hword)), List.append_assoc,
      tryRules_skip (parseSimpleCommand_none (startsSimple_opens hopen)), tryRules, ← List.append_assoc]
    exact parseRedirected_run hc hts hes (by omega) hn hrest

lemma command_none (h : starts (nextType rest) = false) :
    (parseCommand (n + 2)).run rest = .ok (none, rest) := by
  have hne : ∀ {type : TokenType}, starts type = true → nextType rest ≠ type := by
    rintro type hstart rfl
    rw [h] at hstart
    cases hstart
  have hopen : opens (nextType rest) = false := by
    rw [starts, startsCommand, Bool.or_eq_false_iff, Bool.or_eq_false_iff] at h
    exact h.2.2
  rw [parseCommand, tryRules_skip (parseFuncdec_none (.inl (hne rfl))),
    tryRules_skip (parseSimpleCommand_none (startsSimple_none h)), tryRules]
  exact parseRedirected_none hopen

lemma commands (n : ℕ) : Commands (parseCommand (n + 2)) (n + 1) := by
  induction n with
  | zero =>
    refine ⟨command_none, fun {ts rest ast w} h hm _ => ?_⟩
    have hstart := h.starts []
    rw [List.length_eq_zero_iff.mp (Nat.lt_one_iff.mp hm)] at hstart
    cases hstart
  | succ n ih =>
    exact ⟨command_none, fun h hm hrest => command_run ih h (Nat.le_of_lt_succ hm) hm hrest⟩

lemma parseInput_run (h : Derives False .list ts ast w) (hn : ts.length + 1 < n)
    (hend : nextType rest = .NEWLINE ∨ nextType rest = .EOF) :
    (parseInput n).run (ts ++ rest) =
      .ok (some (if nextType rest = .EOF then .EOF else .OK, ast), rest.tail) := by
  obtain ⟨n, rfl⟩ := Nat.exists_eq_add_of_le' (show 2 ≤ n by omega)
  have hstart := h.starts rest
  have hne : ∀ {type : TokenType}, starts type = false → ¬((ts ++ rest).headD endToken).type = type := by
    rintro type hquiet rfl
    exact Bool.false_ne_true (hquiet.symm.trans hstart)
  have hlist := parseList_run (n := n + 2) (commands n) h (by omega) (by omega) hend
  rw [parseInput, peek_bind, if_neg (hne rfl), if_neg (not_or.mpr ⟨hne rfl, hne rfl⟩), bind_run hlist,
    peek_bind]
  obtain hend | hend := hend
  · rw [nextType] at hend
    rw [nextType, hend]
    rfl
  · rw [nextType] at hend
    rw [nextType, hend]
    rfl

lemma derives_word {lenient : Prop} {t : Token} (ht : t.type = .WORD) (hname : '=' ∉ t.text) :
    Derives lenient .andOr [t] (.argv [t.text]) true :=
  .andOr (.plain (.single (.simple .nil ht hname .nil))) .done

/-- **Every sentence is parsed to its tree**, which is its only one, and the parser goes on behind the end of
its line. -/
theorem parseInput_complete (h : Derives False .list ts ast w) (hn : ts.length + 1 < n)
    (hend : nextType rest = .NEWLINE ∨ nextType rest = .EOF) :
    (parseInput n).run (ts ++ rest) =
      .ok (some (if nextType rest = .EOF then .EOF else .OK, ast), rest.tail) ∧
    ∀ ast' w', Derives False .list ts ast' w' → ast' = ast := by
  refine ⟨parseInput_run h hn hend, fun ast' w' h' => ?_⟩
  have hend : nextType [] = .NEWLINE ∨ nextType [] = .EOF := .inr rfl
  have hrun := parseInput_run h' (Nat.lt_succ_self _) hend
  rw [parseInput_run h (Nat.lt_succ_self _) hend] at hrun
  simp at hrun
  exact hrun.symm

/-- `if a; then b; fi` -/
theorem parseInput_complete_if :
    (parseInput 9).run ([{ type := .IF }, { type := .WORD, value := some ['a'] }, { type := .SEMICOLON },
        { type := .THEN }, { type := .WORD, value := some ['b'] }, { type := .SEMICOLON },
        { type := .FI }] ++
        [{ type := .NEWLINE }]) =
      .ok (some (.OK, .list (.ifThen (.list (.argv [['a']]) .null)
      (.list (.argv [['b']]) .null) .null) .null),
        []) := by
  have hnone : Newlines [] := fun _ h => absurd h List.not_mem_nil
  have hbranch : ∀ t : Token, t.type = .WORD → '=' ∉ t.text →
      Derives False .compound ([] ++ [t] ++ [{ type := .SEMICOLON }])
      (.list (.argv [t.text]) .null) false :=
    fun t ht hname => .compound hnone (derives_word ht hname) (.restSeparator (.inl rfl) hnone)
  exact (parseInput_complete (.list (.andOr (.plain (.single (.shell (.ifThen (i := { type := .IF }) rfl
    (hbranch { type := .WORD, value := some ['a'] } rfl (by decide)) (t := { type := .THEN }) rfl
    (hbranch { type := .WORD, value := some ['b'] } rfl (by decide)) .noElse (f := { type := .FI }) rfl)
    .nil))) .done) .listEnd) (by decide) (.inl rfl)).1

end Input

end BrebOS.Shell
