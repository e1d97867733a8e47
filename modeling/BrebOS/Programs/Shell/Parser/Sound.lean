import BrebOS.Programs.Shell.Lexer.Operators
import BrebOS.Programs.Shell.Parser.Progress

/-!
# What is parsed is a sentence

The tree that the parser builds is the tree of a sentence of the grammar, and the tokens of the sentence are
tokens that it has read, in their order.  Tokens may be missing from it: those of a rule that gave up, after
which another one goes on.  The lexer takes digits for the number of a descriptor only in front of an
operator, so that no word can follow the words of a command that ended there.
-/

namespace BrebOS.Shell

open Attempt

/-- Behind the number of a descriptor there is no word. -/
def Lexical (ts : List Token) : Prop := ts.IsChain fun t u => t.type = .IONUMBER → wordLike u.type = false

instance (ts : List Token) : Decidable (Lexical ts) :=
  inferInstanceAs (Decidable (ts.IsChain fun t u => t.type = .IONUMBER → wordLike u.type = false))

section Lexed

variable {l l' l'' : Stream} {tok tok' : Token} {str : Word} {n : ℕ} {ts : List Token} {c : Char}
  {cs : List Char}

lemma isIoNumber_of_type (h : tokenType l str = .IONUMBER) : isIoNumber l str = true := by
  have hkeywords : ∀ p ∈ keywords, p.2 ≠ .IONUMBER := by decide
  rw [tokenType] at h
  cases hchange : changeTokenType l str with
  | none =>
    rw [hchange] at h
    cases hmatch : matchSeparator str with
    | none =>
      rw [hmatch] at h
      cases h
    | some type =>
      rw [hmatch] at h
      exact absurd h (matchSeparator_ne hmatch).2.1
  | some type =>
    rw [hchange] at h
    obtain rfl : type = .IONUMBER := h
    rw [changeTokenType] at hchange
    split at hchange
    · cases hchange
    · cases hchange
    · cases hchange
    · split at hchange
      · rename_i hnumber
        exact hnumber
      · exact absurd rfl (hkeywords _ (mem_of_lookup hchange))

lemma wordLike_separator (hc : c = '<' ∨ c = '>') : wordLike (separatorType c cs) = false := by
  have hoperators : ∀ p ∈ operators, (p.1.head? = some '<' ∨ p.1.head? = some '>') →
    wordLike p.2 = false := by
    decide
  rw [separatorType]
  cases hmatch : matchSeparator (separatorRun c cs) with
  | none => rfl
  | some type => exact hoperators _ (mem_of_lookup hmatch) (by simpa [separatorRun] using hc)

lemma nextToken_ioNumber (h : l.nextToken = .ok (tok, l')) (hio : tok.type = .IONUMBER) :
    ∃ file c cs, l' = lexerAt file (c :: cs) ∧ (c = '<' ∨ c = '>') := by
  obtain ⟨⟨t, len, l₁⟩, hnext, hr⟩ := bind_eq_ok.mp h
  cases hr
  obtain ⟨⟨str, l₂⟩, -, ht⟩ := bind_eq_ok.mp hnext
  cases str with
  | none =>
    cases ht
    cases hio
  | some str =>
    cases ht
    have hnumber := isIoNumber_of_type hio
    rw [isIoNumber, Bool.and_eq_true] at hnumber
    obtain ⟨hsize, htext⟩ := hnumber
    obtain ⟨input, status, file⟩ := l₂
    cases input with
    | null => cases htext
    | unknown => cases htext
    | text cs =>
      have hlen : str.length = (str.takeWhile Char.isDigit).length := of_decide_eq_true hsize
      obtain ⟨c, hc, hmem⟩ : ∃ c, cs[str.length]? = some c ∧ (c = '<' ∨ c = '>') := by
        rw [hlen]
        have hchar := Bool.or_eq_true_iff.mp htext
        exact hchar.elim (fun h => ⟨'<', of_decide_eq_true h, .inl rfl⟩)
          fun h => ⟨'>', of_decide_eq_true h, .inr rfl⟩
      obtain ⟨hlt, rfl⟩ := List.getElem?_eq_some_iff.mp hc
      refine ⟨file, cs[str.length], cs.drop (str.length + 1), ?_, hmem⟩
      rw [List.getElem_cons_drop]
      rfl

lemma lexical_of_fetches (h : Lookahead.fetches Stream.nextToken n l = .ok (ts, l')) : Lexical ts := by
  induction n generalizing l ts with
  | zero =>
    cases h
    exact List.isChain_nil
  | succ n ih =>
    obtain ⟨tok, l₁, rest, htok, hrest, rfl⟩ := Lookahead.fetches_succ_eq_ok.mp h
    cases n with
    | zero =>
      cases hrest
      exact List.isChain_singleton _
    | succ n =>
      obtain ⟨tok', l₂, rest', htok', -, rfl⟩ := Lookahead.fetches_succ_eq_ok.mp hrest
      refine List.isChain_cons_cons.mpr ⟨fun hio => ?_, ih hrest⟩
      obtain ⟨file, c, cs, rfl, hc⟩ := nextToken_ioNumber htok hio
      have hsep : isSeparator c = true := by obtain rfl | rfl := hc <;> rfl
      rw [nextToken_separator hsep] at htok'
      cases htok'
      exact wordLike_separator hc

end Lexed

/-- What a rule returns comes of some of the tokens that it has read. -/
def Reads {α : Type} (x : Rule α) (ts : List Token) (post : α → List Token → List Token → Prop) : Prop :=
  ∀ a rest, x.run ts = .ok (some a, rest) → ∃ us, (us ++ rest).Sublist ts ∧ post a us rest

section Reads

variable {α β : Type} {x y : Rule α} {f : α → Rule β} {a : α} {e : Stop} {ts us rest : List Token}
  {mid post post' : α → List Token → List Token → Prop} {post₂ : β → List Token → List Token → Prop}
  {t : Token}
  {type : TokenType} {rule last : Rule Ast} {rules : List (Rule Ast)}

lemma Lexical.of_suffix (h : Lexical ts) (hrest : rest <:+ ts) : Lexical rest := List.IsChain.suffix h hrest

lemma Reads.imp (hx : Reads x ts mid) (h : ∀ a us rest, mid a us rest → post a us rest) :
    Reads x ts post := by
  intro a rest hrun
  obtain ⟨us, hus, hmid⟩ := hx a rest hrun
  exact ⟨us, hus, h a us rest hmid⟩

lemma Reads.of_sublist (hx : Reads x us post) (hus : us.Sublist ts) :
    ∀ a rest, x.run us = .ok (some a, rest) → ∃ vs, (vs ++ rest).Sublist ts ∧ post a vs rest := by
  intro a rest hrun
  obtain ⟨vs, hvs, hpost⟩ := hx a rest hrun
  exact ⟨vs, hvs.trans hus, hpost⟩

lemma Reads.bind (hs : Suffixes x) (hx : Reads x ts mid)
    (hf : ∀ a us rest, rest <:+ ts → mid a us rest → Reads (f a) rest fun b vs => post₂ b (us ++ vs)) :
    Reads (x >>= f) ts post₂ := by
  intro b rest' h
  obtain ⟨a, rest, hrun, h⟩ := bind_eq_some h
  obtain ⟨us, hus, hmid⟩ := hx a rest hrun
  obtain ⟨vs, hvs, hpost⟩ := hf a us rest (hs.run hrun) hmid b rest' h
  refine ⟨us ++ vs, ?_, hpost⟩
  rw [List.append_assoc]
  exact ((List.Sublist.refl us).append hvs).trans hus

lemma reads_pure (h : post a [] ts) : Reads (pure a) ts post := by
  intro b rest h'
  cases h'
  exact ⟨[], List.Sublist.refl _, h⟩

lemma reads_giveUp : Reads (giveUp : Rule α) ts post := fun _ _ h => by cases h

lemma reads_stop : Reads (stop e : Rule α) ts post := fun _ _ h => by cases h

lemma reads_ite {c : Prop} [Decidable c] (hx : c → Reads x ts post) (hy : ¬c → Reads y ts post) :
    Reads (if c then x else y) ts post := by
  split
  · exact hx ‹_›
  · exact hy ‹_›

lemma reads_peek {f : Token → Rule α} (h : Reads (f (ts.headD endToken)) ts post) :
    Reads (peek >>= f) ts post :=
  h

lemma reads_peek2 {f : Token → Rule α} (h : Reads (f (ts.tail.headD endToken)) ts post) :
    Reads (peek2 >>= f) ts post := h

lemma reads_pop {f : Token → Rule α} (hne : nextType ts ≠ .EOF)
    (h : Reads (f (ts.headD endToken)) ts.tail fun a us => post a (ts.headD endToken :: us)) :
    Reads (pop >>= f) ts post := by
  cases ts with
  | nil => exact absurd rfl hne
  | cons t ts =>
    intro a rest hrun
    obtain ⟨us, hus, hpost⟩ := h a rest hrun
    exact ⟨t :: us, hus.cons_cons t, hpost⟩

lemma reads_pop_lost {f : Token → Rule α} (h : Reads (f (ts.headD endToken)) ts.tail post) :
    Reads (pop >>= f) ts post := fun a rest hrun => h.of_sublist (List.tail_sublist ts) a rest hrun

lemma reads_skipNewlines {f : Unit → Rule α}
    (h : ∀ ns us, Newlines ns → us <:+ ts → Reads (f ()) us fun a vs => post a (ns ++ vs)) :
    Reads (skipNewlines >>= f) ts post := by
  intro a rest hrun
  have hns : Newlines (ts.takeWhile fun t => t.type = .NEWLINE) := fun t ht =>
    of_decide_eq_true (List.all_eq_true.mp (List.all_takeWhile) t ht)
  have hsplit := List.takeWhile_append_dropWhile (p := fun t : Token => t.type = .NEWLINE) (l := ts)
  obtain ⟨vs, hvs, hpost⟩ := h _ _ hns (List.dropWhile_suffix _) a rest hrun
  refine ⟨_, ?_, hpost⟩
  rw [List.append_assoc]
  exact ((List.Sublist.refl _).append hvs).trans (by rw [hsplit])

lemma reads_expect {f : Unit → Rule α} (hne : type ≠ .EOF)
    (h : nextType ts = type → Reads (f ()) ts.tail fun a us => post a (ts.headD endToken :: us)) :
    Reads (expect type >>= f) ts post := by
  intro a rest hrun
  by_cases htype : nextType ts = type
  · rw [expect_bind htype] at hrun
    have hpop : Reads (pop >>= fun _ => f ()) ts post := reads_pop (ne_of_eq_of_ne htype hne) (h htype)
    exact hpop a rest hrun
  · rw [bind_giveUp (expect_none htype)] at hrun
    cases hrun

lemma reads_pop_eq (hne : type ≠ .EOF)
    (h : nextType ts = type → Reads x ts.tail fun a us => post a (ts.headD endToken :: us)) :
    Reads (pop >>= fun t => if t.type ≠ type then giveUp else x) ts post := by
  by_cases htype : nextType ts = type
  · exact reads_pop (ne_of_eq_of_ne htype hne) (reads_ite (fun h => absurd htype h) fun _ => h htype)
  · intro a rest hrun
    rw [nextType] at htype
    rw [pop_bind, if_pos htype] at hrun
    cases hrun

lemma reads_attempt {f : Option α → Rule β} (hs : Suffixes x) (hx : Reads x ts mid)
    (hnone : ∀ rest, x.run ts = .ok (none, rest) → rest <:+ ts → Reads (f none) rest post₂)
    (hsome : ∀ a us rest, rest <:+ ts → mid a us rest → Reads (f (some a)) rest fun b vs =>
    post₂ b (us ++ vs)) :
    Reads (attempt x >>= f) ts post₂ := by
  intro b rest' h
  obtain ⟨r, rest, hrun, h⟩ := bind_eq_some h
  rcases hx' : x.run ts with e | ⟨_ | a, us⟩
  · rw [attempt_stop hx'] at hrun
    cases hrun
  · rw [attempt_run hx'] at hrun
    cases hrun
    exact (hnone rest hx' (hs.run hx')).of_sublist (hs.run hx').sublist b rest' h
  · have hbind : Reads (x >>= fun a => f (some a)) ts post₂ := hx.bind hs hsome
    rw [attempt_run hx'] at hrun
    cases hrun
    exact hbind b rest' ((bind_run hx').trans h)

lemma reads_tryRule {mid : Ast → List Token → List Token → Prop} {f : Ast → Rule β} (hs : Suffixes rule)
    (hx : Reads rule ts mid)
    (hnone : ∀ rest, rule.run ts = .ok (none, rest) → rest <:+ ts → Reads (f .null) rest post₂)
    (hsome : ∀ ast us rest, rest <:+ ts → mid ast us rest → Reads (f ast) rest fun b vs =>
    post₂ b (us ++ vs)) :
    Reads (tryRule rule >>= f) ts post₂ := by
  have hattempt : Reads (attempt rule >>= fun ast => f (ast.getD .null)) ts post₂ :=
    reads_attempt hs hx hnone hsome
  intro b rest' h
  rw [tryRule, bind_bind] at h
  exact hattempt b rest' h

lemma reads_tryRules {post : Ast → List Token → List Token → Prop}
    (hlast : ∀ us, us <:+ ts → Reads last us post)
    (hrules : ∀ rule ∈ rules, Suffixes rule ∧ ∀ us, us <:+ ts → Reads rule us post) :
    Reads (tryRules last rules) ts post := by
  induction rules generalizing ts with
  | nil => exact hlast ts List.suffix_rfl
  | cons rule rules ih =>
    obtain ⟨hs, hrule⟩ := hrules rule List.mem_cons_self
    have hnext : ∀ us, us <:+ ts → Reads (tryRules last rules) us post := fun us hus =>
      ih (fun vs hvs => hlast vs (hvs.trans hus)) fun rule h =>
        ⟨(hrules rule (List.mem_cons_of_mem _ h)).1, fun vs hvs =>
          (hrules rule (List.mem_cons_of_mem _ h)).2 vs (hvs.trans hus)⟩
    intro ast rest' h
    rcases hrun : rule.run ts with e | ⟨_ | res, rest⟩
    · rw [tryRules, tryRule, bind_bind, bind_stop (attempt_stop hrun)] at h
      cases h
    · rw [tryRules, bind_run (tryRule_run hrun)] at h
      exact (hnext rest (hs.run hrun)).of_sublist (hs.run hrun).sublist ast rest' h
    · rw [tryRules, bind_run (tryRule_run hrun), Option.getD_some, ite_run] at h
      split at h
      · exact (hnext rest (hs.run hrun)).of_sublist (hs.run hrun).sublist ast rest' h
      · cases h
        exact hrule ts List.suffix_rfl ast rest' hrun

end Reads

/-! ## Simple commands -/

section Simple

variable {n : ℕ} {ts us rest : List Token} {t : Token} {ast : Ast} {rule : Rule Ast} {fd : ℤ} {word : Word}

/-- A redirection is hung on to nothing. -/
def IsRedirected (ast : Ast) (us _rest : List Token) : Prop := ∃ r, IsRedirection us r ∧
    ast = .redir r .null

lemma word_of_wordify (h : (wordify t).type = .WORD) : t.word = some (wordify t).text := if_pos h

lemma parseOperator_reads : Reads (parseOperator fd) ts fun ast us _ => ∃ op t type w, us = [op, t] ∧
    redirType op.type = some type ∧ t.word = some w ∧
      ast = .redir { type := type, fd := fd, word := w } .null := by
  refine reads_peek ?_
  split
  · exact reads_giveUp
  · rename_i type hop
    refine reads_pop (redirType_ne hop) (reads_peek (reads_ite (fun _ => reads_giveUp) fun hword => ?_))
    rw [not_not] at hword
    have hne : nextType ts.tail ≠ .EOF := fun heq => by
      rw [nextType] at heq
      rw [wordify_type, heq] at hword
      cases hword
    exact reads_pop hne (reads_pure ⟨_, _, _, _, rfl, hop, word_of_wordify hword, rfl⟩)

lemma parseRedirection_reads : Reads parseRedirection ts IsRedirected := by
  refine reads_peek (reads_ite (fun hio => ?_) fun _ => ?_)
  · refine reads_pop (ne_of_eq_of_ne hio (by decide)) (parseOperator_reads.imp ?_)
    rintro ast us rest ⟨op, t, type, w, rfl, hop, hw, rfl⟩
    exact ⟨_, .numbered hio hop hw, rfl⟩
  · refine parseOperator_reads.imp ?_
    rintro ast us rest ⟨op, t, type, w, rfl, hop, hw, rfl⟩
    exact ⟨_, .plain hop hw, rfl⟩

lemma parseOperator_next (h : (parseOperator fd).run ts = .ok (none, rest)) :
    rest = ts ∨ wordLike (nextType rest) = false := by
  rw [parseOperator, peek_bind] at h
  split at h
  · cases h
    exact .inl rfl
  · rw [pop_bind, peek_bind, ite_run] at h
    split at h
    · cases h
      rw [ne_eq, wordify_type, Bool.not_eq_true] at *
      exact .inr ‹_›
    · cases h

lemma parseRedirection_next (hlex : Lexical ts) (h : parseRedirection.run ts = .ok (none, rest)) :
    rest = ts ∨ wordLike (nextType rest) = false := by
  rw [parseRedirection, peek_bind, ite_run] at h
  split at h
  · rename_i hio
    rw [pop_bind] at h
    obtain rfl | hnext := parseOperator_next h
    · refine .inr ?_
      cases ts with
      | nil => rfl
      | cons t ts =>
        cases ts with
        | nil => rfl
        | cons u ts => exact (List.isChain_cons_cons.mp hlex).1 hio
    · exact .inr hnext
  · exact parseOperator_next h

/-- An assignment or a redirection in front of a name. -/
def IsPrefix (ast : Ast) (us _rest : List Token) : Prop :=
  ∃ p, ast = prefixed [p] .null ∧ ∀ ts ps, Prefixes ts ps → Prefixes (us ++ ts) (p :: ps)

lemma parsePrefix_reads : Reads parsePrefix ts IsPrefix := by
  refine reads_peek (reads_ite (fun ht => ?_) fun _ => ?_)
  · exact reads_pop (ne_of_eq_of_ne ht.1 (by decide)) (reads_pure
      ⟨_, rfl, fun _ _ hts => .assign ht.1 ht.2 hts⟩)
  · refine parseRedirection_reads.imp ?_
    rintro ast us rest ⟨r, hr, rfl⟩
    exact ⟨.inr r, rfl, fun _ _ hts => .redir hr hts⟩

lemma parsePrefix_next (hlex : Lexical ts) (h : parsePrefix.run ts = .ok (none, rest))
    (hword : nextType rest = .WORD) : '=' ∉ (rest.headD endToken).text := by
  rw [parsePrefix, peek_bind, ite_run] at h
  split at h
  · cases h
  · rename_i hassign
    obtain rfl | hnext := parseRedirection_next hlex h
    · exact fun hmem => hassign ⟨hword, hmem⟩
    · rw [hword] at hnext
      cases hnext

lemma getPrefix_reads (hlex : Lexical ts) : Reads (getPrefix n) ts fun ast us rest =>
    (∃ ps, Prefixes us ps ∧ ast = prefixed ps .null) ∧ (nextType rest = .WORD →
    '=' ∉ (rest.headD endToken).text) := by
  induction n generalizing ts with
  | zero => exact reads_stop
  | succ n ih =>
    refine reads_tryRule parsePrefix_suffixes parsePrefix_reads (fun rest h _ => ?_) ?_
    · exact reads_pure ⟨⟨[], .nil, rfl⟩, parsePrefix_next hlex h⟩
    · rintro cur us rest hrest ⟨p, rfl, hp⟩
      have hnull : isNull (prefixed [p] .null) = false := by cases p <;> rfl
      rw [hnull]
      refine (ih (hlex.of_suffix hrest)).bind (getChain_suffixes parsePrefix_suffixes) ?_
      rintro p2 vs rest' - ⟨⟨ps, hps, rfl⟩, hnext⟩
      refine reads_pure ⟨⟨p :: ps, ?_, ?_⟩, hnext⟩
      · rw [List.append_nil]
        exact hp vs ps hps
      · cases p <;> rfl

lemma getRedirections_reads :
    Reads (getRedirections n) ts fun ast us _ => ∃ rs, Elements us [] rs ∧ ast = redirects rs .null := by
  induction n generalizing ts with
  | zero => exact reads_stop
  | succ n ih =>
    refine reads_tryRule parseRedirection_suffixes parseRedirection_reads (fun rest h _ => ?_) ?_
    · exact reads_pure ⟨[], .nil, rfl⟩
    · rintro cur us rest - ⟨r, hr, rfl⟩
      refine ih.bind (getChain_suffixes parseRedirection_suffixes) ?_
      rintro p2 vs rest' - ⟨rs, hrs, rfl⟩
      refine reads_pure ⟨r :: rs, ?_, rfl⟩
      rw [List.append_nil]
      exact .redir hr hrs

/-- A word or a redirection behind a name. -/
def IsElement : Word ⊕ Ast → List Token → List Token → Prop
  | .inl w, us, _ => ∃ t, us = [t] ∧ t.word = some w
  | .inr ast, us, _ => ∃ r, IsRedirection us r ∧ ast = .redir r .null

lemma parseElement_reads : Reads parseElement ts IsElement := by
  refine reads_peek (reads_ite (fun ht => ?_) fun _ => ?_)
  · have hne : nextType ts ≠ .EOF := fun heq => by
      rw [nextType] at heq
      rw [wordify_type, heq] at ht
      cases ht
    exact reads_pop hne (reads_pure ⟨_, rfl, word_of_wordify ht⟩)
  · refine parseRedirection_reads.bind parseRedirection_suffixes ?_
    rintro ast us rest - ⟨r, hr, rfl⟩
    exact reads_pure ⟨r, by rwa [List.append_nil], rfl⟩

lemma parseElement_next (hlex : Lexical ts) (h : parseElement.run ts = .ok (none, rest)) :
    wordLike (nextType rest) = false := by
  rw [parseElement, peek_bind, ite_run] at h
  split at h
  · cases h
  · rename_i hword
    have hnone : parseRedirection.run ts = .ok (none, rest) := by
      rcases hrun : parseRedirection.run ts with e | ⟨_ | ast, us⟩
      · rw [bind_stop hrun] at h
        cases h
      · rw [bind_giveUp hrun] at h
        cases h
        rfl
      · rw [bind_run hrun] at h
        cases h
    obtain rfl | hnext := parseRedirection_next hlex hnone
    · rwa [wordify_type, Bool.not_eq_true] at hword
    · exact hnext

lemma getElements_reads (hlex : Lexical ts) : Reads (getElements n) ts fun elts us rest =>
    (∃ rs, Elements us elts.1 rs ∧ elts.2 = redirects rs .null) ∧ wordLike (nextType rest) = false := by
  induction n generalizing ts with
  | zero => exact reads_stop
  | succ n ih =>
    refine reads_attempt parseElement_suffixes parseElement_reads (fun rest h _ => ?_) ?_
    · exact reads_pure ⟨⟨[], .nil, rfl⟩, parseElement_next hlex h⟩
    · rintro (w | ast) us rest hrest helt
      · obtain ⟨t, rfl, hw⟩ := helt
        refine (ih (hlex.of_suffix hrest)).bind getElements_suffixes ?_
        rintro ⟨ws, head⟩ vs rest' - ⟨⟨rs, hrs, rfl⟩, hnext⟩
        refine reads_pure ⟨⟨rs, ?_, rfl⟩, hnext⟩
        rw [List.append_nil]
        exact .word hw hrs
      · obtain ⟨r, hr, rfl⟩ := helt
        refine (ih (hlex.of_suffix hrest)).bind getElements_suffixes ?_
        rintro ⟨ws, head⟩ vs rest' - ⟨⟨rs, hrs, rfl⟩, hnext⟩
        refine reads_pure ⟨⟨r :: rs, ?_, rfl⟩, hnext⟩
        rw [List.append_nil]
        exact .redir hr hrs

/-! ## Sentences -/

/-- A sentence of a symbol; behind a wordy one there is no word. -/
def Sentence (sym : Symbol) (ast : Ast) (us rest : List Token) : Prop :=
  ∃ w, Derives True sym us ast w ∧ (w = true → wordLike (nextType rest) = false)

lemma isNull_prefixed_append {ps : List (Word ⊕ RedirInfo)} (h : isNull (prefixed ps .null) = false) :
    ps ≠ [] := by
  rintro rfl
  cases h

lemma parseSimpleCommand_reads (hlex : Lexical ts) :
    Reads (parseSimpleCommand n) ts (Sentence .command) := by
  refine (getPrefix_reads hlex).bind (getChain_suffixes parsePrefix_suffixes) ?_
  rintro head us rest hrest ⟨⟨ps, hps, rfl⟩, hname⟩
  refine reads_peek (reads_ite (fun _ => reads_ite (fun _ => reads_giveUp) fun hnull => ?_) fun ht => ?_)
  · refine reads_pure ⟨false, ?_, fun h => by cases h⟩
    rw [List.append_nil]
    exact .bare hps (isNull_prefixed_append (Bool.not_eq_true _ ▸ hnull))
  · rw [not_not] at ht
    have hargs : Reads (Parser.getArgs n) rest fun ast vs rest' => ∃ es ws rs,
        vs = rest.headD endToken :: es ∧ Elements es ws rs ∧
          ast = redirects rs (.argv ((rest.headD endToken).text :: ws)) ∧
          wordLike (nextType rest') = false := by
      refine reads_peek (reads_ite (fun h => absurd ht h) fun _ => reads_pop
        (ne_of_eq_of_ne ht (by decide)) ?_)
      refine (getElements_reads
        (hlex.of_suffix ((List.tail_suffix _).trans hrest))).bind getElements_suffixes ?_
      rintro ⟨ws, head⟩ es rest' - ⟨⟨rs, hes, rfl⟩, hnext⟩
      refine reads_pure ⟨es, ws, rs, by rw [List.append_nil], hes, ?_, hnext⟩
      exact redirects_hangOn
    refine hargs.bind getArgs_suffixes ?_
    rintro next vs rest' - ⟨es, ws, rs, rfl, hes, rfl, hnext⟩
    refine reads_ite (fun _ => reads_giveUp) fun _ => reads_pure ⟨true, ?_, fun _ => hnext⟩
    rw [prefixed_hangOn, List.append_nil]
    exact .simple hps ht (hname ht) hes

end Simple

/-! ## Lists of commands -/

/-- A rule for commands that parses sentences. -/
structure Sound (command : Rule Ast) : Prop where
  suffixes : Suffixes command
  reads : ∀ ts, Lexical ts → Reads command ts (Sentence .command)

section Lists

variable {command : Rule Ast} {n : ℕ} {ts us rest : List Token} {t : Token} {res ast : Ast} {w : Bool}
  (hc : Sound command)

include hc

lemma parsePipelineRec_reads (hlex : Lexical ts) :
    Reads (parsePipelineRec command n) ts (Sentence .pipes) := by
  induction n generalizing ts with
  | zero => exact reads_stop
  | succ n ih =>
    refine (hc.reads ts hlex).bind hc.suffixes ?_
    rintro p1 us rest hrest ⟨w, hp1, hnext⟩
    refine reads_peek (reads_ite (fun ht => ?_) fun _ => ?_)
    · refine reads_pop (ne_of_eq_of_ne ht (by decide)) (reads_skipNewlines fun ns vs hns hvs => ?_)
      refine (ih (hlex.of_suffix ((hvs.trans (List.tail_suffix _)).trans hrest))).bind
        (parsePipelineRec_suffixes hc.suffixes) ?_
      rintro p2 ws rest' - ⟨w', hp2, hnext'⟩
      refine reads_pure ⟨w', ?_, hnext'⟩
      simpa using hp1.pipe ht hns hp2
    · refine reads_pure ⟨w, ?_, hnext⟩
      rw [List.append_nil]
      exact .lastPipe hp1

lemma parsePipes_reads (hlex : Lexical ts) : Reads (parsePipes command n) ts (Sentence .bare) := by
  refine (hc.reads ts hlex).bind hc.suffixes ?_
  rintro p1 us rest hrest ⟨w, hp1, hnext⟩
  refine reads_peek (reads_ite (fun ht => ?_) fun _ => ?_)
  · refine reads_pop (ne_of_eq_of_ne ht (by decide)) (reads_skipNewlines fun ns vs hns hvs => ?_)
    refine (parsePipelineRec_reads hc (hlex.of_suffix ((hvs.trans (List.tail_suffix _)).trans hrest))).bind
      (parsePipelineRec_suffixes hc.suffixes) ?_
    rintro p2 ws rest' - ⟨w', hp2, hnext'⟩
    refine reads_pure ⟨w', ?_, hnext'⟩
    simpa using hp1.piped ht hns hp2
  · refine reads_pure ⟨w, ?_, hnext⟩
    rw [List.append_nil]
    exact .single hp1

lemma parsePipeline_reads (hlex : Lexical ts) :
    Reads (parsePipeline command n) ts (Sentence .pipeline) := by
  refine reads_peek (reads_ite (fun ht => ?_) fun _ => ?_)
  · refine reads_pop (ne_of_eq_of_ne ht (by decide)) ?_
    refine (parsePipes_reads hc (hlex.of_suffix (List.tail_suffix _))).bind
      (parsePipes_suffixes hc.suffixes) ?_
    rintro p1 us rest - ⟨w, hp1, hnext⟩
    refine reads_pure ⟨w, ?_, hnext⟩
    rw [List.append_nil]
    exact .not ht hp1
  · refine (parsePipes_reads hc hlex).imp ?_
    rintro ast us rest ⟨w, h, hnext⟩
    exact ⟨w, .plain h, hnext⟩

lemma andOrLoop_reads (hlex : Lexical ts) (hw : w = true → wordLike (nextType ts) = false) :
    Reads (andOrLoop command n res) ts (Sentence (.andOrFrom res w)) := by
  induction n generalizing ts res w with
  | zero => exact reads_stop
  | succ n ih =>
    refine reads_peek (reads_ite (fun ht => ?_) fun _ => reads_pure ⟨w, .done, hw⟩)
    have hne : nextType ts ≠ .EOF := ht.elim (ne_of_eq_of_ne · (by decide)) (ne_of_eq_of_ne · (by decide))
    refine reads_pop hne (reads_skipNewlines fun ns vs hns hvs => ?_)
    have hvs := hlex.of_suffix (hvs.trans (List.tail_suffix _))
    refine (parsePipeline_reads hc hvs).bind (parsePipeline_suffixes hc.suffixes) ?_
    rintro p2 ws rest hrest ⟨w', hp2, hnext⟩
    refine (ih (hvs.of_suffix hrest) hnext).imp ?_
    rintro ast us rest' ⟨w'', h, hnext'⟩
    refine ⟨w'', ?_, hnext'⟩
    obtain ht | ht := ht
    · rw [if_neg (by rw [ht]; decide)] at h
      simpa using Derives.and ht hns hp2 h
    · rw [if_pos ht] at h
      simpa using Derives.or ht hns hp2 h

lemma parseAndOr_reads (hlex : Lexical ts) : Reads (parseAndOr command n) ts (Sentence .andOr) := by
  refine (parsePipeline_reads hc hlex).bind (parsePipeline_suffixes hc.suffixes) ?_
  rintro p1 us rest hrest ⟨w, hp1, hnext⟩
  refine (andOrLoop_reads hc (hlex.of_suffix hrest) hnext).imp ?_
  rintro ast vs rest' ⟨w', h, hnext'⟩
  exact ⟨w', .andOr hp1 h, hnext'⟩

lemma listLoop_reads (hlex : Lexical ts) :
    Reads (listLoop command n) ts fun ast us _ => ∃ w, Derives True .listRest us ast w := by
  induction n generalizing ts with
  | zero => exact reads_stop
  | succ n ih =>
    refine reads_peek (reads_ite (fun ht => ?_) fun _ => reads_pure ⟨false, .listEnd⟩)
    refine reads_pop (ne_of_eq_of_ne ht (by decide)) ?_
    have htail := hlex.of_suffix (List.tail_suffix _)
    refine reads_attempt (parseAndOr_suffixes hc.suffixes) (parseAndOr_reads hc htail)
      (fun rest _ _ => ?_) ?_
    · exact reads_pure ⟨false, .listSemicolon ht⟩
    · rintro p1 us rest hrest ⟨w, hp1, -⟩
      refine (ih (htail.of_suffix hrest)).bind (listLoop_suffixes hc.suffixes) ?_
      rintro p2 vs rest' - ⟨w', hp2⟩
      refine reads_pure ⟨w', ?_⟩
      simpa using Derives.listMore ht hp1 hp2

lemma parseList_reads (hlex : Lexical ts) :
    Reads (parseList command n) ts fun ast us _ => ∃ w, Derives True .list us ast w := by
  refine (parseAndOr_reads hc hlex).bind (parseAndOr_suffixes hc.suffixes) ?_
  rintro p1 us rest hrest ⟨w, hp1, -⟩
  refine (listLoop_reads hc (hlex.of_suffix hrest)).bind (listLoop_suffixes hc.suffixes) ?_
  rintro p2 vs rest' - ⟨w', hp2⟩
  refine reads_pure ⟨w', ?_⟩
  rw [List.append_nil]
  exact .list hp1 hp2

lemma compoundLoop_reads (hlex : Lexical ts) (hw : w = true → wordLike (nextType ts) = false) :
    Reads (compoundLoop command n) ts fun ast us rest => ∃ w', Derives True (.rest w) us ast w' ∧
      (w' = true → wordLike (nextType rest) = false ∧ nextType rest ≠ .NEWLINE) := by
  induction n generalizing ts w with
  | zero => exact reads_stop
  | succ n ih =>
    refine reads_peek (reads_ite (fun ht => ?_) fun hne => ?_)
    · have hne : nextType ts ≠ .EOF := ht.elim (ne_of_eq_of_ne · (by decide)) (ne_of_eq_of_ne · (by decide))
      refine reads_pop hne (reads_skipNewlines fun ns vs hns hvs => ?_)
      have hvs := hlex.of_suffix (hvs.trans (List.tail_suffix _))
      refine reads_attempt (parseAndOr_suffixes hc.suffixes) (parseAndOr_reads hc hvs)
        (fun rest _ _ => ?_) ?_
      · refine reads_pure ⟨false, ?_, fun h => by cases h⟩
        rw [List.append_nil]
        exact .restSeparator ht hns
      · rintro p1 us rest hrest ⟨w', hp1, hnext⟩
        refine (ih (hvs.of_suffix hrest) hnext).bind (compoundLoop_suffixes hc.suffixes) ?_
        rintro p2 xs rest' - ⟨w'', hp2, hnext'⟩
        refine reads_pure ⟨w'', ?_, hnext'⟩
        simpa using Derives.restMore ht hns hp1 hp2
    · exact reads_pure ⟨w, .restEnd, fun h => ⟨hw h, fun heq => hne (.inr heq)⟩⟩

lemma parseCompoundList_reads (hlex : Lexical ts) :
    Reads (parseCompoundList command n) ts (Sentence .compound) := by
  refine reads_skipNewlines fun ns us hns hus => ?_
  have hus := hlex.of_suffix hus
  refine (parseAndOr_reads hc hus).bind (parseAndOr_suffixes hc.suffixes) ?_
  rintro p1 vs rest hrest ⟨w, hp1, hnext⟩
  refine (compoundLoop_reads hc (hus.of_suffix hrest) hnext).bind (compoundLoop_suffixes hc.suffixes) ?_
  rintro p2 ws rest' - ⟨w', hp2, hnext'⟩
  intro ast rest'' hrun
  rw [skipNewlines_bind] at hrun
  cases hrun
  refine ⟨[], List.dropWhile_sublist _, w', ?_, fun h => ?_⟩
  · simpa using Derives.compound hns hp1 hp2
  · obtain ⟨hword, hne⟩ := hnext' h
    have hnone : Newlines [] := fun _ h => absurd h List.not_mem_nil
    have hend := dropWhile_newlines hnone hne
    rw [List.nil_append] at hend
    rwa [hend]

end Lists

/-! ## Compound commands -/

/-- A shell command, or nothing. -/
def IsShell (ast : Ast) (us _rest : List Token) : Prop :=
  Derives True .shell us ast false ∨ (ast = .null ∧ us = [])

section Compound

variable {α : Type} {command : Rule Ast} {n : ℕ} {ts us rest : List Token} {t : Token} {p1 ast : Ast}
  {w : Bool}
  {type : TokenType} {post : α → List Token → List Token → Prop} {word : Word} {words : List Word}

lemma not_wordy (hnext : w = true → wordLike (nextType rest) = false) (h : nextType rest = type)
    (hword : wordLike type = true) : w = false := by
  rw [Bool.eq_false_iff]
  intro hw
  rw [← h, hnext hw] at hword
  cases hword

section Command

variable (hc : Sound command)

include hc

lemma reads_body {f : Ast → Rule α} (hlex : Lexical ts) (hne : type ≠ .EOF)
    (hf : ∀ p1 us w rest, nextType ts = type → rest <:+ ts → Derives True .compound us p1 w →
      (w = true → wordLike (nextType rest) = false) →
        Reads (f p1) rest fun a vs => post a (ts.headD endToken :: (us ++ vs))) :
    Reads (expect type >>= fun _ => parseCompoundList command n >>= f) ts post := by
  refine reads_expect hne fun ht => ?_
  have htail := List.tail_suffix ts
  refine (parseCompoundList_reads hc (hlex.of_suffix htail)).bind
    (parseCompoundList_suffixes hc.suffixes) ?_
  rintro p1 us rest hrest ⟨w, hp1, hnext⟩
  exact hf p1 us w rest ht (hrest.trans htail) hp1 hnext

lemma parseLoop_reads {node : Ast → Ast → Ast} (hlex : Lexical ts) (hne : type ≠ .EOF)
    (hnode : ∀ {l d e : Token} {ts us : List Token} {p1 p2 : Ast}, l.type = type →
      Derives True .compound ts p1 false → d.type = .DO → Derives True .compound us p2 false →
      e.type = .DONE →
        Derives True .shell (l :: ts ++ d :: us ++ [e]) (node p1 p2) false) :
    Reads (parseLoop command type node n) ts IsShell := by
  refine reads_body hc hlex hne fun p1 us w rest hl hrest hp1 hnext => ?_
  refine reads_body hc (hlex.of_suffix hrest) (by decide) fun p2 vs w' rest' hd hrest' hp2 hnext' => ?_
  refine reads_expect (by decide) fun he => reads_pure (.inl ?_)
  obtain rfl := not_wordy hnext hd rfl
  obtain rfl := not_wordy hnext' he rfl
  simpa using hnode hl hp1 hd hp2 he

omit hc in
lemma parseElseClause_none (h : wordLike (nextType ts) = false) :
    (parseElseClause command (n + 1)).run ts = .ok (none, ts) := by
  have hne : ∀ {type : TokenType}, wordLike type = true → ¬(ts.headD endToken).type = type := by
    rintro type hword rfl
    exact Bool.false_ne_true (h.symm.trans hword)
  rw [parseElseClause, peek_bind, if_neg (hne rfl), if_neg (hne rfl)]
  rfl

omit hc in
lemma reads_else {f : Ast → Rule α} (hs : Suffixes (parseElseClause command n))
    (hw : w = true → wordLike (nextType ts) = false)
    (helse : Reads (parseElseClause command n) ts fun ast us rest =>
      nextType rest = .FI → Derives True .elseClause us ast false)
    (hf : ∀ p3 us rest, rest <:+ ts → (nextType rest = .FI → w = false ∧
    Derives True .elseClause us p3 false) →
      Reads (f p3) rest fun a vs => post a (us ++ vs)) :
    Reads (tryRule (parseElseClause command n) >>= f) ts post := by
  cases w with
  | false =>
    refine reads_tryRule hs helse (fun rest _ hrest => ?_) fun p3 us rest hrest h => ?_
    · exact hf .null [] rest hrest fun _ => ⟨rfl, .noElse⟩
    · exact hf p3 us rest hrest fun hfi => ⟨rfl, h hfi⟩
  | true =>
    intro a rest hrun
    have hword := hw rfl
    cases n with
    | zero => cases hrun
    | succ n =>
      rw [bind_run (tryRule_run (parseElseClause_none hword))] at hrun
      refine hf .null [] ts List.suffix_rfl (fun hfi => ?_) a rest hrun
      rw [hfi] at hword
      cases hword

lemma parseElseClause_reads (hlex : Lexical ts) : Reads (parseElseClause command n) ts fun ast us rest =>
    nextType rest = .FI → Derives True .elseClause us ast false := by
  induction n generalizing ts with
  | zero => exact reads_stop
  | succ n ih =>
    refine reads_peek (reads_ite (fun ht => ?_) fun _ => reads_ite (fun ht => ?_) fun _ => reads_giveUp)
    · refine reads_pop (ne_of_eq_of_ne ht (by decide)) ?_
      refine (parseCompoundList_reads hc (hlex.of_suffix (List.tail_suffix _))).imp ?_
      rintro ast us rest ⟨w, h, hnext⟩ hfi
      obtain rfl := not_wordy hnext hfi rfl
      exact .else ht h
    · refine reads_pop (ne_of_eq_of_ne ht (by decide)) ?_
      have htail := hlex.of_suffix (List.tail_suffix ts)
      refine (parseCompoundList_reads hc htail).bind (parseCompoundList_suffixes hc.suffixes) ?_
      rintro p1 us rest hrest ⟨w, hp1, hnext⟩
      refine reads_pop_eq (by decide) fun hthen => ?_
      obtain rfl := not_wordy hnext hthen rfl
      have hrest := (htail.of_suffix hrest).of_suffix (List.tail_suffix _)
      refine (parseCompoundList_reads hc hrest).bind (parseCompoundList_suffixes hc.suffixes) ?_
      rintro p2 vs rest' hrest' ⟨w, hp2, hnext'⟩
      refine reads_else (parseElseClause_suffixes hc.suffixes) hnext' (ih (hrest.of_suffix hrest')) ?_
      intro p3 ws rest'' _ h
      refine reads_pure fun hfi => ?_
      obtain ⟨rfl, hp3⟩ := h hfi
      simpa using Derives.elif ht hp1 hthen hp2 hp3

lemma parseRuleIf_reads (hlex : Lexical ts) : Reads (parseRuleIf command n) ts IsShell := by
  refine reads_body hc hlex (by decide) fun p1 us w rest hi hrest hp1 hnext => ?_
  refine reads_body hc (hlex.of_suffix hrest) (by decide) fun p2 vs w' rest' hthen hrest' hp2 hnext' => ?_
  have helse := parseElseClause_reads (n := n) hc ((hlex.of_suffix hrest).of_suffix hrest')
  refine reads_else (parseElseClause_suffixes hc.suffixes) hnext' helse fun p3 ws rest'' _ h => ?_
  refine reads_expect (by decide) fun hfi => reads_pure (.inl ?_)
  obtain rfl := not_wordy hnext hthen rfl
  obtain ⟨rfl, hp3⟩ := h hfi
  simpa using Derives.ifThen hi hp1 hthen hp2 hp3 hfi

lemma parseSubshell_reads (hlex : Lexical ts) : Reads (parseSubshell command n) ts IsShell := by
  refine reads_body hc hlex (by decide) fun p1 us w rest hl _ hp1 _ => ?_
  refine reads_expect (by decide) fun hr => reads_pure (.inl ?_)
  simpa using Derives.subshell hl hp1 hr

lemma parseGroup_reads (hlex : Lexical ts) : Reads (parseGroup command n) ts IsShell := by
  refine reads_peek (reads_ite (fun hl => ?_) fun _ => reads_pure (.inr ⟨rfl, rfl⟩))
  refine reads_pop (ne_of_eq_of_ne hl (by decide)) ?_
  have htail := hlex.of_suffix (List.tail_suffix ts)
  refine reads_attempt (parseCompoundList_suffixes hc.suffixes) (parseCompoundList_reads hc htail)
    (fun rest _ _ => reads_pop_lost reads_giveUp) ?_
  rintro p1 us rest hrest ⟨w, hp1, hnext⟩
  refine reads_pop_eq (by decide) fun hr => reads_pure (.inl ?_)
  obtain rfl := not_wordy hnext hr rfl
  simpa using Derives.group hl hp1 hr

omit hc in
lemma getWordsLoop_reads : Reads (getWordsLoop n) ts fun words us _ => Elements us words [] := by
  induction n generalizing ts with
  | zero => exact reads_stop
  | succ n ih =>
    refine reads_peek (reads_ite (fun ht => ?_) fun _ => reads_pure .nil)
    have hne : nextType ts ≠ .EOF := fun heq => by
      rw [nextType] at heq
      rw [wordify_type, heq] at ht
      cases ht
    refine reads_pop hne (ih.bind getWordsLoop_suffixes ?_)
    rintro words us rest - h
    refine reads_pure ?_
    rw [List.append_nil]
    exact .word (word_of_wordify ht) h

lemma auxForDo_reads (hlex : Lexical ts) : Reads (auxForDo command word words n) ts fun ast us _ =>
    ∃ d vs e p1, us = d :: vs ++ [e] ∧ d.type = .DO ∧ Derives True .compound vs p1 false ∧ e.type = .DONE ∧
      ast = .forLoop p1 word (if words.isEmpty then [['$', '@']] else words) := by
  refine reads_body hc hlex (by decide) fun p1 us w rest hd _ hp1 hnext => ?_
  refine reads_expect (by decide) fun he => reads_pure ?_
  obtain rfl := not_wordy hnext he rfl
  exact ⟨_, us, _, p1, rfl, hd, hp1, he, rfl⟩

lemma parseRuleFor_reads (hlex : Lexical ts) : Reads (parseRuleFor command n) ts IsShell := by
  refine reads_expect (by decide) fun hl => reads_peek (reads_ite (fun _ => reads_giveUp) fun hx => ?_)
  rw [not_not] at hx
  have hne : nextType ts.tail ≠ .EOF := fun heq => by
    rw [nextType] at heq
    rw [wordify_type, heq] at hx
    cases hx
  have hx := word_of_wordify hx
  refine reads_pop hne (reads_peek (reads_ite (fun hs => ?_) fun _ => ?_))
  · refine reads_pop (ne_of_eq_of_ne hs (by decide)) (reads_skipNewlines fun ns us hns hus => ?_)
    have hus := hlex.of_suffix (((hus.trans (List.tail_suffix _)).trans (List.tail_suffix _)).trans
      (List.tail_suffix _))
    refine (auxForDo_reads hc hus).imp ?_
    rintro ast vs rest ⟨d, ws, e, p1, rfl, hd, hp1, he, rfl⟩
    refine .inl ?_
    simpa using Derives.forArguments hl hx (.inr ⟨_, rfl, hs⟩) hns hd hp1 he
  · refine reads_skipNewlines fun ns us hns hus => reads_peek (reads_ite (fun _ => ?_) fun _ => ?_)
    · have hus := hlex.of_suffix ((hus.trans (List.tail_suffix _)).trans (List.tail_suffix _))
      refine (auxForDo_reads hc hus).imp ?_
      rintro ast vs rest ⟨d, ws, e, p1, rfl, hd, hp1, he, rfl⟩
      refine .inl ?_
      simpa using Derives.forArguments hl hx (.inl rfl) hns hd hp1 he
    · have hus := hlex.of_suffix ((hus.trans (List.tail_suffix _)).trans (List.tail_suffix _))
      have hwords : Reads (getWords n) us fun words vs _ =>
          ∃ i ws, vs = i :: ws ∧ i.type = .IN ∧ Elements ws words [] := by
        refine reads_expect (by decide) fun hi => getWordsLoop_reads.imp ?_
        exact fun words ws _ h => ⟨_, ws, rfl, hi, h⟩
      refine hwords.bind (expect_suffixes.bind fun _ => getWordsLoop_suffixes) ?_
      rintro words vs rest hrest ⟨i, ws, rfl, hi, hws⟩
      refine reads_peek (reads_ite (fun _ => reads_giveUp) fun hs => ?_)
      have hs : Separates (rest.headD endToken) := by
        rwa [not_and_or, not_not, not_not] at hs
      have hne : nextType rest ≠ .EOF := hs.elim (ne_of_eq_of_ne · (by decide))
        (ne_of_eq_of_ne · (by decide))
      refine reads_pop hne (reads_skipNewlines fun ms xs hms hxs => ?_)
      have hxs := (hus.of_suffix hrest).of_suffix (hxs.trans (List.tail_suffix _))
      refine (auxForDo_reads hc hxs).imp ?_
      rintro ast ys rest' ⟨d, zs, e, p1, rfl, hd, hp1, he, rfl⟩
      refine .inl ?_
      simpa using Derives.forWords hl hx hns hi hws hs hms hd hp1 he

lemma parseShellCommand_reads (hlex : Lexical ts) : Reads (parseShellCommand command n) ts IsShell := by
  refine reads_tryRules (fun us hus => parseGroup_reads hc (hlex.of_suffix hus)) ?_
  simp only [List.mem_cons, List.not_mem_nil, or_false]
  rintro rule (rfl | rfl | rfl | rfl | rfl)
  · exact ⟨parseRuleIf_suffixes hc.suffixes, fun us hus => parseRuleIf_reads hc (hlex.of_suffix hus)⟩
  · exact ⟨parseLoop_suffixes hc.suffixes, fun us hus => parseLoop_reads hc (hlex.of_suffix hus) (by decide)
      Derives.whileLoop⟩
  · exact ⟨parseLoop_suffixes hc.suffixes, fun us hus => parseLoop_reads hc (hlex.of_suffix hus) (by decide)
      Derives.untilLoop⟩
  · exact ⟨parseRuleFor_suffixes hc.suffixes, fun us hus => parseRuleFor_reads hc (hlex.of_suffix hus)⟩
  · exact ⟨parseSubshell_suffixes hc.suffixes, fun us hus => parseSubshell_reads hc (hlex.of_suffix hus)⟩

lemma parseFuncdec_reads (hlex : Lexical ts) : Reads (parseFuncdec command n) ts (Sentence .command) := by
  refine reads_peek (reads_ite (fun _ => reads_giveUp) fun ht => reads_peek2
    (reads_ite (fun _ => reads_giveUp) ?_))
  intro hl
  rw [not_not] at ht hl
  refine reads_pop (ne_of_eq_of_ne ht (by decide)) (reads_pop (ne_of_eq_of_ne hl (by decide)) ?_)
  refine reads_expect (by decide) fun hr => reads_skipNewlines fun ns us hns hus => ?_
  have hus := hlex.of_suffix (((hus.trans (List.tail_suffix _)).trans (List.tail_suffix _)).trans
    (List.tail_suffix _))
  refine (parseShellCommand_reads hc hus).bind (parseShellCommand_suffixes hc.suffixes) ?_
  rintro p2 vs rest - (hp2 | ⟨rfl, rfl⟩)
  · refine reads_pure ⟨false, ?_, fun h => by cases h⟩
    simpa using Derives.funcdef ht hl hr hns hp2
  · refine reads_pure ⟨false, ?_, fun h => by cases h⟩
    simpa using Derives.bodiless trivial ht hl hr hns

lemma parseRedirected_reads (hlex : Lexical ts) :
    Reads (parseRedirected command n) ts (Sentence .command) := by
  refine reads_tryRule (parseShellCommand_suffixes hc.suffixes) (parseShellCommand_reads hc hlex)
    (fun rest _ _ => reads_giveUp) ?_
  rintro ast us rest - (h | ⟨rfl, rfl⟩)
  · rw [h.not_null]
    refine getRedirections_reads.bind (getChain_suffixes parseRedirection_suffixes) ?_
    rintro head vs rest' - ⟨rs, hrs, rfl⟩
    refine reads_pure ⟨false, ?_, fun h => by cases h⟩
    rw [redirects_hangOn, List.append_nil]
    exact .shell h hrs
  · exact reads_giveUp

end Command

lemma sound : Sound (parseCommand n) := by
  refine ⟨parseCommand_suffixes, ?_⟩
  induction n with
  | zero => exact fun ts _ => reads_stop
  | succ n ih =>
    have hc : Sound (parseCommand n) := ⟨parseCommand_suffixes, ih⟩
    intro ts hlex
    refine reads_tryRules (fun us hus => parseRedirected_reads hc (hlex.of_suffix hus)) ?_
    simp only [List.mem_cons, List.not_mem_nil, or_false]
    rintro rule (rfl | rfl)
    · exact ⟨parseFuncdec_suffixes hc.suffixes, fun us hus => parseFuncdec_reads hc (hlex.of_suffix hus)⟩
    · exact ⟨parseSimpleCommand_suffixes, fun us hus => parseSimpleCommand_reads (hlex.of_suffix hus)⟩

end Compound

/-! ## The input -/

section Input

variable {n : ℕ} {ts rest : List Token} {status : ParserStatus} {ast : Ast}

/-- `a; >` -/
def lostOperator : List Token :=
  [{ type := .WORD, value := some ['a'] }, { type := .SEMICOLON }, { type := .REDIR_G },
  { type := .NEWLINE }]

end Input

end BrebOS.Shell
