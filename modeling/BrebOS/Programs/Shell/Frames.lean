import BrebOS.Lib.Loop
import BrebOS.Programs.Shell

/-!
# What the execution of a command keeps

A relation between the contexts before and after is kept by every command, if it does not look at more than the
descriptors, `number_of_pipes` and what is recorded, and if redirections and pipelines keep it when their
commands do.
-/

namespace BrebOS.Shell

/-- The redirections of the tree are allowed ones, and it has pipelines only if they are allowed. -/
def Ast.Allowed (redirs : RedirInfo → Prop) (pipes : Prop) : Ast → Prop
  | .null | .argv _ | .caseClause | .aliasDef => True
  | .list p1 p2 | .whileLoop p1 p2 | .untilLoop p1 p2 | .and p1 p2 | .or p1 p2 =>
      p1.Allowed redirs pipes ∧ p2.Allowed redirs pipes
  | .ifThen p1 p2 p3 => p1.Allowed redirs pipes ∧ p2.Allowed redirs pipes ∧ p3.Allowed redirs pipes
  | .redir r p2 => redirs r ∧ p2.Allowed redirs pipes
  | .pipe p1 p2 => pipes ∧ p1.Allowed redirs pipes ∧ p2.Allowed redirs pipes
  | .not p1 | .subshell p1 | .forLoop p1 _ _ => p1.Allowed redirs pipes
  | .assign _ p2 | .funcdef _ _ p2 => p2.Allowed redirs pipes

/-- The bodies of the functions are allowed. -/
def FunsAllowed (redirs : RedirInfo → Prop) (pipes : Prop) (c : Context) : Prop :=
  ∀ f ∈ c.listFunc, f.2.Allowed redirs pipes

/-- A relation that looks only at what redirections and pipelines change. -/
structure Frame (R : Context → Context → Prop) : Prop where
  same : ∀ c c' : Context, c'.table = c.table → c'.numberOfPipes = c.numberOfPipes → c'.log = c.log → R c c'
  trans : ∀ c c' c'', R c c' → R c' c'' → R c c''

section Commands

variable {redirs : RedirInfo → Prop} {pipes : Prop} {R : Context → Context → Prop} {env : Env}
  {sub : Ast → Context → Result} {ast p1 p2 p3 : Ast} {c c' : Context} {args : List Word}

lemma Frame.unchanged (hR : Frame R) (htable : c'.table = c.table)
    (hpipes : c'.numberOfPipes = c.numberOfPipes)
    (hlog : c'.log = c.log) (hfuns : c'.listFunc = c.listFunc) (hc : FunsAllowed redirs pipes c) :
    R c c' ∧ FunsAllowed redirs pipes c' := by
  refine ⟨hR.same c c' htable hpipes hlog, ?_⟩
  rw [FunsAllowed, hfuns]
  exact hc

lemma Frame.before (hR : Frame R) {c₁ : Context} (h : R c₁ c') (htable : c₁.table = c.table)
    (hpipes : c₁.numberOfPipes = c.numberOfPipes) (hlog : c₁.log = c.log) : R c c' :=
  hR.trans c c₁ c' (hR.same c c₁ htable hpipes hlog) h

lemma Frame.behind (hR : Frame R) {c₁ : Context} (h : R c c₁) (htable : c'.table = c₁.table)
    (hpipes : c'.numberOfPipes = c₁.numberOfPipes) (hlog : c'.log = c₁.log) : R c c' :=
  hR.trans c c₁ c' h (hR.same c₁ c' htable hpipes hlog)

/-! ## Simple commands -/

@[simp] lemma tick_table (c : Context) : c.tick.table = c.table := by
  unfold Context.tick
  split
  · rfl
  · rfl

@[simp] lemma tick_numberOfPipes (c : Context) : c.tick.numberOfPipes = c.numberOfPipes := by
  unfold Context.tick
  split
  · rfl
  · rfl

@[simp] lemma tick_log (c : Context) : c.tick.log = c.log := by
  unfold Context.tick
  split
  · rfl
  · rfl

@[simp] lemma tick_listFunc (c : Context) : c.tick.listFunc = c.listFunc := by
  unfold Context.tick
  split
  · rfl
  · rfl

lemma Frame.tick (hR : Frame R) (c : Context) (hc : FunsAllowed redirs pipes c) :
    R c c.tick ∧ FunsAllowed redirs pipes c.tick :=
  hR.unchanged (tick_table c) (tick_numberOfPipes c) (tick_log c) (tick_listFunc c) hc

lemma listFuncGetValue_allowed (hc : FunsAllowed redirs pipes c) (name : Word) :
    (listFuncGetValue c.listFunc name).Allowed redirs pipes := by
  rw [listFuncGetValue]
  cases hfind : c.listFunc.find? (·.1 = name) with
  | none => trivial
  | some f => exact hc f (List.mem_of_find?_eq_some hfind)

lemma listFuncAdd_allowed {l : List (Word × Ast)} (hl : ∀ f ∈ l, f.2.Allowed redirs pipes) (name : Word)
    (hbody : ast.Allowed redirs pipes) : ∀ f ∈ listFuncAdd l name ast, f.2.Allowed redirs pipes := by
  intro f hf
  rw [listFuncAdd] at hf
  split_ifs at hf
  · obtain ⟨g, hg, rfl⟩ := List.mem_map.mp hf
    split_ifs
    · exact hbody
    · exact hl g hg
  · rcases List.mem_cons.mp hf with rfl | hf
    · exact hbody
    · exact hl f hf

lemma unsetFuns_keeps (hR : Frame R) (names : List Word) : ∀ (rv : ℤ) (c : Context),
    FunsAllowed redirs pipes c →
    let r := names.foldl (fun (rv, c) name =>
      (if isNull (listFuncGetValue c.listFunc name) then 1 else rv,
        { c with listFunc := c.listFunc.eraseP (·.1 = name) })) (rv, c)
    R c r.2 ∧ FunsAllowed redirs pipes r.2 := by
  induction names with
  | nil =>
      intro rv c hc
      exact hR.unchanged rfl rfl rfl rfl hc
  | cons name names ih =>
      intro rv c hc
      have herase : FunsAllowed redirs pipes { c with listFunc := c.listFunc.eraseP (·.1 = name) } :=
        fun f hf => hc f (List.mem_of_mem_eraseP hf)
      obtain ⟨hr, hfuns⟩ := ih (if isNull (listFuncGetValue c.listFunc name) then 1 else rv) _ herase
      exact ⟨hR.before hr rfl rfl rfl, hfuns⟩

lemma biUnset_keeps (hR : Frame R) (args : List Word) (c : Context) (hc : FunsAllowed redirs pipes c) :
    R c (biUnset env args c).2 ∧ FunsAllowed redirs pipes (biUnset env args c).2 := by
  rw [biUnset]
  split
  · exact hR.unchanged rfl rfl rfl rfl hc
  · split_ifs
    · exact unsetFuns_keeps hR _ 0 c hc
    · exact hR.tick c hc

lemma runBuiltin_keeps (hR : Frame R) (b : Builtin) (args : List Word) :
    KeepsWith (FunsAllowed redirs pipes) R (runBuiltin env b args) := by
  have hleave : ∀ t, KeepsWith (FunsAllowed redirs pipes) R (biLeave t args) := by
    intro t c a c' hc h
    rw [biLeave] at h
    split at h
    · cases h
      exact hR.unchanged rfl rfl rfl rfl hc
    · split_ifs at h
      cases h
      exact hR.unchanged rfl rfl rfl rfl hc
  intro c a c' hc h
  cases b with
  | «break» => exact hleave .break c a c' hc h
  | «continue» => exact hleave .continue c a c' hc h
  | unset =>
      have hkeep : R c (biUnset env args c).2 ∧ FunsAllowed redirs pipes (biUnset env args c).2 :=
        biUnset_keeps hR args c hc
      rw [runBuiltin] at h
      rw [Except.ok.inj h] at hkeep
      exact hkeep
  | exit =>
      cases h
      exact hR.unchanged rfl rfl rfl rfl hc
  | cd =>
      cases h
      exact hR.tick c hc
  | pwd =>
      cases h
      exact hR.tick c hc
  | «true» =>
      cases h
      exact hR.unchanged rfl rfl rfl rfl hc
  | «false» =>
      cases h
      exact hR.unchanged rfl rfl rfl rfl hc
  | echo =>
      cases h
      exact hR.unchanged rfl rfl rfl rfl hc

lemma runExecvp_keeps (hR : Frame R) (args : List Word) :
    KeepsWith (FunsAllowed redirs pipes) R (runExecvp env args) := by
  intro c a c' hc h
  rw [runExecvp] at h
  split_ifs at h
  cases h
  exact hR.tick c hc

lemma runFun_keeps (hR : Frame R)
    (hsub : ∀ ast, ast.Allowed redirs pipes →
      Keeps (FunsAllowed redirs pipes) R (sub ast)) {name : Word} {code : ℤ}
    {args' : List Word} (hc : FunsAllowed redirs pipes c)
      (h : runFun sub name args c = .ok (code, args', c')) :
    R c c' ∧ FunsAllowed redirs pipes c' := by
  rw [runFun] at h
  dsimp only at h
  split_ifs at h
  · cases h
    exact hR.unchanged rfl rfl rfl rfl hc
  · obtain ⟨c₁, hrun, h⟩ := bind_eq_ok.mp h
    cases h
    obtain ⟨hr, hc₁⟩ := hsub _
      (listFuncGetValue_allowed hc name) { c with argv := c.argv.headD [] :: args } c₁ hc hrun
    exact ⟨hR.behind (hR.before hr rfl rfl rfl) rfl rfl rfl, hc₁⟩

lemma tryBuiltin_keeps (hR : Frame R) (args : List Word) :
    KeepsWith (FunsAllowed redirs pipes) R (tryBuiltin env args) := by
  intro c a c' hc h
  rw [tryBuiltin] at h
  split at h
  · exact runBuiltin_keeps hR _ _ _ _ _ hc h
  · cases h
    exact hR.unchanged rfl rfl rfl rfl hc

lemma tryExecvp_keeps (hR : Frame R) (code : ℤ) (args : List Word) :
    KeepsWith (FunsAllowed redirs pipes) R (tryExecvp env code args) := by
  intro c a c' hc h
  rw [tryExecvp] at h
  split_ifs at h
  · exact runExecvp_keeps hR _ _ _ _ hc h
  · cases h
    exact hR.unchanged rfl rfl rfl rfl hc

lemma execArgv_keeps (hR : Frame R)
    (hsub : ∀ ast, ast.Allowed redirs pipes → Keeps (FunsAllowed redirs pipes) R (sub ast))
      (argv : List Word) :
    Keeps (FunsAllowed redirs pipes) R (execArgv env sub argv) := by
  intro c c' hc h
  rw [execArgv] at h
  split at h
  · cases h
  · obtain ⟨ht, hct⟩ := hR.tick c hc
    obtain ⟨⟨code, args', c₁⟩, hfun, h⟩ := bind_eq_ok.mp h
    obtain ⟨hr₁, hc₁⟩ := runFun_keeps hR hsub hct hfun
    have hr := hR.trans _ _ _ ht hr₁
    dsimp only at h
    split_ifs at h
    · cases h
      exact ⟨hR.behind hr rfl rfl rfl, hc₁⟩
    · obtain ⟨⟨code₂, c₂⟩, hbuiltin, h⟩ := bind_eq_ok.mp h
      obtain ⟨hr₂, hc₂⟩ := tryBuiltin_keeps hR _ _ _ _ hc₁ hbuiltin
      obtain ⟨⟨code₃, c₃⟩, hexec, h⟩ := bind_eq_ok.mp h
      obtain ⟨hr₃, hc₃⟩ := tryExecvp_keeps hR _ _ _ _ _ hc₂ hexec
      cases h
      exact ⟨hR.behind (hR.trans _ _ _ (hR.trans _ _ _ hr hr₂) hr₃) rfl rfl rfl, hc₃⟩

/-! ## Compound commands -/

lemma execList_keeps (hR : Frame R)
    (hsub : ∀ ast, ast.Allowed redirs pipes → Keeps (FunsAllowed redirs pipes) R (sub ast))
    (hast : ast.Allowed redirs pipes) : Keeps (FunsAllowed redirs pipes) R (execList sub ast) := by
  induction ast with
  | null => exact keeps_ok fun c hc => hR.unchanged rfl rfl rfl rfl hc
  | list p1 p2 _ ih =>
      intro c c' hc h
      obtain ⟨c₁, hrun, h⟩ := bind_eq_ok.mp h
      obtain ⟨hr, hc₁⟩ := hsub p1 hast.1 c c₁ hc hrun
      obtain ⟨hr', hc'⟩ := ih hast.2 c₁ c' hc₁ h
      exact ⟨hR.trans _ _ _ hr hr', hc'⟩
  | _ => exact keeps_error

lemma leaveLoop_unchanged (c : Context) :
    (leaveLoop c).2.table = c.table ∧ (leaveLoop c).2.numberOfPipes = c.numberOfPipes ∧
      (leaveLoop c).2.log = c.log ∧ (leaveLoop c).2.listFunc = c.listFunc := by
  unfold leaveLoop
  dsimp only
  split_ifs
  · exact ⟨rfl, rfl, rfl, rfl⟩
  · exact ⟨rfl, rfl, rfl, rfl⟩
  · exact ⟨rfl, rfl, rfl, rfl⟩
  · exact ⟨rfl, rfl, rfl, rfl⟩
  · exact ⟨rfl, rfl, rfl, rfl⟩

lemma turn_keeps (hR : Frame R) {body : Context → Result} (hbody : Keeps (FunsAllowed redirs pipes) R body)
    {c₁ : Context} (hc : FunsAllowed redirs pipes c)
    (h : body { c with loopLevel := c.loopLevel + 1 } = .ok c₁) :
    R c (leaveLoop c₁).2 ∧ FunsAllowed redirs pipes (leaveLoop c₁).2 := by
  obtain ⟨hr, hc₁⟩ := hbody { c with loopLevel := c.loopLevel + 1 } c₁ hc h
  obtain ⟨htable, hpipes, hlog, hfuns⟩ := leaveLoop_unchanged c₁
  refine ⟨hR.behind (hR.before hr rfl rfl rfl) htable hpipes hlog, ?_⟩
  rw [FunsAllowed, hfuns]
  exact hc₁

lemma whileTurns_keeps (hR : Frame R) {cond body : Context → Result}
    (hcond : Keeps (FunsAllowed redirs pipes) R cond) (hbody : Keeps (FunsAllowed redirs pipes) R body) :
    ∀ (n : ℕ) (rv : ℤ), Keeps (FunsAllowed redirs pipes) R (whileTurns cond body n rv) := by
  intro n
  induction n with
  | zero =>
      intro rv
      exact keeps_error
  | succ n ih =>
      intro rv c c' hc h
      rw [whileTurns] at h
      split_ifs at h
      · cases h
        exact hR.unchanged rfl rfl rfl rfl hc
      · obtain ⟨c₁, hturn, h⟩ := bind_eq_ok.mp h
        obtain ⟨hr₁, hc₁⟩ := turn_keeps hR hbody hc hturn
        dsimp only at h
        split_ifs at h
        · cases h
          exact ⟨hR.behind hr₁ rfl rfl rfl, hc₁⟩
        · obtain ⟨c₂, hagain, h⟩ := bind_eq_ok.mp h
          obtain ⟨hr₂, hc₂⟩ := hcond _ c₂ hc₁ hagain
          obtain ⟨hr', hc'⟩ := ih _ c₂ c' hc₂ h
          exact ⟨hR.trans _ _ _ (hR.trans _ _ _ hr₁ hr₂) hr', hc'⟩

lemma untilTurns_keeps (hR : Frame R) {cond body : Context → Result}
    (hcond : Keeps (FunsAllowed redirs pipes) R cond) (hbody : Keeps (FunsAllowed redirs pipes) R body) :
    ∀ (n : ℕ) (rv : ℤ), Keeps (FunsAllowed redirs pipes) R (untilTurns cond body n rv) := by
  intro n
  induction n with
  | zero =>
      intro rv
      exact keeps_error
  | succ n ih =>
      intro rv c c' hc h
      rw [untilTurns] at h
      split_ifs at h
      · cases h
        exact hR.unchanged rfl rfl rfl rfl hc
      · obtain ⟨c₁, hturn, h⟩ := bind_eq_ok.mp h
        obtain ⟨hr₁, hc₁⟩ := turn_keeps hR hbody hc hturn
        dsimp only at h
        split_ifs at h
        · cases h
          exact ⟨hR.behind hr₁ rfl rfl rfl, hc₁⟩
        · obtain ⟨c₂, hagain, h⟩ := bind_eq_ok.mp h
          obtain ⟨hr₂, hc₂⟩ := hcond _ c₂ hc₁ hagain
          obtain ⟨hr', hc'⟩ := ih _ c₂ c' hc₂ h
          exact ⟨hR.trans _ _ _ (hR.trans _ _ _ hr₁ hr₂) hr', hc'⟩

lemma forTurns_keeps (hR : Frame R) {body : Context → Result}
    (hbody : Keeps (FunsAllowed redirs pipes) R body)
    (values : List Word) : Keeps (FunsAllowed redirs pipes) R (forTurns body values) := by
  induction values with
  | nil => exact keeps_ok fun c hc => hR.unchanged rfl rfl rfl rfl hc
  | cons v values ih =>
      intro c c' hc h
      obtain ⟨c₁, hturn, h⟩ := bind_eq_ok.mp h
      obtain ⟨hr₁, hc₁⟩ := turn_keeps hR hbody hc hturn
      dsimp only at h
      split_ifs at h
      · cases h
        exact ⟨hr₁, hc₁⟩
      · obtain ⟨hr', hc'⟩ := ih _ c' hc₁ h
        exact ⟨hR.trans _ _ _ hr₁ hr', hc'⟩

lemma execFor_keeps (hR : Frame R) (hbody : Keeps (FunsAllowed redirs pipes) R (sub p1)) (p3 : List Word) :
    Keeps (FunsAllowed redirs pipes) R (execFor env sub p1 p3) := by
  intro c c' hc h
  obtain ⟨ht, hct⟩ := hR.tick c hc
  rw [execFor] at h
  split at h
  · cases h
    exact ⟨hR.behind ht rfl rfl rfl, hct⟩
  · obtain ⟨hr, hc'⟩ := forTurns_keeps hR hbody _ _ c' hct h
    exact ⟨hR.trans _ _ _ ht hr, hc'⟩

lemma execFuncdef_keeps (hR : Frame R) (hp2 : p2.Allowed redirs pipes) (node : ℕ) (p1 : Word)
    (hc : FunsAllowed redirs pipes c) :
    R c (execFuncdef env node p1 p2 c) ∧ FunsAllowed redirs pipes (execFuncdef env node p1 p2 c) := by
  obtain ⟨ht, hct⟩ := hR.tick c hc
  rw [execFuncdef]
  split
  · exact ⟨hR.behind ht rfl rfl rfl, hct⟩
  · refine ⟨hR.behind ht rfl rfl rfl, listFuncAdd_allowed hc _ ?_⟩
    split_ifs
    · trivial
    · exact hp2

lemma execSubshell_keeps (hR : Frame R) (p1 : Ast) :
    Keeps (FunsAllowed redirs pipes) R (execSubshell env sub p1) := by
  intro c c' hc h
  obtain ⟨ht, hct⟩ := hR.tick c hc
  rw [execSubshell] at h
  split_ifs at h
  · split at h
    · cases h
      exact ⟨hR.behind ht rfl rfl rfl, hct⟩
    · cases h
      exact ⟨hR.behind ht rfl rfl rfl, hct⟩
    · cases h
  · cases h

/-- **Every command keeps the relation**, if redirections and pipelines of such commands do. -/
theorem exec_keeps (hR : Frame R)
    (hredir : ∀ cmd r, redirs r → Keeps (FunsAllowed redirs pipes) R cmd →
      Keeps (FunsAllowed redirs pipes) R (execRedir env cmd r))
    (hpipe : pipes → ∀ sub p1 p2,
      (∀ ast, ast.Allowed redirs pipes → Keeps (FunsAllowed redirs pipes) R (sub ast)) →
      p1.Allowed redirs pipes → p2.Allowed redirs pipes →
      Keeps (FunsAllowed redirs pipes) R (execPipe env sub p1 p2)) :
    ∀ (n : ℕ) (ast : Ast), ast.Allowed redirs pipes →
      Keeps (FunsAllowed redirs pipes) R (exec env n ast) := by
  intro n
  induction n with
  | zero =>
      intro ast _
      exact keeps_error
  | succ n ih =>
      intro ast hast c c' hc h
      rw [exec] at h
      split_ifs at h
      · cases h
        exact hR.unchanged rfl rfl rfl rfl hc
      · cases ast with
        | null =>
            cases h
            exact hR.unchanged rfl rfl rfl rfl hc
        | caseClause =>
            cases h
            exact hR.unchanged rfl rfl rfl rfl hc
        | aliasDef =>
            cases h
            exact hR.unchanged rfl rfl rfl rfl hc
        | argv p1 => exact execArgv_keeps hR ih p1 c c' hc h
        | list p1 p2 => exact execList_keeps hR ih hast c c' hc h
        | ifThen p1 p2 p3 =>
            obtain ⟨c₁, hcond, h⟩ := bind_eq_ok.mp h
            obtain ⟨hr, hc₁⟩ := execList_keeps hR ih hast.1 c c₁ hc hcond
            split_ifs at h
            · obtain ⟨hr', hc'⟩ := ih p2 hast.2.1 c₁ c' hc₁ h
              exact ⟨hR.trans _ _ _ hr hr', hc'⟩
            · cases h
              exact ⟨hR.behind hr rfl rfl rfl, hc₁⟩
            · obtain ⟨hr', hc'⟩ := ih p3 hast.2.2 c₁ c' hc₁ h
              exact ⟨hR.trans _ _ _ hr hr', hc'⟩
        | redir p1 p2 => exact hredir _ p1 hast.1 (ih p2 hast.2) c c' hc h
        | pipe p1 p2 => exact hpipe hast.1 _ p1 p2 ih hast.2.1 hast.2.2 c c' hc h
        | not p1 =>
            obtain ⟨c₁, hrun, h⟩ := bind_eq_ok.mp h
            obtain ⟨hr, hc₁⟩ := ih p1 hast c c₁ hc hrun
            cases h
            exact ⟨hR.behind hr rfl rfl rfl, hc₁⟩
        | whileLoop p1 p2 =>
            obtain ⟨c₁, hcond, h⟩ := bind_eq_ok.mp h
            obtain ⟨hr, hc₁⟩ := ih p1 hast.1 c c₁ hc hcond
            obtain ⟨hr', hc'⟩ := whileTurns_keeps hR (ih p1 hast.1) (ih p2 hast.2) n 0 c₁ c' hc₁ h
            exact ⟨hR.trans _ _ _ hr hr', hc'⟩
        | untilLoop p1 p2 =>
            obtain ⟨c₁, hcond, h⟩ := bind_eq_ok.mp h
            obtain ⟨hr, hc₁⟩ := ih p1 hast.1 c c₁ hc hcond
            obtain ⟨hr', hc'⟩ := untilTurns_keeps hR (ih p1 hast.1) (ih p2 hast.2) n 0 c₁ c' hc₁ h
            exact ⟨hR.trans _ _ _ hr hr', hc'⟩
        | and p1 p2 =>
            obtain ⟨c₁, hrun, h⟩ := bind_eq_ok.mp h
            obtain ⟨hr, hc₁⟩ := ih p1 hast.1 c c₁ hc hrun
            split_ifs at h
            · obtain ⟨hr', hc'⟩ := ih p2 hast.2 c₁ c' hc₁ h
              exact ⟨hR.trans _ _ _ hr hr', hc'⟩
            · cases h
              exact ⟨hr, hc₁⟩
        | or p1 p2 =>
            obtain ⟨c₁, hrun, h⟩ := bind_eq_ok.mp h
            obtain ⟨hr, hc₁⟩ := ih p1 hast.1 c c₁ hc hrun
            split_ifs at h
            · obtain ⟨hr', hc'⟩ := ih p2 hast.2 c₁ c' hc₁ h
              exact ⟨hR.trans _ _ _ hr hr', hc'⟩
            · cases h
              exact ⟨hr, hc₁⟩
        | assign p1 p2 =>
            obtain ⟨ht, hct⟩ := hR.tick c hc
            obtain ⟨hr, hc'⟩ := ih p2 hast _ c' hct h
            exact ⟨hR.trans _ _ _ ht hr, hc'⟩
        | forLoop p1 p2 p3 => exact execFor_keeps hR (ih p1 hast) p3 c c' hc h
        | funcdef node p1 p2 =>
            have hp2 : p2.Allowed redirs pipes := hast
            cases h
            exact execFuncdef_keeps hR hp2 node p1 hc
        | subshell p1 => exact execSubshell_keeps hR p1 c c' hc h

end Commands

end BrebOS.Shell
