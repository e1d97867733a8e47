import BrebOS.Programs.Shell.Redirections

/-!
# Pipelines

`exec_last_pipe` closes the four ends of the pipes, and `pipe_cleanup` closes them again.  So where
`number_of_pipes` goes back to zero, a descriptor was closed that is not open; and where no such thing happens,
`number_of_pipes` stays what `pipe_init` made it.  Whatever the stages are, no pipeline does what is asked.
-/

namespace BrebOS.Shell

/-! ## What is asked of a pipeline -/

/-- The stages of a pipeline. -/
def stages : Ast → List Ast
  | .pipe p1 p2 => p1 :: stages p2
  | _ => []

/-- What was recorded of the stages at a depth: the stage, what it reads from, and what it writes to. -/
def stagesAt (depth : ℕ) (events : List Event) : List (Ast × Option OpenFile × Option OpenFile) :=
  events.filterMap fun
    | .stage d ast stdin stdout => if d = depth then some (ast, stdin, stdout) else none
    | .badClose _ => none

/-- Each stage writes to a pipe that the next one reads from; the first one reads from `stdin`, and the last one
writes to `stdout`. -/
def Connected (stdin stdout : Option OpenFile) : List (Ast × Option OpenFile × Option OpenFile) → Prop
  | [] => False
  | [(_, i, o)] => i = stdin ∧ o = stdout
  | (_, i, o) :: rest => i = stdin ∧ ∃ p, o = some (.writeEnd p) ∧ Connected (some (.readEnd p)) stdout rest

/-- What a pipeline is to do, if `events` is what was recorded. -/
structure RunsRight (ast : Ast) (c c' : Context) (events : List Event) : Prop where
  recorded : c'.log = c.log ++ events
  once : (stagesAt c.depth events).map (·.1) = stages ast
  connected : Connected (c.table 0) (c.table 1) (stagesAt c.depth events)
  apart : ((stagesAt c.depth events).map (·.2.2)).Nodup
  table : c'.table = c.table
  numberOfPipes : c'.numberOfPipes = 0
  stdinSave : c'.stdinSave = -1
  stdoutSave : c'.stdoutSave = -1
  closes : ∀ fd, .badClose fd ∉ events

/-- The pipeline ends and does what it is to do. -/
def PipelineRight (env : Env) (p1 p2 : Ast) (c : Context) : Prop :=
  ∃ n c' events, execPipe env (exec env n) p1 p2 c = .ok c' ∧ RunsRight (.pipe p1 p2) c c' events

/-! ## What every command keeps -/

/-- While a pipeline is executed it stays so, or a descriptor is closed that is not open. -/
def Stuck (c c' : Context) : Prop :=
  ∃ events, c'.log = c.log ++ events ∧
    (c.numberOfPipes ≠ 0 → c'.numberOfPipes ≠ 0 ∨ ∃ fd, Event.badClose fd ∈ events)

section Stuck

variable {env : Env} {cmd : Context → Result} {sub : Ast → Context → Result} {c c' c'' : Context} {fd : ℤ}

lemma stuck_frame : Frame Stuck := by
  refine ⟨fun c c' _ hpipes hlog => ⟨[], by rw [hlog, List.append_nil], ?_⟩, ?_⟩
  · intro h
    rw [hpipes]
    exact Or.inl h
  · rintro c c' c'' ⟨events, hlog, h⟩ ⟨events', hlog', h'⟩
    refine ⟨events ++ events', by rw [hlog', hlog, List.append_assoc], fun hne => ?_⟩
    rcases h hne with hne' | ⟨fd, hfd⟩
    · rcases h' hne' with hne'' | ⟨fd, hfd⟩
      · exact Or.inl hne''
      · exact Or.inr ⟨fd, List.mem_append_right _ hfd⟩
    · exact Or.inr ⟨fd, List.mem_append_left _ hfd⟩

/-- Everything is allowed. -/
abbrev anyRedir (_ : RedirInfo) : Prop := True

lemma allowed_any (ast : Ast) : ast.Allowed anyRedir True := by
  induction ast with
  | null => trivial
  | argv p1 => trivial
  | caseClause => trivial
  | aliasDef => trivial
  | list p1 p2 ih ih' => exact ⟨ih, ih'⟩
  | whileLoop p1 p2 ih ih' => exact ⟨ih, ih'⟩
  | untilLoop p1 p2 ih ih' => exact ⟨ih, ih'⟩
  | and p1 p2 ih ih' => exact ⟨ih, ih'⟩
  | or p1 p2 ih ih' => exact ⟨ih, ih'⟩
  | ifThen p1 p2 p3 ih ih' ih'' => exact ⟨ih, ih', ih''⟩
  | redir r p2 ih => exact ⟨trivial, ih⟩
  | pipe p1 p2 ih ih' => exact ⟨trivial, ih, ih'⟩
  | not p1 ih => exact ih
  | subshell p1 ih => exact ih
  | forLoop p1 p2 p3 ih => exact ih
  | assign p1 p2 ih => exact ih
  | funcdef node p1 p2 ih => exact ih

lemma funsAllowed_any (c : Context) : FunsAllowed anyRedir True c := fun f _ => allowed_any f.2

/-- A computation that leaves the execution of a pipeline where it is. -/
abbrev KeepsStuck (f : Context → Result) : Prop := Keeps (FunsAllowed anyRedir True) Stuck f

lemma keepsStuck_of {f : Context → Result} (h : ∀ c c', f c = .ok c' → Stuck c c') : KeepsStuck f :=
  fun c c' _ hrun => ⟨h c c' hrun, funsAllowed_any c'⟩

lemma keepsStuck_with {f : Context → Except Stop (ℤ × Context)}
    (h : ∀ c a c', f c = .ok (a, c') → Stuck c c') :
    KeepsWith (FunsAllowed anyRedir True) Stuck f :=
  fun c a c' _ hrun => ⟨h c a c' hrun, funsAllowed_any c'⟩

lemma stuck_of_eq (hlog : c'.log = c.log) (hpipes : c'.numberOfPipes = c.numberOfPipes) : Stuck c c' := by
  refine ⟨[], by rw [hlog, List.append_nil], fun h => ?_⟩
  rw [hpipes]
  exact Or.inl h

lemma stuck_close (fd : ℤ) (c : Context) : Stuck c (c.close fd) := by
  unfold Context.close
  split
  · exact stuck_of_eq rfl rfl
  · exact ⟨[.badClose fd], rfl, fun h => Or.inl h⟩

lemma keeps_close (fd : ℤ) (c : Context) (_ : FunsAllowed anyRedir True c) :
    Stuck c (c.close fd) ∧ FunsAllowed anyRedir True (c.close fd) := ⟨stuck_close fd c, funsAllowed_any _⟩

lemma keeps_dupFd (fd : ℤ) : KeepsWith (FunsAllowed anyRedir True) Stuck (dupFd env fd) := by
  refine keepsStuck_with fun c a c' h => ?_
  rw [dupFd] at h
  dsimp only at h
  split_ifs at h
  · cases h
    exact stuck_of_eq rfl rfl

lemma keeps_dup2 (oldfd newfd : ℤ) : KeepsStuck (dup2_ env oldfd newfd) := by
  refine keepsStuck_of fun c c' h => ?_
  rw [dup2_] at h
  split at h
  · cases h
    exact stuck_of_eq rfl rfl
  · cases h

lemma stuck_openFile (word : Word) (mode : AccessMode) (c : Context) :
    Stuck c (openFile env word mode c).2 := by
  rw [openFile]
  split_ifs
  · exact stuck_of_eq (tick_log c) (tick_numberOfPipes c)
  · exact stuck_of_eq (tick_log c) (tick_numberOfPipes c)

/-! ## Redirections -/

lemma keeps_execSaved (hcmd : KeepsStuck cmd) (file fd : ℤ) : KeepsStuck (execSaved env cmd file fd) := by
  have htrans := stuck_frame.trans
  refine (keeps_dupFd fd).bind htrans fun fdSave => ?_
  refine (keeps_dup2 file fd).bind htrans ?_
  refine (hcmd.after htrans (keeps_close file)).bind htrans ?_
  exact (keeps_dup2 fdSave fd).bind htrans (keeps_ok (keeps_close fdSave))

lemma keeps_openSaved (hcmd : KeepsStuck cmd) (word : Word) (mode : AccessMode) (fd : ℤ) :
    KeepsStuck fun c => execSaved env cmd (openFile env word mode c).1 fd (openFile env word mode c).2 := by
  intro c c' hc h
  obtain ⟨hr, hc'⟩ := keeps_execSaved hcmd _ fd _ c' (funsAllowed_any _) h
  exact ⟨stuck_frame.trans _ _ _ (stuck_openFile word mode c) hr, hc'⟩

lemma keeps_output (hcmd : KeepsStuck cmd) (r : RedirInfo) : KeepsStuck (execRedirOutput env cmd r) :=
  keeps_error.ite (keeps_openSaved hcmd r.word .wronly (getFd r))

lemma keeps_input (hcmd : KeepsStuck cmd) (r : RedirInfo) : KeepsStuck (execRedirInput env cmd r) := by
  have htrans := stuck_frame.trans
  have hput : ∀ file d, KeepsStuck fun c => dup2_ env file (getFd r) c >>=
    fun c => cmd (c.close file) >>= fun c =>
      dup2_ env d (getFd r) c >>= fun c => .ok (c.close (getFd r)) := by
    intro file d
    refine (keeps_dup2 file (getFd r)).bind htrans ?_
    refine (hcmd.after htrans (keeps_close file)).bind htrans ?_
    exact (keeps_dup2 d (getFd r)).bind htrans (keeps_ok (keeps_close (getFd r)))
  intro c c' hc h
  rw [execRedirInput] at h
  dsimp only at h
  split_ifs at h
  · cases h
  · cases h
  · obtain ⟨⟨d, c₁⟩, hdup, h⟩ := bind_eq_ok.mp h
    obtain ⟨hr₁, hc₁⟩ := keeps_dupFd (getFd r) _ d c₁ (funsAllowed_any _) hdup
    obtain ⟨hr₂, hc'⟩ := hput _ d c₁ c' hc₁ h
    exact ⟨htrans _ _ _ (stuck_openFile r.word .rdonly c) (htrans _ _ _ hr₁ hr₂), hc'⟩

lemma keeps_saveFd (fd : ℤ) : KeepsWith (FunsAllowed anyRedir True) Stuck (saveFd env fd) := by
  intro c a c' hc h
  rw [saveFd] at h
  split_ifs at h
  · exact keeps_dupFd fd c a c' hc h
  · cases h
    exact ⟨stuck_of_eq rfl rfl, hc⟩

lemma keeps_duplicate (hcmd : KeepsStuck cmd) (r : RedirInfo) :
    KeepsStuck (execRedirDuplicate env cmd r) := by
  have htrans := stuck_frame.trans
  have hback : ∀ d, KeepsStuck fun c =>
      if d = -1 then .ok (c.close (getFd r)) else dup2_ env d (getFd r) c >>= fun c => .ok (c.close d) := by
    intro d
    exact Keeps.ite (keeps_ok (keeps_close (getFd r)))
      ((keeps_dup2 d (getFd r)).bind htrans (keeps_ok (keeps_close d)))
  have hrest : ∀ d, KeepsStuck fun c => dup2_ env (atoi r.word) (getFd r) c >>= fun c =>
      cmd (c.close (atoi r.word)) >>= fun c =>
        if d = -1 then .ok (c.close (getFd r)) else dup2_ env d (getFd r) c >>=
          fun c => .ok (c.close d) := by
    intro d
    refine (keeps_dup2 (atoi r.word) (getFd r)).bind htrans ?_
    exact (hcmd.after htrans (keeps_close (atoi r.word))).bind htrans (hback d)
  intro c c' hc h
  rw [execRedirDuplicate] at h
  dsimp only at h
  split_ifs at h
  · obtain ⟨⟨d, c₁⟩, hsave, h⟩ := bind_eq_ok.mp h
    obtain ⟨hr, hc₁⟩ := keeps_saveFd (getFd r) c d c₁ hc hsave
    cases h
    exact ⟨htrans _ _ _ hr (stuck_close d c₁), funsAllowed_any _⟩
  · obtain ⟨⟨d, c₁⟩, hsave, h⟩ := bind_eq_ok.mp h
    obtain ⟨hr, hc₁⟩ := keeps_saveFd (getFd r) c d c₁ hc hsave
    by_cases hmode : isFdOpenFor r.type (atoi r.word) c₁ = true
    · simp only [hmode, not_true, if_false] at h
      obtain ⟨hr', hc'⟩ := hrest d c₁ c' hc₁ h
      exact ⟨htrans _ _ _ hr hr', hc'⟩
    · rw [if_pos hmode] at h
      cases h
  · cases h
  · cases h
    exact keeps_close (getFd r) c hc

lemma keeps_redir (hcmd : KeepsStuck cmd) (r : RedirInfo) : KeepsStuck (execRedir env cmd r) := by
  intro c c' hc h
  rw [execRedir] at h
  split at h
  · exact keeps_openSaved hcmd r.word .rdonly (getFd r) c c' hc h
  · exact keeps_duplicate hcmd r c c' hc h
  · exact keeps_duplicate hcmd r c c' hc h
  · exact keeps_output hcmd r c c' hc h
  · exact keeps_output hcmd r c c' hc h
  · exact keeps_output hcmd r c c' hc h
  · exact keeps_input hcmd r c c' hc h

/-! ## Pipelines -/

lemma keeps_newPipe (i : ℕ) : KeepsStuck (newPipe env i) := by
  refine keepsStuck_of fun c c' h => ?_
  rw [newPipe] at h
  dsimp only at h
  split_ifs at h
  · cases h
  · cases h
    exact stuck_of_eq rfl rfl

lemma keeps_saveStdin : KeepsStuck (saveStdin env) := by
  refine (keeps_dupFd 0).bind stuck_frame.trans fun d => keeps_ok fun c _ => ?_
  exact ⟨stuck_of_eq rfl rfl, funsAllowed_any _⟩

lemma keeps_saveStdout : KeepsStuck (saveStdout env) := by
  refine (keeps_dupFd 1).bind stuck_frame.trans fun d => keeps_ok fun c _ => ?_
  exact ⟨stuck_of_eq rfl rfl, funsAllowed_any _⟩

lemma keeps_restoreStdin : KeepsStuck (restoreStdin env) := by
  refine keeps_error.ite ?_
  intro c c' hc h
  obtain ⟨c₁, hdup2, h⟩ := bind_eq_ok.mp h
  obtain ⟨hr, -⟩ := keeps_dup2 c.stdinSave 0 c c₁ hc hdup2
  cases h
  exact ⟨stuck_frame.behind (stuck_frame.trans _ _ _ hr (stuck_close c₁.stdinSave c₁)) rfl rfl rfl,
    funsAllowed_any _⟩

lemma keeps_restoreStdout : KeepsStuck (restoreStdout env) := by
  refine keeps_error.ite ?_
  intro c c' hc h
  obtain ⟨c₁, hdup2, h⟩ := bind_eq_ok.mp h
  obtain ⟨hr, -⟩ := keeps_dup2 c.stdoutSave 1 c c₁ hc hdup2
  cases h
  exact ⟨stuck_frame.behind (stuck_frame.trans _ _ _ hr (stuck_close c₁.stdoutSave c₁)) rfl rfl rfl,
    funsAllowed_any _⟩

/-- The end of `exec_last_pipe`. -/
def closeEnds (c : Context) : Context :=
  let c := c.close (c.pipes 0).rd
  let c := c.close (c.pipes 1).rd
  let c := c.close (c.pipes 0).wr
  c.close (c.pipes 1).wr

lemma stuck_closeEnds (c : Context) : Stuck c (closeEnds c) := by
  have htrans := stuck_frame.trans
  exact htrans _ _ _ (htrans _ _ _ (htrans _ _ _ (stuck_close _ c) (stuck_close _ _)) (stuck_close _ _))
    (stuck_close _ _)

/-! ### The ends are closed twice -/

lemma close_get_self (fd : ℤ) (c : Context) : (c.close fd).table.get fd = none := by
  unfold Context.close
  cases h : c.table.get fd with
  | none =>
      rw [Fds.close, h]
      exact h
  | some f =>
      obtain ⟨i, rfl, hi⟩ := Fds.get_eq_some.mp h
      rw [Fds.close_eq hi, Fds.get_natCast]
      exact Function.update_self ..

lemma close_get_none {fd' : ℤ} (h : c.table.get fd = none) : (c.close fd').table.get fd = none := by
  unfold Context.close
  cases h' : c.table.get fd' with
  | none =>
      rw [Fds.close, h']
      exact h
  | some f =>
      obtain ⟨i, rfl, hi⟩ := Fds.get_eq_some.mp h'
      rw [Fds.close_eq hi]
      show Fds.get fd (Function.update c.table i none) = none
      rw [Fds.get] at h ⊢
      split_ifs with hfd
      · rw [if_pos hfd] at h
        rw [Function.update_apply]
        split_ifs
        · rfl
        · exact h
      · rfl

lemma close_bad (h : c.table.get fd = none) : (c.close fd).log = c.log ++ [.badClose fd] := by
  rw [Context.close, Fds.close, h]

lemma close_pipes (fd : ℤ) (c : Context) : (c.close fd).pipes = c.pipes := by
  unfold Context.close
  split
  · rfl
  · rfl

lemma cleanup_bad (c : Context) : ∃ events, (pipeCleanup (closeEnds c)).log = c.log ++ events ∧
    ∃ fd, Event.badClose fd ∈ events := by
  have htrans := stuck_frame.trans
  set fd := (c.pipes 0).rd with hfd
  have hclosed : (closeEnds c).table.get fd = none :=
    close_get_none (close_get_none (close_get_none (close_get_self fd c)))
  have hpipes : (closeEnds c).pipes = c.pipes := by simp only [closeEnds, close_pipes]
  obtain ⟨before, hbefore, -⟩ := stuck_closeEnds c
  set d := closeEnds c with hd
  set d₁ := d.close (d.pipes 0).rd with hd₁
  set d₂ := d₁.close (d₁.pipes 0).wr with hd₂
  set d₃ := d₂.close (d₂.pipes 1).rd with hd₃
  have hbad : d₁.log = d.log ++ [.badClose fd] := by
    rw [hd₁, hpipes]
    exact close_bad hclosed
  obtain ⟨rest, hrest, -⟩ := htrans _ _ _ (htrans _ _ _ (stuck_close (d₁.pipes 0).wr d₁)
    (stuck_close (d₂.pipes 1).rd d₂)) (stuck_close (d₃.pipes 1).wr d₃)
  refine ⟨before ++ [.badClose fd] ++ rest, ?_, fd, by simp⟩
  show (d₃.close (d₃.pipes 1).wr).log = _
  rw [hrest, hbad, hbefore]
  simp only [List.append_assoc]

section Stages

variable (hsub : ∀ ast, KeepsStuck (sub ast))
include hsub

lemma keeps_runStage (ast : Ast) : KeepsStuck (runStage sub ast) := by
  intro c c' hc h
  obtain ⟨c₁, hrun, h⟩ := bind_eq_ok.mp h
  cases h
  obtain ⟨hr, -⟩ := hsub ast _ c₁ (funsAllowed_any _) hrun
  refine ⟨stuck_frame.behind (stuck_frame.trans _ _ _ ?_ hr) rfl rfl rfl, funsAllowed_any _⟩
  by_cases hstop : c.stopped = true
  · exact ⟨[], by simp [hstop], fun h => Or.inl h⟩
  · exact ⟨[.stage c.depth ast (c.table 0) (c.table 1)], by simp [hstop], fun h => Or.inl h⟩

lemma keeps_nextStage (ast : Ast) :
    KeepsStuck fun c => runStage sub ast { c with pipeIndex := c.pipeIndex + 1 } :=
  (keeps_runStage hsub ast).after stuck_frame.trans fun _ _ => ⟨stuck_of_eq rfl rfl, funsAllowed_any _⟩

lemma keeps_first (p1 p2 : Ast) : KeepsStuck (execFirstPipe env sub p1 p2) := by
  have htrans := stuck_frame.trans
  refine keeps_saveStdout.bind htrans ?_
  intro c c' hc h
  obtain ⟨c₁, hdup2, h⟩ := bind_eq_ok.mp h
  obtain ⟨hr₁, hc₁⟩ := keeps_dup2 _ _ c c₁ hc hdup2
  obtain ⟨c₂, hstage, h⟩ := bind_eq_ok.mp h
  obtain ⟨hr₂, hc₂⟩ := keeps_nextStage hsub p1 c₁ c₂ hc₁ hstage
  obtain ⟨c₃, hrestore, h⟩ := bind_eq_ok.mp h
  obtain ⟨hr₃, hc₃⟩ := keeps_restoreStdout.after htrans (keeps_close (c₂.pipes 0).wr) c₂ c₃ hc₂ hrestore
  obtain ⟨hr₄, hc'⟩ := hsub p2 c₃ c' hc₃ h
  exact ⟨htrans _ _ _ hr₁ (htrans _ _ _ hr₂ (htrans _ _ _ hr₃ hr₄)), hc'⟩

lemma keeps_middle (p1 p2 : Ast) : KeepsStuck (execMiddlePipe env sub p1 p2) := by
  have htrans := stuck_frame.trans
  have hsets : ∀ i o, KeepsStuck fun c => saveStdin env c >>= fun c => saveStdout env c >>= fun c =>
      dup2_ env (c.pipes i).rd 0 c >>= fun c => dup2_ env (c.pipes o).wr 1 c >>= fun c =>
        runStage sub p1 { c with pipeIndex := c.pipeIndex + 1 } >>= fun c => restoreStdin env c >>= fun c =>
          restoreStdout env c >>= fun c =>
            newPipe env i ((c.close (c.pipes i).rd).close ((c.close (c.pipes i).rd).pipes o).wr) >>=
              fun c =>
              sub p2 c := by
    intro i o
    refine keeps_saveStdin.bind htrans (keeps_saveStdout.bind htrans ?_)
    refine (keeps_at (fun a => keeps_dup2 a 0) fun c => (c.pipes i).rd).bind htrans ?_
    refine (keeps_at (fun a => keeps_dup2 a 1) fun c => (c.pipes o).wr).bind htrans ?_
    refine (keeps_nextStage hsub p1).bind htrans ?_
    refine keeps_restoreStdin.bind htrans (keeps_restoreStdout.bind htrans ?_)
    refine Keeps.bind htrans ?_ (hsub p2)
    refine (keeps_newPipe i).after htrans fun c hc => ?_
    exact ⟨htrans _ _ _ (stuck_close _ c) (stuck_close _ _), funsAllowed_any _⟩
  exact fun c c' hc h => hsets _ _ c c' hc h

lemma last_ends {p1 p2 : Ast} (h : execLastPipe env sub p1 p2 c = .ok c') : ∃ c₀, Stuck c c₀ ∧ c' =
    closeEnds c₀ := by
  have htrans := stuck_frame.trans
  obtain ⟨c₁, hsave, h⟩ := bind_eq_ok.mp h
  obtain ⟨hr₁, hc₁⟩ := keeps_saveStdin c c₁ (funsAllowed_any _) hsave
  obtain ⟨c₂, hdup2, h⟩ := bind_eq_ok.mp h
  obtain ⟨hr₂, hc₂⟩ := keeps_dup2 _ _ c₁ c₂ hc₁ hdup2
  obtain ⟨c₃, hstage, h⟩ := bind_eq_ok.mp h
  obtain ⟨hr₃, hc₃⟩ := keeps_runStage hsub p1 c₂ c₃ hc₂ hstage
  obtain ⟨c₄, hrestore, h⟩ := bind_eq_ok.mp h
  obtain ⟨hr₄, hc₄⟩ := keeps_restoreStdin c₃ c₄ hc₃ hrestore
  obtain ⟨c₅, hnext, h⟩ := bind_eq_ok.mp h
  obtain ⟨hr₅, -⟩ := hsub p2 c₄ c₅ hc₄ hnext
  cases h
  exact ⟨c₅, htrans _ _ _ hr₁ (htrans _ _ _ hr₂ (htrans _ _ _ hr₃ (htrans _ _ _ hr₄ hr₅))), rfl⟩

lemma keeps_pipe (p1 p2 : Ast) : KeepsStuck (execPipe env sub p1 p2) := by
  have htrans := stuck_frame.trans
  intro c c' hc h
  rw [execPipe] at h
  split_ifs at h with hfirst hindex hmiddle
  · obtain ⟨c₁, hinit, h⟩ := bind_eq_ok.mp h
    have hkeeps : KeepsStuck fun c => newPipe env 0 c >>= fun c => newPipe env 1 c :=
      (keeps_newPipe 0).bind htrans (keeps_newPipe 1)
    obtain ⟨⟨events, hlog, -⟩, hc₁⟩ := hkeeps _ c₁ (funsAllowed_any _) hinit
    obtain ⟨⟨events', hlog', -⟩, hc'⟩ := keeps_first hsub p1 p2 c₁ c' hc₁ h
    refine ⟨⟨events ++ events', ?_, fun hne => absurd hfirst hne⟩, hc'⟩
    rw [hlog', hlog, List.append_assoc]
  · exact keeps_middle hsub p1 p2 c c' hc h
  · obtain ⟨c₁, hlast, h⟩ := bind_eq_ok.mp h
    cases h
    obtain ⟨c₀, ⟨events, hlog, -⟩, rfl⟩ := last_ends hsub hlast
    obtain ⟨events', hlog', fd, hfd⟩ := cleanup_bad c₀
    refine ⟨⟨events ++ events', ?_, fun _ => Or.inr ⟨fd, List.mem_append_right _ hfd⟩⟩, funsAllowed_any _⟩
    rw [hlog', hlog, List.append_assoc]

end Stages

lemma keeps_exec (n : ℕ) (ast : Ast) : KeepsStuck (exec env n ast) := by
  refine exec_keeps stuck_frame (fun cmd r _ hcmd => keeps_redir hcmd r)
    (fun _ sub p1 p2 hsub _ _ => ?_) n ast
    (allowed_any ast)
  exact keeps_pipe (fun ast => hsub ast (allowed_any ast)) p1 p2

lemma not_runsRight {ast : Ast} {events events' : List Event} (hlog : c'.log = c.log ++ events)
    (h : c'.numberOfPipes ≠ 0 ∨ ∃ fd, Event.badClose fd ∈ events) : ¬ RunsRight ast c c' events' := by
  intro hright
  rcases h with hne | ⟨fd, hfd⟩
  · exact hne hright.numberOfPipes
  · have hsame : events' = events := List.append_cancel_left (hright.recorded.symm.trans hlog)
    rw [← hsame] at hfd
    exact hright.closes fd hfd

end Stuck

/-- **No pipeline of two or more stages does what is asked of it**, whatever the stages are. -/
theorem pipeline_never_right (env : Env) (p1 q1 q2 : Ast) (c : Context) :
    ¬ PipelineRight env p1 (.pipe q1 q2) c := by
  rintro ⟨n, c', events, hrun, hright⟩
  by_cases hfirst : c.numberOfPipes = 0
  · rw [execPipe, if_pos hfirst] at hrun
    obtain ⟨c₁, hinit, hrun⟩ := bind_eq_ok.mp hrun
    have hkeeps : KeepsStuck fun c => newPipe env 0 c >>= fun c => newPipe env 1 c :=
      (keeps_newPipe 0).bind stuck_frame.trans (keeps_newPipe 1)
    obtain ⟨hstart, hc₁⟩ := hkeeps _ c₁ (funsAllowed_any _) hinit
    obtain ⟨hrest, -⟩ := keeps_first (keeps_exec n) p1 (.pipe q1 q2) c₁ c' hc₁ hrun
    obtain ⟨events', hlog, h⟩ := stuck_frame.trans _ _ _ hstart hrest
    have hlog' : c'.log = c.log ++ events' := hlog
    refine not_runsRight hlog' (h ?_) hright
    show pipeNodes (.pipe p1 (.pipe q1 q2)) - 1 ≠ 0
    simp only [pipeNodes]
    omega
  · obtain ⟨⟨events', hlog, h⟩, -⟩ :=
      keeps_pipe (keeps_exec n) p1 (.pipe q1 q2) c c' (funsAllowed_any c) hrun
    exact not_runsRight hlog (h hfirst) hright

/-- The closes that fail. -/
def badCloses (c : Context) : List ℤ :=
  c.log.filterMap fun
    | .badClose fd => some fd
    | .stage .. => none

lemma mem_badCloses {c : Context} {fd : ℤ} (h : fd ∈ badCloses c) : Event.badClose fd ∈ c.log := by
  obtain ⟨e, he, heq⟩ := List.mem_filterMap.mp h
  cases e with
  | badClose fd' =>
      cases heq
      exact he
  | stage depth ast stdin stdout => cases heq

/-- The command `true`. -/
def trueCommand : Ast := .argv [['t', 'r', 'u', 'e']]

lemma two_stages_run :
    ∃ c', execPipe smallEnv (exec smallEnv 3) trueCommand (.pipe trueCommand .null) started = .ok c' ∧
      badCloses c' = [4, 3, 4, 5, 6] := ⟨_, rfl, rfl⟩

/-- `true | true`: the write end of the first pipe is closed three times, and the other ends twice. -/
theorem two_stages_close_twice :
    ∃ c', execPipe smallEnv (exec smallEnv 3) trueCommand (.pipe trueCommand .null) started = .ok c' ∧
      badCloses c' = [4, 3, 4, 5, 6] ∧
      ∀ events, ¬ RunsRight (.pipe trueCommand (.pipe trueCommand .null)) started c' events := by
  obtain ⟨c', hrun, hbad⟩ := two_stages_run
  refine ⟨c', hrun, hbad, fun events => not_runsRight (List.nil_append c'.log).symm (Or.inr ⟨3, ?_⟩)⟩
  apply mem_badCloses
  rw [hbad]
  decide

end BrebOS.Shell
