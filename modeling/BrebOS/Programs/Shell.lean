import BrebOS.Programs.Shell.Fds

/-!
# The execution of commands by the shell

`programs/42sh/execution`: how the shell executes a syntax tree.  `Env` is what the shell asks the world for,
at each moment: what words expand to, how a program ends, whether a file opens, whether a fork succeeds.  A
moment is the number of questions asked before, and those of the process that forked.

The calls are run with fuel, since a `while` may not end.  Variables are left out (they come in through
`Env.expand`), as are the streams that `flush_fd` flushes.  `Shell.log` and `Shell.depth` are not in the source:
they record what the stages of a pipeline are connected to, and which calls of `close` fail.
-/

namespace BrebOS.Shell

/-- A string. -/
abbrev Word := List Char

/-- `token_type` of a redirection. -/
inductive RedirType
  /-- `<>` -/
  | LG
  /-- `>|` -/
  | GO
  /-- `<&` -/
  | LA
  /-- `>&` -/
  | GA
  /-- `>>` -/
  | GG
  /-- `>` -/
  | G
  /-- `<` -/
  | L
  deriving DecidableEq, Repr

/-- `struct redir_info`. -/
structure RedirInfo where
  type : RedirType
  fd : ℤ := -1
  word : Word

/-- `struct ast`; `null` is a null pointer.  A function definition has the number of its node. -/
inductive Ast
  | null
  | argv (p1 : List Word)
  | list (p1 p2 : Ast)
  | ifThen (p1 p2 p3 : Ast)
  | redir (p1 : RedirInfo) (p2 : Ast)
  | pipe (p1 p2 : Ast)
  | not (p1 : Ast)
  | whileLoop (p1 p2 : Ast)
  | untilLoop (p1 p2 : Ast)
  | and (p1 p2 : Ast)
  | or (p1 p2 : Ast)
  | assign (p1 : Word) (p2 : Ast)
  | forLoop (p1 : Ast) (p2 : Word) (p3 : List Word)
  | funcdef (node : ℕ) (p1 : Word) (p2 : Ast)
  | caseClause
  | aliasDef
  | subshell (p1 : Ast)

/-- `enum break_type`. -/
inductive BreakType
  | noBreak
  | break
  | continue
  deriving DecidableEq, Repr

/-- How the execution stops: `errx` and `exit` with a code, undefined behaviour, or no fuel. -/
inductive Stop
  | exit (code : ℤ)
  | undefined
  | fuel
  deriving DecidableEq, Repr

/-- `int pipes[i][2]`. -/
structure PipeFds where
  rd : ℤ := 0
  wr : ℤ := 0

/-- What is recorded: a stage of a pipeline is executed, or a descriptor is closed that is not open. -/
inductive Event
  | stage (depth : ℕ) (ast : Ast) (stdin stdout : Option OpenFile)
  | badClose (fd : ℤ)

/-- `struct context`, and the shell's process. -/
structure Context where
  table : Fds
  lastRv : ℤ := 0
  argv : List Word := []
  pipes : ℕ → PipeFds := fun _ => {}
  pipeIndex : ℕ := 0
  numberOfPipes : ℕ := 0
  stdoutSave : ℤ := 0
  stdinSave : ℤ := 0
  shallExit : Bool := false
  breakType : BreakType := .noBreak
  loopLevel : ℤ := 0
  breakCount : ℤ := 0
  listFunc : List (Word × Ast) := []
  /-- the function definitions whose body has been moved to `list_func` -/
  moved : List ℕ := []
  /-- the number of the next open file description -/
  nextFile : ℕ := 0
  moment : List ℕ := [0]
  log : List Event := []
  depth : ℕ := 0

/-- What the shell asks for. -/
structure Env where
  openMax : ℕ
  expand : List ℕ → List Word → List Word
  /-- the exit status of a program, or of a built-in command that asks the system -/
  run : List ℕ → List Word → ℤ
  opens : List ℕ → Word → Bool
  forks : List ℕ → Bool

/-- The result of a call of the shell. -/
abbrev Result := Except Stop Context

/-- `errx`. -/
def errx (code : ℤ) : Result := .error (.exit code)

namespace Context

/-- A question has been asked. -/
def tick (c : Context) : Context :=
  match c.moment with
  | n :: rest => { c with moment := (n + 1) :: rest }
  | [] => c

/-- `close`. -/
def close (fd : ℤ) (c : Context) : Context :=
  match c.table.close fd with
  | some table => { c with table }
  | none => { c with log := c.log ++ [.badClose fd] }

/-- `exec_switch` returns at once. -/
def stopped (c : Context) : Bool := c.shallExit || c.breakCount != 0

end Context

/-! ## Redirections: `exec_redir.cpp` -/

section Redirections

variable (env : Env)

/-- `dup2_`. -/
def dup2_ (oldfd newfd : ℤ) (c : Context) : Result :=
  match c.table.dup2 env.openMax oldfd newfd with
  | some table => .ok { c with table }
  | none => errx 1

/-- `dup_fd`. -/
def dupFd (fd : ℤ) (c : Context) : Except Stop (ℤ × Context) :=
  match c.table.dup env.openMax fd with
  | (d, table) => if d = -1 then .error (.exit 1) else .ok (d, { c with table })

/-- `open` with a mode. -/
def openFile (word : Word) (mode : AccessMode) (c : Context) : ℤ × Context :=
  if env.opens c.moment word then
    match c.table.alloc env.openMax (.file c.nextFile mode) with
    | (fd, table) => (fd, { c.tick with table, nextFile := c.nextFile + 1 })
  else (-1, c.tick)

/-- `get_default_fd`. -/
def getDefaultFd : RedirType → ℤ
  | .GA | .GO | .GG | .G => 1
  | .LG | .LA | .L => 0

/-- `get_fd`. -/
def getFd (r : RedirInfo) : ℤ := if r.fd = -1 then getDefaultFd r.type else r.fd

/-- The command is executed with `file` in the place of a descriptor, which is saved and restored. -/
def execSaved (cmd : Context → Result) (file fd : ℤ) (c : Context) : Result := do
  let (fdSave, c) ← dupFd env fd c
  let c ← dup2_ env file fd c
  let c ← cmd (c.close file)
  let c ← dup2_ env fdSave fd c
  .ok (c.close fdSave)

/-- `exec_redir_output`: `>`, `>>` and `>|`. -/
def execRedirOutput (cmd : Context → Result) (r : RedirInfo) (c : Context) : Result :=
  let fd := getFd r
  if (c.table.get fd).isNone then errx 1
  else
    let (file, c) := openFile env r.word .wronly c
    execSaved env cmd file fd c

/-- `exec_redir_input`: `<`. -/
def execRedirInput (cmd : Context → Result) (r : RedirInfo) (c : Context) : Result := do
  let fd := getFd r
  if (c.table.get fd).isNone then errx 1
  else
    let (file, c) := openFile env r.word .rdonly c
    if file = -1 then errx 1
    else
      let (fdSave, c) ← dupFd env fd c
      let c ← dup2_ env file fd c
      let c ← cmd (c.close file)
      let c ← dup2_ env fdSave fd c
      .ok (c.close fd)

/-- `is_number`. -/
def isNumber (word : Word) : Bool := word.all Char.isDigit

/-- `atoi` of digits. -/
def atoi (word : Word) : ℤ := word.foldl (fun n d => n * 10 + (d.toNat - 48 : ℕ)) 0

/-- `is_fd_open_for_writing`. -/
def isFdOpenForWriting (fd : ℤ) (c : Context) : Bool :=
  (c.table.get fd).any fun f => f.mode = .wronly ∨ f.mode = .rdwr

/-- `is_fd_open_for_reading`. -/
def isFdOpenForReading (fd : ℤ) (c : Context) : Bool :=
  (c.table.get fd).any fun f => f.mode = .rdonly ∨ f.mode = .rdwr

/-- The descriptor is open in the mode that is needed. -/
def isFdOpenFor (type : RedirType) (fd : ℤ) (c : Context) : Bool :=
  if type = .GA then isFdOpenForWriting fd c else isFdOpenForReading fd c

/-- The copy of a descriptor that is open. -/
def saveFd (fd : ℤ) (c : Context) : Except Stop (ℤ × Context) :=
  if (c.table.get fd).isSome then dupFd env fd c else .ok (-1, c)

/-- `exec_redir_duplicate`: `>&` and `<&`. -/
def execRedirDuplicate (cmd : Context → Result) (r : RedirInfo) (c : Context) : Result :=
  let fd := getFd r
  if isNumber r.word then do
    let (fromFdSave, c) ← saveFd env fd c
    let outFd := atoi r.word
    if outFd = fd then .ok (c.close fromFdSave)
    else if ¬ isFdOpenFor r.type outFd c then errx 1
    else
      let c ← dup2_ env outFd fd c
      let c ← cmd (c.close outFd)
      if fromFdSave = -1 then .ok (c.close fd)
      else
        let c ← dup2_ env fromFdSave fd c
        .ok (c.close fromFdSave)
  else if r.word ≠ ['-'] then errx 1
  else .ok (c.close fd)

/-- `exec_int_out_redir`: `<>`. -/
def execIntOutRedir (cmd : Context → Result) (r : RedirInfo) (c : Context) : Result :=
  let (file, c) := openFile env r.word .rdonly c
  execSaved env cmd file (getFd r) c

/-- `exec_redir`, where `cmd` executes the command. -/
def execRedir (cmd : Context → Result) (r : RedirInfo) (c : Context) : Result :=
  match r.type with
  | .LG => execIntOutRedir env cmd r c
  | .LA | .GA => execRedirDuplicate env cmd r c
  | .GG | .G | .GO => execRedirOutput env cmd r c
  | .L => execRedirInput env cmd r c

end Redirections

/-! ## Pipelines: `exec_pipe.cpp` -/

section Pipelines

variable (env : Env)

/-- The nodes that `get_number_of_pipes` counts; the second pointer of a pipe is another one or null. -/
def pipeNodes : Ast → ℕ
  | .null => 0
  | .pipe _ p2 => pipeNodes p2 + 1
  | _ => 1

/-- `pipe(c->pipes[i])`. -/
def newPipe (i : ℕ) (c : Context) : Result :=
  let n := c.nextFile
  let (rd, table) := c.table.alloc env.openMax (.readEnd n)
  let (wr, table) := Fds.alloc env.openMax (.writeEnd n) table
  if rd = -1 ∨ wr = -1 then errx 1
  else .ok { c with table, nextFile := n + 1, pipes := Function.update c.pipes i ⟨rd, wr⟩ }

/-- `pipe_init`. -/
def pipeInit (ast : Ast) (c : Context) : Result := do
  let c ← newPipe env 0 { c with pipeIndex := 0, numberOfPipes := pipeNodes ast - 1 }
  newPipe env 1 c

/-- `pipe_cleanup`. -/
def pipeCleanup (c : Context) : Context :=
  let c := c.close (c.pipes 0).rd
  let c := c.close (c.pipes 0).wr
  let c := c.close (c.pipes 1).rd
  let c := c.close (c.pipes 1).wr
  { c with numberOfPipes := 0 }

/-- `restore_stdout`. -/
def restoreStdout (c : Context) : Result := do
  if c.stdoutSave = -1 then errx 1
  else
    let c ← dup2_ env c.stdoutSave 1 c
    .ok { c.close c.stdoutSave with stdoutSave := -1 }

/-- `restore_stdin`. -/
def restoreStdin (c : Context) : Result := do
  if c.stdinSave = -1 then errx 1
  else
    let c ← dup2_ env c.stdinSave 0 c
    .ok { c.close c.stdinSave with stdinSave := -1 }

/-- `save_stdin`. -/
def saveStdin (c : Context) : Result := do
  let (stdinSave, c) ← dupFd env 0 c
  .ok { c with stdinSave }

/-- `save_stdout`. -/
def saveStdout (c : Context) : Result := do
  let (stdoutSave, c) ← dupFd env 1 c
  .ok { c with stdoutSave }

/-- A stage is executed, and it is recorded what it reads from and writes to. -/
def runStage (sub : Ast → Context → Result) (ast : Ast) (c : Context) : Result := do
  let log := if c.stopped then c.log else c.log ++ [.stage c.depth ast (c.table 0) (c.table 1)]
  let c' ← sub ast { c with log, depth := c.depth + 1 }
  .ok { c' with depth := c.depth }

/-- `exec_first_pipe`. -/
def execFirstPipe (sub : Ast → Context → Result) (p1 p2 : Ast) (c : Context) : Result := do
  let c ← saveStdout env c
  let c ← dup2_ env (c.pipes 0).wr 1 c
  let c ← runStage sub p1 { c with pipeIndex := c.pipeIndex + 1 }
  let c ← restoreStdout env (c.close (c.pipes 0).wr)
  sub p2 c

/-- `exec_middle_pipe`. -/
def execMiddlePipe (sub : Ast → Context → Result) (p1 p2 : Ast) (c : Context) : Result := do
  let inputPipeSet := (c.pipeIndex - 1) % 2
  let outputPipeSet := (inputPipeSet + 1) % 2
  let c ← saveStdin env c
  let c ← saveStdout env c
  let c ← dup2_ env (c.pipes inputPipeSet).rd 0 c
  let c ← dup2_ env (c.pipes outputPipeSet).wr 1 c
  let c ← runStage sub p1 { c with pipeIndex := c.pipeIndex + 1 }
  let c ← restoreStdin env c
  let c ← restoreStdout env c
  let c := c.close (c.pipes inputPipeSet).rd
  let c := c.close (c.pipes outputPipeSet).wr
  let c ← newPipe env inputPipeSet c
  sub p2 c

/-- `exec_last_pipe`. -/
def execLastPipe (sub : Ast → Context → Result) (p1 p2 : Ast) (c : Context) : Result := do
  let inputPipeSet := (c.pipeIndex - 1) % 2
  let c ← saveStdin env c
  let c ← dup2_ env (c.pipes inputPipeSet).rd 0 c
  let c ← runStage sub p1 c
  let c ← restoreStdin env c
  let c ← sub p2 c
  let c := c.close (c.pipes 0).rd
  let c := c.close (c.pipes 1).rd
  let c := c.close (c.pipes 0).wr
  .ok (c.close (c.pipes 1).wr)

/-- `exec_pipe`; a middle or last stage at index 0 would index `pipes` with −1. -/
def execPipe (sub : Ast → Context → Result) (p1 p2 : Ast) (c : Context) : Result :=
  if c.numberOfPipes = 0 then do
    let c ← pipeInit env (.pipe p1 p2) c
    execFirstPipe env sub p1 p2 c
  else if c.pipeIndex = 0 then .error .undefined
  else if c.pipeIndex < c.numberOfPipes then execMiddlePipe env sub p1 p2 c
  else do
    let c ← execLastPipe env sub p1 p2 c
    .ok (pipeCleanup c)

end Pipelines

/-! ## Simple commands: `exec_argv.cpp` and `builtins` -/

section Commands

variable (env : Env)

/-- The built-in commands. -/
inductive Builtin
  | exit
  | true
  | false
  | echo
  | break
  | continue
  | unset
  | cd
  | pwd
  deriving DecidableEq, Repr

/-- `bi_names`. -/
def biNames : List (Word × Builtin) :=
  [(['e', 'x', 'i', 't'], .exit), (['t', 'r', 'u', 'e'], .true), (['f', 'a', 'l', 's', 'e'], .false),
    (['e', 'c', 'h', 'o'], .echo), (['b', 'r', 'e', 'a', 'k'], .break),
    (['c', 'o', 'n', 't', 'i', 'n', 'u', 'e'], .continue), (['u', 'n', 's', 'e', 't'], .unset),
    (['c', 'd'], .cd), (['p', 'w', 'd'], .pwd)]

/-- `exit_itoa`. -/
def exitItoa (s : Word) : ℤ := atoi (s.takeWhile Char.isDigit)

/-- `bi_break` and `bi_continue`. -/
def biLeave (breakType : BreakType) (args : List Word) (c : Context) : Except Stop (ℤ × Context) :=
  match args.tail with
  | [] => .ok (0, { c with breakCount := 1, breakType })
  | n :: _ => if isNumber n then .ok (0, { c with breakCount := atoi n, breakType }) else .error (.exit 1)

/-- `get_options` of `unset`: what is unset, and the names. -/
def unsetOptions : List Word → Option (Char × List Word)
  | ('-' :: t :: more) :: rest => if (t = 'v' ∨ t = 'f') ∧ more.all (· = t) then some (t, rest) else none
  | ['-'] :: _ => none
  | args => some ('v', args)

/-- `list_func_get_value`: a body, which may be null. -/
def listFuncGetValue (l : List (Word × Ast)) (name : Word) : Ast :=
  ((l.find? (·.1 = name)).map (·.2)).getD .null

/-- `list_func_add`. -/
def listFuncAdd (l : List (Word × Ast)) (name : Word) (body : Ast) : List (Word × Ast) :=
  if l.any (·.1 = name) then l.map fun f => if f.1 = name then (name, body) else f else (name, body) :: l

def isNull : Ast → Bool
  | .null => true
  | _ => false

/-- `bi_unset`; the answer for variables comes from outside. -/
def biUnset (args : List Word) (c : Context) : ℤ × Context :=
  match unsetOptions args.tail with
  | none => (1, c)
  | some (t, names) =>
    if t = 'f' then
      names.foldl (fun (rv, c) name =>
        (if isNull (listFuncGetValue c.listFunc name) then 1 else rv,
          { c with listFunc := c.listFunc.eraseP (·.1 = name) })) (0, c)
    else (env.run c.moment args, c.tick)

/-- A built-in command. -/
def runBuiltin (b : Builtin) (args : List Word) (c : Context) : Except Stop (ℤ × Context) :=
  match b with
  | .exit => .ok ((args.tail.head?.map exitItoa).getD c.lastRv, { c with shallExit := true })
  | .true | .echo => .ok (0, c)
  | .false => .ok (1, c)
  | .break => biLeave .break args c
  | .continue => biLeave .continue args c
  | .unset => .ok (biUnset env args c)
  | .cd | .pwd => .ok (env.run c.moment args, c.tick)

/-- `run_execvp`. -/
def runExecvp (args : List Word) (c : Context) : Except Stop (ℤ × Context) :=
  if env.forks c.moment then .ok (env.run c.moment args, c.tick) else .error (.exit 1)

/-- The function of the name, if there is one: the exit code, or −1, and the arguments. -/
def runFun (sub : Ast → Context → Result) (name : Word) (args : List Word) (c : Context) :
    Except Stop (ℤ × List Word × Context) :=
  let fn := listFuncGetValue c.listFunc name
  if isNull fn then .ok (-1, name :: args, c)
  else do
    let args := c.argv.headD [] :: args
    let c' ← sub fn { c with argv := args }
    .ok (c'.lastRv, args, { c' with argv := c.argv })

/-- A built-in command, if the name is one's: the exit code, or −1. -/
def tryBuiltin (args : List Word) (c : Context) : Except Stop (ℤ × Context) :=
  match (biNames.find? (·.1 = args.headD [])).map (·.2) with
  | some b => runBuiltin env b args c
  | none => .ok (-1, c)

/-- What is neither a function nor built in is a program. -/
def tryExecvp (exitCode : ℤ) (args : List Word) (c : Context) : Except Stop (ℤ × Context) :=
  if exitCode = -1 then runExecvp env args c else .ok (exitCode, c)

/-- `exec_argv`; the name of a command must not be missing. -/
def execArgv (sub : Ast → Context → Result) (argv : List Word) (c : Context) : Result :=
  match env.expand c.moment argv with
  | [] => .error .undefined
  | name :: args => do
    let (exitCode, args, c) ← runFun sub name args c.tick
    if exitCode ≠ -1 then .ok { c with lastRv := exitCode }
    else do
      let (exitCode, c) ← tryBuiltin env args c
      let (exitCode, c) ← tryExecvp env exitCode args c
      .ok { c with lastRv := exitCode }

end Commands

/-! ## Compound commands -/

section Compound

variable (env : Env)

/-- `exec_list`. -/
def execList (sub : Ast → Context → Result) : Ast → Context → Result
  | .null, c => .ok c
  | .list p1 p2, c => do
    let c ← sub p1 c
    execList sub p2 c
  | _, _ => errx 1

/-- The end of a turn of a loop: whether it is left. -/
def leaveLoop (c : Context) : Bool × Context :=
  let c := { c with loopLevel := c.loopLevel - 1 }
  if c.breakCount ≠ 0 then
    let breakCount := if c.loopLevel = 0 then 0 else c.breakCount - 1
    if breakCount ≠ 0 then (true, { c with breakCount })
    else (c.breakType = .break, { c with breakCount, breakType := .noBreak })
  else (false, c)

/-- The loop of `exec_while`. -/
def whileTurns (cond body : Context → Result) : ℕ → ℤ → Context → Result
  | 0, _, _ => .error .fuel
  | n + 1, rv, c =>
    if c.lastRv ≠ 0 then .ok { c with lastRv := rv }
    else do
      let c ← body { c with loopLevel := c.loopLevel + 1 }
      let rv := c.lastRv
      let (leave, c) := leaveLoop c
      if leave then .ok { c with lastRv := rv }
      else
        let c ← cond c
        whileTurns cond body n rv c

/-- The loop of `exec_until`, which does not take over the result of a turn that is left. -/
def untilTurns (cond body : Context → Result) : ℕ → ℤ → Context → Result
  | 0, _, _ => .error .fuel
  | n + 1, rv, c =>
    if c.lastRv = 0 then .ok { c with lastRv := rv }
    else do
      let c ← body { c with loopLevel := c.loopLevel + 1 }
      let (leave, c) := leaveLoop c
      if leave then .ok { c with lastRv := rv }
      else
        let rv := c.lastRv
        let c ← cond c
        untilTurns cond body n rv c

/-- The loop of `exec_for`. -/
def forTurns (body : Context → Result) : List Word → Context → Result
  | [], c => .ok c
  | _ :: values, c => do
    let c ← body { c with loopLevel := c.loopLevel + 1 }
    let (leave, c) := leaveLoop c
    if leave then .ok c else forTurns body values c

/-- `exec_for`. -/
def execFor (sub : Ast → Context → Result) (p1 : Ast) (p3 : List Word) (c : Context) : Result :=
  match env.expand c.moment p3 with
  | [] => .ok { c.tick with lastRv := 0 }
  | values => forTurns (sub p1) values c.tick

/-- `exec_if`. -/
def execIf (sub : Ast → Context → Result) (p1 p2 p3 : Ast) (c : Context) : Result := do
  let c ← execList sub p1 c
  if c.lastRv = 0 then sub p2 c
  else if isNull p3 then .ok { c with lastRv := 0 }
  else sub p3 c

/-- `exec_and`. -/
def execAnd (sub : Ast → Context → Result) (p1 p2 : Ast) (c : Context) : Result := do
  let c ← sub p1 c
  if c.lastRv = 0 then sub p2 c else .ok c

/-- `exec_or`. -/
def execOr (sub : Ast → Context → Result) (p1 p2 : Ast) (c : Context) : Result := do
  let c ← sub p1 c
  if c.lastRv ≠ 0 then sub p2 c else .ok c

/-- `exec_not`. -/
def execNot (sub : Ast → Context → Result) (p1 : Ast) (c : Context) : Result := do
  let c ← sub p1 c
  .ok { c with lastRv := if c.lastRv = 1 then 0 else 1 }

/-- `check_name`: one word that is a name. -/
def checkName : List Word → Option Word
  | [name] =>
    let start (ch : Char) : Bool := ch.isAlpha || ch = '_'
    if name.all (fun ch => start ch || ch.isDigit) ∧ (name.head?.all start) then some name else none
  | _ => none

/-- `exec_funcdef`: the body is moved out of the tree. -/
def execFuncdef (node : ℕ) (p1 : Word) (p2 : Ast) (c : Context) : Context :=
  match checkName (env.expand c.moment [p1]) with
  | none => { c.tick with lastRv := 1 }
  | some name =>
    let body := if node ∈ c.moved then .null else p2
    { c.tick with listFunc := listFuncAdd c.listFunc name body, moved := node :: c.moved, lastRv := 0 }

/-- `exec_subshell`: the child works on copies. -/
def execSubshell (sub : Ast → Context → Result) (p1 : Ast) (c : Context) : Result :=
  if ¬ env.forks c.moment then errx 1
  else
    match sub p1 { c with moment := 0 :: c.moment } with
    | .ok child => .ok { c.tick with lastRv := child.lastRv % 256 }
    | .error (.exit code) => .ok { c.tick with lastRv := code % 256 }
    | .error e => .error e

/-- What `exec_switch` calls. -/
def dispatch (sub : Ast → Context → Result) (n : ℕ) : Ast → Context → Result
  | .null, c => .ok c
  | .argv p1, c => execArgv env sub p1 c
  | .list p1 p2, c => execList sub (.list p1 p2) c
  | .ifThen p1 p2 p3, c => execIf sub p1 p2 p3 c
  | .redir p1 p2, c => execRedir env (sub p2) p1 c
  | .pipe p1 p2, c => execPipe env sub p1 p2 c
  | .not p1, c => execNot sub p1 c
  | .whileLoop p1 p2, c => do
    let c ← sub p1 c
    whileTurns (sub p1) (sub p2) n 0 c
  | .untilLoop p1 p2, c => do
    let c ← sub p1 c
    untilTurns (sub p1) (sub p2) n 0 c
  | .and p1 p2, c => execAnd sub p1 p2 c
  | .or p1 p2, c => execOr sub p1 p2 c
  | .assign _ p2, c => sub p2 c.tick
  | .forLoop p1 _ p3, c => execFor env sub p1 p3 c
  | .funcdef node p1 p2, c => .ok (execFuncdef env node p1 p2 c)
  | .caseClause, c => .ok c
  | .aliasDef, c => .ok c
  | .subshell p1, c => execSubshell env sub p1 c

/-- `exec_switch`. -/
def exec : ℕ → Ast → Context → Result
  | 0, _, _ => .error .fuel
  | n + 1, ast, c => if c.stopped then .ok c else dispatch env (exec n) n ast c

/-- The loop of `main`: each input is executed as a list. -/
def runInputs (n : ℕ) (inputs : List Ast) (c : Context) : Result :=
  inputs.foldlM (fun c ast => execList (exec env n) ast c) c

end Compound

end BrebOS.Shell
