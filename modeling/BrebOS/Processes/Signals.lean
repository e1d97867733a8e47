import BrebOS.Core.Defs
import BrebOS.Lib.Loop
import BrebOS.Lib.Run

/-!
# Signals

The signal calls of `process.cpp`, and `Scheduler::signal_handling`, which starts a handler when a
process goes back to its program.

A signal comes between two instructions of the program: its registers are kept on a stack of contexts
with the mask of the handler that runs, and `sigreturn` takes them from there.  At the bottom of the
stack is the context the process is made with, whose registers nobody uses and whose mask is that of the
program.

The numbers that the C library gives to flags and signals are those of its Linux interface.  Pointers of
the program are not null, except where the code asks.
-/

namespace BrebOS

/-- `HIGHEST_SIGNAL`. -/
def highestSignal : ℕ := 12

/-- `MAX_CONCURRENT_SIGNAL_HANDLERS`. -/
def maxConcurrentSignalHandlers : ℕ := 10

/-- `SIGQUIT`. -/
def sigquit : ℕ := 3

/-- `SIGCANCEL`. -/
def sigcancel : ℤ := 33

/-- `EFAULT`. -/
def efault : ℤ := 14

/-- `cpu_state_t`. -/
structure CpuState where
  eax : ℕ := 0
  ebx : ℕ := 0
  ecx : ℕ := 0
  edx : ℕ := 0
  esi : ℕ := 0
  edi : ℕ := 0
  ebp : ℕ := 0
  deriving DecidableEq, Repr

/-- `stack_state_t`. -/
structure StackState where
  errorCode : ℕ := 0
  eip : ℕ := 0
  cs : ℕ := 0
  eflags : ℕ := 0
  esp : ℕ := 0
  ss : ℕ := 0
  deriving DecidableEq, Repr

/-- `sigset_t`. -/
abbrev SigSet := BitVec 1024

/-- `__sighandler`. -/
inductive SigHandler
  /-- `SIG_DFL`. -/
  | dfl
  /-- `SIG_IGN`. -/
  | ign
  | call (addr : ℕ)
  deriving DecidableEq, Repr

/-- The pointer that stands for a handler. -/
def SigHandler.addr : SigHandler → ℕ
  | .dfl => 0
  | .ign => 1
  | .call addr => addr

/-- `struct sigaction`. -/
structure SigAction where
  saHandler : SigHandler
  saMask : SigSet := 0
  saFlags : BitVec 32 := 0
  saRestorer : ℕ := 0
  deriving DecidableEq, Repr

/-- `SA_RESTORER`. -/
def saRestorer : BitVec 32 := 0x04000000

/-- The values of `SIGDISP_*`. -/
inductive SigDisp
  | term
  | ign
  | core
  | stop
  | cont
  | hldr
  deriving DecidableEq, Repr

/-- `Process::signal_default_action`, as `Process::init` leaves it. -/
def signalDefaultAction (signal : ℕ) : SigDisp :=
  if signal ∈ [3, 4, 5, 6, 7, 8, 11] then .core else .term

/-- `Process::signal_ctx`. -/
structure SignalCtx where
  cpuState : CpuState := {}
  stackState : StackState := {}
  blockedMask : SigSet := 0
  deriving DecidableEq, Repr

/-- The fields of `Process` the signal calls work with, and the words of its stack. -/
structure SignalState where
  cpuState : CpuState := {}
  stackState : StackState := {}
  signalAction : ℕ → SigHandler := fun _ => .dfl
  oldact : ℕ → Option SigAction := fun _ => none
  pendingSignals : SigSet := 0
  /-- `signals_contexts`, the top first. -/
  signalsContexts : List SignalCtx := [{}]
  words : ℕ → ℕ := fun _ => 0
  /-- The signal that has ended the process. -/
  endedBy : Option ℕ := none

/-- What the first argument of `sigprocmask` asks for. -/
inductive SigHow
  | block
  | unblock
  | setmask
  | unknown
  deriving DecidableEq, Repr

/-- The bit of a signal.  The number of signal 0 is -1, and shifts are taken modulo 32. -/
def sigBit : ℕ → ℕ
  | 0 => 31
  | signal + 1 => signal

/-- A `uint` that holds an `int`. -/
def u32OfInt (x : ℤ) : ℕ := (x % 4294967296).toNat

namespace SignalState

variable (p : SignalState)

def setEax (x : ℤ) : SignalState := { p with cpuState := { p.cpuState with eax := u32OfInt x } }

/-! ## Sending -/

/-- Whether a signal ends the process when it is sent. -/
def EndsOn (signal : ℕ) : Prop :=
  p.signalAction signal = .dfl ∧
    (signalDefaultAction signal = .core ∨ signalDefaultAction signal = .term)

instance decidableEndsOn (signal : ℕ) : Decidable (p.EndsOn signal) :=
  inferInstanceAs (Decidable (_ ∧ _))

/-- The second part of `Process::kill`.  For signal 0 the word that holds its bit is far outside the
set. -/
def send (signal : ℕ) : Except Fault SignalState :=
  if p.EndsOn signal then .ok { p with endedBy := some signal }
  else if signal = 0 then .error .outOfBounds
  else .ok { p with pendingSignals := p.pendingSignals ||| BitVec.twoPow 1024 (sigBit signal) }

/-- `Process::kill`. -/
def kill (signal : ℤ) : Except Fault (ℤ × SignalState) :=
  if signal = sigcancel then do
    let p ← p.send sigquit
    .ok (-1, p)
  else if signal > highestSignal then .ok (-einval, p)
  else if signal < 0 then .error .outOfBounds
  else do
    let p ← p.send signal.toNat
    .ok (0, p)

/-! ## Handlers -/

/-- `Process::register_signal_handler`. -/
def registerSignalHandler (signal : ℤ) (handler : SigHandler) : Except Fault (SigHandler × SignalState) :=
  if signal < 0 ∨ signal > highestSignal then .error .outOfBounds
  else .ok (p.signalAction signal.toNat,
    { p with signalAction := Function.update p.signalAction signal.toNat handler })

/-- `Process::sigaction`; `oldNull` says that `old_act` is null.  Nothing is mapped at address 0. -/
def sigaction (signum : ℤ) (act : SigAction) (oldNull : Bool) : Except Fault (ℤ × SignalState) :=
  if signum > highestSignal then
    if signum = sigcancel then
      if ¬ oldNull then
        .error (.irrecoverableError "%s: SIGCANCEL with non-null old_act is not supported")
      else .ok (0, p)
    else .ok (-einval, p)
  else if act.saFlags &&& ~~~saRestorer ≠ 0 then .ok (-einval, p)
  else if act.saMask ≠ 0 then .ok (-einval, p)
  else do
    let (prev, p) ← p.registerSignalHandler signum act.saHandler
    -- a handler in the upper half of memory looks like an error
    if 2147483648 ≤ prev.addr then .ok ((prev.addr : ℤ) - 4294967296, p)
    else if oldNull then .error .killed
    else .ok (0, { p with oldact := Function.update p.oldact signum.toNat (some act) })

/-- `Process::sigprogmask`: its answer, and what it stores at `oldset`. -/
def sigprogmask (how : SigHow) (set : Option SigSet) :
    Except Fault (ℤ × Option SigSet × SignalState) :=
  match p.signalsContexts with
  | [] => .error (.irrecoverableError "sigprocmask: no current signal context")
  | context :: rest =>
    let setMask (mask : SigSet) : SignalState :=
      { p with signalsContexts := { context with blockedMask := mask } :: rest }
    match how, set with
    | .unknown, _ => .ok (-einval, none, p)
    | _, none => .ok (-efault, none, p)
    -- the old mask is read after the new one is stored
    | .setmask, some set => .ok (0, some set, setMask set)
    | .block, some set => .ok (0, some context.blockedMask, setMask (context.blockedMask ||| set))
    | .unblock, some set => .ok (0, some context.blockedMask, setMask (context.blockedMask &&& ~~~set))

/-! ## Delivery -/

/-- `Process::signal_context_save`, and whether it comes back: a process that has no room for the context
is sent `SIGQUIT`. -/
def signalContextSave (signal : ℕ) : Except Fault (Bool × SignalState) :=
  match p.oldact signal with
  | none => .error .outOfBounds
  | some act =>
    if p.signalsContexts.length = maxConcurrentSignalHandlers then
      (p.send sigquit).map fun q => (decide (¬ p.EndsOn sigquit), q)
    else .ok (true, { p with
      signalsContexts := ⟨p.cpuState, p.stackState, act.saMask⟩ :: p.signalsContexts })

/-- `Process::signal_context_restore`. -/
def signalContextRestore : Except Fault SignalState :=
  match p.signalsContexts with
  | [] => .error (.irrecoverableError "%s: no signal context to restore")
  | context :: rest => .ok { p with
      signalsContexts := rest
      cpuState := context.cpuState
      stackState := context.stackState }

/-- The registers and the stack with which a handler starts. -/
def enterHandler (signal addr restorer : ℕ) : SignalState :=
  let esp := u32Sub (p.stackState.esp / 4 * 4) 8
  { p with
    stackState := { p.stackState with esp := esp, eip := addr }
    words := Function.update (Function.update p.words esp restorer) (u32 (esp + 4)) signal
    pendingSignals := p.pendingSignals &&& ~~~BitVec.twoPow 1024 (sigBit signal) }

/-- The end of a turn of the loop of `signal_handling`, and whether the handler starts. -/
def deliver (signal addr : ℕ) : Except Fault (Option ℕ × SignalState) := do
  let (back, p) ← p.signalContextSave signal
  if ¬ back then .ok (none, p)
  else
    match p.oldact signal with
    | none => .error .outOfBounds
    | some act =>
      if act.saFlags &&& saRestorer = 0 then .error (.irrecoverableError
        "%s: trying to return from a signal which did not provide a return address")
      else .ok (some signal, p.enterHandler signal addr act.saRestorer)

/-- The loop of `signal_handling`. -/
def handleSignals (blockedSignals : SigSet) : List ℕ → Except Fault (Option ℕ × SignalState)
  | [] => .ok (none, p)
  | signal :: rest =>
    if ¬ p.pendingSignals.getLsbD (sigBit signal) ∨ blockedSignals.getLsbD (sigBit signal) then
      handleSignals blockedSignals rest
    else
      match p.signalAction signal with
      | .ign => handleSignals blockedSignals rest
      | .dfl =>
        match signalDefaultAction signal with
        | .ign => handleSignals blockedSignals rest
        | .core | .term => .error (.irrecoverableError
            "%s: signal %d is about to sent. Its disposition is CORE or TERM. Signalshouldn't have arrived up here, as CORE or TERM should have been performed onprogram registration")
        | .stop | .cont => .error (.irrecoverableError
            "%s: signal %d is about to be sent. Its disposition is STOP or CONT,this is not supported yet")
        | .hldr => .error (.irrecoverableError
            "%s: signal %d is about to be sent. Its disposition is %d, which isnot among expected values")
      | .call addr => p.deliver signal addr

/-- `Scheduler::signal_handling`, and the signal whose handler starts. -/
def signalHandling : Except Fault (Option ℕ × SignalState) :=
  match p.signalsContexts with
  | [] => .error (.irrecoverableError "%s: process blocked signals stack is empty")
  | context :: _ => p.handleSignals context.blockedMask (List.range (highestSignal + 1))

end SignalState

/-! ## Runs -/

/-- A step of a process as far as its signals go. -/
inductive SigOp
  /-- The program is interrupted, and its registers are saved. -/
  | enter (cpuState : CpuState) (stackState : StackState)
  /-- Another process sends a signal. -/
  | sent (signal : ℤ)
  /-- The process sends itself a signal. -/
  | kill (signal : ℤ)
  | signal (signum : ℤ) (handler : SigHandler)
  | sigaction (signum : ℤ) (act : SigAction) (oldNull : Bool)
  | sigprocmask (how : SigHow) (set : Option SigSet)
  | sigreturn
  /-- `Scheduler::resume_user_process`. -/
  | resume
  deriving DecidableEq, Repr

namespace SignalState

def step (p : SignalState) : SigOp → Except Fault SignalState
  | .enter cpuState stackState => .ok { p with cpuState, stackState }
  | .sent signal => (p.kill signal).map Prod.snd
  | .kill signal => (p.kill signal).map fun r => r.2.setEax r.1
  | .signal signum handler =>
      (p.registerSignalHandler signum handler).map fun r => r.2.setEax r.1.addr
  | .sigaction signum act oldNull => (p.sigaction signum act oldNull).map fun r => r.2.setEax r.1
  | .sigprocmask how set => (p.sigprogmask how set).map fun r => r.2.2.setEax r.1
  | .sigreturn => p.signalContextRestore
  | .resume => p.signalHandling.map Prod.snd

end SignalState

end BrebOS
