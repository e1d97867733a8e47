import BrebOS.Processes.Descriptors
import BrebOS.Utils.MinHeap

/-!
# The scheduler

`processes/scheduler.cpp`, with the calls of `process.cpp` and `syscalls.cpp` that start, block, end
and wait for processes.

A call that blocks has two parts: it sets a flag and registers the process, and then raises the timer
interrupt, in which the scheduler takes the process off the ready queue.  The two are two steps here,
and keys may be pressed in between.  The loop of `get_next_process` is a step for each of its turns.

`exec_replacement` of a process is a table beside the processes.  Which pipe ends `pre_free` closes is
given with the step (`Descriptors` says which they are).  `P_SYSCALL_INTERRUPTED`, by which a process
goes on in the kernel or in its program, is not modelled.
-/

namespace BrebOS

/-- The bits of `Process::flags`. -/
structure ProcessFlags where
  terminated : Bool := false
  waitingKey : Bool := false
  waitingProcess : Bool := false
  zombie : Bool := false
  sleeping : Bool := false
  exec : Bool := false
  waitingRead : Bool := false
  deriving DecidableEq, Repr

/-- The fields of `Process` the scheduler works with, and the words of user memory `waitpid` writes. -/
structure Pcb where
  ppid : ℕ
  flags : ProcessFlags := {}
  priority : ℕ := 1
  quantum : ℕ := 0
  retStatus : ℤ := 0
  isPreFreed : Bool := false
  /-- `cpu_state.eax`: what the last system call returned. -/
  eax : ℤ := 0
  /-- `cpu_state.esi`: the second argument of the last system call. -/
  esi : ℕ := 0
  isWaitingForAnyChildToTerminate : Bool := false
  isWaitedByParent : Bool := false
  children : List ℕ := []
  valuesToWrite : List (ℕ × ℤ) := []
  words : ℕ → ℤ := fun _ => 0

/-- `Scheduler::asleep_process`. -/
structure AsleepProcess where
  process : ℕ
  endTick : ℕ
  deriving DecidableEq, Repr

instance AsleepProcess.instLT : LT AsleepProcess := ⟨fun a b => a.endTick < b.endTick⟩

instance AsleepProcess.decidableLT : DecidableLT AsleepProcess :=
  fun a b => inferInstanceAs (Decidable (a.endTick < b.endTick))

/-- What the processor does between two steps. -/
inductive Cpu
  /-- A process runs. -/
  | user
  /-- A call is about to raise the timer interrupt. -/
  | trigger
  /-- In the loop of `get_next_process`. -/
  | scheduling
  | halted
  /-- `System::shutdown`. -/
  | off
  deriving DecidableEq, Repr

/-- The state of the scheduler. -/
structure Scheduler where
  /-- The bits of `pid_pool`. -/
  pidPool : ℕ → Bool := fun _ => false
  processes : ℕ → Option Pcb := fun _ => none
  /-- `exec_replacement` of each process. -/
  execReplacement : ℕ → Option Pcb := fun _ => none
  readyQueue : List ℕ := []
  /-- `waiting_queue`: who waits for a key. -/
  waitingQueue : List ℕ := []
  sleepingProcesses : MinHeap AsleepProcess := { capacity := maxProcesses }
  processesWaitingForRead : List ProcWaitingForRead := []
  /-- `running_process`; none is `MAX_PROCESSES`. -/
  runningProcess : Option ℕ := none
  ticks : ℕ := 0
  cpu : Cpu := .user
  /-- `stop_kernel_init_process` has been called. -/
  initStopped : Bool := false

/-- A call of `wake_up_read_waiting_processes`, and what `should_wait_for_data_on_read` of the read end
answers. -/
structure ReadWake where
  writeFd : ℕ
  count : ℕ
  shouldWait : Bool
  deriving DecidableEq, Repr

/-- `CLOCK_TICK_MS`. -/
def clockTickMs : ℕ := 10

/-- `SIGSEGV`. -/
def sigsegv : ℕ := 11

/-- `ECHILD`. -/
def echild : ℤ := 10

/-- `ESRCH`. -/
def esrch : ℤ := 3

/-- `RESET_QUANTUM`. -/
def Pcb.resetQuantum (p : Pcb) : Pcb := { p with quantum := p.priority * clockTickMs }

/-- `Process::terminate_with_value`. -/
def Pcb.terminateWithValue (retVal : ℤ) (p : Pcb) : Pcb :=
  { p with flags := { p.flags with terminated := true }, retStatus := retVal % 256 * 256 }

/-- `Process::terminate_with_signal`. -/
def Pcb.terminateWithSignal (retSig : ℕ) (p : Pcb) : Pcb :=
  { p with flags := { p.flags with terminated := true }, retStatus := retSig % 128 }

/-- The loop of `resume_process` over `values_to_write`. -/
def Pcb.writeValues (p : Pcb) : Pcb :=
  { p with
    words := p.valuesToWrite.foldl (fun w v => Function.update w v.1 v.2) p.words
    valuesToWrite := [] }

/-- A process that is chosen to run. -/
def Pcb.resumed (p : Pcb) : Pcb := { p with quantum := p.quantum - clockTickMs }.writeValues

/-- The child `fork` makes of a process. -/
def Pcb.forked (pid : ℕ) (p : Pcb) : Pcb :=
  { ppid := pid, flags := p.flags, priority := p.priority, esi := p.esi, words := p.words }

/-- What `execve_transfer` hands over to the process that is loaded. -/
def Pcb.transferred (p : Pcb) : Pcb where
  ppid := p.ppid
  flags := p.flags
  children := p.children
  valuesToWrite := p.valuesToWrite
  isWaitingForAnyChildToTerminate := p.isWaitingForAnyChildToTerminate
  isWaitedByParent := p.isWaitedByParent

namespace Scheduler

/-- `processes[pid]`, where the code goes on to use it. -/
def proc (pid : ℕ) (s : Scheduler) : Except Fault Pcb :=
  match s.processes pid with
  | none => .error .outOfBounds
  | some p => .ok p

def modify (pid : ℕ) (f : Pcb → Pcb) (s : Scheduler) : Scheduler :=
  { s with processes := Function.update s.processes pid ((s.processes pid).map f) }

/-- `queue::enqueue`: nothing happens when the queue is full. -/
def enqueue (q : List ℕ) (pid : ℕ) : List ℕ := if q.length = maxProcesses then q else q ++ [pid]

def setReadyQueue (q : List ℕ) (s : Scheduler) : Scheduler := { s with readyQueue := q }

def enqueueReady (pid : ℕ) (s : Scheduler) : Scheduler :=
  s.setReadyQueue (enqueue s.readyQueue pid)

/-- What every wake-up does: the process goes to the ready queue, and its flag is cleared. -/
def wakeUp (pid : ℕ) (clear : Pcb → Pcb) (s : Scheduler) : Except Fault Scheduler := do
  let _ ← s.proc pid
  .ok ((s.enqueueReady pid).modify pid clear)

/-! ## Pids -/

/-- `Scheduler::get_free_pid`; none is `MAX_PROCESSES`. -/
def getFreePid (s : Scheduler) : Option ℕ × Scheduler :=
  match (List.range maxProcesses).find? fun i => !s.pidPool i with
  | none => (none, s)
  | some pid => (some pid, { s with pidPool := Function.update s.pidPool pid true })

/-- `Scheduler::release_pid`. -/
def releasePid (pid : ℕ) (s : Scheduler) : Scheduler :=
  { s with pidPool := Function.update s.pidPool pid false }

/-- `Scheduler::set_process_ready` of a new process. -/
def setProcessReady (pid : ℕ) (p : Pcb) (s : Scheduler) : Scheduler :=
  { s.enqueueReady pid with processes := Function.update s.processes pid (some p.resetQuantum) }

/-! ## Pipes -/

/-- A turn of the first loop of `wake_up_read_waiting_processes`: the entry with the bytes counted, and
whether it is resumed. -/
def countBytes (w : ReadWake) (e : ProcWaitingForRead) : ProcWaitingForRead × Bool :=
  if e.fd ≠ w.writeFd then (e, false)
  else
    let e := { e with readSoFar := e.readSoFar + min (e.request - e.readSoFar) w.count }
    (e, e.readSoFar = e.request || !w.shouldWait)

/-- A turn of the second loop: `remove` takes out the first entry with the process and the file of the
one given. -/
def resumeReader (s : Scheduler) (e : ProcWaitingForRead) : Except Fault Scheduler :=
  { s with processesWaitingForRead :=
      s.processesWaitingForRead.eraseP fun x => x.pid = e.pid ∧ x.fd = e.fd }.wakeUp e.pid
    fun p => { p with flags := { p.flags with waitingRead := false } }

/-- `Scheduler::wake_up_read_waiting_processes`. -/
def wakeUpReadWaitingProcesses (s : Scheduler) (w : ReadWake) : Except Fault Scheduler :=
  let counted := s.processesWaitingForRead.map (countBytes w)
  let s := { s with processesWaitingForRead := counted.map Prod.fst }
  ((counted.filter Prod.snd).map Prod.fst).foldlM resumeReader s

/-! ## The end of a process -/

/-- `Process::pre_free`, where closing the descriptors wakes readers. -/
def preFree (pid : ℕ) (p : Pcb) (wakes : List ReadWake) (s : Scheduler) : Except Fault Scheduler :=
  if p.isPreFreed then .ok s
  else do
    let s ← wakes.foldlM wakeUpReadWaitingProcesses s
    if p.children ≠ [] ∧ ¬ p.flags.exec then
      .error (.irrecoverableError "Freeing a process that has children")
    else .ok (s.modify pid fun p => { p with isPreFreed := true })

/-- `Scheduler::wake_up_process_parent`. -/
def wakeUpProcessParent (pid : ℕ) (s : Scheduler) : Except Fault Scheduler := do
  let p ← s.proc pid
  let waiting ← s.proc p.ppid
  let s := if s.runningProcess ≠ some p.ppid then s.enqueueReady p.ppid else s
  .ok (s.modify p.ppid fun _ => { waiting with
    valuesToWrite := if waiting.esi ≠ 0 then waiting.valuesToWrite ++ [(waiting.esi, p.retStatus)]
      else waiting.valuesToWrite
    flags := { waiting.flags with waitingProcess := false }
    eax := pid
    children := waiting.children.erase pid })

/-- A turn of the loop that makes the children orphans. -/
def orphan (s : Scheduler) (child : ℕ) : Except Fault Scheduler := do
  let _ ← s.proc child
  .ok (s.modify child fun c => { c with ppid := child })

/-- Whether the parent waits for a process. -/
def parentWaits (p : Pcb) (s : Scheduler) : Except Fault Bool :=
  if p.isWaitedByParent then .ok true
  else (s.proc p.ppid).map Pcb.isWaitingForAnyChildToTerminate

/-- The parent of a process that ends is told, when it waits. -/
def tellParent (pid : ℕ) (s : Scheduler) : Except Fault Scheduler := do
  let p ← s.proc pid
  let waits ← s.parentWaits p
  if waits then do
    let s ← s.wakeUpProcessParent pid
    let s := s.modify p.ppid fun q => { q with isWaitingForAnyChildToTerminate := false }
    .ok (s.modify pid fun p => { p with isWaitedByParent := false })
  else .ok s

/-- `Scheduler::free_terminated_process`, with the destructor of `Process`. -/
def freeTerminatedProcess (pid : ℕ) (wakes : List ReadWake) (s : Scheduler) :
    Except Fault Scheduler := do
  let p ← s.proc pid
  if ¬ p.flags.terminated ∧ ¬ p.flags.zombie then
    .error (.irrecoverableError "Trying to free a process which is not terminated. PID: %d, flags: %d")
  else if p.flags.exec then s.preFree pid p wakes
  else do
    let s ← s.tellParent pid
    let children := (← s.proc pid).children
    let s ← children.foldlM orphan s
    let s := s.releasePid pid
    let s := { s with processes := Function.update s.processes pid none }
    s.preFree pid { p with children := [] } wakes

/-- `Scheduler::relinquish_first_ready_process`; `pid` is the first of the ready queue. -/
def relinquishFirstReadyProcess (pid : ℕ) (wakes : List ReadWake) (s : Scheduler) :
    Except Fault Scheduler := do
  let p ← s.proc pid
  -- an `execve` leaves its place in the queue to the replacement
  let s := if p.flags.exec then s else s.setReadyQueue s.readyQueue.tail
  if p.ppid = pid then s.freeTerminatedProcess pid wakes
  else do
    let parent ← s.proc p.ppid
    if ¬ parent.isWaitingForAnyChildToTerminate ∧ ¬ p.isWaitedByParent ∧ ¬ p.flags.exec then do
      let s := s.modify pid fun p => { p with flags := { p.flags with zombie := true } }
      s.preFree pid p wakes
    else s.freeTerminatedProcess pid wakes

/-! ## The timer interrupt -/

/-- `Scheduler::check_for_processes_to_wake_up`, at most `fuel` times. -/
def checkForProcessesToWakeUp (s : Scheduler) : ℕ → Except Fault Scheduler
  | 0 => .ok s
  | fuel + 1 =>
    match s.sleepingProcesses.min? with
    | none => .ok s
    | some a =>
      if a.endTick ≤ s.ticks then do
        let s ← { s with sleepingProcesses := s.sleepingProcesses.deleteMin }.wakeUp a.process
          fun p => { p with flags := { p.flags with sleeping := false } }
        s.checkForProcessesToWakeUp fuel
      else .ok s

/-- `Interrupts::interrupt_timer`, up to the loop of `get_next_process`. -/
def interruptTimer (s : Scheduler) : Except Fault Scheduler := do
  let s := { s with ticks := u32 (s.ticks + 1) }
  let s ← s.checkForProcessesToWakeUp s.sleepingProcesses.elements.length
  .ok { s with runningProcess := none, cpu := .scheduling }

/-- `Scheduler::schedule` when there is nothing to run. -/
def noProcess (s : Scheduler) : Scheduler :=
  if s.waitingQueue = [] ∧ s.sleepingProcesses.elements = [] then { s with cpu := .off }
  else { s with runningProcess := none, cpu := .halted }

/-- The first process of the ready queue may run: it does if it has time left, and goes to the end of
the queue otherwise. -/
def runFirst (pid : ℕ) (p : Pcb) (s : Scheduler) : Scheduler :=
  if p.quantum ≠ 0 then
    { s with
      processes := Function.update s.processes pid (some p.resumed)
      cpu := .user }
  else
    { s with
      readyQueue := enqueue s.readyQueue.tail pid
      processes := Function.update s.processes pid (some p.resetQuantum) }

/-- A turn of the loop of `Scheduler::get_next_process`, and what `schedule` does with the process. -/
def turn (wakes : List ReadWake) (s : Scheduler) : Except Fault Scheduler :=
  match s.readyQueue with
  | [] => .ok s.noProcess
  | pid :: rest => do
    let s := { s with runningProcess := some pid }
    let p ← s.proc pid
    if p.flags.terminated then s.relinquishFirstReadyProcess pid wakes
    else if p.flags.waitingKey then
      .ok { s with readyQueue := rest, waitingQueue := enqueue s.waitingQueue pid }
    else if p.flags.waitingProcess ∨ p.flags.sleeping ∨ p.flags.waitingRead then
      .ok (s.setReadyQueue rest)
    else if p.flags.exec then
      match s.execReplacement pid with
      | none => .error .outOfBounds
      | some replacement => do
        let s := s.modify pid fun p => { p with flags := { p.flags with terminated := true } }
        let s ← s.relinquishFirstReadyProcess pid wakes
        let s := { s with
          processes := Function.update s.processes pid (some replacement)
          execReplacement := Function.update s.execReplacement pid none }
        .ok (s.runFirst pid replacement)
    else .ok (s.runFirst pid p)

/-! ## Keys -/

/-- `Scheduler::wake_up_key_waiting_processes`: the counter goes up while the queue gets shorter. -/
def wakeUpKeyWaitingProcesses (key : ℤ) (s : Scheduler) : ℕ → ℕ → Except Fault Scheduler
  | 0, _ => .ok s
  | fuel + 1, i =>
    if i < s.waitingQueue.length then
      match s.waitingQueue with
      | [] => .ok s
      | pid :: rest => do
        let s ← { s with waitingQueue := rest }.wakeUp pid fun p =>
          { p with eax := key, flags := { p.flags with waitingKey := false } }
        s.wakeUpKeyWaitingProcesses key fuel (i + 1)
    else .ok s

/-! ## Calls -/

/-- `Process::fork`: its answer is compared with `-1`, but without a pid it is `MAX_PROCESSES`. -/
def fork (pid : ℕ) (s : Scheduler) : Except Fault Scheduler := do
  let p ← s.proc pid
  match s.getFreePid with
  | (none, _) => .error .outOfBounds
  | (some child, s) =>
    let s := s.setProcessReady child (p.forked pid)
    .ok (s.modify pid fun p => { p with children := p.children ++ [child], eax := child })

/-- `Scheduler::exec`, where `loads` says whether the program can be loaded. -/
def exec (ppid : ℕ) (loads : Bool) (s : Scheduler) : ℤ × Scheduler :=
  match s.getFreePid with
  | (none, s) => (-1, s)
  | (some pid, s) =>
    if s.readyQueue.length = maxProcesses ∨ ¬ loads then (-1, s)
    else (pid, s.setProcessReady pid { ppid })

/-- `Scheduler::start_kernel_process`. -/
def startKernelProcess (s : Scheduler) : Except Fault Scheduler :=
  match s.getFreePid with
  | (none, _) => .error
      (.irrecoverableError "No more PID available. Cannot finish kernel initialization.")
  | (some pid, s) => .ok (s.setProcessReady pid { ppid := pid, priority := 2 })

/-- `Scheduler::stop_kernel_init_process`. -/
def stopKernelInitProcess (s : Scheduler) : Scheduler :=
  { s with readyQueue := s.readyQueue.filter (· ≠ 0), cpu := .trigger, initStopped := true }

/-- `Scheduler::execve`, where closing descriptors wakes readers.  The flag is set on the process that
is replaced only. -/
def execve (pid : ℕ) (loads : Bool) (wakes : List ReadWake) (s : Scheduler) :
    Except Fault Scheduler := do
  if s.readyQueue.length = maxProcesses ∨ ¬ loads then .ok (s.modify pid fun p => { p with eax := -1 })
  else do
    let p ← s.proc pid
    let s ← wakes.foldlM wakeUpReadWaitingProcesses s
    let s := { s with
      execReplacement := Function.update s.execReplacement pid (some p.transferred)
      cpu := .trigger }
    .ok (s.modify pid fun p => { p with flags := { p.flags with exec := true } })

/-- `Syscall::terminate_process`. -/
def exit (pid : ℕ) (retVal : ℤ) (s : Scheduler) : Scheduler :=
  { s.modify pid (Pcb.terminateWithValue retVal) with cpu := .trigger }

/-- `Syscall::kill` with a signal whose action is to end the process. -/
def kill (pid : ℕ) (target : ℤ) (signal : ℕ) (s : Scheduler) : Scheduler :=
  if 0 ≤ target ∧ target < maxProcesses ∧ (s.processes target.toNat).isSome then
    { (s.modify target.toNat (Pcb.terminateWithSignal signal)).modify pid
        (fun p => { p with eax := 0 }) with cpu := .trigger }
  else s.modify pid fun p => { p with eax := -esrch }

/-- `Scheduler::register_process_wait`. -/
def registerProcessWait (pid : ℕ) (waitedFor : ℤ) (s : Scheduler) : Except Fault (ℤ × Scheduler) := do
  let p ← s.proc pid
  let startWait (s : Scheduler) : Scheduler :=
    s.modify pid fun p => { p with flags := { p.flags with waitingProcess := true } }
  if waitedFor = -1 then
    match p.children.find? fun c => (s.processes c).any fun c => c.flags.zombie with
    | some child => do
        let s ← s.freeTerminatedProcess child []
        .ok (child, s)
    | none =>
      if p.children ≠ [] then
        .ok (0, startWait (s.modify pid fun p => { p with isWaitingForAnyChildToTerminate := true }))
      else .ok (-echild, s)
  else if ¬ (0 ≤ waitedFor ∧ waitedFor.toNat ∈ p.children) then .ok (-echild, s)
  else do
    let child ← s.proc waitedFor.toNat
    let s := s.modify waitedFor.toNat fun c => { c with isWaitedByParent := true }
    if child.flags.zombie then do
      let s ← s.freeTerminatedProcess waitedFor.toNat []
      .ok (waitedFor, s)
    else .ok (0, startWait s)

/-- `Syscall::wait_pid`.  Nothing is mapped at address 0: writing there ends the process. -/
def waitPid (pid : ℕ) (waitedFor : ℤ) (wstatus : ℕ) (s : Scheduler) : Except Fault Scheduler := do
  let s := s.modify pid fun p => { p with esi := wstatus }
  let (wait, s) ← s.registerProcessWait pid waitedFor
  if wait = 0 then .ok { s with cpu := .trigger }
  else if wait < 0 then .ok (s.modify pid fun p => { p with eax := wait })
  else if wstatus = 0 then
    .ok { s.modify pid (Pcb.terminateWithSignal sigsegv) with cpu := .trigger }
  else .ok (s.modify pid fun p =>
    { p with words := Function.update p.words wstatus (wait * 256), eax := wait })

/-- `Scheduler::set_process_asleep`, where `ticks` is the duration in ticks, and the interrupt after
it. -/
def sleep (pid ticks : ℕ) (s : Scheduler) : Except Fault Scheduler :=
  let s := s.modify pid fun p => { p with flags := { p.flags with sleeping := true } }
  let endTick := u32 (s.ticks + if ticks = 0 then 1 else ticks)
  match s.sleepingProcesses.insert ⟨pid, endTick⟩ with
  | none => .error (.irrecoverableError "Heap cannot accept more elements")
  | some heap => .ok { s with sleepingProcesses := heap, cpu := .trigger }

/-- `Syscall::get_key`. -/
def getKey (pid : ℕ) (s : Scheduler) : Scheduler :=
  { s.modify pid fun p => { p with flags := { p.flags with waitingKey := true } } with cpu := .trigger }

/-- `Scheduler::do_read_wait`. -/
def doReadWait (pid fd n : ℕ) (s : Scheduler) : Scheduler :=
  { s.modify pid fun p => { p with flags := { p.flags with waitingRead := true } } with
    processesWaitingForRead := s.processesWaitingForRead ++ [{ pid, fd, request := n }]
    cpu := .trigger }

end Scheduler

/-! ## Runs -/

/-- A step of the system: an interrupt, a turn of the scheduler's loop, or a call of the process that
runs. -/
inductive SchedOp
  | timer
  | turn (wakes : List ReadWake)
  | key (c : ℤ)
  | fork
  | exec (ppid : ℕ) (loads : Bool)
  | startKernelProcess
  | stopKernelInitProcess
  | execve (loads : Bool) (wakes : List ReadWake)
  | exit (retVal : ℤ)
  | kill (target : ℤ) (signal : ℕ)
  | waitPid (waitedFor : ℤ) (wstatus : ℕ)
  | sleep (ticks : ℕ)
  | getKey
  | readWait (fd n : ℕ)
  /-- A `write` or `close` that may wake readers. -/
  | wakeReaders (w : ReadWake)
  deriving DecidableEq, Repr

namespace Scheduler

/-- The process that makes a call. -/
def caller (s : Scheduler) : ℕ := s.runningProcess.getD maxProcesses

def step (s : Scheduler) : SchedOp → Except Fault Scheduler
  | .timer => s.interruptTimer
  | .turn wakes => s.turn wakes
  | .key c => s.wakeUpKeyWaitingProcesses c s.waitingQueue.length 0
  | .fork => s.fork s.caller
  | .exec ppid loads => .ok (s.exec ppid loads).2
  | .startKernelProcess => s.startKernelProcess
  | .stopKernelInitProcess => .ok s.stopKernelInitProcess
  | .execve loads wakes => s.execve s.caller loads wakes
  | .exit retVal => .ok (s.exit s.caller retVal)
  | .kill target signal => .ok (s.kill s.caller target signal)
  | .waitPid waitedFor wstatus => s.waitPid s.caller waitedFor wstatus
  | .sleep ticks => s.sleep s.caller ticks
  | .getKey => .ok (s.getKey s.caller)
  | .readWait fd n => .ok (s.doReadWait s.caller fd n)
  | .wakeReaders w => s.wakeUpReadWaitingProcesses w

/-- The steps that can come in a state. -/
def Allowed (s : Scheduler) : SchedOp → Prop
  | .timer => s.cpu = .user ∨ s.cpu = .trigger ∨ s.cpu = .halted
  | .turn _ => s.cpu = .scheduling
  | .key _ => s.cpu = .user ∨ s.cpu = .trigger ∨ s.cpu = .halted
  | .stopKernelInitProcess => s.cpu = .user ∧ s.runningProcess = some 0
  | _ => s.cpu = .user

instance decidableAllowed (s : Scheduler) : DecidablePred s.Allowed
  | .timer => inferInstanceAs (Decidable (s.cpu = .user ∨ s.cpu = .trigger ∨ s.cpu = .halted))
  | .key _ => inferInstanceAs (Decidable (s.cpu = .user ∨ s.cpu = .trigger ∨ s.cpu = .halted))
  | .turn _ => inferInstanceAs (Decidable (s.cpu = .scheduling))
  | .stopKernelInitProcess => inferInstanceAs (Decidable (s.cpu = .user ∧ s.runningProcess = some 0))
  | .fork | .exec .. | .startKernelProcess | .execve .. | .exit _ | .kill .. | .waitPid .. | .sleep _
  | .getKey | .readWait .. | .wakeReaders _ => inferInstanceAs (Decidable (s.cpu = .user))

/-- After `Scheduler::init`: the kernel init process runs. -/
def boot : Scheduler where
  pidPool := fun i => i = 0
  processes := fun i => if i = 0 then some (Pcb.resetQuantum { ppid := 0 }) else none
  readyQueue := [0]
  runningProcess := some 0

end Scheduler

end BrebOS
