import BrebOS.FileManagement.FileTable
import BrebOS.Processes.Process

/-!
# File descriptors of processes

The descriptor table of a process (`process.cpp`), and the calls that work on it: `open`, `close`,
`dup`, `dup2`, `pipe`, `fork`, `execve` and the end of a process; `read` and `write` on pipes, with
the processes that wait for a pipe to be written (`scheduler.cpp`).

An access to `file_descriptors` of a process outside its `MAX_FD_PER_PROCESS` slots is a
`Fault.outOfBounds`, and so is a null file.  A process that waits is in the middle of a `VFS::read`:
`pending` is the file and the length of that call, which starts again when the process is resumed.
-/

namespace BrebOS

/-- `MAX_FD_PER_PROCESS`. -/
def maxFdPerProcess : ℕ := 20

/-- `Process::file_descriptor`. -/
structure FileDescriptor where
  fd : ℕ
  sysFd : ℕ
  cloExec : Bool := false
  deriving DecidableEq, Repr

/-- `Process::file_descriptors` and `Process::lowest_free_fd`. -/
structure FdTable where
  slots : ℕ → Option FileDescriptor := fun _ => none
  lowestFreeFd : ℕ := 3

/-- `Scheduler::proc_waiting_for_read`. -/
structure ProcWaitingForRead where
  pid : ℕ
  fd : ℕ
  request : ℕ
  readSoFar : ℕ := 0
  deriving DecidableEq, Repr

/-- The open files, the descriptor tables of the processes, and who waits for a pipe. -/
structure Descriptors where
  vfs : FileTable := {}
  procs : ℕ → Option FdTable := fun _ => none
  /-- `Scheduler::ready_queue`. -/
  ready : List ℕ := []
  /-- `P_WAITING_READ` of each process. -/
  waitingRead : ℕ → Bool := fun _ => false
  /-- `Scheduler::processes_waiting_for_read`. -/
  waiting : List ProcWaitingForRead := []
  pending : ℕ → Option (ℕ × ℕ) := fun _ => none

/-- What becomes of a file that `load_elf` opens. -/
inductive ElfLoad
  /-- `open` fails for a reason of the file. -/
  | openFails (e : OpenError)
  | readFails
  | invalid
  | loaded
  deriving DecidableEq, Repr

namespace FdTable

/-- The first index from `i` on that is not open, or `MAX_FD_PER_PROCESS`. -/
def nextFree (t : FdTable) (i : ℕ) : ℕ :=
  skipWhile (fun j => (t.slots j).isSome) (maxFdPerProcess - i) i

def setSlot (i : ℕ) (d : Option FileDescriptor) (t : FdTable) : FdTable :=
  { t with slots := Function.update t.slots i d }

/-- The loops that look for the lowest free descriptor from above: the least of the first `n` slots
that is not open, or `init`. -/
def lowestEmpty (n init : ℕ) (t : FdTable) : ℕ :=
  (List.range n).foldr (fun i l => if (t.slots i).isNone then i else l) init

/-- The message of `get_free_fd` when its cursor is wrong. -/
def notFree : Fault := .irrecoverableError "get_free_fd: fd lowest_free_id is not free"

/-- `Process::get_free_fd`: the descriptor, which is reserved by moving the cursor only. -/
def getFreeFd (t : FdTable) : Except Fault (Option ℕ × FdTable) :=
  if t.lowestFreeFd = maxFdPerProcess then .ok (none, t)
  else if maxFdPerProcess < t.lowestFreeFd then .error .outOfBounds
  else if (t.slots t.lowestFreeFd).isSome then .error notFree
  else .ok (some t.lowestFreeFd, { t with lowestFreeFd := t.nextFree (t.lowestFreeFd + 1) })

end FdTable

namespace Descriptors

def setTable (pid : ℕ) (t : FdTable) (s : Descriptors) : Descriptors :=
  { s with procs := Function.update s.procs pid (some t) }

/-- The process that makes a call; only a process that exists does. -/
def table (s : Descriptors) (pid : ℕ) : FdTable := (s.procs pid).getD {}

/-! ## Waiting for a pipe -/

/-- The first loop of `wake_up_read_waiting_processes`: the entries with the bytes counted, and which
of them are resumed. -/
def countBytes (v : FileTable) (writeFd readFd count : ℕ) :
    List ProcWaitingForRead → Except Fault (List ProcWaitingForRead × List ProcWaitingForRead)
  | [] => .ok ([], [])
  | w :: ws =>
    if w.fd ≠ writeFd then do
      let (ws, resumed) ← countBytes v writeFd readFd count ws
      .ok (w :: ws, resumed)
    else do
      let w := { w with readSoFar := w.readSoFar + min (w.request - w.readSoFar) count }
      let done ← if w.readSoFar = w.request then .ok true else
        match v.files readFd with
        | none => .error .outOfBounds
        | some f => (v.shouldWaitForDataOnRead f.kind).map not
      let (ws, resumed) ← countBytes v writeFd readFd count ws
      .ok (w :: ws, if done then w :: resumed else resumed)

/-- A turn of the second loop: `remove` takes out the first entry with the process and the file of
the one given. -/
def resume (s : Descriptors) (w : ProcWaitingForRead) : Descriptors :=
  { s with
    waiting := s.waiting.eraseP fun x => x.pid = w.pid ∧ x.fd = w.fd
    waitingRead := Function.update s.waitingRead w.pid false
    ready := s.ready ++ [w.pid] }

/-- `Scheduler::wake_up_read_waiting_processes`. -/
def wakeUpReadWaitingProcesses (writeFd readFd count : ℕ) (s : Descriptors) :
    Except Fault Descriptors := do
  let (waiting, resumed) ← countBytes s.vfs writeFd readFd count s.waiting
  .ok (resumed.foldl resume { s with waiting })

/-- `Scheduler::do_read_wait`; the interrupt it ends with takes the process off the ready queue. -/
def doReadWait (pid fd n : ℕ) (s : Descriptors) : Descriptors :=
  { s with
    waiting := s.waiting ++ [{ pid, fd, request := n }]
    waitingRead := Function.update s.waitingRead pid true
    ready := s.ready.erase pid }

/-! ## Closing -/

/-- `VFS::close`. -/
def vfsClose (fd : ℕ) (s : Descriptors) : Except Fault (ℤ × Descriptors) :=
  match s.vfs.files fd with
  | none => .ok (-ebadf, s)
  | some f =>
    if f.rc = 0 then do
      let s' := { s with vfs := s.vfs.remove fd f }
      match s.vfs.getWriteFd fd f.kind, s.vfs.getReadFd fd f.kind with
      | some writeFd, some readFd => do
          let s ← s'.wakeUpReadWaitingProcesses writeFd readFd 0
          .ok (0, s)
      | _, _ => .ok (0, s')
    else .ok (0, s)

/-- `Process::proc_to_sys_fd`. -/
def procToSysFd (pid : ℕ) (fd : ℤ) (s : Descriptors) : Except Fault (Option ℕ) :=
  if 0 ≤ fd ∧ fd < maxFdPerProcess then
    match (s.table pid).slots fd.toNat with
    | none => .ok none
    | some d =>
      match s.vfs.files d.sysFd with
      | none => .error (.irrecoverableError "Dangling process file descriptor")
      | some _ => .ok (some d.sysFd)
  else .ok none

/-- `Process::release_fd`. -/
def releaseFd (pid fd : ℕ) (s : Descriptors) : Except Fault Descriptors := do
  let vfs ← match (s.table pid).slots fd with
    | none => .ok s.vfs
    | some d => s.vfs.dropRef d.sysFd
  let t := (s.table pid).setSlot fd none
  .ok ({ s with vfs }.setTable pid { t with lowestFreeFd := min t.lowestFreeFd fd })

/-- `Process::close`. -/
def close (pid : ℕ) (fd : ℤ) (s : Descriptors) : Except Fault (ℤ × Descriptors) := do
  match ← s.procToSysFd pid fd with
  | none => .ok (-ebadf, s)
  | some sysFd => do
    let s ← s.releaseFd pid fd.toNat
    s.vfsClose sysFd

/-- A new `file_descriptor` in slot `i`. -/
def install (pid i : ℕ) (d : FileDescriptor) (s : Descriptors) : Except Fault Descriptors := do
  let vfs ← s.vfs.addRef d.sysFd
  .ok ({ s with vfs }.setTable pid ((s.table pid).setSlot i (some d)))

/-- `Process::get_free_fd` of a process. -/
def getFreeFd (pid : ℕ) (s : Descriptors) : Except Fault (Option ℕ × Descriptors) := do
  let (fd, t) ← (s.table pid).getFreeFd
  .ok (fd, s.setTable pid t)

/-! ## Opening -/

/-- `Process::open`, where the file system answers `err`. -/
def openFile (pid : ℕ) (err : Option OpenError) (s : Descriptors) : Except Fault (ℤ × Descriptors) := do
  let (fd, s) ← s.getFreeFd pid
  match fd with
  | none => .ok (-emfile, s)
  | some fd =>
    match s.vfs.openFile err with
    | (.ok sysFd, vfs) => do
        let s ← { s with vfs }.install pid fd { fd, sysFd }
        .ok (fd, s)
    | (.error e, vfs) => do
        let s ← { s with vfs }.releaseFd pid fd
        .ok (e, s)

/-- `Process::dup`. -/
def dup (pid : ℕ) (oldFd : ℤ) (s : Descriptors) : Except Fault (ℤ × Descriptors) := do
  match ← s.procToSysFd pid oldFd with
  | none => .ok (-ebadf, s)
  | some sysFd => do
    let (fd, s) ← s.getFreeFd pid
    match fd with
    | none => .ok (-emfile, s)
    | some fd => do
        let s ← s.install pid fd { fd, sysFd }
        .ok (fd, s)

/-- `Process::dup2`, which does not look at the range of `newfd`. -/
def dup2 (pid : ℕ) (oldFd newFd : ℤ) (s : Descriptors) : Except Fault (ℤ × Descriptors) := do
  match ← s.procToSysFd pid oldFd with
  | none => .ok (-ebadf, s)
  | some sysFd =>
    if oldFd = newFd then .ok (newFd, s)
    else if ¬ (0 ≤ newFd ∧ newFd < maxFdPerProcess) then .error .outOfBounds
    else do
      let fd := newFd.toNat
      let s ← if ((s.table pid).slots fd).isSome then (s.close pid newFd).map Prod.snd else .ok s
      let s ← s.install pid fd { fd, sysFd }
      let t := s.table pid
      .ok (newFd, s.setTable pid { t with lowestFreeFd := t.nextFree t.lowestFreeFd })

/-- `Process::pipe`. -/
def pipe (pid : ℕ) (s : Descriptors) : Except Fault (ℤ × Descriptors) := do
  let (rfd, s) ← s.getFreeFd pid
  match rfd with
  | none => .ok (-emfile, s)
  | some rfd => do
    let (wfd, s) ← s.getFreeFd pid
    match wfd with
    | none => do
        let s ← s.releaseFd pid rfd
        .ok (-emfile, s)
    | some wfd =>
      match s.vfs.pipe with
      | (none, vfs) => do
          let s ← { s with vfs }.releaseFd pid rfd
          let s ← s.releaseFd pid wfd
          .ok (-enfile, s)
      | (some (sysRfd, sysWfd), vfs) => do
          let s ← { s with vfs }.install pid rfd { fd := rfd, sysFd := sysRfd }
          let s ← s.install pid wfd { fd := wfd, sysFd := sysWfd }
          .ok (0, s)

/-- `fcntl` with `F_SETFD`. -/
def setCloExec (pid : ℕ) (fd : ℤ) (cloExec : Bool) (s : Descriptors) :
    Except Fault (ℤ × Descriptors) := do
  match ← s.procToSysFd pid fd with
  | none => .ok (-ebadf, s)
  | some _ =>
    let t := s.table pid
    .ok (0, s.setTable pid
      (t.setSlot fd.toNat ((t.slots fd.toNat).map fun d => { d with cloExec })))

/-! ## Processes -/

/-- One of the terminals the constructor of `Process` opens. -/
def openTtyAt (pid : ℕ) (s : Descriptors) (i : ℕ) : Except Fault Descriptors :=
  match s.vfs.openTty with
  | (some sysFd, vfs) => { s with vfs }.install pid i { fd := i, sysFd }
  | (none, vfs) => .ok { s with vfs }

/-- The constructor of `Process`: standard input, output and error are terminals. -/
def newProcess (pid : ℕ) (s : Descriptors) : Except Fault Descriptors := do
  let s ← (List.range 3).foldlM (openTtyAt pid) (s.setTable pid {})
  let t := s.table pid
  .ok (s.setTable pid { t with lowestFreeFd := t.lowestEmpty 3 t.lowestFreeFd })

/-- `set_process_ready`. -/
def setReady (pid : ℕ) (s : Descriptors) : Descriptors :=
  { s with
    ready := s.ready ++ [pid]
    waitingRead := Function.update s.waitingRead pid false
    pending := Function.update s.pending pid none }

/-- A turn of the loop of `fork` over the descriptors. -/
def copyFd (pid child : ℕ) (s : Descriptors) (i : ℕ) : Except Fault Descriptors :=
  match (s.table pid).slots i with
  | none => .ok s
  | some d => do
    let s ← match (s.table child).slots i with
      | none => .ok s
      | some d' => (s.close child d'.fd).map Prod.snd
    s.install child i { fd := d.fd, sysFd := d.sysFd, cloExec := d.cloExec }

/-- `Process::fork`, where `get_free_pid` finds `child`. -/
def fork (pid child : ℕ) (s : Descriptors) : Except Fault (ℤ × Descriptors) := do
  let s ← s.newProcess child
  let s ← (List.range maxFdPerProcess).foldlM (copyFd pid child) s
  let s := s.setTable child { s.table child with lowestFreeFd := (s.table pid).lowestFreeFd }
  .ok (child, s.setReady child)

/-- `ELFLoader::load_elf` of the executable and of the interpreters it asks for: the files stay open,
unless they cannot be read.  Whether all of them were loaded. -/
def loadElfs (pid : ℕ) : List ElfLoad → Descriptors → Except Fault (Bool × Descriptors)
  | [], s => .ok (true, s)
  | load :: loads, s => do
    let (fd, s) ← s.openFile pid (match load with
      | .openFails e => some e
      | _ => none)
    if fd < 0 then .ok (false, s)
    else match load with
      | .readFails => do
          let (_, s) ← s.close pid fd
          .ok (false, s)
      | .loaded => s.loadElfs pid loads
      | _ => .ok (false, s)

/-- `Scheduler::exec`, where `get_free_pid` finds `child`. -/
def exec (pid child : ℕ) (loads : List ElfLoad) (s : Descriptors) :
    Except Fault (ℤ × Descriptors) := do
  let (ok, s) ← s.loadElfs pid loads
  if !ok then .ok (-1, s)
  else do
    let s ← s.newProcess child
    .ok (child, s.setReady child)

/-- Where the replacement of a process lives that is about to take over its pid. -/
def execReplacement : ℕ := maxProcesses

/-- A turn of the loop of `execve_transfer` over the descriptors. -/
def transferFd (pid : ℕ) (s : Descriptors) (i : ℕ) : Except Fault Descriptors :=
  match (s.table pid).slots i with
  | none => .ok s
  | some d =>
    if d.cloExec then (s.close pid d.fd).map Prod.snd
    else do
      let s ← match (s.table execReplacement).slots i with
        | none => .ok s
        | some _ => (s.close execReplacement i).map Prod.snd
      let s := s.setTable execReplacement ((s.table execReplacement).setSlot i (some d))
      .ok (s.setTable pid ((s.table pid).setSlot i none))

/-- `Process::execve_transfer`, and the replacement taking over. -/
def execveTransfer (pid : ℕ) (s : Descriptors) : Except Fault Descriptors := do
  let s ← (List.range maxFdPerProcess).foldlM (transferFd pid) s
  let t := s.table execReplacement
  let t := { t with lowestFreeFd := t.lowestEmpty maxFdPerProcess maxFdPerProcess }
  .ok { s with
    procs := Function.update (Function.update s.procs pid (some t)) execReplacement none }

/-- `Scheduler::execve`. -/
def execve (pid : ℕ) (loads : List ElfLoad) (s : Descriptors) :
    Except Fault (ℤ × Descriptors) := do
  let (ok, s) ← s.loadElfs pid loads
  if !ok then .ok (-1, s)
  else do
    let s ← s.newProcess execReplacement
    let s ← s.execveTransfer pid
    .ok (0, s)

/-- A turn of the loop of `pre_free` over the descriptors. -/
def closeSlot (pid : ℕ) (s : Descriptors) (i : ℕ) : Except Fault Descriptors :=
  match (s.table pid).slots i with
  | none => .ok s
  | some d => (s.close pid d.fd).map Prod.snd

/-- `Process::pre_free` and the process leaving the ready queue. -/
def exit (pid : ℕ) (s : Descriptors) : Except Fault Descriptors := do
  let s ← (List.range maxFdPerProcess).foldlM (closeSlot pid) s
  .ok { s with procs := Function.update s.procs pid none, ready := s.ready.erase pid }

/-! ## Reading and writing -/

/-- `VFS::read`.  There is no result while the process waits.  What is read from a file or a terminal
is not modelled. -/
def vfsRead (pid fd n : ℕ) (s : Descriptors) : Except Fault (Option ℤ × Descriptors) :=
  match s.vfs.files fd with
  | none => .ok (some (-ebadf), s)
  | some f =>
    match f.kind with
    | .pipe id e => do
      match s.vfs.pipes[id]? with
      | none => .error .outOfBounds
      | some p => do
        let (r, pipe) ← p.pipe.read e n
        let s := { s with vfs := s.vfs.modifyPipe id fun _ => pipe }
        match r with
        | .error err => .ok (some (-err.code), s)
        | .ok bytes =>
          if bytes.length = 0 ∧ p.pipe.shouldWaitForDataOnRead then
            let s := s.doReadWait pid p.writeFd n
            .ok (none, { s with pending := Function.update s.pending pid (some (fd, n)) })
          else .ok (some bytes.length, s)
    | _ => .ok (some 0, s)

/-- `Process::read`. -/
def read (pid : ℕ) (fd : ℤ) (n : ℕ) (s : Descriptors) : Except Fault (Option ℤ × Descriptors) := do
  match ← s.procToSysFd pid fd with
  | none => .ok (some (-ebadf), s)
  | some sysFd => s.vfsRead pid sysFd n

/-- A process that was woken goes on with its `VFS::read`. -/
def resumeRead (pid : ℕ) (s : Descriptors) : Except Fault (Option ℤ × Descriptors) :=
  match s.pending pid with
  | none => .ok (none, s)
  | some (fd, n) => { s with pending := Function.update s.pending pid none }.vfsRead pid fd n

/-- `VFS::write`.  The `SIGPIPE` that comes with `EPIPE` is not modelled. -/
def vfsWrite (fd : ℕ) (bytes : List UInt8) (s : Descriptors) : Except Fault (ℤ × Descriptors) :=
  match s.vfs.files fd with
  | none => .ok (-ebadf, s)
  | some f =>
    match f.kind with
    | .pipe id e => do
      match s.vfs.pipes[id]? with
      | none => .error .outOfBounds
      | some p => do
        let (r, pipe) ← p.pipe.write e bytes
        let s := { s with vfs := s.vfs.modifyPipe id fun _ => pipe }
        match r with
        | .error err => .ok (-err.code, s)
        | .ok n =>
          match s.vfs.getReadFd fd f.kind with
          | some readFd =>
              if 0 < n then do
                let s ← s.wakeUpReadWaitingProcesses fd readFd n
                .ok (n, s)
              else .ok (n, s)
          | none => .ok (n, s)
    | _ => .ok (bytes.length, s)

/-- `Process::write`. -/
def write (pid : ℕ) (fd : ℤ) (bytes : List UInt8) (s : Descriptors) :
    Except Fault (ℤ × Descriptors) := do
  match ← s.procToSysFd pid fd with
  | none => .ok (-ebadf, s)
  | some sysFd => s.vfsWrite sysFd bytes

/-! ## Runs -/

end Descriptors

/-- A step of the system.  `spawn` is `start_kernel_process`, and `resume` is a woken process that goes on
with the read it waited in; the others are calls of process `pid`. -/
inductive FdOp
  | spawn (child : ℕ)
  | openFile (pid : ℕ) (err : Option OpenError)
  | close (pid : ℕ) (fd : ℤ)
  | dup (pid : ℕ) (oldFd : ℤ)
  | dup2 (pid : ℕ) (oldFd newFd : ℤ)
  | pipe (pid : ℕ)
  | setCloExec (pid : ℕ) (fd : ℤ) (cloExec : Bool)
  | fork (pid child : ℕ)
  | exec (pid child : ℕ) (loads : List ElfLoad)
  | execve (pid : ℕ) (loads : List ElfLoad)
  | exit (pid : ℕ)
  | read (pid : ℕ) (fd : ℤ) (n : ℕ)
  | write (pid : ℕ) (fd : ℤ) (bytes : List UInt8)
  | resume (pid : ℕ)
  deriving DecidableEq, Repr

namespace Descriptors

def step (s : Descriptors) : FdOp → Except Fault Descriptors
  | .spawn child => (s.newProcess child).map fun s => s.setReady child
  | .openFile pid err => (s.openFile pid err).map Prod.snd
  | .close pid fd => (s.close pid fd).map Prod.snd
  | .dup pid oldFd => (s.dup pid oldFd).map Prod.snd
  | .dup2 pid oldFd newFd => (s.dup2 pid oldFd newFd).map Prod.snd
  | .pipe pid => (s.pipe pid).map Prod.snd
  | .setCloExec pid fd cloExec => (s.setCloExec pid fd cloExec).map Prod.snd
  | .fork pid child => (s.fork pid child).map Prod.snd
  | .exec pid child loads => (s.exec pid child loads).map Prod.snd
  | .execve pid loads => (s.execve pid loads).map Prod.snd
  | .exit pid => s.exit pid
  | .read pid fd n => (s.read pid fd n).map Prod.snd
  | .write pid fd bytes => (s.write pid fd bytes).map Prod.snd
  | .resume pid => (s.resumeRead pid).map Prod.snd

/-- A process that may make a call: it runs, and is not in the middle of a read. -/
def MayCall (s : Descriptors) (pid : ℕ) : Prop :=
  pid < maxProcesses ∧ (s.procs pid).isSome ∧ pid ∈ s.ready ∧ s.pending pid = none

/-- What `get_free_pid` finds. -/
def FreePid (s : Descriptors) (pid : ℕ) : Prop := pid < maxProcesses ∧ s.procs pid = none

/-- The steps that can come in a state: those of processes that run, and new processes get pids that
are not in use. -/
def Allowed (s : Descriptors) : FdOp → Prop
  | .spawn child => s.FreePid child
  | .openFile pid _ | .close pid _ | .dup pid _ | .dup2 pid _ _ | .pipe pid | .setCloExec pid _ _
  | .execve pid _ | .exit pid | .read pid _ _ | .write pid _ _ => s.MayCall pid
  | .fork pid child | .exec pid child _ => s.MayCall pid ∧ s.FreePid child
  | .resume pid => pid < maxProcesses ∧ (s.procs pid).isSome ∧ pid ∈ s.ready ∧ (s.pending pid).isSome

end Descriptors

end BrebOS
