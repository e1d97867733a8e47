import BrebOS.Processes.Scheduler.Orderly
import BrebOS.Lib.Run

/-!
# Pids

A pid is reserved exactly while there is a process with it, along every run in which no `exec` fails
after it has reserved one, and no `fork` comes when all are reserved.
-/

namespace BrebOS

namespace Scheduler

variable {s s' : Scheduler} {pid q : ℕ} {p : Pcb} {f : Pcb → Pcb} {gone : Finset ℕ} {op : SchedOp}

/-- The bits of `pid_pool` are those of the processes in the table, and no pid is out of range. -/
structure PoolRight (s : Scheduler) : Prop where
  iff : ∀ i, s.pidPool i = true ↔ (s.processes i).isSome
  lt : ∀ i, (s.processes i).isSome → i < maxProcesses

/-- A step leaves the pool right, and an `exec` that fails changes neither it nor the processes; `fork`
does not leave the table. -/
def PoolRightAfter (s : Scheduler) (op : SchedOp) : Prop :=
  match s.step op with
  | .ok s' => s'.PoolRight ∧ ∀ ppid loads, op = .exec ppid loads → (s.exec ppid loads).1 = -1 →
      s'.pidPool = s.pidPool ∧ s'.processes = s.processes ∧ s'.readyQueue = s.readyQueue
  | .error _ => op ≠ .fork

/-- The steps that leave the pool right. -/
def PidsKept (s : Scheduler) : SchedOp → Prop
  | .exec _ loads =>
      (∃ i < maxProcesses, s.pidPool i = false) → loads ∧ s.readyQueue.length ≠ maxProcesses
  | .fork => ∃ i < maxProcesses, s.pidPool i = false
  | _ => True

/-- No pid is reserved without a process. -/
def Reserved (s : Scheduler) : Prop := ∀ i, s.pidPool i = true → (s.processes i).isSome

lemma Orderly.poolRight (h : s.Orderly) (hres : s.Reserved) : s.PoolRight := by
  refine ⟨?_, ?_⟩
  · intro i
    refine ⟨hres i, ?_⟩
    intro hsome
    obtain ⟨p, hp⟩ := Option.isSome_iff_exists.mp hsome
    exact (h.pooled i p hp).1
  · intro i hsome
    obtain ⟨p, hp⟩ := Option.isSome_iff_exists.mp hsome
    exact (h.pooled i p hp).2

namespace Reserved

lemma congr (h : s.Reserved) (hpool : s'.pidPool = s.pidPool)
    (hsome : ∀ i, (s'.processes i).isSome = (s.processes i).isSome) : s'.Reserved := by
  intro i hi
  rw [hsome]
  exact h i (hpool ▸ hi)

lemma modify (h : s.Reserved) (pid : ℕ) (f : Pcb → Pcb) : (s.modify pid f).Reserved := by
  refine h.congr rfl ?_
  intro i
  rcases eq_or_ne i pid with rfl | hne
  · simp
  · rw [processes_modify_ne hne]

lemma calms (h : s.Reserved) (hcalms : Calms gone s s') : s'.Reserved := by
  intro i hi
  rw [hcalms.pool, Bool.and_eq_true, decide_eq_true_eq] at hi
  have hsome := h i hi.1
  rw [← Option.ne_none_iff_isSome, Ne, hcalms.none_iff, not_or]
  exact ⟨Option.ne_none_iff_isSome.mpr hsome, hi.2⟩

lemma starts (h : s.Reserved) (hstarts : Starts pid p s s') : s'.Reserved := by
  rw [hstarts.eq]
  intro i hi
  have hi : Function.update s.pidPool pid true i = true := hi
  show (Function.update s.processes pid (some p.resetQuantum) i).isSome
  rcases eq_or_ne i pid with rfl | hne
  · simp
  · rw [Function.update_of_ne hne] at hi ⊢
    exact h i hi

lemma replace (h : s.Reserved) (hsome : (s.processes pid).isSome)
    (hpool : s'.pidPool = s.pidPool)
    (hprocs : s'.processes = Function.update s.processes pid (some p)) : s'.Reserved := by
  refine h.congr hpool ?_
  intro i
  rw [hprocs]
  rcases eq_or_ne i pid with rfl | hne
  · simp [hsome]
  · rw [Function.update_of_ne hne]

lemma runFirst (h : s.Reserved) (hsome : (s.processes pid).isSome) : (s.runFirst pid p).Reserved := by
  unfold Scheduler.runFirst
  split_ifs
  · exact h.replace hsome rfl rfl
  · exact h.replace hsome rfl rfl

lemma turn {wakes : List ReadWake} (h : s.Reserved) (hs' : s.turn wakes = .ok s') : s'.Reserved := by
  rcases turn_cases hs' with ⟨hready, rfl⟩ | ⟨hready, hp, hterm, hs'⟩ | ⟨hready, hp, hflags, rfl⟩ |
    ⟨hready, hp, hflags, rfl⟩ | ⟨hready, hp, hexec, hr, hs₁, rfl⟩ | ⟨hready, hp, hflags, rfl⟩
  case idle =>
    unfold noProcess
    split_ifs
    · exact h
    · exact h
  case ended pid rest p =>
    obtain ⟨p', -, ⟨-, -, -, -, hzombie⟩ | ⟨-, hfree⟩⟩ := relinquish_cases hs'
    · have hlook : Reserved ((s.lookAt pid).setReadyQueue (s.lookAt pid).readyQueue.tail) := h
      exact (hlook.modify pid _).calms (Calms.preFree hzombie)
    · obtain ⟨p'', -, -, hcalms⟩ := Calms.freeTerminatedProcess hfree
      refine calms ?_ hcalms
      split_ifs
      · exact h
      · exact h
  case key pid rest p => exact h
  case blocked pid rest p => exact h
  case replaced pid rest p r s₁ =>
    have hlook : (s.lookAt pid).Reserved := h
    have hcalms := Calms.preFree hs₁
    have hs₁' : s₁.Reserved := (hlook.modify pid _).calms hcalms
    have hsome : (s₁.processes pid).isSome := by
      rw [← Option.ne_none_iff_isSome, Ne, hcalms.none_iff, processes_modify,
        show (s.lookAt pid).processes pid = some p from hp]
      simp
    have hreplaced : Reserved { s₁ with
        processes := Function.update s₁.processes pid (some r)
        execReplacement := Function.update s₁.execReplacement pid none } :=
      hs₁'.replace hsome rfl rfl
    exact hreplaced.runFirst (by simp)
  case runs pid rest p =>
    have hlook : (s.lookAt pid).Reserved := h
    exact hlook.runFirst (by simp [hp])

lemma waitPid {waitedFor : ℤ} {wstatus : ℕ} (h : s.Reserved)
    (hs' : s.waitPid pid waitedFor wstatus = .ok s') : s'.Reserved := by
  obtain ⟨wait, s₁, hreg, rfl⟩ := waitPid_eq hs'
  have h₀ := h.modify pid fun p => { p with esi := wstatus }
  obtain ⟨p, hp, hreg⟩ := registerProcessWait_cases hreg
  generalize s.modify pid (fun p => { p with esi := wstatus }) = s₀ at *
  have hs₁ : s₁.Reserved := by
    cases hreg with
    | noChild _ _ => exact h₀
    | anyZombie _ _ _ _ hfree =>
      obtain ⟨p', -, -, hcalms⟩ := Calms.freeTerminatedProcess hfree
      exact h₀.calms hcalms
    | any _ _ _ => exact h₀.modify _ _
    | zombie _ _ _ _ hfree =>
      obtain ⟨p', -, -, hcalms⟩ := Calms.freeTerminatedProcess hfree
      exact (h₀.modify _ _).calms hcalms
    | one _ _ _ _ => exact (h₀.modify _ _).modify _ _
  unfold endWait
  split_ifs
  · exact hs₁
  · exact hs₁.modify _ _
  · exact (hs₁.modify pid (Pcb.terminateWithSignal sigsegv)).congr rfl fun _ => rfl
  · exact hs₁.modify _ _

end Reserved

lemma exec_starts {ppid : ℕ} {loads : Bool} (hkept : s.PidsKept (.exec ppid loads)) :
    s.exec ppid loads = (-1, s) ∨ ∃ pid : ℕ, (s.exec ppid loads).1 = pid ∧
      Starts pid { ppid } s (s.exec ppid loads).2 := by
  rcases hpid : s.getFreePid with ⟨_ | pid, s₁⟩
  · left
    unfold getFreePid at hpid
    split at hpid
    next hnone =>
      unfold exec getFreePid
      rw [hnone]
    next => simp at hpid
  · right
    obtain ⟨hlt, hfree, hs₁⟩ := getFreePid_spec hpid
    obtain ⟨hloads, hroom⟩ := hkept ⟨pid, hlt, hfree⟩
    have hexec : s.exec ppid loads = ((pid : ℤ), s₁.setProcessReady pid { ppid }) := by
      unfold exec
      rw [hpid]
      simp only
      rw [if_neg]
      rw [hs₁]
      simp [hloads, hroom]
    exact ⟨pid, by rw [hexec], by rw [hexec]; exact starts_of_getFreePid hpid⟩

lemma not_poolRight_exec {ppid : ℕ} {loads : Bool} (h : s.Orderly)
    (hkept : ¬ s.PidsKept (.exec ppid loads)) : ¬ (s.exec ppid loads).2.PoolRight := by
  simp only [PidsKept, Classical.not_imp, not_and_or, not_not] at hkept
  obtain ⟨⟨i, hi, hfree⟩, hfails⟩ := hkept
  rcases hpid : s.getFreePid with ⟨_ | pid, s₁⟩
  · have hnone : s.getFreePid.1 = none := by rw [hpid]
    rw [getFreePid_none] at hnone
    simp [hnone i hi] at hfree
  · obtain ⟨hlt, hpool, hs₁⟩ := getFreePid_spec hpid
    have hexec : s.exec ppid loads = (-1, s₁) := by
      unfold exec
      rw [hpid]
      simp only
      rw [if_pos]
      rw [hs₁]
      exact hfails.symm
    rw [hexec, hs₁]
    intro hright
    have hsome := (hright.iff pid).mp (by simp)
    obtain ⟨p, hp⟩ := Option.isSome_iff_exists.mp hsome
    have hp : s.processes pid = some p := hp
    simpa [hpool] using (h.pooled pid p hp).1

lemma fork_ok (h : s.Orderly) (huser : s.cpu = .user) (hkept : s.PidsKept .fork) :
    ∃ s', s.fork s.caller = .ok s' := by
  obtain ⟨p, -, -, hp, -⟩ := h.caller huser
  rcases hpid : s.getFreePid with ⟨_ | child, s₁⟩
  · have hnone : s.getFreePid.1 = none := by rw [hpid]
    rw [getFreePid_none] at hnone
    obtain ⟨i, hi, hfree⟩ := hkept
    simp [hnone i hi] at hfree
  · unfold fork
    rw [show s.proc s.caller = .ok p from proc_eq_ok.mpr hp]
    simp only [bind, Except.bind, hpid]
    exact ⟨_, rfl⟩

lemma fork_error (pid : ℕ) (hkept : ¬ s.PidsKept .fork) : ∃ e, s.fork pid = .error e := by
  have hnone : s.getFreePid.1 = none := by
    rw [getFreePid_none]
    intro i hi
    by_contra hfree
    exact hkept ⟨i, hi, by simpa using hfree⟩
  unfold fork
  rcases hp : s.proc pid with e | p
  · exact ⟨e, rfl⟩
  · rcases hpid : s.getFreePid with ⟨_ | child, s₁⟩
    · exact ⟨.outOfBounds, rfl⟩
    · simp [hpid] at hnone

lemma Reserved.step (hres : s.Reserved) (hkept : s.PidsKept op) (hs' : s.step op = .ok s') :
    s'.Reserved := by
  cases op with
  | timer =>
    obtain ⟨s₁, hs₁, hs'⟩ := bind_eq_ok.mp hs'
    cases hs'
    have h₀ : Reserved { s with ticks := u32 (s.ticks + 1) } := hres
    have hs₁' : s₁.Reserved := h₀.calms (Wakes.checkForProcessesToWakeUp hs₁).calms
    exact hs₁'.congr rfl fun _ => rfl
  | turn wakes => exact hres.turn hs'
  | key c => exact hres.calms (Wakes.wakeUpKeyWaitingProcesses hs').calms
  | fork =>
    obtain ⟨p, child, s₁, -, hstarts, rfl⟩ := fork_cases hs'
    exact (hres.starts hstarts).modify _ _
  | exec ppid loads =>
    cases hs'
    rcases exec_starts hkept with hfails | ⟨pid, -, hstarts⟩
    · rw [hfails]
      exact hres
    · exact hres.starts hstarts
  | startKernelProcess =>
    obtain ⟨pid, hstarts⟩ := startKernelProcess_cases hs'
    exact hres.starts hstarts
  | stopKernelInitProcess =>
    cases hs'
    exact hres
  | execve loads wakes =>
    rcases execve_cases hs' with rfl | ⟨p, s₁, -, hwakes, rfl⟩
    · exact hres.modify _ _
    · have hs₁ := hres.calms (Wakes.wakeAll hwakes).calms
      exact Reserved.modify (hs₁.congr rfl fun _ => rfl) _ _
  | exit retVal =>
    cases hs'
    exact (hres.modify s.caller (Pcb.terminateWithValue retVal)).congr rfl fun _ => rfl
  | kill target signal =>
    cases hs'
    unfold Scheduler.kill
    split_ifs
    · exact ((hres.modify target.toNat (Pcb.terminateWithSignal signal)).modify s.caller _).congr rfl
        fun _ => rfl
    · exact hres.modify _ _
  | waitPid waitedFor wstatus => exact hres.waitPid hs'
  | sleep ticks =>
    obtain ⟨heap, -, rfl⟩ := sleep_cases hs'
    exact (hres.modify s.caller _).congr rfl fun _ => rfl
  | getKey =>
    cases hs'
    exact (hres.modify s.caller _).congr rfl fun _ => rfl
  | readWait fd n =>
    cases hs'
    exact (hres.modify s.caller _).congr rfl fun _ => rfl
  | wakeReaders w => exact hres.calms (Wakes.wakeUpReadWaitingProcesses hs').calms

lemma Orderly.poolRightAfter (h : s.Orderly) (hres : s.Reserved) (hallowed : s.Allowed op)
    (hkept : s.PidsKept op) : s.PoolRightAfter op := by
  unfold PoolRightAfter
  rcases hs' : s.step op with e | s'
  · rintro rfl
    obtain ⟨s', hfork⟩ := fork_ok h hallowed hkept
    rw [Scheduler.step, hfork] at hs'
    cases hs'
  · refine ⟨(h.step hallowed hs').poolRight (hres.step hkept hs'), ?_⟩
    rintro ppid loads rfl hfails
    cases hs'
    rcases exec_starts hkept with heq | ⟨pid, hpid, -⟩
    · rw [heq]
      exact ⟨rfl, rfl, rfl⟩
    · rw [hfails] at hpid
      omega

lemma not_poolRightAfter (h : s.Orderly) (hkept : ¬ s.PidsKept op) : ¬ s.PoolRightAfter op := by
  unfold PoolRightAfter
  cases op with
  | exec ppid loads =>
    rintro ⟨hright, -⟩
    exact not_poolRight_exec h hkept hright
  | fork =>
    obtain ⟨e, he⟩ := fork_error s.caller hkept
    rw [Scheduler.step, he]
    exact fun hne => hne rfl
  | _ => exact absurd trivial hkept

lemma poolRightAfter_iff : ∀ {ops : List SchedOp} {s : Scheduler}, s.Orderly → s.Reserved →
    EachCall step Allowed ops s →
    (EachCall step PoolRightAfter ops s ↔ EachCall step PidsKept ops s) := by
  intro ops
  induction ops with
  | nil =>
    intro s _ _ _
    exact Iff.rfl
  | cons op ops ih =>
    intro s h hres hallowed
    obtain ⟨hallowed, hrest⟩ := hallowed
    by_cases hkept : s.PidsKept op
    · have hright := h.poolRightAfter hres hallowed hkept
      rcases hs' : s.step op with e | s'
      · simp [EachCall, hs', hkept, hright]
      · rw [hs'] at hrest
        simp only [EachCall, hs', hkept, hright, true_and]
        exact ih (h.step hallowed hs') (hres.step hkept hs') hrest
    · have hwrong := not_poolRightAfter h hkept
      simp only [EachCall, hkept, hwrong, false_and]

instance decidablePidsKept (s : Scheduler) : DecidablePred s.PidsKept
  | .exec _ loads => inferInstanceAs (Decidable
      ((∃ i < maxProcesses, s.pidPool i = false) → loads ∧ s.readyQueue.length ≠ maxProcesses))
  | .fork => inferInstanceAs (Decidable (∃ i < maxProcesses, s.pidPool i = false))
  | .timer | .turn _ | .key _ | .startKernelProcess | .stopKernelInitProcess | .execve .. | .exit _
  | .kill .. | .waitPid .. | .sleep _ | .getKey | .readWait .. | .wakeReaders _ =>
      inferInstanceAs (Decidable True)

/-- In every run from the start of the scheduler each step leaves the pool right iff no `exec` fails
after it has reserved a pid, and no `fork` comes when all are reserved. -/
theorem pids_kept_iff (ops : List SchedOp) (h : EachCall step Allowed ops boot) :
    EachCall step PoolRightAfter ops boot ↔ EachCall step PidsKept ops boot := by
  refine poolRightAfter_iff orderly_boot ?_ h
  intro i hi
  have hi : decide (i = 0) = true := hi
  obtain rfl : i = 0 := of_decide_eq_true hi
  rfl

/-- The first program forks, waits for its child, and ends. -/
theorem pids_kept_two :
    EachCall step Allowed [.exec 0 true, .stopKernelInitProcess, .timer, .turn [], .fork,
        .waitPid 2 0, .timer, .turn [], .turn [], .exit 3, .timer, .turn [], .turn [], .turn []] boot ∧
      EachCall step PoolRightAfter [.exec 0 true, .stopKernelInitProcess, .timer, .turn [], .fork,
        .waitPid 2 0, .timer, .turn [], .turn [], .exit 3, .timer, .turn [], .turn [], .turn []] boot :=
  have hallowed : EachCall step Allowed [.exec 0 true, .stopKernelInitProcess, .timer, .turn [], .fork,
      .waitPid 2 0, .timer, .turn [], .turn [], .exit 3, .timer, .turn [], .turn [], .turn []] boot := by
    decide +kernel
  ⟨hallowed, (pids_kept_iff _ hallowed).mpr (by decide +kernel)⟩

/-- The first program cannot be loaded. -/
theorem pid_lost : EachCall step Allowed [.exec 0 false] boot ∧
    ¬ EachCall step PoolRightAfter [.exec 0 false] boot := by
  refine ⟨by decide +kernel, ?_⟩
  rintro ⟨⟨hright, -⟩, -⟩
  exact absurd ((hright.iff 1).mp rfl) (by decide)

end Scheduler

end BrebOS
