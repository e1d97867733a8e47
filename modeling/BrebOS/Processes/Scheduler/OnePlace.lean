import BrebOS.Processes.Scheduler.Places
import BrebOS.Lib.Run

/-!
# Each process is in one place

`Arranged` is the invariant of a run: the queues say where the processes are, except for the one that
has just blocked, which the scheduler looks at next.  It needs that a process that sleeps is not woken by
the interrupt that takes it off the ready queue, and that a process only waits for children of its own.
That a process which has ended is in the ready queue needs that no process is killed while it waits.
-/

namespace BrebOS

namespace Scheduler

variable {s s' : Scheduler} {pid q : ℕ} {p : Pcb} {mid : Option ℕ} {op : SchedOp}

/-- The steps after which the queues still say where the processes are. -/
def Arranges (s : Scheduler) : SchedOp → Prop
  | .waitPid waitedFor _ => ∀ p c, s.processes s.caller = some p → 0 ≤ waitedFor →
      waitedFor.toNat ∈ p.children → s.processes waitedFor.toNat = some c → c.ppid = s.caller
  | .sleep ticks => u32 (s.ticks + 1) < u32 (s.ticks + if ticks = 0 then 1 else ticks)
  | _ => True

/-- The process that has blocked is the first of the ready queue, and goes on sleeping through the next
interrupt. -/
def MidRight (mid : Option ℕ) (s : Scheduler) : Prop :=
  ∀ q, mid = some q → (s.cpu = .trigger ∨ s.cpu = .scheduling) ∧ s.readyQueue.head? = some q ∧
    (∃ p, s.processes q = some p ∧ p.flags.terminated = false) ∧
    (s.cpu = .trigger → ∀ a ∈ s.sleepingProcesses.elements, a.process = q →
      u32 (s.ticks + 1) < a.endTick)

structure Arranged (s : Scheduler) : Prop where
  orderly : s.Orderly
  waits : s.Waits
  placed : ∃ mid, Placed mid none s ∧ MidRight mid s

namespace Arranged

lemma of_none (horderly : s.Orderly) (hwaits : s.Waits) (hplaced : Placed none none s) : s.Arranged := by
  refine ⟨horderly, hwaits, none, hplaced, ?_⟩
  intro q hq
  cases hq

lemma placed_none (h : s.Arranged) (htrigger : s.cpu ≠ .trigger) (hscheduling : s.cpu ≠ .scheduling) :
    Placed none none s := by
  obtain ⟨mid, hplaced, hmid⟩ := h.placed
  rcases mid with _ | q
  · exact hplaced
  · exact absurd (hmid q rfl).1 (by simp [htrigger, hscheduling])

lemma placed_user (h : s.Arranged) (huser : s.cpu = .user) : Placed none none s :=
  h.placed_none (by simp [huser]) (by simp [huser])

lemma caller_mem (h : s.Arranged) (huser : s.cpu = .user) : s.caller ∈ s.readyQueue := by
  obtain ⟨p, -, hhead, -⟩ := h.orderly.caller huser
  exact List.mem_of_head? hhead

lemma timer (h : s.Arranged) (hallowed : s.Allowed .timer) (hs' : s.step .timer = .ok s') :
    s'.Arranged := by
  have horderly := h.orderly.step hallowed hs'
  obtain ⟨mid, hplaced, hmid⟩ := h.placed
  obtain ⟨s₁, hs₁, hs'⟩ := bind_eq_ok.mp hs'
  cases hs'
  have hwakes := Wakes.checkForProcessesToWakeUp hs₁
  have hplaced₀ : Placed mid none { s with ticks := u32 (s.ticks + 1) } :=
    hplaced.congr (fun _ => rfl) rfl rfl rfl rfl rfl
  have hplaced₁ : Placed mid none s₁ := by
    refine hplaced₀.checkForProcessesToWakeUp ?_ hs₁
    intro q a hq ha haq
    obtain ⟨hcpu, -, -, hlate⟩ := hmid q hq
    have htrigger : s.cpu = .trigger := by
      rcases hcpu with hcpu | hcpu
      · exact hcpu
      · simp [Allowed, hcpu] at hallowed
    exact hlate htrigger a ha haq
  have hwaits₀ : Waits { s with ticks := u32 (s.ticks + 1) } := h.waits.congr rfl
  refine ⟨horderly, (hwaits₀.wakes hwakes).congr rfl, mid,
    hplaced₁.congr (fun _ => rfl) rfl rfl rfl rfl rfl, ?_⟩
  intro q hq
  obtain ⟨-, hhead, ⟨p, hp, hterm⟩, -⟩ := hmid q hq
  obtain ⟨p', hp', hwoken⟩ := hwakes.kept hp (by simp)
  refine ⟨Or.inr rfl, Orderly.head?_of_longer hwakes.ready hhead,
    ⟨p', hp', by rw [hwoken.terminated, hterm]⟩, ?_⟩
  intro hcon
  cases hcon

lemma key {c : ℤ} (h : s.Arranged) (hallowed : s.Allowed (.key c)) (hs' : s.step (.key c) = .ok s') :
    s'.Arranged := by
  have horderly := h.orderly.step hallowed hs'
  obtain ⟨mid, hplaced, hmid⟩ := h.placed
  have hwakes := Wakes.wakeUpKeyWaitingProcesses hs'
  obtain ⟨hplaced', hheap⟩ := hplaced.wakeUpKeyWaitingProcesses hs'
  refine ⟨horderly, h.waits.wakes hwakes, mid, hplaced', ?_⟩
  intro q hq
  obtain ⟨hcpu, hhead, ⟨p, hp, hterm⟩, hlate⟩ := hmid q hq
  obtain ⟨p', hp', hwoken⟩ := hwakes.kept hp (by simp)
  refine ⟨by rw [hwakes.same.cpu]; exact hcpu, Orderly.head?_of_longer hwakes.ready hhead,
    ⟨p', hp', by rw [hwoken.terminated, hterm]⟩, ?_⟩
  rw [hwakes.same.cpu, hwakes.same.ticks, hheap]
  exact hlate

/-! ## Turns -/

lemma placed_of_head {rest : List ℕ} (h : s.Arranged) (hready : s.readyQueue = pid :: rest)
    (hp : s.processes pid = some p) (hstays : p.flags.terminated ∨ p.flags.place = .ready) :
    Placed none none s := by
  obtain ⟨mid, hplaced, hmid⟩ := h.placed
  rcases mid with _ | q
  · exact hplaced
  · obtain ⟨-, hhead, ⟨p', hp', hterm⟩, -⟩ := hmid q rfl
    obtain rfl : pid = q := by simpa [hready] using hhead
    obtain rfl : p = p' := by simpa [hp] using hp'
    obtain ⟨hne, hsome⟩ := hplaced.located.mid pid rfl
    obtain ⟨b, hb⟩ := Option.ne_none_iff_exists'.mp hsome
    obtain ⟨p', hp', hplace, -⟩ := placeOf_eq_some.mp hb
    obtain rfl : p = p' := by simpa [hp] using hp'
    rcases hstays with hterm' | hready'
    · simp [hterm] at hterm'
    · rw [hb, ← hplace, hready'] at hne
      exact absurd rfl hne

lemma ended {wakes : List ReadWake} {rest : List ℕ} (h : s.Arranged) (horderly : s'.Orderly)
    (hready : s.readyQueue = pid :: rest) (hp : s.processes pid = some p) (hterm : p.flags.terminated)
    (hs' : (s.lookAt pid).relinquishFirstReadyProcess pid wakes = .ok s') : s'.Arranged := by
  have hplaced := h.placed_of_head hready hp (Or.inl hterm)
  obtain ⟨hplace, -, hstopped⟩ := hplaced.place_head hready hp
  have hclear := (ProcessFlags.place_eq_ready.mp hplace).2.2.2
  have htail : (s.lookAt pid).readyQueue.tail = rest := by
    show s.readyQueue.tail = rest
    rw [hready]
    rfl
  have hlook : Placed none none (s.lookAt pid) := hplaced.congr (fun _ => rfl) rfl rfl rfl rfl rfl
  have hout : Placed none (some pid) ((s.lookAt pid).setReadyQueue rest) := hlook.dequeue hready
  have hwaits : Waits ((s.lookAt pid).setReadyQueue rest) := h.waits.congr rfl
  obtain ⟨p', hp', hcases⟩ := relinquish_cases hs'
  have hp' : s.processes pid = some p' := hp'
  obtain rfl : p = p' := by simpa [hp] using hp'
  rw [htail] at hcases
  rcases hcases with ⟨-, -, hwaited, -, hzombie⟩ | ⟨-, hfree⟩
  · exact of_none horderly ((hwaits.becomeZombie hp hwaited).preFree hzombie)
      ((hout.becomeZombie hstopped).preFree hzombie)
  · have hexec : p.flags.exec = false := by
      by_contra hexec
      have hflags := (h.orderly.exec pid p hp (by simpa using hexec)).2.2.1
      simp [hflags] at hterm
    rw [if_neg (by simp [hexec])] at hfree
    refine of_none horderly (hwaits.freeTerminatedProcess hp hclear hfree)
      (hout.freeTerminatedProcess hp hexec hstopped ?_ hfree)
    -- the parent that is told runs, because it is the process itself, or waits
    intro hparent
    rcases eq_or_ne p.ppid pid with hself | hother
    · rw [hself]
      exact ⟨p, hp, Or.inl ⟨rfl, hplace⟩⟩
    · have hrun : ((s.lookAt pid).setReadyQueue rest).runningProcess ≠ some p.ppid := by
        show some pid ≠ some p.ppid
        simpa using hother.symm
      by_cases hwaited : p.isWaitedByParent
      · obtain ⟨q, hq, hwaits', -⟩ := h.waits.waited pid p hp hwaited hother
        exact ⟨q, hq, Or.inr ⟨hrun, hwaits'⟩⟩
      · rw [parentWaits, if_neg hwaited] at hparent
        obtain ⟨q, hq, hany⟩ := map_eq_ok.mp hparent
        rw [proc_eq_ok] at hq
        exact ⟨q, hq, Or.inr ⟨hrun, h.waits.any _ q hq hany⟩⟩

lemma leave {rest : List ℕ} (h : s.Arranged) (horderly : s'.Orderly)
    (hready : s.readyQueue = pid :: rest) (hp : s.processes pid = some p)
    (hplace : p.flags.place ≠ .ready)
    (hkey : s'.waitingQueue = if p.flags.waitingKey then enqueue s.waitingQueue pid else s.waitingQueue)
    (hready' : s'.readyQueue = rest) (hprocs : s'.processes = s.processes)
    (hsleep : s'.sleepingProcesses = s.sleepingProcesses)
    (hread : s'.processesWaitingForRead = s.processesWaitingForRead)
    (hinit : s'.initStopped = s.initStopped) : s'.Arranged := by
  obtain ⟨mid, hplaced, hmid⟩ := h.placed
  rcases mid with _ | q
  · exact absurd (hplaced.place_head hready hp).1 hplace
  · obtain ⟨-, hhead, -⟩ := hmid q rfl
    obtain rfl : pid = q := by simpa [hready] using hhead
    exact of_none horderly (h.waits.congr hprocs)
      (hplaced.leave hready hp hkey hready' hprocs hsleep hread hinit)

lemma replaced {wakes : List ReadWake} {rest : List ℕ} {r : Pcb} {s₁ : Scheduler} (h : s.Arranged)
    (horderly : s'.Orderly) (hready : s.readyQueue = pid :: rest) (hp : s.processes pid = some p)
    (hexec : p.flags.exec) (hr : s.execReplacement pid = some r)
    (hs₁ : (s.markReplaced pid).preFree pid { p with flags := { p.flags with terminated := true } } wakes =
      .ok s₁)
    (hs' : s' = Scheduler.runFirst pid r { s₁ with
      processes := Function.update s₁.processes pid (some r)
      execReplacement := Function.update s₁.execReplacement pid none }) : s'.Arranged := by
  obtain ⟨-, -, hflags, r', hr', hrep⟩ := h.orderly.exec pid p hp hexec
  obtain rfl : r = r' := by simpa [hr] using hr'
  have hplaced := h.placed_of_head hready hp (Or.inr (by rw [hflags]; rfl))
  have hlook : Placed none none (s.lookAt pid) := hplaced.congr (fun _ => rfl) rfl rfl rfl rfl rfl
  have hwaits : Waits (s.lookAt pid) := h.waits.congr rfl
  have hmark : Placed none none (s.markReplaced pid) := hlook.modify fun _ _ => rfl
  have hwaitsMark : Waits (s.markReplaced pid) := hwaits.modify fun _ _ => ⟨rfl, rfl, rfl, rfl, rfl⟩
  have hplaced₁ := hmark.preFree hs₁
  have hwaits₁ := hwaitsMark.preFree hs₁
  have hpm : (s.markReplaced pid).processes pid =
      some { p with flags := { p.flags with terminated := true } } := by
    rw [processes_modify, show (s.lookAt pid).processes pid = some p from hp]
    rfl
  -- the process is as it was, with the flags of one that does not wait
  obtain ⟨p₁, hp₁, hsame⟩ := (sameWait_preFree hs₁).kept hpm (by simp)
  obtain ⟨p₁', hp₁', hcalm⟩ := (Calms.preFree hs₁).kept hpm (by simp)
  obtain rfl : p₁ = p₁' := by simpa [hp₁] using hp₁'
  have hstance : r.stance = p₁.stance := by
    rw [hcalm.stance_eq (by rw [Pcb.stance, hflags]), Pcb.stance, hrep.flags]
  have hsameR : p₁.SameWait r := by
    refine ⟨?_, ?_, hrep.any.trans hsame.any.symm, hrep.waited.trans hsame.waited.symm,
      hrep.ppid.trans hsame.ppid.symm⟩
    · exact (Pcb.zombie_of_stance hstance)
    · rw [hsame.waits, hrep.flags, hflags]
  have hplaced₂ : Placed none none { s₁ with
      processes := Function.update s₁.processes pid (some r)
      execReplacement := Function.update s₁.execReplacement pid none } :=
    hplaced₁.replace hp₁ hstance rfl rfl rfl rfl rfl rfl
  have hwaits₂ : Waits { s₁ with
      processes := Function.update s₁.processes pid (some r)
      execReplacement := Function.update s₁.execReplacement pid none } := hwaits₁.replace hp₁ hsameR rfl
  obtain ⟨t, ht⟩ : s.readyQueue <+: s₁.readyQueue := (Calms.preFree hs₁).ready
  rw [hready, List.cons_append] at ht
  subst hs'
  refine of_none horderly ?_ (hplaced₂.runFirst ht.symm (Function.update_self ..))
  exact hwaits₂.runFirst (Function.update_self ..)

lemma turn {wakes : List ReadWake} (h : s.Arranged) (hallowed : s.Allowed (.turn wakes))
    (hs' : s.step (.turn wakes) = .ok s') : s'.Arranged := by
  have horderly := h.orderly.step hallowed hs'
  rcases turn_cases hs' with ⟨hready, rfl⟩ | ⟨hready, hp, hterm, hs'⟩ | ⟨hready, hp, hflags, rfl⟩ |
    ⟨hready, hp, hflags, rfl⟩ | ⟨hready, hp, hexec, hr, hs₁, hs'⟩ | ⟨hready, hp, hflags, rfl⟩
  case idle =>
    obtain ⟨mid, hplaced, hmid⟩ := h.placed
    rcases mid with _ | q
    · refine of_none horderly (h.waits.congr ?_) (hplaced.congr ?_ ?_ ?_ ?_ ?_ ?_)
      all_goals
        unfold noProcess
        split_ifs
        all_goals
          intros
          rfl
    · obtain ⟨-, hhead, -⟩ := hmid q rfl
      simp [hready] at hhead
  case ended pid rest p => exact h.ended horderly hready hp hterm hs'
  case key pid rest p =>
    refine h.leave horderly hready hp ?_ ?_ rfl rfl rfl rfl rfl
    · rw [Ne, ProcessFlags.place_eq_ready]
      simp [hflags.2]
    · rw [if_pos hflags.2]
  case blocked pid rest p =>
    refine h.leave horderly hready hp ?_ ?_ rfl rfl rfl rfl rfl
    · rw [Ne, ProcessFlags.place_eq_ready]
      rintro ⟨-, hsleep, hread, hwait⟩
      simp [hsleep, hread, hwait] at hflags
    · rw [if_neg hflags.2.1]
      rfl
  case replaced pid rest p r s₁ => exact h.replaced horderly hready hp hexec hr hs₁ hs'
  case runs pid rest p =>
    have hplace : p.flags.place = .ready := by
      rw [ProcessFlags.place_eq_ready]
      simp only [Bool.not_eq_true] at hflags
      exact ⟨hflags.2.1, hflags.2.2.2.1, hflags.2.2.2.2.1, hflags.2.2.1⟩
    have hplaced := h.placed_of_head hready hp (Or.inr hplace)
    have hlook : Placed none none (s.lookAt pid) := hplaced.congr (fun _ => rfl) rfl rfl rfl rfl rfl
    have hwaits : Waits (s.lookAt pid) := h.waits.congr rfl
    exact of_none horderly (hwaits.runFirst hp) (hlook.runFirst hready hp)

/-! ## Calls -/

lemma of_block (f : Pcb → Pcb) (flags : ProcessFlags) (hplaced : Placed none none s)
    (hhead : s.readyQueue.head? = some pid) (hp : s.processes pid = some p)
    (hf : (f p).flags = flags) (hflags : flags.place ≠ .ready ∧ flags.Single ∧ flags.zombie = false ∧
      flags.terminated = false) (horderly : s'.Orderly) (hwaits : s'.Waits)
    (hprocs : s'.processes = (s.modify pid f).processes) (hready : s'.readyQueue = s.readyQueue)
    (hkey : s'.waitingQueue = s.waitingQueue) (hinit : s'.initStopped = s.initStopped)
    (hsleep : s'.sleepers.Perm (if flags.place = .sleep then pid :: s.sleepers else s.sleepers))
    (hread : s'.readers.Perm (if flags.place = .read then pid :: s.readers else s.readers))
    (hcpu : s'.cpu = .trigger)
    (hlate : ∀ a ∈ s'.sleepingProcesses.elements, a.process = pid → u32 (s'.ticks + 1) < a.endTick) :
    s'.Arranged := by
  subst hf
  refine ⟨horderly, hwaits, some pid, hplaced.block hp (List.mem_of_head? hhead) hflags.1
    ⟨rfl, hflags.2.1, hflags.2.2.1⟩ hprocs hready hkey hinit hsleep hread, ?_⟩
  intro q hq
  obtain rfl : pid = q := by simpa using hq
  refine ⟨Or.inl hcpu, by rw [hready, hhead], ⟨f p, ?_, hflags.2.2.2⟩, fun _ => hlate⟩
  rw [hprocs, processes_modify, hp]
  rfl

lemma not_asleep (hplaced : Placed none none s) (hhead : s.readyQueue.head? = some pid) :
    ∀ a ∈ s.sleepingProcesses.elements, a.process ≠ pid := by
  intro a ha hpid
  have hready := hplaced.located.mem_ready.mp (List.mem_of_head? hhead)
  have hsleep := hplaced.located.mem_sleep.mp (List.mem_map.mpr ⟨a, ha, hpid⟩)
  simp [hsleep] at hready

lemma starts (h : s.Arranged) (huser : s.cpu = .user) (hstarts : Starts pid p s s')
    (hflags : p.flags = {}) (hany : p.isWaitingForAnyChildToTerminate = false)
    (hwaited : p.isWaitedByParent = false) : s'.Waits ∧ Placed none none s' := by
  have hnone := h.orderly.starts_none hstarts
  exact ⟨h.waits.starts hstarts hnone hany hwaited, (h.placed_user huser).starts hstarts hnone hflags⟩

lemma execve {loads : Bool} {wakes : List ReadWake} (h : s.Arranged) (huser : s.cpu = .user)
    (horderly : s'.Orderly) (hs' : s.execve s.caller loads wakes = .ok s') : s'.Arranged := by
  have hplaced := h.placed_user huser
  rcases execve_cases hs' with rfl | ⟨p, s₁, -, hwakes, rfl⟩
  · exact of_none horderly (h.waits.modify fun _ _ => ⟨rfl, rfl, rfl, rfl, rfl⟩)
      (hplaced.modify fun _ _ => rfl)
  · have hplaced₁ := hplaced.wakeAll hwakes
    have hwaits₁ := h.waits.wakes (Wakes.wakeAll hwakes)
    refine of_none horderly ?_ ?_
    · exact Waits.modify (hwaits₁.congr rfl) fun _ _ => ⟨rfl, rfl, rfl, rfl, rfl⟩
    · exact Placed.modify (hplaced₁.congr (fun _ => rfl) rfl rfl rfl rfl rfl) fun _ _ => rfl

lemma endWait_placed {wait : ℤ} {wstatus : ℕ} (h : Placed none none s) :
    Placed none none (s.endWait pid wait wstatus) := by
  unfold endWait
  split_ifs
  · exact h.congr (fun _ => rfl) rfl rfl rfl rfl rfl
  · exact h.modify fun _ _ => rfl
  · have h₁ : Placed none none (s.modify pid (Pcb.terminateWithSignal sigsegv)) :=
      h.modify fun _ _ => rfl
    exact h₁.congr (fun _ => rfl) rfl rfl rfl rfl rfl
  · exact h.modify fun _ _ => rfl

lemma endWait_waits {wait : ℤ} {wstatus : ℕ} (h : s.Waits) : (s.endWait pid wait wstatus).Waits := by
  unfold endWait
  split_ifs
  · exact h.congr rfl
  · exact h.modify fun _ _ => ⟨rfl, rfl, rfl, rfl, rfl⟩
  · have h₁ : Waits (s.modify pid (Pcb.terminateWithSignal sigsegv)) :=
      h.modify fun _ _ => ⟨rfl, rfl, rfl, rfl, rfl⟩
    exact h₁.congr rfl
  · exact h.modify fun _ _ => ⟨rfl, rfl, rfl, rfl, rfl⟩

/-- What a process finds that waits for another. -/
structure Finds (pid : ℕ) (p : Pcb) (s : Scheduler) : Prop where
  placed : Placed none none s
  waits : s.Waits
  noExec : s.NoExec
  runs : s.runningProcess = some pid
  head : s.readyQueue.head? = some pid
  self : s.processes pid = some p
  flags : p.flags = {}

lemma Finds.zombie_ne {child : ℕ} {c : Pcb} (h : Finds pid p s) (hc : s.processes child = some c)
    (hz : c.flags.zombie) : child ≠ pid := by
  rintro rfl
  obtain rfl : p = c := by simpa [h.self] using hc
  simp [h.flags] at hz

lemma Finds.freeAny {child : ℕ} {c : Pcb} (h : Finds pid p s) (hc : s.processes child = some c)
    (hz : c.flags.zombie) (hs' : s.freeTerminatedProcess child [] = .ok s') :
    s'.Waits ∧ Placed none none s' := by
  have hplace := h.placed.still child c hc (Or.inl hz)
  have hclear := (ProcessFlags.place_eq_ready.mp hplace).2.2.2
  have hstopped : ¬ (child = 0 ∧ s.initStopped) := by
    rintro ⟨rfl, hinit⟩
    obtain ⟨c', hc', hz'⟩ := h.placed.stopped hinit
    obtain rfl : c = c' := by simpa [hc] using hc'
    simp [hz] at hz'
  refine ⟨h.waits.freeTerminatedProcess hc hclear hs',
    (h.placed.takeOut hc hz).freeTerminatedProcess hc (h.noExec child c hc) hstopped ?_ hs'⟩
  intro hparent
  rw [parentWaits, if_neg (by simp [h.waits.zombie child c hc hz])] at hparent
  obtain ⟨q, hq, hany⟩ := map_eq_ok.mp hparent
  rw [proc_eq_ok] at hq
  have hwaits := h.waits.any _ q hq hany
  refine ⟨q, hq, Or.inr ⟨?_, hwaits⟩⟩
  rw [h.runs]
  intro heq
  obtain rfl : pid = c.ppid := by simpa using heq
  obtain rfl : p = q := by simpa [h.self] using hq
  simp [h.flags] at hwaits

lemma Finds.freeOne {child : ℕ} {c : Pcb} (h : Finds pid p s) (hc : s.processes child = some c)
    (hz : c.flags.zombie) (hppid : c.ppid = pid)
    (hs' : (s.modify child fun c => { c with isWaitedByParent := true }).freeTerminatedProcess child [] =
      .ok s') : s'.Waits ∧ Placed none none s' := by
  have hplace := h.placed.still child c hc (Or.inl hz)
  have hclear := (ProcessFlags.place_eq_ready.mp hplace).2.2.2
  have hne := h.zombie_ne hc hz
  have hstopped : ¬ (child = 0 ∧ s.initStopped) := by
    rintro ⟨rfl, hinit⟩
    obtain ⟨c', hc', hz'⟩ := h.placed.stopped hinit
    obtain rfl : c = c' := by simpa [hc] using hc'
    simp [hz] at hz'
  have hout : Placed none (some child) (s.modify child fun c => { c with isWaitedByParent := true }) :=
    (h.placed.takeOut hc hz).modify fun _ _ => rfl
  refine ⟨h.waits.freeChild h.self (by rw [h.flags]) hc hppid hclear hne (h.noExec child c hc) hs',
    hout.freeTerminatedProcess (p := { c with isWaitedByParent := true }) ?_ (h.noExec child c hc) hstopped
      ?_ hs'⟩
  · rw [processes_modify, hc]
    rfl
  · intro _
    refine ⟨p, ?_, Or.inl ⟨?_, by rw [h.flags]; rfl⟩⟩
    · show (s.modify child _).processes c.ppid = some p
      rw [hppid, processes_modify_ne hne.symm, h.self]
    · show s.runningProcess = some c.ppid
      rw [h.runs, hppid]

lemma waitPid {waitedFor : ℤ} {wstatus : ℕ} (h : s.Arranged) (huser : s.cpu = .user)
    (hkept : s.Arranges (.waitPid waitedFor wstatus)) (horderly : s'.Orderly)
    (hs' : s.waitPid s.caller waitedFor wstatus = .ok s') : s'.Arranged := by
  obtain ⟨p₀, hrun, hhead, hp₀, hflags⟩ := h.orderly.caller huser
  obtain ⟨wait, s₁, hreg, rfl⟩ := waitPid_eq hs'
  obtain ⟨p, hp, hreg⟩ := registerProcessWait_cases hreg
  have hp' : p = { p₀ with esi := wstatus } := by
    rw [processes_modify, hp₀] at hp
    simpa using hp.symm
  have hfinds : Finds s.caller p (s.modify s.caller fun p => { p with esi := wstatus }) := by
    refine ⟨(h.placed_user huser).modify fun _ _ => rfl,
      h.waits.modify fun _ _ => ⟨rfl, rfl, rfl, rfl, rfl⟩, ?_, hrun, hhead, hp, by rw [hp']; exact hflags⟩
    exact (h.orderly.noExec_of_user huser).modify fun _ => rfl
  have hchild : ∀ child : ℕ, waitedFor = child → child ∈ p.children → ∀ c,
      (s.modify s.caller fun p => { p with esi := wstatus }).processes child = some c →
      c.ppid = s.caller := by
    intro child hwaited hmem c hc
    have hmem₀ : child ∈ p₀.children := by simpa [hp'] using hmem
    rcases eq_or_ne child s.caller with heq | hne
    · rw [heq, hp] at hc
      obtain rfl : p = c := by simpa using hc
      have := hkept p₀ p₀ hp₀ (by omega) (by rw [hwaited]; exact hmem₀)
        (by rw [hwaited, Int.toNat_natCast, heq, hp₀])
      rw [hp']
      exact this
    · rw [processes_modify_ne hne] at hc
      exact hkept p₀ c hp₀ (by omega) (by rw [hwaited]; exact hmem₀)
        (by rw [hwaited, Int.toNat_natCast, hc])
  have hwaitsNot : p.flags.waitingProcess = false := by rw [hfinds.flags]
  generalize s.modify s.caller (fun p => { p with esi := wstatus }) = s₀ at *
  cases hreg with
  | noChild _ _ => exact of_none horderly (endWait_waits hfinds.waits) (endWait_placed hfinds.placed)
  | anyZombie _ _ hc hz hfree =>
    obtain ⟨hwaits₁, hplaced₁⟩ := hfinds.freeAny hc hz hfree
    exact of_none horderly (endWait_waits hwaits₁) (endWait_placed hplaced₁)
  | any _ _ _ =>
    refine of_block (fun p => { p with
      isWaitingForAnyChildToTerminate := true
      flags := { p.flags with waitingProcess := true } }) { waitingProcess := true } hfinds.placed
      hfinds.head hfinds.self (by rw [hfinds.flags]) (by decide) horderly
      (endWait_waits (hfinds.waits.waitAny hfinds.self hwaitsNot)) rfl rfl rfl rfl (List.Perm.refl _)
      (List.Perm.refl _) rfl ?_
    intro a ha hpid
    exact absurd hpid (not_asleep hfinds.placed hfinds.head a ha)
  | zombie hwaited hmem hc hz hfree =>
    obtain ⟨hwaits₁, hplaced₁⟩ := hfinds.freeOne hc hz (hchild _ hwaited hmem _ hc) hfree
    exact of_none horderly (endWait_waits hwaits₁) (endWait_placed hplaced₁)
  | @one child c hwaited hmem hc hz =>
    have hppid := hchild _ hwaited hmem _ hc
    have hplaced₁ : Placed none none (s₀.modify child fun c => { c with isWaitedByParent := true }) :=
      hfinds.placed.modify fun _ _ => rfl
    obtain ⟨p₁, hp₁, hflags₁⟩ : ∃ p₁, (s₀.modify child fun c => { c with
        isWaitedByParent := true }).processes s.caller = some p₁ ∧ p₁.flags = {} := by
      rcases eq_or_ne s.caller child with rfl | hne
      · rw [processes_modify, hfinds.self]
        exact ⟨_, rfl, hfinds.flags⟩
      · rw [processes_modify_ne hne, hfinds.self]
        exact ⟨p, rfl, hfinds.flags⟩
    refine of_block (fun p => { p with flags := { p.flags with waitingProcess := true } })
      { waitingProcess := true } hplaced₁
      hfinds.head hp₁ (by rw [hflags₁]) (by decide) horderly
      (endWait_waits (hfinds.waits.waitOne hfinds.self hwaitsNot hc hppid hz)) rfl rfl rfl rfl
      (List.Perm.refl _) (List.Perm.refl _) rfl ?_
    intro a ha hpid
    exact absurd hpid (not_asleep hfinds.placed hfinds.head a ha)

/-! ## Steps -/

lemma terminate (h : s.Arranged) (pid : ℕ) (f : Pcb → Pcb) (huser : s.cpu = .user)
    (hf : ∀ p, (f p).stance = p.stance ∧ p.SameWait (f p)) :
    (s.modify pid f).Waits ∧ Placed none none (s.modify pid f) :=
  ⟨h.waits.modify fun p _ => (hf p).2, (h.placed_user huser).modify fun p _ => (hf p).1⟩

lemma step (h : s.Arranged) (hallowed : s.Allowed op) (hkept : s.Arranges op)
    (hs' : s.step op = .ok s') : s'.Arranged := by
  have horderly := h.orderly.step hallowed hs'
  cases op with
  | timer => exact h.timer hallowed hs'
  | turn wakes => exact h.turn hallowed hs'
  | key c => exact h.key hallowed hs'
  | fork =>
    obtain ⟨p₀, -, -, hp₀, hflags⟩ := h.orderly.caller hallowed
    obtain ⟨p, child, s₁, hp, hstarts, rfl⟩ := fork_cases hs'
    obtain rfl : p₀ = p := by simpa [hp₀] using hp
    obtain ⟨hwaits, hplaced⟩ := h.starts hallowed hstarts hflags rfl rfl
    exact of_none horderly (hwaits.modify fun _ _ => ⟨rfl, rfl, rfl, rfl, rfl⟩)
      (hplaced.modify fun _ _ => rfl)
  | exec ppid loads =>
    cases hs'
    rcases exec_cases s ppid loads with heq | ⟨pid, heq⟩ | ⟨pid, hstarts⟩
    · rw [heq]
      exact h
    · rw [heq] at horderly ⊢
      exact of_none horderly (h.waits.congr rfl)
        ((h.placed_user hallowed).congr (fun _ => rfl) rfl rfl rfl rfl rfl)
    · obtain ⟨hwaits, hplaced⟩ := h.starts hallowed hstarts rfl rfl rfl
      exact of_none horderly hwaits hplaced
  | startKernelProcess =>
    obtain ⟨pid, hstarts⟩ := startKernelProcess_cases hs'
    obtain ⟨hwaits, hplaced⟩ := h.starts hallowed hstarts rfl rfl rfl
    exact of_none horderly hwaits hplaced
  | stopKernelInitProcess =>
    obtain ⟨huser, hrun⟩ := hallowed
    obtain ⟨p, -, -, hp, hflags⟩ := h.orderly.caller huser
    have hcaller : s.caller = 0 := by simp [caller, hrun]
    have hmem := h.caller_mem huser
    rw [hcaller] at hp hmem
    cases hs'
    exact of_none horderly (h.waits.congr rfl) ((h.placed_user huser).stop hp hflags hmem)
  | execve loads wakes => exact h.execve hallowed horderly hs'
  | exit retVal =>
    cases hs'
    obtain ⟨hwaits, hplaced⟩ := h.terminate s.caller (Pcb.terminateWithValue retVal) hallowed
      fun p => ⟨rfl, rfl, rfl, rfl, rfl, rfl⟩
    exact of_none horderly (hwaits.congr rfl) (hplaced.congr (fun _ => rfl) rfl rfl rfl rfl rfl)
  | kill target signal =>
    cases hs'
    have hplaced := h.placed_user hallowed
    unfold Scheduler.kill at horderly ⊢
    split_ifs at horderly ⊢
    · obtain ⟨hwaits, hplaced⟩ := h.terminate target.toNat (Pcb.terminateWithSignal signal)
        hallowed fun p => ⟨rfl, rfl, rfl, rfl, rfl, rfl⟩
      refine of_none horderly ?_ ?_
      · exact (hwaits.modify (f := fun p => { p with eax := 0 }) fun _ _ =>
          ⟨rfl, rfl, rfl, rfl, rfl⟩).congr rfl
      · exact (hplaced.modify (f := fun p => { p with eax := 0 }) fun _ _ => rfl).congr (fun _ => rfl) rfl
          rfl rfl rfl rfl
    · exact of_none horderly (h.waits.modify fun _ _ => ⟨rfl, rfl, rfl, rfl, rfl⟩)
        (hplaced.modify fun _ _ => rfl)
  | waitPid waitedFor wstatus => exact h.waitPid hallowed hkept horderly hs'
  | sleep ticks =>
    obtain ⟨p, -, hhead, hp, hflags⟩ := h.orderly.caller hallowed
    obtain ⟨heap, hheap, rfl⟩ := sleep_cases hs'
    have hplaced := h.placed_user hallowed
    have hperm := MinHeap.insert_perm hheap
    refine of_block (fun p => { p with flags := { p.flags with sleeping := true } }) { sleeping := true }
      hplaced hhead hp (by rw [hflags]) (by decide) horderly ?_ rfl rfl rfl rfl
      (hperm.map AsleepProcess.process) (List.Perm.refl _) rfl ?_
    · exact (h.waits.modify (f := fun p => { p with flags := { p.flags with sleeping := true } })
        fun _ _ => ⟨rfl, rfl, rfl, rfl, rfl⟩).congr rfl
    · intro a ha hpid
      rcases List.mem_cons.mp (hperm.subset ha) with rfl | ha
      · exact hkept
      · exact absurd hpid (not_asleep hplaced hhead a ha)
  | getKey =>
    obtain ⟨p, -, hhead, hp, hflags⟩ := h.orderly.caller hallowed
    have hplaced := h.placed_user hallowed
    cases hs'
    refine of_block (fun p => { p with flags := { p.flags with waitingKey := true } })
      { waitingKey := true } hplaced hhead hp (by rw [hflags]) (by decide) horderly ?_ rfl rfl rfl rfl
      (List.Perm.refl _) (List.Perm.refl _) rfl ?_
    · exact (h.waits.modify (f := fun p => { p with flags := { p.flags with waitingKey := true } })
        fun _ _ => ⟨rfl, rfl, rfl, rfl, rfl⟩).congr rfl
    · intro a ha hpid
      exact absurd hpid (not_asleep hplaced hhead a ha)
  | readWait fd n =>
    obtain ⟨p, -, hhead, hp, hflags⟩ := h.orderly.caller hallowed
    have hplaced := h.placed_user hallowed
    cases hs'
    refine of_block (fun p => { p with flags := { p.flags with waitingRead := true } })
      { waitingRead := true } hplaced hhead hp (by rw [hflags]) (by decide) horderly ?_ rfl rfl rfl rfl
      (List.Perm.refl _) ?_ rfl ?_
    · exact (h.waits.modify (f := fun p => { p with flags := { p.flags with waitingRead := true } })
        fun _ _ => ⟨rfl, rfl, rfl, rfl, rfl⟩).congr rfl
    · show ((s.processesWaitingForRead ++ [_]).map ProcWaitingForRead.pid).Perm (s.caller :: s.readers)
      rw [List.map_append]
      exact List.perm_append_singleton _ _
    · intro a ha hpid
      exact absurd hpid (not_asleep hplaced hhead a ha)
  | wakeReaders w =>
    exact of_none horderly (h.waits.wakes (Wakes.wakeUpReadWaitingProcesses hs'))
      ((h.placed_user hallowed).wakeUpReadWaitingProcesses hs')

end Arranged

lemma arranged_boot : Arranged boot := by
  have hone : ∀ q p, boot.processes q = some p → q = 0 ∧ p = Pcb.resetQuantum { ppid := 0 } := by
    intro q p hp
    have hp : (if q = 0 then some (Pcb.resetQuantum { ppid := 0 }) else none) = some p := hp
    split_ifs at hp with hq
    exact ⟨hq, by simpa using hp.symm⟩
  have hplaces : ∀ q, boot.placeOf none q = if q = 0 then some .ready else none := by
    intro q
    unfold placeOf
    show (if q = 0 then some (Pcb.resetQuantum { ppid := 0 }) else none).bind _ = _
    split_ifs with hq
    · simp [hq, Pcb.resetQuantum, ProcessFlags.place, boot]
    · rfl
  refine .of_none orderly_boot ⟨?_, ?_, ?_, ?_⟩ ⟨⟨?_, ?_, ?_, ?_, ?_⟩, ?_, ?_, ?_, ?_⟩
  · intro q p hp hany
    obtain ⟨-, rfl⟩ := hone q p hp
    cases hany
  · intro c p hp hw
    obtain ⟨-, rfl⟩ := hone c p hp
    cases hw
  · intro c c' p p' hp _ hw
    obtain ⟨-, rfl⟩ := hone c p hp
    cases hw
  · intro q p hp hz
    obtain ⟨-, rfl⟩ := hone q p hp
    cases hz
  · intro q
    show [0].count q = _
    rw [hplaces, List.count_singleton]
    rcases eq_or_ne q 0 with rfl | hne
    · simp
    · simp [hne, hne.symm]
  · intro q
    rw [hplaces, if_neg]
    · rfl
    · split_ifs
      · simp
      · simp
  · intro q
    rw [hplaces, if_neg]
    · rfl
    · split_ifs
      · simp
      · simp
  · intro q
    rw [hplaces, if_neg]
    · rfl
    · split_ifs
      · simp
      · simp
  · intro q hq
    cases hq
  · intro q p hp
    obtain ⟨-, rfl⟩ := hone q p hp
    decide
  · intro q p hp _
    obtain ⟨-, rfl⟩ := hone q p hp
    rfl
  · intro hcon
    cases hcon
  · intro q p hp
    obtain ⟨rfl, -⟩ := hone q p hp
    decide

/-! ## Processes that have ended -/

/-- A process that has ended does not wait. -/
def Unkilled (s : Scheduler) : Prop :=
  ∀ q p, s.processes q = some p → p.flags.terminated → p.flags.place = .ready

/-- The steps after which a process that has ended is in the ready queue, and each other where its flags
say. -/
def PlacesKept (s : Scheduler) : SchedOp → Prop
  | .kill target _ => ∀ p, 0 ≤ target → s.processes target.toNat = some p → p.flags.place = .ready
  | .waitPid waitedFor wstatus => s.Arranges (.waitPid waitedFor wstatus)
  | .sleep ticks => s.Arranges (.sleep ticks)
  | _ => True

lemma PlacesKept.arranges (h : s.PlacesKept op) : s.Arranges op := by
  cases op with
  | waitPid waitedFor wstatus => exact h
  | sleep ticks => exact h
  | _ => trivial

namespace Unkilled

lemma calms {gone : Finset ℕ} (h : s.Unkilled) (hcalms : Calms gone s s') : s'.Unkilled := by
  intro q p' hp' hterm
  obtain ⟨p, hp, hcalm⟩ := hcalms.alters q p' hp'
  exact hcalm.place_ready (h q p hp (hcalm.terminated ▸ hterm))

lemma congr (h : s.Unkilled) (hprocs : s'.processes = s.processes) : s'.Unkilled := by
  intro q p hp
  rw [hprocs] at hp
  exact h q p hp

lemma modify {f : Pcb → Pcb} (h : s.Unkilled)
    (hf : ∀ p, s.processes pid = some p → (f p).flags.terminated → (f p).flags.place = .ready)
    (hprocs : s'.processes = (s.modify pid f).processes) : s'.Unkilled := by
  intro q p' hp' hterm
  rw [hprocs] at hp'
  rcases eq_or_ne q pid with rfl | hne
  · rw [processes_modify] at hp'
    obtain ⟨p, hp, rfl⟩ := Option.map_eq_some_iff.mp hp'
    exact hf p hp hterm
  · rw [processes_modify_ne hne] at hp'
    exact h q p' hp' hterm

lemma replace {r : Pcb} (h : s.Unkilled) (hr : r.flags.place = .ready)
    (hprocs : s'.processes = Function.update s.processes pid (some r)) : s'.Unkilled := by
  intro q p' hp' hterm
  rw [hprocs] at hp'
  rcases eq_or_ne q pid with rfl | hne
  · rw [Function.update_self, Option.some.injEq] at hp'
    rw [← hp', hr]
  · rw [Function.update_of_ne hne] at hp'
    exact h q p' hp' hterm

lemma runFirst (h : s.Unkilled) (hp : p.flags.place = .ready) : (s.runFirst pid p).Unkilled := by
  unfold Scheduler.runFirst
  split_ifs
  · exact h.replace (r := p.resumed) hp rfl
  · exact h.replace (r := p.resetQuantum) hp rfl

lemma turn {wakes : List ReadWake} (h : s.Unkilled) (horderly : s.Orderly)
    (hs' : s.turn wakes = .ok s') : s'.Unkilled := by
  rcases turn_cases hs' with ⟨hready, rfl⟩ | ⟨hready, hp, hterm, hs'⟩ | ⟨hready, hp, hflags, rfl⟩ |
    ⟨hready, hp, hflags, rfl⟩ | ⟨hready, hp, hexec, hr, hs₁, rfl⟩ | ⟨hready, hp, hflags, rfl⟩
  case idle =>
    refine h.congr ?_
    unfold noProcess
    split_ifs
    · rfl
    · rfl
  case ended pid rest p =>
    obtain ⟨p', hp', ⟨-, -, -, -, hzombie⟩ | ⟨-, hfree⟩⟩ := relinquish_cases hs'
    · have hz : Unkilled (((s.lookAt pid).setReadyQueue (s.lookAt pid).readyQueue.tail).modify pid fun p =>
          { p with flags := { p.flags with zombie := true } }) :=
        h.modify (f := fun p => { p with flags := { p.flags with zombie := true } }) (h pid) rfl
      exact hz.calms (Calms.preFree hzombie)
    · obtain ⟨p'', -, -, hcalms⟩ := Calms.freeTerminatedProcess hfree
      refine calms (h.congr ?_) hcalms
      split_ifs
      · rfl
      · rfl
  case key pid rest p => exact h.congr rfl
  case blocked pid rest p => exact h.congr rfl
  case replaced pid rest p r s₁ =>
    obtain ⟨-, -, hflags, r', hr', hrep⟩ := horderly.exec pid p hp hexec
    obtain rfl : r = r' := by simpa [hr] using hr'
    have hplace : r.flags.place = .ready := by
      rw [hrep.flags]
      rfl
    have hmark : (s.markReplaced pid).Unkilled := by
      refine h.modify ?_ rfl
      intro p' hp' _
      obtain rfl : p = p' := by simpa [hp] using hp'
      rw [hflags]
      rfl
    exact ((hmark.calms (Calms.preFree hs₁)).replace hplace rfl).runFirst hplace
  case runs pid rest p =>
    have hplace : p.flags.place = .ready := by
      rw [horderly.flags_of_runs hp hflags]
      rfl
    have hlook : (s.lookAt pid).Unkilled := h.congr rfl
    exact hlook.runFirst hplace

lemma mark {f : Pcb → Pcb} (h : s.Unkilled) (horderly : s.Orderly) (huser : s.cpu = .user)
    (hf : ∀ p, (f p).flags.terminated = p.flags.terminated)
    (hprocs : s'.processes = (s.modify s.caller f).processes) : s'.Unkilled := by
  obtain ⟨p, -, -, hp, hflags⟩ := horderly.caller huser
  refine h.modify ?_ hprocs
  intro p' hp' hterm
  obtain rfl : p = p' := by simpa [hp] using hp'
  simp [hf, hflags] at hterm

lemma endWait {wait : ℤ} {wstatus : ℕ} (h : s.Unkilled) (hp : s.processes pid = some p)
    (hplace : p.flags.place = .ready) : (s.endWait pid wait wstatus).Unkilled := by
  unfold Scheduler.endWait
  split_ifs
  · exact h.congr rfl
  · exact h.modify (f := fun p => { p with eax := wait }) (h pid) rfl
  · refine h.modify (f := Pcb.terminateWithSignal sigsegv) ?_ rfl
    intro p' hp' _
    obtain rfl : p = p' := by simpa [hp] using hp'
    exact hplace
  · exact h.modify (f := fun p => { p with
      words := Function.update p.words wstatus (wait * 256), eax := wait }) (h pid) rfl

lemma freeZombie {child : ℕ} {c : Pcb} (h : s.Unkilled) (hno : s.NoExec)
    (hp : s.processes pid = some p) (hflags : p.flags = {}) (hc : s.processes child = some c)
    (hz : c.flags.zombie) (hs' : s.freeTerminatedProcess child [] = .ok s') :
    s'.Unkilled ∧ ∃ p', s'.processes pid = some p' ∧ p'.flags.place = .ready := by
  obtain ⟨c', hc', -, hcalms⟩ := Calms.freeTerminatedProcess hs'
  obtain rfl : c = c' := by simpa [hc] using hc'
  rw [if_neg (by simp [hno child c hc])] at hcalms
  have hne : pid ∉ ({child} : Finset ℕ) := by
    rw [Finset.mem_singleton]
    rintro rfl
    obtain rfl : p = c := by simpa [hp] using hc
    simp [hflags] at hz
  obtain ⟨p', hp', hcalm⟩ := hcalms.kept hp hne
  exact ⟨h.calms hcalms, p', hp', hcalm.place_ready (by rw [hflags]; rfl)⟩

lemma waitPid {waitedFor : ℤ} {wstatus : ℕ} (h : s.Unkilled) (horderly : s.Orderly)
    (huser : s.cpu = .user) (hs' : s.waitPid s.caller waitedFor wstatus = .ok s') : s'.Unkilled := by
  obtain ⟨p₀, -, -, hp₀, hflags⟩ := horderly.caller huser
  obtain ⟨wait, s₁, hreg, rfl⟩ := waitPid_eq hs'
  obtain ⟨p, hp, hreg⟩ := registerProcessWait_cases hreg
  have hp' : p.flags = {} := by
    rw [processes_modify, hp₀] at hp
    obtain rfl : _ = p := by simpa using hp
    exact hflags
  have hready : p.flags.place = .ready := by
    rw [hp']
    rfl
  have h₀ : (s.modify s.caller fun p => { p with esi := wstatus }).Unkilled :=
    h.modify (f := fun p => { p with esi := wstatus }) (h s.caller) rfl
  have hno : (s.modify s.caller fun p => { p with esi := wstatus }).NoExec :=
    (horderly.noExec_of_user huser).modify fun _ => rfl
  generalize s.modify s.caller (fun p => { p with esi := wstatus }) = s₀ at *
  cases hreg with
  | noChild _ _ => exact h₀.endWait hp hready
  | anyZombie _ _ hc hz hfree =>
    obtain ⟨h₁, p₁, hp₁, hplace₁⟩ := h₀.freeZombie hno hp hp' hc hz hfree
    exact h₁.endWait hp₁ hplace₁
  | any _ _ _ =>
    refine h₀.modify (f := fun p => { p with
      isWaitingForAnyChildToTerminate := true
      flags := { p.flags with waitingProcess := true } }) ?_ rfl
    intro p' hp'' hterm
    obtain rfl : p = p' := by simpa [hp] using hp''
    simp [hp'] at hterm
  | @zombie child c s₂ _ _ hc hz hfree =>
    have hmark : (s₀.modify child fun c => { c with isWaitedByParent := true }).Unkilled :=
      h₀.modify (f := fun c => { c with isWaitedByParent := true }) (h₀ child) rfl
    have hne : s.caller ≠ child := by
      rintro rfl
      obtain rfl : p = c := by simpa [hp] using hc
      simp [hp'] at hz
    obtain ⟨h₁, p₁, hp₁, hplace₁⟩ := hmark.freeZombie (c := { c with isWaitedByParent := true })
      (hno.modify fun _ => rfl) (by rw [processes_modify_ne hne, hp]) hp'
      (by rw [processes_modify, hc]; rfl) hz hfree
    exact h₁.endWait hp₁ hplace₁
  | @one child c _ _ hc hz =>
    have hmark : (s₀.modify child fun c => { c with isWaitedByParent := true }).Unkilled :=
      h₀.modify (f := fun c => { c with isWaitedByParent := true }) (h₀ child) rfl
    refine hmark.modify (f := fun p => { p with
      flags := { p.flags with waitingProcess := true } }) ?_ rfl
    intro p' hp'' hterm
    have hterm' : p'.flags.terminated := hterm
    rcases eq_or_ne s.caller child with heq | hne
    · rw [← heq, processes_modify, hp] at hp''
      obtain rfl : _ = p' := by simpa using hp''
      simp [hp'] at hterm'
    · rw [processes_modify_ne hne, hp] at hp''
      obtain rfl : p = p' := by simpa using hp''
      simp [hp'] at hterm'

lemma step (h : s.Unkilled) (horderly : s.Orderly) (hallowed : s.Allowed op) (hkept : s.PlacesKept op)
    (hs' : s.step op = .ok s') : s'.Unkilled := by
  cases op with
  | timer =>
    obtain ⟨s₁, hs₁, hs'⟩ := bind_eq_ok.mp hs'
    cases hs'
    have h₀ : Unkilled { s with ticks := u32 (s.ticks + 1) } := h
    exact (h₀.calms (Wakes.checkForProcessesToWakeUp hs₁).calms).congr rfl
  | turn wakes => exact h.turn horderly hs'
  | key c => exact h.calms (Wakes.wakeUpKeyWaitingProcesses hs').calms
  | fork =>
    obtain ⟨p₀, -, -, hp₀, hflags⟩ := horderly.caller hallowed
    obtain ⟨p, child, s₁, hp, hstarts, rfl⟩ := fork_cases hs'
    obtain rfl : p₀ = p := by simpa [hp₀] using hp
    have h₁ : s₁.Unkilled := by
      refine h.replace (r := (p₀.forked s.caller).resetQuantum) ?_ (by rw [hstarts.eq])
      show p₀.flags.place = .ready
      rw [hflags]
      rfl
    exact h₁.calms (.modify _ _ fun _ _ => .of_flags rfl)
  | exec ppid loads =>
    cases hs'
    rcases exec_cases s ppid loads with heq | ⟨pid, heq⟩ | ⟨pid, hstarts⟩
    · rw [heq]
      exact h
    · rw [heq]
      exact h
    · exact h.replace (r := Pcb.resetQuantum { ppid }) rfl (by rw [hstarts.eq])
  | startKernelProcess =>
    obtain ⟨pid, hstarts⟩ := startKernelProcess_cases hs'
    exact h.replace (r := Pcb.resetQuantum { ppid := pid, priority := 2 }) rfl (by rw [hstarts.eq])
  | stopKernelInitProcess =>
    cases hs'
    exact h
  | execve loads wakes =>
    rcases execve_cases hs' with rfl | ⟨p, s₁, -, hwakes, rfl⟩
    · exact h.calms (.modify _ _ fun _ _ => .of_flags rfl)
    · have h₁ := h.calms (Wakes.wakeAll hwakes).calms
      exact h₁.modify (f := fun p => { p with flags := { p.flags with exec := true } }) (h₁ s.caller) rfl
  | exit retVal =>
    obtain ⟨p, -, -, hp, hflags⟩ := horderly.caller hallowed
    cases hs'
    refine h.modify (f := Pcb.terminateWithValue retVal) ?_ rfl
    intro p' hp' _
    obtain rfl : p = p' := by simpa [hp] using hp'
    show p.flags.place = .ready
    rw [hflags]
    rfl
  | kill target signal =>
    cases hs'
    unfold Scheduler.kill
    split_ifs with htarget
    · have h₁ : (s.modify target.toNat (Pcb.terminateWithSignal signal)).Unkilled := by
        refine h.modify ?_ rfl
        intro p hp _
        exact hkept p htarget.1 hp
      exact h₁.modify (f := fun p => { p with eax := 0 }) (h₁ s.caller) rfl
    · exact h.calms (.modify _ _ fun _ _ => .of_flags rfl)
  | waitPid waitedFor wstatus => exact h.waitPid horderly hallowed hs'
  | sleep ticks =>
    obtain ⟨heap, -, rfl⟩ := sleep_cases hs'
    exact h.mark (f := fun p => { p with flags := { p.flags with sleeping := true } }) horderly hallowed
      (fun _ => rfl) rfl
  | getKey =>
    cases hs'
    exact h.mark (f := fun p => { p with flags := { p.flags with waitingKey := true } }) horderly hallowed
      (fun _ => rfl) rfl
  | readWait fd n =>
    cases hs'
    exact h.mark (f := fun p => { p with flags := { p.flags with waitingRead := true } }) horderly hallowed
      (fun _ => rfl) rfl
  | wakeReaders w => exact h.calms (Wakes.wakeUpReadWaitingProcesses hs').calms

end Unkilled

/-! ## Runs -/

/-- How often a process is in a place; who is blocked in `waitpid` has its flag set. -/
def occurs (s : Scheduler) (q : ℕ) : Place → ℕ
  | .ready => s.readyQueue.count q
  | .key => s.waitingQueue.count q
  | .sleep => s.sleepers.count q
  | .read => s.readers.count q
  | .wait => if (s.processes q).any fun p => p.flags.waitingProcess then 1 else 0

/-- No process is twice in the ready queue.  Unless a call that blocks is under way, each process that is
no zombie is once in one place: the ready queue when it has ended, and the place its flags name
otherwise.  The init process is nowhere once it is stopped. -/
def InOnePlace (s : Scheduler) : Prop :=
  s.readyQueue.Nodup ∧ (s.cpu ≠ .trigger → s.cpu ≠ .scheduling → ∀ q p, s.processes q = some p →
    ¬ p.flags.zombie → ¬ (q = 0 ∧ s.initStopped) → ∀ b,
      s.occurs q b = if b = (if p.flags.terminated then .ready else p.flags.place) then 1 else 0)

lemma Arranged.inOnePlace (h : s.Arranged) (hunkilled : s.Unkilled) : s.InOnePlace := by
  refine ⟨?_, ?_⟩
  · obtain ⟨mid, hplaced, -⟩ := h.placed
    exact hplaced.located.nodup_ready
  · intro htrigger hscheduling q p hp hz hstopped
    have hplaced := h.placed_none htrigger hscheduling
    have hat : s.placeOf none q = some p.flags.place :=
      placeOf_eq_some.mpr ⟨p, hp, rfl, by simp [hz]; simpa using hstopped⟩
    have hplace : (if p.flags.terminated then Place.ready else p.flags.place) = p.flags.place := by
      split_ifs with hterm
      · exact (hunkilled q p hp hterm).symm
      · rfl
    rw [hplace]
    intro b
    cases b with
    | ready =>
      rw [occurs, hplaced.located.ready, hat]
      simp [eq_comm]
    | key =>
      rw [occurs, hplaced.located.key, hat]
      simp [eq_comm]
    | sleep =>
      rw [occurs, hplaced.located.sleep, hat]
      simp [eq_comm]
    | read =>
      rw [occurs, hplaced.located.read, hat]
      simp [eq_comm]
    | wait =>
      have hwait := (hplaced.single q p hp).place_eq_wait
      show (if (s.processes q).any fun p => p.flags.waitingProcess then 1 else 0) = _
      rw [hp]
      by_cases hflag : p.flags.waitingProcess = true
      · simp [hflag, hwait.mpr hflag]
      · have hne : ¬ Place.wait = p.flags.place := fun heq => hflag (hwait.mp heq.symm)
        simp [hflag, hne]

lemma unkilled_boot : boot.Unkilled := by
  intro q p hp hterm
  have hp : (if q = 0 then some (Pcb.resetQuantum { ppid := 0 }) else none) = some p := hp
  split_ifs at hp
  cases hp
  cases hterm

lemma inOnePlace_boot : boot.InOnePlace := arranged_boot.inOnePlace unkilled_boot

instance decidablePlacesKept (s : Scheduler) : DecidablePred s.PlacesKept
  | .kill target _ => decidable_of_iff
      (0 ≤ target → (s.processes target.toNat).all fun p => decide (p.flags.place = .ready)) (by
        simp only [Option.all_eq_true, decide_eq_true_eq, PlacesKept]
        tauto)
  | .waitPid waitedFor _ => decidable_of_iff
      ((s.processes s.caller).all fun p => decide (0 ≤ waitedFor → waitedFor.toNat ∈ p.children →
        (s.processes waitedFor.toNat).all fun c => decide (c.ppid = s.caller))) (by
        simp only [Option.all_eq_true, decide_eq_true_eq, PlacesKept, Arranges]
        tauto)
  | .sleep ticks => inferInstanceAs (Decidable
      (u32 (s.ticks + 1) < u32 (s.ticks + if ticks = 0 then 1 else ticks)))
  | .timer | .turn _ | .key _ | .fork | .exec .. | .startKernelProcess | .stopKernelInitProcess
  | .execve .. | .exit _ | .getKey | .readWait .. | .wakeReaders _ => inferInstanceAs (Decidable True)

lemma not_inOnePlace {ops : List SchedOp}
    (h : (ops.foldlM step boot).toOption.any (fun s => ¬ s.readyQueue.Nodup ∨ s.cpu = .user ∧
      q ∉ s.readyQueue ∧ q ≠ 0 ∧ (s.processes q).any fun p => p.flags.terminated && !p.flags.zombie)) :
    ¬ EachCall step (After step InOnePlace) ops boot := by
  intro hafter
  obtain ⟨s, hrun, hwrong⟩ := exists_reached h
  obtain ⟨hnodup, hplaces⟩ := hafter.reached inOnePlace_boot s hrun
  rw [decide_eq_true_eq] at hwrong
  rcases hwrong with htwice | ⟨huser, hcount, hne, hended⟩
  · exact htwice hnodup
  · obtain ⟨p, hp, hflags⟩ := (Option.any_eq_true ..).mp hended
    rw [Bool.and_eq_true, Bool.not_eq_true'] at hflags
    have hready := hplaces (by simp [huser]) (by simp [huser]) q p hp (by simp [hflags.2]) (by simp [hne])
      .ready
    rw [if_pos hflags.1, if_pos rfl, occurs, List.count_eq_zero_of_not_mem hcount] at hready
    cases hready

end Scheduler

end BrebOS
