import BrebOS.Processes.Scheduler.Effects

/-!
# What holds in every run

Whatever processes do, the one that runs is the first of the ready queue and has no flags set, the
processes in the table have their pids reserved, and a process that is about to be replaced is the first
to be scheduled.
-/

namespace BrebOS

/-- The replacement of a process has its family, and no flags. -/
structure Pcb.Replaces (r p : Pcb) : Prop where
  flags : r.flags = {}
  ppid : r.ppid = p.ppid
  children : r.children = p.children
  any : r.isWaitingForAnyChildToTerminate = p.isWaitingForAnyChildToTerminate
  waited : r.isWaitedByParent = p.isWaitedByParent

namespace Scheduler

variable {s s' : Scheduler} {pid q : ℕ} {p : Pcb} {f : Pcb → Pcb} {gone : Finset ℕ}

/-- Nobody is about to be replaced. -/
def NoExec (s : Scheduler) : Prop := ∀ q p, s.processes q = some p → p.flags.exec = false

lemma NoExec.modify (h : s.NoExec) (hf : ∀ p, (f p).flags.exec = p.flags.exec) :
    (s.modify pid f).NoExec := by
  intro q p' hp'
  rcases eq_or_ne q pid with rfl | hne
  · rw [processes_modify] at hp'
    obtain ⟨p, hp, rfl⟩ := Option.map_eq_some_iff.mp hp'
    rw [hf]
    exact h q p hp
  · rw [processes_modify_ne hne] at hp'
    exact h q p' hp'

structure Orderly (s : Scheduler) : Prop where
  pooled : ∀ q p, s.processes q = some p → s.pidPool q = true ∧ q < maxProcesses
  zombie : ∀ q p, s.processes q = some p → p.flags.zombie → p.flags.terminated
  user : s.cpu = .user → ∃ pid p, s.runningProcess = some pid ∧ s.readyQueue.head? = some pid ∧
    s.processes pid = some p ∧ p.flags = {}
  exec : ∀ q p, s.processes q = some p → p.flags.exec →
    (s.cpu = .trigger ∨ s.cpu = .scheduling) ∧ s.readyQueue.head? = some q ∧
      p.flags = { exec := true } ∧ ∃ r, s.execReplacement q = some r ∧ r.Replaces p

namespace Orderly

lemma noExec_of_user (h : s.Orderly) (huser : s.cpu = .user) : s.NoExec := by
  intro q p hp
  by_contra hexec
  have hcpu := (h.exec q p hp (by simpa using hexec)).1
  simp [huser] at hcpu

lemma noExec_of_head (h : s.Orderly) (hhead : s.readyQueue.head? = some pid)
    (hp : s.processes pid = some p) (hflags : p.flags ≠ { exec := true }) : s.NoExec := by
  intro q p' hp'
  by_contra hexec
  obtain ⟨-, hhead', hflags', -⟩ := h.exec q p' hp' (by simpa using hexec)
  obtain rfl : pid = q := by simpa [hhead] using hhead'
  obtain rfl : p = p' := by simpa [hp] using hp'
  exact hflags hflags'

lemma caller (h : s.Orderly) (huser : s.cpu = .user) : ∃ p, s.runningProcess = some s.caller ∧
    s.readyQueue.head? = some s.caller ∧ s.processes s.caller = some p ∧ p.flags = {} := by
  obtain ⟨pid, p, hrun, hhead, hp, hflags⟩ := h.user huser
  have hcaller : s.caller = pid := by simp [Scheduler.caller, hrun]
  rw [hcaller]
  exact ⟨p, hrun, hhead, hp, hflags⟩

lemma head?_of_longer {l l' : List ℕ} (h : l <+: l') (hhead : l.head? = some pid) :
    l'.head? = some pid := by
  obtain ⟨t, rfl⟩ := h
  simp [List.head?_append, hhead]

lemma of_idle (hpooled : ∀ q p, s.processes q = some p → s.pidPool q = true ∧ q < maxProcesses)
    (hzombie : ∀ q p, s.processes q = some p → p.flags.zombie → p.flags.terminated)
    (hcpu : s.cpu ≠ .user) (hexec : s.NoExec) : s.Orderly := by
  refine ⟨hpooled, hzombie, fun huser => absurd huser hcpu, ?_⟩
  intro q p hp hex
  rw [hexec q p hp] at hex
  cases hex

lemma noExec_calms (h : s.NoExec) (hcalms : Calms gone s s') : s'.NoExec := by
  intro q p' hp'
  obtain ⟨p, hp, hcalm⟩ := hcalms.alters q p' hp'
  rw [hcalm.exec]
  exact h q p hp

lemma pooled_calms (h : s.Orderly) (hcalms : Calms gone s s') :
    ∀ q p, s'.processes q = some p → s'.pidPool q = true ∧ q < maxProcesses := by
  intro q p' hp'
  obtain ⟨p, hp, -⟩ := hcalms.alters q p' hp'
  obtain ⟨hpool, hlt⟩ := h.pooled q p hp
  have hgone : q ∉ gone := by
    intro hq
    have hnone := (hcalms.none_iff q).mpr (Or.inr hq)
    simp [hnone] at hp'
  exact ⟨by simp [hcalms.pool, hpool, hgone], hlt⟩

lemma zombie_calms (h : s.Orderly) (hcalms : Calms gone s s') :
    ∀ q p, s'.processes q = some p → p.flags.zombie → p.flags.terminated := by
  intro q p' hp' hz
  obtain ⟨p, hp, hcalm⟩ := hcalms.alters q p' hp'
  rw [hcalm.terminated]
  exact h.zombie q p hp (hcalm.zombie ▸ hz)

lemma calms (h : s.Orderly) (hcalms : Calms gone s s') (hexec : s.NoExec)
    (hrun : ∀ pid, s.cpu = .user → s.runningProcess = some pid → pid ∉ gone) : s'.Orderly := by
  refine ⟨h.pooled_calms hcalms, h.zombie_calms hcalms, ?_, ?_⟩
  · intro huser
    rw [hcalms.same.cpu] at huser
    obtain ⟨pid, p, hrunning, hhead, hp, hflags⟩ := h.user huser
    obtain ⟨p', hp', hcalm⟩ := hcalms.kept hp (hrun pid huser hrunning)
    exact ⟨pid, p', by rw [hcalms.same.runningProcess, hrunning],
      head?_of_longer hcalms.ready hhead, hp', hcalm.flags_eq hflags⟩
  · intro q p hp hex
    rw [noExec_calms hexec hcalms q p hp] at hex
    cases hex

lemma wakes (h : s.Orderly) (hwakes : Wakes s s') : s'.Orderly := by
  refine ⟨h.pooled_calms hwakes.calms, h.zombie_calms hwakes.calms, ?_, ?_⟩
  · intro huser
    rw [hwakes.same.cpu] at huser
    have := h.calms hwakes.calms (h.noExec_of_user huser) (by simp)
    exact this.user (hwakes.same.cpu.trans huser)
  · intro q p' hp' hex
    obtain ⟨p, hp, hwoken⟩ := hwakes.alters q p' hp'
    obtain ⟨hcpu, hhead, hflags, r, hr, hrep⟩ := h.exec q p hp (hwoken.exec ▸ hex)
    refine ⟨by rw [hwakes.same.cpu]; exact hcpu, head?_of_longer hwakes.ready hhead, ?_, r,
      by rw [hwakes.same.execReplacement, hr], ?_⟩
    · have h₁ := hwoken.terminated
      have h₂ := hwoken.zombie
      have h₃ := hwoken.waitingKey
      have h₄ := hwoken.waitingProcess
      have h₅ := hwoken.sleeping
      have h₆ := hwoken.waitingRead
      rw [hflags] at h₁ h₂ h₃ h₄ h₅ h₆
      rcases hflags' : p'.flags with ⟨_, _, _, _, _, _, _⟩
      simp_all
    · have hrest := hwoken.rest
      exact ⟨hrep.flags, by rw [hrep.ppid, hrest], by rw [hrep.children, hrest],
        by rw [hrep.any, hrest], by rw [hrep.waited, hrest]⟩

lemma mark (h : s.Orderly) (pid : ℕ) (f : Pcb → Pcb) (huser : s.cpu = .user)
    (hf : ∀ p, (f p).flags.zombie = p.flags.zombie ∧ (f p).flags.exec = p.flags.exec ∧
      (p.flags.terminated → (f p).flags.terminated))
    (hprocs : s'.processes = (s.modify pid f).processes) (hpool : s'.pidPool = s.pidPool)
    (hcpu : s'.cpu ≠ .user) : s'.Orderly := by
  have hold : ∀ q p', s'.processes q = some p' → ∃ p, s.processes q = some p ∧
      p'.flags.zombie = p.flags.zombie ∧ p'.flags.exec = p.flags.exec ∧
      (p.flags.terminated → p'.flags.terminated) := by
    intro q p' hp'
    rw [hprocs] at hp'
    rcases eq_or_ne q pid with rfl | hne
    · rw [processes_modify] at hp'
      obtain ⟨p, hp, rfl⟩ := Option.map_eq_some_iff.mp hp'
      exact ⟨p, hp, hf p⟩
    · rw [processes_modify_ne hne] at hp'
      exact ⟨p', hp', rfl, rfl, id⟩
  refine of_idle ?_ ?_ hcpu ?_
  · intro q p' hp'
    obtain ⟨p, hp, -⟩ := hold q p' hp'
    rw [hpool]
    exact h.pooled q p hp
  · intro q p' hp' hz
    obtain ⟨p, hp, hzombie, -, hterm⟩ := hold q p' hp'
    exact hterm (h.zombie q p hp (hzombie ▸ hz))
  · intro q p' hp'
    obtain ⟨p, hp, -, hexec, -⟩ := hold q p' hp'
    rw [hexec]
    exact h.noExec_of_user huser q p hp

end Orderly

/-! ## New processes -/

lemma getFreePid_spec (h : s.getFreePid = (some pid, s')) : pid < maxProcesses ∧
    s.pidPool pid = false ∧ s' = { s with pidPool := Function.update s.pidPool pid true } := by
  unfold getFreePid at h
  rcases hfind : (List.range maxProcesses).find? (fun i => !s.pidPool i) with _ | i
  · simp [hfind] at h
  · rw [hfind] at h
    obtain ⟨rfl, rfl⟩ : i = pid ∧ _ = s' := by simpa using h
    have hmem := List.mem_of_find?_eq_some hfind
    have hfree := List.find?_some hfind
    exact ⟨by simpa using hmem, by simpa using hfree, rfl⟩

lemma getFreePid_none : s.getFreePid.1 = none ↔ ∀ i < maxProcesses, s.pidPool i = true := by
  unfold getFreePid
  rcases hfind : (List.range maxProcesses).find? (fun i => !s.pidPool i) with _ | i
  · simpa using hfind
  · have hmem := List.mem_of_find?_eq_some hfind
    have hfree := List.find?_some hfind
    simp only [reduceCtorEq, false_iff, not_forall]
    exact ⟨i, by simpa using hmem, by simpa using hfree⟩

/-- A process is in the table under a pid of its own, and at the end of the ready queue. -/
structure Starts (pid : ℕ) (p : Pcb) (s s' : Scheduler) : Prop where
  lt : pid < maxProcesses
  free : s.pidPool pid = false
  eq : s' = { s with
    pidPool := Function.update s.pidPool pid true
    processes := Function.update s.processes pid (some p.resetQuantum)
    readyQueue := enqueue s.readyQueue pid }

lemma starts_of_getFreePid (h : s.getFreePid = (some pid, s')) :
    Starts pid p s (s'.setProcessReady pid p) := by
  obtain ⟨hlt, hfree, rfl⟩ := getFreePid_spec h
  exact ⟨hlt, hfree, rfl⟩

namespace Orderly

lemma starts_none (h : s.Orderly) (hstarts : Starts pid p s s') : s.processes pid = none := by
  rcases hp : s.processes pid with _ | p
  · rfl
  · simpa [hstarts.free] using (h.pooled pid p hp).1

lemma starts (h : s.Orderly) (huser : s.cpu = .user) (hstarts : Starts pid p s s')
    (hflags : p.flags = {}) : s'.Orderly := by
  have hnone := h.starts_none hstarts
  have hprocs : s'.processes = Function.update s.processes pid (some p.resetQuantum) := by
    rw [hstarts.eq]
  have hpool : s'.pidPool = Function.update s.pidPool pid true := by rw [hstarts.eq]
  refine ⟨?_, ?_, ?_, ?_⟩
  · intro q p' hp'
    rw [hprocs] at hp'
    rw [hpool]
    rcases eq_or_ne q pid with rfl | hne
    · exact ⟨Function.update_self .., hstarts.lt⟩
    · rw [Function.update_of_ne hne] at hp' ⊢
      exact h.pooled q p' hp'
  · intro q p' hp' hz
    rw [hprocs] at hp'
    rcases eq_or_ne q pid with rfl | hne
    · rw [Function.update_self, Option.some.injEq] at hp'
      subst hp'
      simp [Pcb.resetQuantum, hflags] at hz
    · rw [Function.update_of_ne hne] at hp'
      exact h.zombie q p' hp' hz
  · intro _
    obtain ⟨run, p', hrun, hhead, hp', hflags'⟩ := h.user huser
    have hne : run ≠ pid := by
      rintro rfl
      simp [hnone] at hp'
    refine ⟨run, p', by rw [hstarts.eq]; exact hrun, ?_, ?_, hflags'⟩
    · rw [hstarts.eq]
      exact head?_of_longer (Alters.enqueueReady (R := Pcb.Calm) s pid).ready hhead
    · rw [hprocs, Function.update_of_ne hne, hp']
  · intro q p' hp' hex
    rw [hprocs] at hp'
    rcases eq_or_ne q pid with rfl | hne
    · rw [Function.update_self, Option.some.injEq] at hp'
      subst hp'
      simp [Pcb.resetQuantum, hflags] at hex
    · rw [Function.update_of_ne hne] at hp'
      rw [h.noExec_of_user huser q p' hp'] at hex
      cases hex

end Orderly

/-! ## Turns -/

/-- The first process of the ready queue is looked at. -/
abbrev lookAt (s : Scheduler) (pid : ℕ) : Scheduler := { s with runningProcess := some pid }

/-- The first process is marked as ended, for its replacement to take its place. -/
abbrev markReplaced (s : Scheduler) (pid : ℕ) : Scheduler :=
  (s.lookAt pid).modify pid fun p => { p with flags := { p.flags with terminated := true } }

lemma relinquish_cases {wakes : List ReadWake}
    (h : s.relinquishFirstReadyProcess pid wakes = .ok s') : ∃ p, s.processes pid = some p ∧
    ((p.ppid ≠ pid ∧ p.flags.exec = false ∧ p.isWaitedByParent = false ∧
        (∃ q, s.processes p.ppid = some q ∧ q.isWaitingForAnyChildToTerminate = false) ∧
        ((s.setReadyQueue s.readyQueue.tail).modify pid fun p =>
          { p with flags := { p.flags with zombie := true } }).preFree pid p wakes = .ok s') ∨
      ((p.ppid = pid ∨ p.flags.exec ∨ p.isWaitedByParent ∨
          ∃ q, s.processes p.ppid = some q ∧ q.isWaitingForAnyChildToTerminate) ∧
        (if p.flags.exec then s else s.setReadyQueue s.readyQueue.tail).freeTerminatedProcess pid wakes =
          .ok s')) := by
  obtain ⟨p, hp, h⟩ := bind_eq_ok.mp h
  rw [proc_eq_ok] at hp
  refine ⟨p, hp, ?_⟩
  by_cases hself : p.ppid = pid
  · simp only [if_pos hself] at h
    exact Or.inr ⟨Or.inl hself, h⟩
  simp only [if_neg hself] at h
  obtain ⟨parent, hparent, h⟩ := bind_eq_ok.mp h
  have hparent : s.processes p.ppid = some parent := by
    rw [proc_eq_ok] at hparent
    split_ifs at hparent
    · exact hparent
    · exact hparent
  by_cases hwaits : ¬ parent.isWaitingForAnyChildToTerminate ∧ ¬ p.isWaitedByParent ∧ ¬ p.flags.exec
  · rw [if_pos hwaits] at h
    simp only [Bool.not_eq_true] at hwaits
    obtain ⟨hany, hwaited, hexec⟩ := hwaits
    simp only [hexec, Bool.false_eq_true, if_false] at h
    exact Or.inl ⟨hself, hexec, hwaited, ⟨parent, hparent, hany⟩, h⟩
  · rw [if_neg hwaits] at h
    refine Or.inr ⟨?_, h⟩
    by_contra hcon
    simp only [not_or, not_exists, not_and] at hcon
    exact hwaits ⟨hcon.2.2.2 parent hparent, hcon.2.2.1, hcon.2.1⟩

lemma relinquish_exec {wakes : List ReadWake} (hp : s.processes pid = some p) (hexec : p.flags.exec)
    (hterm : p.flags.terminated) (h : s.relinquishFirstReadyProcess pid wakes = .ok s') :
    s.preFree pid p wakes = .ok s' := by
  obtain ⟨p', hp', hcases⟩ := relinquish_cases h
  obtain rfl : p = p' := by simpa [hp] using hp'
  rcases hcases with ⟨-, hno, -⟩ | ⟨-, hfree⟩
  · simp [hexec] at hno
  · rw [if_pos hexec] at hfree
    obtain ⟨p', hp', hfree⟩ := bind_eq_ok.mp hfree
    rw [proc_eq_ok, hp, Option.some.injEq] at hp'
    subst hp'
    simpa [hterm, hexec] using hfree

/-- What a turn does. -/
inductive Turns (wakes : List ReadWake) (s s' : Scheduler) : Prop
  | idle (hready : s.readyQueue = []) (hs' : s' = s.noProcess)
  | ended {pid : ℕ} {rest : List ℕ} {p : Pcb} (hready : s.readyQueue = pid :: rest)
      (hp : s.processes pid = some p) (hflags : p.flags.terminated)
      (hs' : (s.lookAt pid).relinquishFirstReadyProcess pid wakes = .ok s')
  | key {pid : ℕ} {rest : List ℕ} {p : Pcb} (hready : s.readyQueue = pid :: rest)
      (hp : s.processes pid = some p) (hflags : ¬ p.flags.terminated ∧ p.flags.waitingKey)
      (hs' : s' = { s.lookAt pid with
        readyQueue := rest
        waitingQueue := enqueue s.waitingQueue pid })
  | blocked {pid : ℕ} {rest : List ℕ} {p : Pcb} (hready : s.readyQueue = pid :: rest)
      (hp : s.processes pid = some p)
      (hflags : ¬ p.flags.terminated ∧ ¬ p.flags.waitingKey ∧
        (p.flags.waitingProcess ∨ p.flags.sleeping ∨ p.flags.waitingRead))
      (hs' : s' = (s.lookAt pid).setReadyQueue rest)
  | replaced {pid : ℕ} {rest : List ℕ} {p r : Pcb} {s₁ : Scheduler}
      (hready : s.readyQueue = pid :: rest) (hp : s.processes pid = some p) (hexec : p.flags.exec)
      (hr : s.execReplacement pid = some r)
      (hs₁ : (s.markReplaced pid).preFree pid { p with flags := { p.flags with terminated := true } } wakes = .ok s₁)
      (hs' : s' = Scheduler.runFirst pid r { s₁ with
        processes := Function.update s₁.processes pid (some r)
        execReplacement := Function.update s₁.execReplacement pid none })
  | runs {pid : ℕ} {rest : List ℕ} {p : Pcb} (hready : s.readyQueue = pid :: rest)
      (hp : s.processes pid = some p) (hflags : ¬ p.flags.terminated ∧ ¬ p.flags.waitingKey ∧
        ¬ p.flags.waitingProcess ∧ ¬ p.flags.sleeping ∧ ¬ p.flags.waitingRead ∧ ¬ p.flags.exec)
      (hs' : s' = (s.lookAt pid).runFirst pid p)

lemma turn_cases {wakes : List ReadWake} (h : s.turn wakes = .ok s') : Turns wakes s s' := by
  unfold turn at h
  split at h
  next hready =>
    cases h
    exact .idle hready rfl
  next pid rest hready =>
    obtain ⟨p, hp, h⟩ := bind_eq_ok.mp h
    rw [proc_eq_ok] at hp
    have hp : s.processes pid = some p := hp
    split_ifs at h with hterm hkey hblocked hexec
    · exact .ended hready hp hterm h
    · cases h
      exact .key hready hp ⟨hterm, hkey⟩ rfl
    · cases h
      exact .blocked hready hp ⟨hterm, hkey, hblocked⟩ rfl
    · rcases hr : s.execReplacement pid with _ | r
      · simp [hr] at h
      · simp only [hr] at h
        obtain ⟨s₁, hs₁, h⟩ := bind_eq_ok.mp h
        cases h
        refine .replaced hready hp hexec hr (relinquish_exec ?_ hexec rfl hs₁) rfl
        rw [processes_modify, show (s.lookAt pid).processes pid = some p from hp]
        rfl
    · cases h
      simp only [not_or] at hblocked
      exact .runs hready hp ⟨hterm, hkey, hblocked.1, hblocked.2.1, hblocked.2.2, hexec⟩ rfl

namespace Orderly

lemma setReadyQueue (h : s.Orderly) (hcpu : s.cpu ≠ .user) (hno : s.NoExec) (l : List ℕ) :
    (s.setReadyQueue l).Orderly :=
  of_idle h.pooled h.zombie hcpu hno

lemma modify_idle (h : s.Orderly) (hcpu : s.cpu ≠ .user) (hno : s.NoExec)
    (hexec : ∀ p, (f p).flags.exec = p.flags.exec)
    (hf : ∀ p, s.processes pid = some p → (f p).flags.zombie → (f p).flags.terminated) :
    (s.modify pid f).Orderly := by
  have hold : ∀ q p', (s.modify pid f).processes q = some p' → ∃ p, s.processes q = some p ∧
      (p'.flags.zombie → p'.flags.terminated) := by
    intro q p' hp'
    rcases eq_or_ne q pid with rfl | hne
    · rw [processes_modify] at hp'
      obtain ⟨p, hp, rfl⟩ := Option.map_eq_some_iff.mp hp'
      exact ⟨p, hp, hf p hp⟩
    · rw [processes_modify_ne hne] at hp'
      exact ⟨p', hp', h.zombie q p' hp'⟩
  refine of_idle ?_ ?_ hcpu (hno.modify hexec)
  · intro q p' hp'
    obtain ⟨p, hp, -⟩ := hold q p' hp'
    exact h.pooled q p hp
  · intro q p' hp'
    obtain ⟨p, -, hz⟩ := hold q p' hp'
    exact hz

lemma relinquish {wakes : List ReadWake} (h : s.Orderly) (hcpu : s.cpu = .scheduling) (hno : s.NoExec)
    (hp : s.processes pid = some p) (hterm : p.flags.terminated)
    (hs' : s.relinquishFirstReadyProcess pid wakes = .ok s') : s'.Orderly := by
  have hidle : s.cpu ≠ .user := by simp [hcpu]
  have hs₁ := h.setReadyQueue hidle hno s.readyQueue.tail
  obtain ⟨p', hp', hcases⟩ := relinquish_cases hs'
  obtain rfl : p = p' := by simpa [hp] using hp'
  rcases hcases with ⟨-, -, -, -, hzombie⟩ | ⟨-, hfreed⟩
  · have hs₂ : ((s.setReadyQueue s.readyQueue.tail).modify pid fun p =>
        { p with flags := { p.flags with zombie := true } }).Orderly := by
      refine hs₁.modify_idle hidle hno (fun _ => rfl) ?_
      intro p' hp' _
      have hp' : s.processes pid = some p' := hp'
      obtain rfl : p = p' := by simpa [hp] using hp'
      exact hterm
    refine hs₂.calms (Calms.preFree hzombie) ?_ ?_
    · exact NoExec.modify hno fun _ => rfl
    · intro _ huser
      exact absurd huser hidle
  · rw [if_neg (by simp [hno pid p hp])] at hfreed
    obtain ⟨p', -, -, hcalms⟩ := Calms.freeTerminatedProcess hfreed
    refine hs₁.calms hcalms hno ?_
    intro _ huser
    exact absurd huser hidle

lemma runFirst (h : s.Orderly) (hcpu : s.cpu = .scheduling) (hno : s.NoExec)
    (hrun : s.runningProcess = some pid) (hhead : s.readyQueue.head? = some pid)
    (hp : s.processes pid = some p) (hflags : p.flags = {}) : (s.runFirst pid p).Orderly := by
  have hother : ∀ {r : Pcb}, r.flags = {} → ∀ q p', Function.update s.processes pid (some r) q = some p' →
      (∃ p, s.processes q = some p) ∧ (p'.flags.zombie → p'.flags.terminated) ∧
        p'.flags.exec = false := by
    intro r hr q p' hp'
    rcases eq_or_ne q pid with rfl | hne
    · rw [Function.update_self, Option.some.injEq] at hp'
      subst hp'
      exact ⟨⟨p, hp⟩, by simp [hr], by simp [hr]⟩
    · rw [Function.update_of_ne hne] at hp'
      exact ⟨⟨p', hp'⟩, h.zombie q p' hp', hno q p' hp'⟩
  have hresumed := hother (r := p.resumed) hflags
  have hreset := hother (r := p.resetQuantum) hflags
  unfold Scheduler.runFirst
  split_ifs
  · refine ⟨?_, ?_, ?_, ?_⟩
    · intro q p' hp'
      obtain ⟨⟨p₀, hp₀⟩, -⟩ := hresumed q p' hp'
      exact h.pooled q p₀ hp₀
    · intro q p' hp'
      exact (hresumed q p' hp').2.1
    · intro _
      exact ⟨pid, _, hrun, hhead, Function.update_self .., hflags⟩
    · intro q p' hp' hex
      rw [(hresumed q p' hp').2.2] at hex
      cases hex
  · refine of_idle ?_ ?_ ?_ ?_
    · intro q p' hp'
      obtain ⟨⟨p₀, hp₀⟩, -⟩ := hreset q p' hp'
      exact h.pooled q p₀ hp₀
    · intro q p' hp'
      exact (hreset q p' hp').2.1
    · simp [hcpu]
    · intro q p' hp'
      exact (hreset q p' hp').2.2

lemma flags_of_runs (h : s.Orderly) (hp : s.processes pid = some p)
    (hflags : ¬ p.flags.terminated ∧ ¬ p.flags.waitingKey ∧ ¬ p.flags.waitingProcess ∧
      ¬ p.flags.sleeping ∧ ¬ p.flags.waitingRead ∧ ¬ p.flags.exec) : p.flags = {} := by
  have hz : ¬ p.flags.zombie := fun hz => hflags.1 (h.zombie pid p hp hz)
  rcases hp' : p.flags with ⟨_, _, _, _, _, _, _⟩
  simp_all

lemma turn {wakes : List ReadWake} (h : s.Orderly) (hcpu : s.cpu = .scheduling)
    (hs' : s.turn wakes = .ok s') : s'.Orderly := by
  have hidle : s.cpu ≠ .user := by simp [hcpu]
  -- nobody else is about to be replaced when the first is not
  have hno : ∀ {pid rest p}, s.readyQueue = pid :: rest → s.processes pid = some p →
      p.flags ≠ { exec := true } → s.NoExec := by
    intro pid rest p hready hp hflags
    exact h.noExec_of_head (by rw [hready]; rfl) hp hflags
  have hlook : ∀ pid, s.NoExec → (s.lookAt pid).Orderly := by
    intro pid hno
    exact of_idle h.pooled h.zombie hidle hno
  rcases turn_cases hs' with ⟨hready, rfl⟩ | ⟨hready, hp, hterm, hs'⟩ | ⟨hready, hp, hflags, rfl⟩ |
    ⟨hready, hp, hflags, rfl⟩ | ⟨hready, hp, hexec, hr, hs₁, rfl⟩ | ⟨hready, hp, hflags, rfl⟩
  case idle =>
    have hno : s.NoExec := by
      intro q p hp
      by_contra hexec
      obtain ⟨-, hhead, -⟩ := h.exec q p hp (by simpa using hexec)
      simp [hready] at hhead
    unfold noProcess
    split_ifs
    · exact of_idle h.pooled h.zombie (by simp) hno
    · exact of_idle h.pooled h.zombie (by simp) hno
  case ended pid rest p =>
    have hno := hno hready hp (by rintro heq; simp [heq] at hterm)
    exact (hlook pid hno).relinquish hcpu hno hp hterm hs'
  case key pid rest p =>
    have hno := hno hready hp (by rintro heq; simp [heq] at hflags)
    exact of_idle h.pooled h.zombie hidle hno
  case blocked pid rest p =>
    have hno := hno hready hp (by rintro heq; simp [heq] at hflags)
    exact of_idle h.pooled h.zombie hidle hno
  case replaced pid rest p r s₁ =>
    have hhead : s.readyQueue.head? = some pid := by rw [hready]; rfl
    obtain ⟨-, -, -, r', hr', hrep⟩ := h.exec pid p hp hexec
    obtain rfl : r = r' := by simpa [hr] using hr'
    have hcalms := Calms.preFree hs₁
    have hother : ∀ q p', q ≠ pid → s₁.processes q = some p' →
        s₁.pidPool q = true ∧ q < maxProcesses ∧ (p'.flags.zombie → p'.flags.terminated) ∧
          p'.flags.exec = false := by
      intro q p' hne hp'
      obtain ⟨p₀, hp₀, hcalm⟩ := hcalms.alters q p' hp'
      rw [processes_modify_ne hne] at hp₀
      have hp₀ : s.processes q = some p₀ := hp₀
      obtain ⟨hpool, hlt⟩ := h.pooled q p₀ hp₀
      refine ⟨?_, hlt, ?_, ?_⟩
      · rw [hcalms.pool]
        simpa [modify] using hpool
      · intro hz
        rw [hcalm.terminated]
        exact h.zombie q p₀ hp₀ (hcalm.zombie ▸ hz)
      · rw [hcalm.exec]
        by_contra hex
        have hhead' := (h.exec q p₀ hp₀ (by simpa using hex)).2.1
        exact hne (by simpa [hhead] using hhead'.symm)
    have hpid : s₁.pidPool pid = true := by
      rw [hcalms.pool]
      simpa [modify] using (h.pooled pid p hp).1
    have hcpu₁ : s₁.cpu = .scheduling := hcalms.same.cpu.trans hcpu
    refine Orderly.runFirst (of_idle ?_ ?_ ?_ ?_) hcpu₁ ?_ hcalms.same.runningProcess
      (head?_of_longer hcalms.ready hhead) (Function.update_self ..) hrep.flags
    · intro q p' hp'
      rcases eq_or_ne q pid with rfl | hne
      · exact ⟨hpid, (h.pooled q p hp).2⟩
      · obtain ⟨hpool, hlt, -⟩ := hother q p' hne (by simpa [hne] using hp')
        exact ⟨hpool, hlt⟩
    · intro q p' hp'
      rcases eq_or_ne q pid with rfl | hne
      · obtain rfl : r = p' := by simpa using hp'
        simp [hrep.flags]
      · exact (hother q p' hne (by simpa [hne] using hp')).2.2.1
    · simp [hcpu₁]
    all_goals
      intro q p' hp'
      rcases eq_or_ne q pid with rfl | hne
      · obtain rfl : r = p' := by simpa using hp'
        simp [hrep.flags]
      · exact (hother q p' hne (by simpa [hne] using hp')).2.2.2
  case runs pid rest p =>
    have hno := hno hready hp (by rintro heq; simp [heq] at hflags)
    exact (hlook pid hno).runFirst hcpu hno rfl (by simp [hready]) hp (h.flags_of_runs hp hflags)

end Orderly

/-! ## Waiting for a child -/

/-- What `register_process_wait` does, and its answer. -/
inductive Registers (pid : ℕ) (waitedFor : ℤ) (p : Pcb) (s : Scheduler) : ℤ → Scheduler → Prop
  | noChild (h : waitedFor = -1 → p.children = []) (h' : waitedFor ≠ -1 →
      ¬ (0 ≤ waitedFor ∧ waitedFor.toNat ∈ p.children)) : Registers pid waitedFor p s (-echild) s
  | anyZombie {child : ℕ} {c : Pcb} {s' : Scheduler} (h : waitedFor = -1)
      (hmem : child ∈ p.children) (hc : s.processes child = some c) (hz : c.flags.zombie)
      (hs' : s.freeTerminatedProcess child [] = .ok s') : Registers pid waitedFor p s child s'
  | any (h : waitedFor = -1) (hne : p.children ≠ [])
      (hno : ∀ child ∈ p.children, ∀ c, s.processes child = some c → ¬ c.flags.zombie) :
      Registers pid waitedFor p s 0 (s.modify pid fun p =>
        { p with
          isWaitingForAnyChildToTerminate := true
          flags := { p.flags with waitingProcess := true } })
  | zombie {child : ℕ} {c : Pcb} {s' : Scheduler} (h : waitedFor = child)
      (hmem : child ∈ p.children) (hc : s.processes child = some c) (hz : c.flags.zombie)
      (hs' : (s.modify child fun c => { c with isWaitedByParent := true }).freeTerminatedProcess child []
        = .ok s') : Registers pid waitedFor p s child s'
  | one {child : ℕ} {c : Pcb} (h : waitedFor = child) (hmem : child ∈ p.children)
      (hc : s.processes child = some c) (hz : ¬ c.flags.zombie) :
      Registers pid waitedFor p s 0
        ((s.modify child fun c => { c with isWaitedByParent := true }).modify pid fun p =>
          { p with flags := { p.flags with waitingProcess := true } })

lemma registerProcessWait_cases {waitedFor wait : ℤ}
    (h : s.registerProcessWait pid waitedFor = .ok (wait, s')) :
    ∃ p, s.processes pid = some p ∧ Registers pid waitedFor p s wait s' := by
  obtain ⟨p, hp, h⟩ := bind_eq_ok.mp h
  rw [proc_eq_ok] at hp
  refine ⟨p, hp, ?_⟩
  simp only at h
  by_cases hany : waitedFor = -1
  · rw [if_pos hany] at h
    rcases hfind : p.children.find? (fun c => (s.processes c).any fun c => c.flags.zombie) with _ | child
    · rw [hfind] at h
      rw [List.find?_eq_none] at hfind
      by_cases hchildren : p.children ≠ []
      · simp only [if_pos hchildren] at h
        rw [modify_modify] at h
        cases h
        refine .any hany hchildren ?_
        intro child hmem c hc hz
        exact hfind child hmem (by simp [hc, hz])
      · simp only [if_neg hchildren] at h
        cases h
        exact .noChild (fun _ => not_not.mp hchildren) (fun hne => absurd hany hne)
    · simp only [hfind] at h
      obtain ⟨s₁, hs₁, h⟩ := bind_eq_ok.mp h
      cases h
      have hmem := List.mem_of_find?_eq_some hfind
      have hz := List.find?_some hfind
      rcases hc : s.processes child with _ | c
      · simp [hc] at hz
      · exact .anyZombie hany hmem hc (by simpa [hc] using hz) hs₁
  · rw [if_neg hany] at h
    by_cases hmem : ¬ (0 ≤ waitedFor ∧ waitedFor.toNat ∈ p.children)
    · rw [if_pos hmem] at h
      cases h
      exact .noChild (fun heq => absurd heq hany) fun _ => hmem
    · rw [if_neg hmem] at h
      obtain ⟨hpos, hmem⟩ := not_not.mp hmem
      have hcast : ((waitedFor.toNat : ℕ) : ℤ) = waitedFor := Int.toNat_of_nonneg hpos
      obtain ⟨c, hc, h⟩ := bind_eq_ok.mp h
      rw [proc_eq_ok] at hc
      by_cases hz : c.flags.zombie
      · rw [if_pos hz] at h
        obtain ⟨s₁, hs₁, h⟩ := bind_eq_ok.mp h
        obtain ⟨rfl, rfl⟩ : waitedFor = wait ∧ s₁ = s' := by simpa using h
        have hzombie : Registers pid (waitedFor.toNat : ℤ) p s (waitedFor.toNat : ℤ) s₁ :=
          .zombie rfl hmem hc hz hs₁
        rwa [hcast] at hzombie
      · rw [if_neg hz] at h
        cases h
        exact .one hcast.symm hmem hc hz

/-- What `wait_pid` does with the answer of `register_process_wait`. -/
def endWait (pid : ℕ) (wait : ℤ) (wstatus : ℕ) (s : Scheduler) : Scheduler :=
  if wait = 0 then { s with cpu := .trigger }
  else if wait < 0 then s.modify pid fun p => { p with eax := wait }
  else if wstatus = 0 then { s.modify pid (Pcb.terminateWithSignal sigsegv) with cpu := .trigger }
  else s.modify pid fun p => { p with words := Function.update p.words wstatus (wait * 256), eax := wait }

lemma waitPid_eq {waitedFor : ℤ} {wstatus : ℕ} (h : s.waitPid pid waitedFor wstatus = .ok s') :
    ∃ wait s₁, (s.modify pid fun p => { p with esi := wstatus }).registerProcessWait pid waitedFor =
      .ok (wait, s₁) ∧ s' = s₁.endWait pid wait wstatus := by
  obtain ⟨⟨wait, s₁⟩, hs₁, h⟩ := bind_eq_ok.mp h
  refine ⟨wait, s₁, hs₁, ?_⟩
  unfold endWait
  simp only at h
  split_ifs at h ⊢
  all_goals
    cases h
    rfl

/-! ## What the other calls do -/

lemma fork_cases (h : s.fork pid = .ok s') : ∃ p child s₁, s.processes pid = some p ∧
    Starts child (p.forked pid) s s₁ ∧
    s' = s₁.modify pid fun p => { p with children := p.children ++ [child], eax := child } := by
  obtain ⟨p, hp, h⟩ := bind_eq_ok.mp h
  rw [proc_eq_ok] at hp
  rcases hpid : s.getFreePid with ⟨_ | child, s₁⟩
  · simp [hpid] at h
  · simp only [hpid] at h
    cases h
    exact ⟨p, child, _, hp, starts_of_getFreePid hpid, rfl⟩

lemma exec_cases (s : Scheduler) (ppid : ℕ) (loads : Bool) :
    (s.exec ppid loads).2 = s ∨
      (∃ pid, (s.exec ppid loads).2 = { s with pidPool := Function.update s.pidPool pid true }) ∨
      ∃ pid, Starts pid { ppid } s (s.exec ppid loads).2 := by
  unfold exec
  rcases hpid : s.getFreePid with ⟨_ | pid, s₁⟩
  · left
    unfold getFreePid at hpid
    split at hpid
    · exact (by simpa using hpid : s = s₁).symm
    · simp at hpid
  · right
    by_cases hfails : s₁.readyQueue.length = maxProcesses ∨ ¬ loads
    · left
      obtain ⟨-, -, hs₁⟩ := getFreePid_spec hpid
      simp only [if_pos hfails]
      exact ⟨pid, hs₁⟩
    · right
      simp only [if_neg hfails]
      exact ⟨pid, starts_of_getFreePid hpid⟩

lemma startKernelProcess_cases (h : s.startKernelProcess = .ok s') :
    ∃ pid, Starts pid { ppid := pid, priority := 2 } s s' := by
  unfold startKernelProcess at h
  rcases hpid : s.getFreePid with ⟨_ | pid, s₁⟩
  · simp [hpid] at h
  · rw [hpid] at h
    cases h
    exact ⟨pid, starts_of_getFreePid hpid⟩

lemma execve_cases {loads : Bool} {wakes : List ReadWake} (h : s.execve pid loads wakes = .ok s') :
    s' = s.modify pid (fun p => { p with eax := -1 }) ∨
      ∃ p s₁, s.processes pid = some p ∧
        wakes.foldlM Scheduler.wakeUpReadWaitingProcesses s = .ok s₁ ∧
        s' = { s₁ with
          execReplacement := Function.update s₁.execReplacement pid (some p.transferred)
          cpu := .trigger }.modify pid fun p => { p with flags := { p.flags with exec := true } } := by
  unfold execve at h
  by_cases hfails : s.readyQueue.length = maxProcesses ∨ ¬ loads
  · rw [if_pos hfails] at h
    cases h
    exact Or.inl rfl
  · rw [if_neg hfails] at h
    obtain ⟨p, hp, h⟩ := bind_eq_ok.mp h
    obtain ⟨s₁, hwakes, h⟩ := bind_eq_ok.mp h
    rw [proc_eq_ok] at hp
    cases h
    exact Or.inr ⟨p, s₁, hp, hwakes, rfl⟩

lemma sleep_cases {ticks : ℕ} (h : s.sleep pid ticks = .ok s') : ∃ heap,
    s.sleepingProcesses.insert ⟨pid, u32 (s.ticks + if ticks = 0 then 1 else ticks)⟩ = some heap ∧
    s' = { s.modify pid fun p => { p with flags := { p.flags with sleeping := true } } with
      sleepingProcesses := heap
      cpu := .trigger } := by
  unfold sleep at h
  simp only at h
  split at h
  next => cases h
  next heap hheap =>
    cases h
    exact ⟨heap, hheap, rfl⟩

namespace Orderly

lemma endWait {wait : ℤ} {wstatus : ℕ} (h : s.Orderly) (huser : s.cpu = .user) :
    (s.endWait pid wait wstatus).Orderly := by
  have hno := h.noExec_of_user huser
  unfold Scheduler.endWait
  split_ifs
  · exact of_idle h.pooled h.zombie (by simp) hno
  · exact h.calms (.modify s pid fun _ _ => .of_flags rfl) hno (by simp)
  · exact h.mark pid (Pcb.terminateWithSignal sigsegv) huser (fun p => ⟨rfl, rfl, fun _ => rfl⟩) rfl rfl
      (by simp)
  · exact h.calms (.modify s pid fun _ _ => .of_flags rfl) hno (by simp)

lemma freeZombie {c : Pcb} (h : s.Orderly) (huser : s.cpu = .user) (hc : s.processes pid = some c)
    (hz : c.flags.zombie) (hs' : s.freeTerminatedProcess pid [] = .ok s') :
    s'.Orderly ∧ s'.cpu = .user := by
  have hno := h.noExec_of_user huser
  obtain ⟨c', hc', -, hcalms⟩ := Calms.freeTerminatedProcess hs'
  obtain rfl : c = c' := by simpa [hc] using hc'
  rw [if_neg (by simp [hno pid c hc])] at hcalms
  refine ⟨h.calms hcalms hno ?_, hcalms.same.cpu.trans huser⟩
  intro q _ hq
  obtain ⟨pid', p, hrun, -, hp, hflags⟩ := h.user huser
  obtain rfl : q = pid' := by simpa [hq] using hrun
  rw [Finset.mem_singleton]
  rintro rfl
  obtain rfl : p = c := by simpa [hp] using hc
  simp [hflags] at hz

lemma waitPid {waitedFor : ℤ} {wstatus : ℕ} (h : s.Orderly) (huser : s.cpu = .user)
    (hs' : s.waitPid pid waitedFor wstatus = .ok s') : s'.Orderly := by
  obtain ⟨wait, s₁, hreg, rfl⟩ := waitPid_eq hs'
  have hcalm : Calms ∅ s (s.modify pid fun p => { p with esi := wstatus }) :=
    .modify s pid fun _ _ => .of_flags rfl
  have h₀ := h.calms hcalm (h.noExec_of_user huser) (by simp)
  have huser₀ : (s.modify pid fun p => { p with esi := wstatus }).cpu = .user := huser
  obtain ⟨p, hp, hreg⟩ := registerProcessWait_cases hreg
  generalize s.modify pid (fun p => { p with esi := wstatus }) = s₀ at *
  cases hreg with
  | noChild _ _ => exact h₀.endWait huser₀
  | anyZombie _ _ hc hz hfree =>
    obtain ⟨h₁, huser₁⟩ := h₀.freeZombie huser₀ hc hz hfree
    exact h₁.endWait huser₁
  | any _ _ _ =>
    exact h₀.mark pid (fun p => { p with
      isWaitingForAnyChildToTerminate := true
      flags := { p.flags with waitingProcess := true } }) huser₀ (fun p => ⟨rfl, rfl, id⟩) rfl rfl
      (by simp [Scheduler.endWait])
  | @zombie child c s₂ _ _ hc hz hfree =>
    have hcalm₁ : Calms ∅ s₀ (s₀.modify child fun c => { c with isWaitedByParent := true }) :=
      .modify s₀ child fun _ _ => .of_flags rfl
    have h₁ := h₀.calms hcalm₁ (h₀.noExec_of_user huser₀) (by simp)
    obtain ⟨h₂, huser₂⟩ := h₁.freeZombie (c := { c with isWaitedByParent := true }) huser₀
      (by rw [processes_modify, hc]; rfl) hz hfree
    exact h₂.endWait huser₂
  | @one child c _ _ hc hz =>
    have hcalm₁ : Calms ∅ s₀ (s₀.modify child fun c => { c with isWaitedByParent := true }) :=
      .modify s₀ child fun _ _ => .of_flags rfl
    have h₁ := h₀.calms hcalm₁ (h₀.noExec_of_user huser₀) (by simp)
    exact h₁.mark pid (fun p => { p with
      flags := { p.flags with waitingProcess := true } }) huser₀ (fun p => ⟨rfl, rfl, id⟩) rfl rfl
      (by simp [Scheduler.endWait])

/-! ## Steps -/

lemma fork (h : s.Orderly) (huser : s.cpu = .user) (hs' : s.fork s.caller = .ok s') : s'.Orderly := by
  obtain ⟨p, -, -, hp, hflags⟩ := h.caller huser
  obtain ⟨p', child, s₁, hp', hstarts, rfl⟩ := fork_cases hs'
  obtain rfl : p = p' := by simpa [hp] using hp'
  have h₁ := h.starts huser hstarts (p := p.forked s.caller) hflags
  have huser₁ : s₁.cpu = .user := by
    rw [hstarts.eq]
    exact huser
  exact h₁.calms (.modify _ _ fun _ _ => .of_flags rfl) (h₁.noExec_of_user huser₁) (by simp)

lemma startExec {ppid : ℕ} {loads : Bool} (h : s.Orderly) (huser : s.cpu = .user) :
    (s.exec ppid loads).2.Orderly := by
  rcases exec_cases s ppid loads with heq | ⟨pid, heq⟩ | ⟨pid, hstarts⟩
  · rw [heq]
    exact h
  · -- the pid stays reserved
    rw [heq]
    refine ⟨?_, h.zombie, h.user, h.exec⟩
    intro q p hp
    obtain ⟨hpool, hlt⟩ := h.pooled q p hp
    refine ⟨?_, hlt⟩
    show Function.update s.pidPool pid true q = true
    rw [Function.update_apply]
    split_ifs
    · rfl
    · exact hpool
  · exact h.starts huser hstarts rfl

lemma execve {loads : Bool} {wakes : List ReadWake} (h : s.Orderly) (huser : s.cpu = .user)
    (hs' : s.execve s.caller loads wakes = .ok s') : s'.Orderly := by
  obtain ⟨p, hrun, hhead, hp, hflags⟩ := h.caller huser
  have hno := h.noExec_of_user huser
  rcases execve_cases hs' with rfl | ⟨p', s₁, hp', hwakes, rfl⟩
  · exact h.calms (.modify s _ fun _ _ => .of_flags rfl) hno (by simp)
  · obtain rfl : p = p' := by simpa [hp] using hp'
    have hw := Wakes.wakeAll hwakes
    have h₁ := h.wakes hw
    have huser₁ : s₁.cpu = .user := hw.same.cpu.trans huser
    obtain ⟨p₁, hp₁, hwoken⟩ := hw.kept hp (by simp)
    have hflags₁ := hwoken.toCalm.flags_eq hflags
    refine ⟨?_, ?_, ?_, ?_⟩
    · intro q p' hp'
      rcases eq_or_ne q s.caller with rfl | hne
      · exact h₁.pooled _ p₁ hp₁
      · rw [processes_modify_ne hne] at hp'
        exact h₁.pooled q p' hp'
    · intro q p' hp' hz
      rcases eq_or_ne q s.caller with rfl | hne
      · rw [processes_modify] at hp'
        obtain ⟨p₂, hp₂, rfl⟩ := Option.map_eq_some_iff.mp hp'
        exact h₁.zombie _ p₂ hp₂ hz
      · rw [processes_modify_ne hne] at hp'
        exact h₁.zombie q p' hp' hz
    · intro hcon
      cases hcon
    · intro q p' hp' hex
      rcases eq_or_ne q s.caller with rfl | hne
      · rw [processes_modify] at hp'
        obtain ⟨p₂, hp₂, rfl⟩ := Option.map_eq_some_iff.mp hp'
        obtain rfl : p₁ = p₂ := by
          have hp₂ : s₁.processes s.caller = some p₂ := hp₂
          simpa [hp₁] using hp₂
        refine ⟨Or.inl rfl, head?_of_longer hw.ready hhead, by simp [hflags₁], _,
          Function.update_self .., hflags, ?_, ?_, ?_, ?_⟩
        all_goals
          rw [hwoken.rest]
          rfl
      · rw [processes_modify_ne hne] at hp'
        have hp' : s₁.processes q = some p' := hp'
        rw [h₁.noExec_of_user huser₁ q p' hp'] at hex
        cases hex

lemma step {op : SchedOp} (h : s.Orderly) (hallowed : s.Allowed op) (hs' : s.step op = .ok s') :
    s'.Orderly := by
  cases op with
  | timer =>
    obtain ⟨s₁, hs₁, hs'⟩ := bind_eq_ok.mp hs'
    cases hs'
    have h₀ : Orderly { s with ticks := u32 (s.ticks + 1) } := ⟨h.pooled, h.zombie, h.user, h.exec⟩
    have h₁ := h₀.wakes (Wakes.checkForProcessesToWakeUp hs₁)
    refine ⟨h₁.pooled, h₁.zombie, ?_, ?_⟩
    · intro hcon
      cases hcon
    · intro q p hp hex
      obtain ⟨-, hrest⟩ := h₁.exec q p hp hex
      exact ⟨Or.inr rfl, hrest⟩
  | turn wakes => exact h.turn hallowed hs'
  | key c => exact h.wakes (Wakes.wakeUpKeyWaitingProcesses hs')
  | fork => exact h.fork hallowed hs'
  | exec ppid loads =>
    cases hs'
    exact h.startExec hallowed
  | startKernelProcess =>
    obtain ⟨pid, hstarts⟩ := startKernelProcess_cases hs'
    exact h.starts hallowed hstarts rfl
  | stopKernelInitProcess =>
    cases hs'
    exact of_idle h.pooled h.zombie (by simp [Scheduler.stopKernelInitProcess])
      (h.noExec_of_user hallowed.1)
  | execve loads wakes => exact h.execve hallowed hs'
  | exit retVal =>
    cases hs'
    exact h.mark s.caller (Pcb.terminateWithValue retVal) hallowed (fun p => ⟨rfl, rfl, fun _ => rfl⟩) rfl
      rfl (by simp [Scheduler.exit])
  | kill target signal =>
    cases hs'
    unfold Scheduler.kill
    have hno := h.noExec_of_user hallowed
    split_ifs
    · have h₁ : Orderly { s.modify target.toNat (Pcb.terminateWithSignal signal) with cpu := .trigger } :=
        h.mark target.toNat (Pcb.terminateWithSignal signal) hallowed
          (fun p => ⟨rfl, rfl, fun _ => rfl⟩) rfl rfl
          (by simp)
      have hno₁ : NoExec { s.modify target.toNat (Pcb.terminateWithSignal signal) with
          cpu := .trigger } := hno.modify fun _ => rfl
      exact h₁.calms (.modify _ s.caller fun _ _ => .of_flags rfl) hno₁ (by simp)
    · exact h.calms (.modify s _ fun _ _ => .of_flags rfl) hno (by simp)
  | waitPid waitedFor wstatus => exact h.waitPid hallowed hs'
  | sleep ticks =>
    obtain ⟨heap, -, rfl⟩ := sleep_cases hs'
    exact h.mark s.caller (fun p => { p with flags := { p.flags with sleeping := true } })
      hallowed (fun p => ⟨rfl, rfl, id⟩) rfl rfl (by simp)
  | getKey =>
    cases hs'
    exact h.mark s.caller (fun p => { p with flags := { p.flags with waitingKey := true } })
      hallowed (fun p => ⟨rfl, rfl, id⟩) rfl rfl (by simp [Scheduler.getKey])
  | readWait fd n =>
    cases hs'
    exact h.mark s.caller (fun p => { p with flags := { p.flags with waitingRead := true } })
      hallowed (fun p => ⟨rfl, rfl, id⟩) rfl rfl (by simp [Scheduler.doReadWait])
  | wakeReaders w => exact h.wakes (Wakes.wakeUpReadWaitingProcesses hs')

end Orderly

lemma orderly_boot : Orderly boot := by
  have hone : ∀ q p, boot.processes q = some p → q = 0 ∧ p.flags = {} := by
    intro q p hp
    have hp : (if q = 0 then some (Pcb.resetQuantum { ppid := 0 }) else none) = some p := hp
    split_ifs at hp with hq
    cases hp
    exact ⟨hq, rfl⟩
  refine ⟨?_, ?_, ?_, ?_⟩
  · intro q p hp
    obtain ⟨rfl, -⟩ := hone q p hp
    exact ⟨rfl, by decide⟩
  · intro q p hp hz
    obtain ⟨-, hflags⟩ := hone q p hp
    simp [hflags] at hz
  · intro _
    exact ⟨0, _, rfl, rfl, rfl, rfl⟩
  · intro q p hp hex
    obtain ⟨-, hflags⟩ := hone q p hp
    simp [hflags] at hex

end Scheduler

end BrebOS
