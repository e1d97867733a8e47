import BrebOS.Processes.Scheduler.Family
import BrebOS.Processes.Scheduler.OnePlace
import BrebOS.Processes.Scheduler.Pids

/-!
# Steps that cannot fail

A step fails when it uses an entry of the table that is not there, or reaches `irrecoverable_error`.
Who is in a queue, the parent of a process and its children are in the table as long as the queues and
the lists of children are right, and then only a process that becomes a zombie while it has children
makes the scheduler fail.
-/

namespace BrebOS

namespace Scheduler

variable {s s' : Scheduler} {pid q : ℕ} {p : Pcb} {f : Pcb → Pcb} {op : SchedOp}

/-- The processes of a list are in the table. -/
def Known (s : Scheduler) (l : List ℕ) : Prop := ∀ q ∈ l, (s.processes q).isSome

lemma exists_proc (h : (s.processes pid).isSome) : ∃ p, s.proc pid = .ok p := by
  obtain ⟨p, hp⟩ := Option.isSome_iff_exists.mp h
  exact ⟨p, proc_eq_ok.mpr hp⟩

/-- The table has the same processes, and nobody has started to wait for data. -/
structure KeepsReaders (s s' : Scheduler) : Prop where
  isSome : ∀ q, (s'.processes q).isSome = (s.processes q).isSome
  readers : s'.readers ⊆ s.readers

namespace KeepsReaders

lemma refl (s : Scheduler) : KeepsReaders s s := ⟨fun _ => rfl, List.Subset.refl _⟩

lemma trans {s'' : Scheduler} (h : KeepsReaders s s') (h' : KeepsReaders s' s'') :
    KeepsReaders s s'' :=
  ⟨fun q => (h'.1 q).trans (h.1 q), List.Subset.trans h'.2 h.2⟩

lemma modify (s : Scheduler) (pid : ℕ) (f : Pcb → Pcb) : KeepsReaders s (s.modify pid f) := by
  refine ⟨?_, List.Subset.refl _⟩
  intro q
  rcases eq_or_ne q pid with rfl | hne
  · simp
  · rw [processes_modify_ne hne]

lemma known {l : List ℕ} (h : KeepsReaders s s') (hl : s.Known l) : s'.Known l := by
  intro q hq
  rw [h.isSome]
  exact hl q hq

lemma known_readers (h : KeepsReaders s s') (hreaders : s.Known s.readers) : s'.Known s'.readers := by
  intro q hq
  exact h.known hreaders q (h.readers hq)

end KeepsReaders

/-! ## Wake-ups -/

lemma resumeReader_ok {e : ProcWaitingForRead} (h : (s.processes e.pid).isSome) :
    ∃ s', s.resumeReader e = .ok s' ∧ KeepsReaders s s' := by
  obtain ⟨p, hp⟩ := exists_proc h
  have herase : KeepsReaders s (Scheduler.enqueueReady e.pid { s with
      processesWaitingForRead :=
        s.processesWaitingForRead.eraseP fun x => x.pid = e.pid ∧ x.fd = e.fd }) :=
    ⟨fun _ => rfl, (List.eraseP_sublist.map ProcWaitingForRead.pid).subset⟩
  exact ⟨_, bind_eq_ok.mpr ⟨p, hp, rfl⟩, herase.trans (.modify _ e.pid _)⟩

lemma wakeUpReadWaitingProcesses_ok {w : ReadWake} (h : s.Known s.readers) :
    ∃ s', s.wakeUpReadWaitingProcesses w = .ok s' ∧ KeepsReaders s s' := by
  have hpid : ∀ e, (countBytes w e).1.pid = e.pid := by
    intro e
    unfold countBytes
    split_ifs
    · rfl
    · rfl
  have hmap : ((s.processesWaitingForRead.map (countBytes w)).map Prod.fst).map
      ProcWaitingForRead.pid = s.readers := by
    rw [List.map_map, List.map_map]
    exact List.map_congr_left fun e _ => hpid e
  have hcount : KeepsReaders s { s with
      processesWaitingForRead := (s.processesWaitingForRead.map (countBytes w)).map Prod.fst } := by
    refine ⟨fun _ => rfl, ?_⟩
    rw [readers, hmap]
    exact List.Subset.refl _
  refine foldlM_succeeds (KeepsReaders s) hcount ?_
  intro e he t ht
  have hmem : e.pid ∈ s.readers := by
    rw [← hmap]
    exact List.mem_map_of_mem ((List.filter_sublist.map Prod.fst).subset he)
  obtain ⟨t', ht', hkeeps⟩ := resumeReader_ok (ht.known h e.pid hmem)
  exact ⟨t', ht', ht.trans hkeeps⟩

lemma wakeAll_ok (wakes : List ReadWake) (h : s.Known s.readers) :
    ∃ s', wakes.foldlM wakeUpReadWaitingProcesses s = .ok s' ∧ KeepsReaders s s' := by
  refine foldlM_succeeds (KeepsReaders s) (.refl s) ?_
  intro w _ t ht
  obtain ⟨t', ht', hkeeps⟩ := wakeUpReadWaitingProcesses_ok (w := w) (ht.known_readers h)
  exact ⟨t', ht', ht.trans hkeeps⟩

lemma checkForProcessesToWakeUp_ok : ∀ {fuel : ℕ} {s : Scheduler}, s.Known s.sleepers →
    ∃ s', s.checkForProcessesToWakeUp fuel = .ok s' := by
  intro fuel
  induction fuel with
  | zero =>
    intro s _
    exact ⟨s, rfl⟩
  | succ fuel ih =>
    intro s h
    unfold checkForProcessesToWakeUp
    split
    next => exact ⟨s, rfl⟩
    next a hmin =>
      have hperm := MinHeap.deleteMin_perm hmin
      split_ifs
      · have hmem : a.process ∈ s.sleepers := List.mem_map_of_mem (hperm.subset (by simp))
        obtain ⟨p, hp⟩ := exists_proc (h _ hmem)
        have hwake : { s with sleepingProcesses := s.sleepingProcesses.deleteMin }.wakeUp a.process
            (fun p => { p with flags := { p.flags with sleeping := false } }) = .ok _ :=
          bind_eq_ok.mpr ⟨p, hp, rfl⟩
        rw [hwake]
        refine ih ?_
        intro q hq
        refine (KeepsReaders.modify _ a.process _).known (l := s.sleepers) h q ?_
        exact (hperm.map AsleepProcess.process).subset (List.mem_cons_of_mem _ hq)
      · exact ⟨s, rfl⟩

lemma wakeUpKeyWaitingProcesses_ok {key : ℤ} : ∀ {fuel i : ℕ} {s : Scheduler},
    s.Known s.waitingQueue → ∃ s', s.wakeUpKeyWaitingProcesses key fuel i = .ok s' := by
  intro fuel
  induction fuel with
  | zero =>
    intro i s _
    exact ⟨s, rfl⟩
  | succ fuel ih =>
    intro i s h
    unfold wakeUpKeyWaitingProcesses
    split_ifs
    · split
      next => exact ⟨s, rfl⟩
      next pid rest hqueue =>
        obtain ⟨p, hp⟩ := exists_proc (h pid (by rw [hqueue]; simp))
        have hwake : { s with waitingQueue := rest }.wakeUp pid (fun p =>
            { p with eax := key, flags := { p.flags with waitingKey := false } }) = .ok _ :=
          bind_eq_ok.mpr ⟨p, hp, rfl⟩
        rw [hwake]
        refine ih ?_
        intro q hq
        refine (KeepsReaders.modify _ pid _).known (l := s.waitingQueue) h q ?_
        rw [hqueue]
        exact List.mem_cons_of_mem pid hq
    · exact ⟨s, rfl⟩

/-! ## The end of a process -/

lemma preFree_ok {wakes : List ReadWake} (h : s.Known s.readers)
    (hchildren : p.isPreFreed ∨ p.children = [] ∨ p.flags.exec) : ∃ s', s.preFree pid p wakes = .ok s' := by
  unfold preFree
  by_cases hfreed : p.isPreFreed
  · rw [if_pos hfreed]
    exact ⟨s, rfl⟩
  · rw [if_neg hfreed]
    obtain ⟨s₁, hs₁, -⟩ := wakeAll_ok wakes h
    refine exists_bind_eq_ok hs₁ ?_
    rw [if_neg (by tauto)]
    exact ⟨_, rfl⟩

lemma tellParent_ok (hp : s.processes pid = some p) (hparent : (s.processes p.ppid).isSome) :
    ∃ s', s.tellParent pid = .ok s' := by
  obtain ⟨q, hq⟩ := Option.isSome_iff_exists.mp hparent
  have hproc : s.proc pid = .ok p := proc_eq_ok.mpr hp
  have hprocq : s.proc p.ppid = .ok q := proc_eq_ok.mpr hq
  obtain ⟨waits, hwaits⟩ : ∃ waits, s.parentWaits p = .ok waits := by
    unfold parentWaits
    split_ifs
    · exact ⟨true, rfl⟩
    · exact ⟨_, map_eq_ok.mpr ⟨q, hprocq, rfl⟩⟩
  refine exists_bind_eq_ok hproc (exists_bind_eq_ok hwaits ?_)
  cases waits with
  | false => exact ⟨s, rfl⟩
  | true =>
    rw [if_pos rfl]
    have hwake : s.wakeUpProcessParent pid = .ok _ :=
      bind_eq_ok.mpr ⟨p, hproc, bind_eq_ok.mpr ⟨q, hprocq, rfl⟩⟩
    exact exists_bind_eq_ok hwake ⟨_, rfl⟩

lemma orphans_ok {l : List ℕ} (h : s.Known l) :
    ∃ s', l.foldlM orphan s = .ok s' ∧ KeepsReaders s s' := by
  refine foldlM_succeeds (KeepsReaders s) (.refl s) ?_
  intro child hchild t ht
  obtain ⟨c, hc⟩ := exists_proc (ht.known h child hchild)
  exact ⟨_, bind_eq_ok.mpr ⟨c, hc, rfl⟩, ht.trans (.modify t child _)⟩

lemma tellParent_keeps (hp : s.processes pid = some p) (h : s.tellParent pid = .ok s') :
    KeepsReaders s s' ∧ ∃ p', s'.processes pid = some p' ∧ p'.children ⊆ p.children := by
  obtain ⟨p', hp', ⟨-, rfl⟩ | ⟨-, -, rfl⟩⟩ := tellParent_cases h
  all_goals obtain rfl : p = p' := by simpa [hp] using hp'
  · exact ⟨.refl s', p, hp, List.Subset.refl _⟩
  · have hready : KeepsReaders s (if s.runningProcess ≠ some p.ppid then s.enqueueReady p.ppid else s) := by
      split_ifs
      · exact ⟨fun _ => rfl, List.Subset.refl _⟩
      · exact .refl s
    refine ⟨(hready.trans (.modify _ p.ppid _)).trans (.modify _ pid _), ?_⟩
    rw [processes_modify]
    rcases eq_or_ne pid p.ppid with heq | hne
    · rw [← heq, processes_modify, processes_readyUnlessRuns, hp]
      exact ⟨_, rfl, List.erase_subset⟩
    · rw [processes_modify_ne hne, processes_readyUnlessRuns, hp]
      exact ⟨_, rfl, List.Subset.refl _⟩

lemma freeTerminatedProcess_ok {wakes : List ReadWake} (hp : s.processes pid = some p)
    (hended : p.flags.terminated ∨ p.flags.zombie) (hparent : (s.processes p.ppid).isSome)
    (hchildren : s.Known p.children) (hreaders : s.Known s.readers) (hnot : pid ∉ s.readers) :
    ∃ s', s.freeTerminatedProcess pid wakes = .ok s' := by
  have hproc : s.proc pid = .ok p := proc_eq_ok.mpr hp
  refine exists_bind_eq_ok hproc ?_
  rw [if_neg (by tauto)]
  by_cases hexec : p.flags.exec
  · rw [if_pos hexec]
    exact preFree_ok hreaders (Or.inr (Or.inr hexec))
  · rw [if_neg hexec]
    obtain ⟨s₁, hs₁⟩ := tellParent_ok hp hparent
    obtain ⟨hkeeps₁, p₁, hp₁, hsub⟩ := tellParent_keeps hp hs₁
    have hknown : s₁.Known p₁.children := by
      intro q hq
      exact hkeeps₁.known hchildren q (hsub hq)
    obtain ⟨s₂, hs₂, hkeeps₂⟩ := orphans_ok hknown
    have hkeeps := hkeeps₁.trans hkeeps₂
    have hreaders₂ : (s₂.unregistered pid).Known (s₂.unregistered pid).readers := by
      intro q hq
      have hq₂ : q ∈ s₂.readers := hq
      have hne : q ≠ pid := by
        rintro rfl
        exact hnot (hkeeps.readers hq₂)
      show (Function.update s₂.processes pid none q).isSome
      rw [Function.update_of_ne hne]
      exact hkeeps.known_readers hreaders q hq₂
    refine exists_bind_eq_ok hs₁ (exists_bind_eq_ok (proc_eq_ok.mpr hp₁) (exists_bind_eq_ok hs₂ ?_))
    exact preFree_ok hreaders₂ (Or.inr (Or.inl rfl))

lemma relinquish_ok {wakes : List ReadWake} (hp : s.processes pid = some p) (hterm : p.flags.terminated)
    (hparent : (s.processes p.ppid).isSome) (hchildren : s.Known p.children)
    (hreaders : s.Known s.readers) (hnot : pid ∉ s.readers)
    (hzombie : ∀ q, s.processes p.ppid = some q → p.ppid ≠ pid →
      q.isWaitingForAnyChildToTerminate = false → p.isWaitedByParent = false → p.flags.exec = false →
      p.children = []) :
    ∃ s', s.relinquishFirstReadyProcess pid wakes = .ok s' := by
  refine exists_bind_eq_ok (proc_eq_ok.mpr hp) ?_
  have hsame : KeepsReaders s (if p.flags.exec then s else s.setReadyQueue s.readyQueue.tail) ∧
      (if p.flags.exec then s else s.setReadyQueue s.readyQueue.tail).processes = s.processes := by
    split_ifs
    · exact ⟨.refl s, rfl⟩
    · exact ⟨⟨fun _ => rfl, List.Subset.refl _⟩, rfl⟩
  obtain ⟨hkeeps, hprocs⟩ := hsame
  simp only
  generalize (if p.flags.exec then s else s.setReadyQueue s.readyQueue.tail) = s₁ at *
  have hfree : ∃ s', s₁.freeTerminatedProcess pid wakes = .ok s' :=
    freeTerminatedProcess_ok (by rw [hprocs, hp]) (Or.inl hterm) (by rw [hprocs]; exact hparent)
      (hkeeps.known hchildren) (hkeeps.known_readers hreaders) fun hmem => hnot (hkeeps.readers hmem)
  by_cases hself : p.ppid = pid
  · rw [if_pos hself]
    exact hfree
  · rw [if_neg hself]
    obtain ⟨q, hq⟩ := Option.isSome_iff_exists.mp hparent
    refine exists_bind_eq_ok (a := q) (proc_eq_ok.mpr (by rw [hprocs, hq])) ?_
    by_cases hwaits : ¬ q.isWaitingForAnyChildToTerminate ∧ ¬ p.isWaitedByParent ∧ ¬ p.flags.exec
    · rw [if_pos hwaits]
      simp only [Bool.not_eq_true] at hwaits
      refine preFree_ok ?_ (Or.inr (Or.inl (hzombie q hq hself hwaits.1 hwaits.2.1 hwaits.2.2)))
      exact (hkeeps.trans (.modify _ pid _)).known_readers hreaders
    · rw [if_neg hwaits]
      exact hfree

/-! ## The state of a run -/

/-- The init process has been stopped, and who is named by a process or a queue is in the table. -/
structure Sturdy (s : Scheduler) : Prop where
  arranged : s.Arranged
  kin : Kin s.parentOf s.childrenOf
  complete : ∀ a, a ≠ 0 → Complete s.parentOf s.childrenOf a
  stopped : s.initStopped

namespace Sturdy

lemma parents (h : s.Sturdy) (hp : s.processes pid = some p) : (s.processes p.ppid).isSome := by
  rcases eq_or_ne p.ppid 0 with hzero | hne
  · obtain ⟨mid, hplaced, -⟩ := h.arranged.placed
    obtain ⟨p₀, hp₀, -⟩ := hplaced.stopped h.stopped
    rw [hzero, hp₀]
    rfl
  · rcases eq_or_ne pid p.ppid with hself | hother
    · rw [← hself, hp]
      rfl
    · have hmem := h.complete p.ppid hne pid (parentOf_eq hp) hother
      rcases hq : s.processes p.ppid with _ | q
      · rw [(kin_new hq).2] at hmem
        cases hmem
      · rfl

lemma known_children (h : s.Sturdy) (hp : s.processes pid = some p) : s.Known p.children := by
  intro c hc
  rw [← childrenOf_eq hp] at hc
  obtain ⟨c', hc', -⟩ := Option.map_eq_some_iff.mp (h.kin.sound pid c hc).2
  rw [hc']
  rfl

lemma known_of_place {l : List ℕ} (hl : ∀ q ∈ l, ∃ b, s.placeOf none q = some b) : s.Known l := by
  intro q hq
  obtain ⟨b, hb⟩ := hl q hq
  obtain ⟨p, hp, -⟩ := placeOf_eq_some.mp hb
  rw [hp]
  rfl

lemma known_readers (h : s.Sturdy) : s.Known s.readers := by
  obtain ⟨mid, hplaced, -⟩ := h.arranged.placed
  exact known_of_place fun q hq => ⟨.read, hplaced.located.mem_read.mp hq⟩

lemma known_sleepers (h : s.Sturdy) : s.Known s.sleepers := by
  obtain ⟨mid, hplaced, -⟩ := h.arranged.placed
  exact known_of_place fun q hq => ⟨.sleep, hplaced.located.mem_sleep.mp hq⟩

lemma known_waiting (h : s.Sturdy) : s.Known s.waitingQueue := by
  obtain ⟨mid, hplaced, -⟩ := h.arranged.placed
  exact known_of_place fun q hq => ⟨.key, (hplaced.located.mem_key.mp hq).1⟩

lemma known_ready (h : s.Sturdy) : s.Known s.readyQueue := by
  obtain ⟨mid, hplaced, -⟩ := h.arranged.placed
  refine known_of_place ?_
  intro q hq
  rcases hplaced.located.mem_ready.mp hq with hready | hmid
  · exact ⟨.ready, hready⟩
  · exact Option.ne_none_iff_exists'.mp (hplaced.located.mid q hmid).2

lemma not_reader (h : s.Sturdy) (hp : s.processes pid = some p) (hplace : p.flags.place = .ready) :
    pid ∉ s.readers := by
  obtain ⟨mid, hplaced, -⟩ := h.arranged.placed
  intro hmem
  have hread := hplaced.located.mem_read.mp hmem
  obtain ⟨p', hp', hread', -⟩ := placeOf_eq_some.mp hread
  obtain rfl : p = p' := by simpa [hp] using hp'
  simp [hplace] at hread'

end Sturdy

/-- The interrupts, and the calls by which processes start, end and wait for each other. -/
def LifeCycle : SchedOp → Prop
  | .timer | .turn _ | .key _ | .fork | .exit _ | .kill .. | .waitPid .. => True
  | _ => False

/-- The steps that can be made: there is a pid for `fork`, no zombie for a process that waits for any
child, and no process becomes a zombie while it has children. -/
def Survives (s : Scheduler) : SchedOp → Prop
  | .fork => ∃ i < maxProcesses, s.pidPool i = false
  | .waitPid waitedFor wstatus => s.Reaps (.waitPid waitedFor wstatus)
  | .turn _ => ∀ pid p q, s.readyQueue.head? = some pid → s.processes pid = some p →
      p.flags.terminated → s.processes p.ppid = some q → p.ppid ≠ pid →
      q.isWaitingForAnyChildToTerminate = false → p.isWaitedByParent = false → p.children = []
  | _ => True

namespace Sturdy

lemma turn_ok {wakes : List ReadWake} (h : s.Sturdy) (hs : s.Survives (.turn wakes)) :
    ∃ s', s.turn wakes = .ok s' := by
  unfold turn
  split
  next => exact ⟨_, rfl⟩
  next pid rest hready =>
    obtain ⟨p, hp⟩ := Option.isSome_iff_exists.mp (h.known_ready pid (by rw [hready]; simp))
    have hlook : KeepsReaders s (s.lookAt pid) := ⟨fun _ => rfl, List.Subset.refl _⟩
    refine exists_bind_eq_ok (a := p) (proc_eq_ok.mpr hp) ?_
    by_cases hterm : p.flags.terminated
    · rw [if_pos hterm]
      have hplace := (h.arranged.placed_of_head hready hp (Or.inl hterm)).place_head hready hp
      refine relinquish_ok (s := s.lookAt pid) hp hterm (h.parents hp) (hlook.known (h.known_children hp))
        (hlook.known_readers h.known_readers) (h.not_reader hp hplace.1) ?_
      intro q hq hself hany hwaited _
      exact hs pid p q (by rw [hready]; rfl) hp hterm hq hself hany hwaited
    rw [if_neg hterm]
    by_cases hkey : p.flags.waitingKey
    · rw [if_pos hkey]
      exact ⟨_, rfl⟩
    rw [if_neg hkey]
    by_cases hblocked : p.flags.waitingProcess ∨ p.flags.sleeping ∨ p.flags.waitingRead
    · rw [if_pos hblocked]
      exact ⟨_, rfl⟩
    rw [if_neg hblocked]
    by_cases hexec : p.flags.exec
    · rw [if_pos hexec]
      obtain ⟨-, -, hflags, r, hr, -⟩ := h.arranged.orderly.exec pid p hp hexec
      have hmark : KeepsReaders s (s.markReplaced pid) := hlook.trans (.modify _ pid _)
      have hpm : (s.markReplaced pid).processes pid =
          some { p with flags := { p.flags with terminated := true } } := by
        rw [processes_modify, show (s.lookAt pid).processes pid = some p from hp]
        rfl
      obtain ⟨s₁, hs₁⟩ : ∃ s₁, (s.markReplaced pid).relinquishFirstReadyProcess pid wakes = .ok s₁ := by
        have hknown : (s.markReplaced pid).Known p.children := hmark.known (h.known_children hp)
        refine relinquish_ok hpm rfl ?_ hknown (hmark.known_readers h.known_readers) ?_ ?_
        · show ((s.markReplaced pid).processes p.ppid).isSome
          rw [hmark.isSome]
          exact h.parents hp
        · exact h.not_reader hp (by rw [hflags]; rfl)
        · intro q _ _ _ _ hno
          have hno : p.flags.exec = false := hno
          simp [hexec] at hno
      rw [hr]
      exact exists_bind_eq_ok hs₁ ⟨_, rfl⟩
    · rw [if_neg hexec]
      exact ⟨_, rfl⟩

end Sturdy

/-! ## Waiting -/

/-- Zombies can be freed. -/
structure Freeable (s : Scheduler) : Prop where
  parents : ∀ q p, s.processes q = some p → (s.processes p.ppid).isSome
  children : ∀ q p, s.processes q = some p → s.Known p.children
  readers : s.Known s.readers
  zombies : ∀ q p, s.processes q = some p → p.flags.zombie → q ∉ s.readers

lemma Sturdy.freeable (h : s.Sturdy) : s.Freeable := by
  refine ⟨fun _ _ => h.parents, fun _ _ => h.known_children, h.known_readers, ?_⟩
  intro q p hp hz
  obtain ⟨mid, hplaced, -⟩ := h.arranged.placed
  exact h.not_reader hp (hplaced.still q p hp (Or.inl hz))

namespace Freeable

lemma modify (h : s.Freeable)
    (hf : ∀ p, (f p).ppid = p.ppid ∧ (f p).children = p.children ∧ (f p).flags = p.flags) :
    (s.modify pid f).Freeable := by
  have hkeeps : KeepsReaders s (s.modify pid f) := .modify s pid f
  have hback : ∀ q p', (s.modify pid f).processes q = some p' → ∃ p, s.processes q = some p ∧
      p'.ppid = p.ppid ∧ p'.children = p.children ∧ p'.flags = p.flags := by
    intro q p' hp'
    rcases eq_or_ne q pid with rfl | hne
    · rw [processes_modify] at hp'
      obtain ⟨p, hp, rfl⟩ := Option.map_eq_some_iff.mp hp'
      exact ⟨p, hp, hf p⟩
    · rw [processes_modify_ne hne] at hp'
      exact ⟨p', hp', rfl, rfl, rfl⟩
  refine ⟨?_, ?_, hkeeps.known_readers h.readers, ?_⟩
  · intro q p' hp'
    obtain ⟨p, hp, hppid, -, -⟩ := hback q p' hp'
    rw [hppid, hkeeps.isSome]
    exact h.parents q p hp
  · intro q p' hp'
    obtain ⟨p, hp, -, hchildren, -⟩ := hback q p' hp'
    rw [hchildren]
    exact hkeeps.known (h.children q p hp)
  · intro q p' hp' hz
    obtain ⟨p, hp, -, -, hflags⟩ := hback q p' hp'
    exact h.zombies q p hp (by rw [← hflags]; exact hz)

lemma free (h : s.Freeable) (hp : s.processes pid = some p) (hz : p.flags.zombie) :
    ∃ s', s.freeTerminatedProcess pid [] = .ok s' :=
  freeTerminatedProcess_ok hp (Or.inr hz) (h.parents pid p hp) (h.children pid p hp) h.readers
    (h.zombies pid p hp hz)

lemma registerProcessWait (h : s.Freeable) (hp : s.processes pid = some p) (waitedFor : ℤ) :
    ∃ r, s.registerProcessWait pid waitedFor = .ok r := by
  refine exists_bind_eq_ok (proc_eq_ok.mpr hp) ?_
  simp only
  by_cases hany : waitedFor = -1
  · rw [if_pos hany]
    split
    next child hfind =>
      have hzombie := List.find?_some hfind
      obtain ⟨c, hc, hz⟩ := (Option.any_eq_true ..).mp hzombie
      obtain ⟨s₁, hs₁⟩ := h.free hc hz
      exact exists_bind_eq_ok hs₁ ⟨_, rfl⟩
    next =>
      split_ifs
      · exact ⟨_, rfl⟩
      · exact ⟨_, rfl⟩
  · rw [if_neg hany]
    by_cases hmem : 0 ≤ waitedFor ∧ waitedFor.toNat ∈ p.children
    · rw [if_neg (not_not.mpr hmem)]
      obtain ⟨c, hc⟩ := Option.isSome_iff_exists.mp (h.children pid p hp _ hmem.2)
      refine exists_bind_eq_ok (proc_eq_ok.mpr hc) ?_
      by_cases hz : c.flags.zombie
      · rw [if_pos hz]
        have hmark : (s.modify waitedFor.toNat fun c => { c with isWaitedByParent := true }).Freeable :=
          h.modify fun _ => ⟨rfl, rfl, rfl⟩
        obtain ⟨s₁, hs₁⟩ := hmark.free (p := { c with isWaitedByParent := true })
          (by rw [processes_modify, hc]; rfl) hz
        exact exists_bind_eq_ok hs₁ ⟨_, rfl⟩
      · rw [if_neg hz]
        exact ⟨_, rfl⟩
    · rw [if_pos hmem]
      exact ⟨_, rfl⟩

lemma waitPid (h : s.Freeable) (hp : s.processes pid = some p) (waitedFor : ℤ) (wstatus : ℕ) :
    ∃ s', s.waitPid pid waitedFor wstatus = .ok s' := by
  have hesi : (s.modify pid fun p => { p with esi := wstatus }).Freeable :=
    h.modify fun _ => ⟨rfl, rfl, rfl⟩
  obtain ⟨⟨wait, s₁⟩, hs₁⟩ := hesi.registerProcessWait (p := { p with esi := wstatus })
    (by rw [processes_modify, hp]; rfl) waitedFor
  refine exists_bind_eq_ok hs₁ ?_
  simp only
  split_ifs
  all_goals exact ⟨_, rfl⟩

end Freeable

/-! ## Steps -/

/-- The step does not fail. -/
def Returns (s : Scheduler) (op : SchedOp) : Prop := ∃ s', s.step op = .ok s'

lemma initStopped_turn {wakes : List ReadWake} (h : s.turn wakes = .ok s') :
    s'.initStopped = s.initStopped := by
  rcases turn_cases h with ⟨-, rfl⟩ | ⟨-, -, -, hs'⟩ | ⟨-, -, -, rfl⟩ | ⟨-, -, -, rfl⟩ |
    ⟨-, -, -, -, hs₁, rfl⟩ | ⟨-, -, -, rfl⟩
  case idle =>
    unfold noProcess
    split_ifs
    · rfl
    · rfl
  case ended pid rest p =>
    obtain ⟨p', -, ⟨-, -, -, -, hzombie⟩ | ⟨-, hfree⟩⟩ := relinquish_cases hs'
    · exact (Calms.preFree hzombie).same.initStopped
    · obtain ⟨_, -, -, hcalms⟩ := Calms.freeTerminatedProcess hfree
      rw [hcalms.same.initStopped]
      split_ifs
      · rfl
      · rfl
  case key => rfl
  case blocked => rfl
  case replaced pid rest p r s₁ =>
    have hsame := (Calms.preFree hs₁).same.initStopped
    unfold runFirst
    split_ifs
    · exact hsame
    · exact hsame
  case runs pid rest p =>
    unfold runFirst
    split_ifs
    · rfl
    · rfl

lemma initStopped_waitPid {waitedFor : ℤ} {wstatus : ℕ} (h : s.waitPid pid waitedFor wstatus = .ok s') :
    s'.initStopped = s.initStopped := by
  obtain ⟨wait, s₁, hreg, rfl⟩ := waitPid_eq h
  obtain ⟨p, -, hreg⟩ := registerProcessWait_cases hreg
  have hend : (s₁.endWait pid wait wstatus).initStopped = s₁.initStopped := by
    unfold endWait
    split_ifs
    all_goals rfl
  rw [hend]
  cases hreg with
  | noChild _ _ => rfl
  | anyZombie _ _ _ _ hfree =>
    obtain ⟨_, -, -, hcalms⟩ := Calms.freeTerminatedProcess hfree
    exact hcalms.same.initStopped
  | any _ _ _ => rfl
  | zombie _ _ _ _ hfree =>
    obtain ⟨_, -, -, hcalms⟩ := Calms.freeTerminatedProcess hfree
    exact hcalms.same.initStopped
  | one _ _ _ _ => rfl

lemma initStopped_step (hlife : LifeCycle op) (hs' : s.step op = .ok s') :
    s'.initStopped = s.initStopped := by
  cases op with
  | timer =>
    obtain ⟨s₁, hs₁, hs'⟩ := bind_eq_ok.mp hs'
    cases hs'
    exact (Wakes.checkForProcessesToWakeUp hs₁).same.initStopped
  | turn wakes => exact initStopped_turn hs'
  | key c => exact (Wakes.wakeUpKeyWaitingProcesses hs').same.initStopped
  | fork =>
    obtain ⟨p, child, s₁, -, hstarts, rfl⟩ := fork_cases hs'
    rw [hstarts.eq]
    rfl
  | exit retVal =>
    cases hs'
    rfl
  | kill target signal =>
    cases hs'
    unfold Scheduler.kill
    split_ifs
    · rfl
    · rfl
  | waitPid waitedFor wstatus => exact initStopped_waitPid hs'
  | exec | startKernelProcess | stopKernelInitProcess | execve | sleep | getKey | readWait | wakeReaders =>
    cases hlife

namespace Sturdy

lemma returns (h : s.Sturdy) (hallowed : s.Allowed op) (hlife : LifeCycle op) (hsurvives : s.Survives op) :
    s.Returns op := by
  cases op with
  | timer =>
    have hknown : Known { s with ticks := u32 (s.ticks + 1) } s.sleepers := h.known_sleepers
    obtain ⟨s₁, hs₁⟩ := checkForProcessesToWakeUp_ok hknown
    exact exists_bind_eq_ok hs₁ ⟨_, rfl⟩
  | turn wakes => exact h.turn_ok hsurvives
  | key c => exact wakeUpKeyWaitingProcesses_ok h.known_waiting
  | fork => exact fork_ok h.arranged.orderly hallowed hsurvives
  | exit retVal => exact ⟨_, rfl⟩
  | kill target signal => exact ⟨_, rfl⟩
  | waitPid waitedFor wstatus =>
    obtain ⟨p, -, -, hp, -⟩ := h.arranged.orderly.caller hallowed
    exact h.freeable.waitPid hp waitedFor wstatus
  | exec | startKernelProcess | stopKernelInitProcess | execve | sleep | getKey | readWait | wakeReaders =>
    cases hlife

lemma arranges (h : s.Sturdy) (hlife : LifeCycle op) : s.Arranges op := by
  cases op with
  | waitPid waitedFor wstatus =>
    intro p c hp _ hmem hc
    rw [← childrenOf_eq hp] at hmem
    have hparent := (h.kin.sound _ _ hmem).2
    rw [parentOf_eq hc] at hparent
    simpa using hparent
  | sleep ticks => cases hlife
  | _ => trivial

lemma step (h : s.Sturdy) (hallowed : s.Allowed op) (hlife : LifeCycle op) (hsurvives : s.Survives op)
    (hs' : s.step op = .ok s') : s'.Sturdy := by
  have hreaps : s.Reaps op := by
    cases op with
    | waitPid waitedFor wstatus => exact hsurvives
    | _ => trivial
  have hregroups : ∀ a, Regroups a s s' := by
    intro a
    refine regroups_step h.arranged.orderly h.kin hallowed hreaps ?_ hs'
    rintro loads rfl
    cases hlife
  refine ⟨h.arranged.step hallowed (h.arranges hlife) hs', (hregroups 0).kin h.kin, ?_, ?_⟩
  · intro a ha
    exact (hregroups a).complete (h.complete a ha)
  · rw [initStopped_step hlife hs']
    exact h.stopped

end Sturdy

/-! ## Runs -/

/-- What `kmain` does after `Scheduler::init`: it starts the refresh loop of the screen and the terminal, and
stops. -/
def kmain : List SchedOp := [.startKernelProcess, .exec 0 true, .stopKernelInitProcess]

/-- The state from which processes run. -/
def started : Scheduler := (kmain.foldlM step boot).toOption.getD boot

lemma run_kmain : kmain.foldlM step boot = .ok started ∧ started.initStopped := by
  obtain ⟨s, hs, hstopped⟩ := exists_reached (P := initStopped)
    (show (kmain.foldlM step boot).toOption.any initStopped by decide +kernel)
  have heq : started = s := by rw [started, hs]; rfl
  rw [heq]
  exact ⟨hs, hstopped⟩

lemma sturdy_started : started.Sturdy := by
  have hops : EachCall step (fun s op => s.Allowed op ∧ op ∈ kmain) kmain boot := by decide +kernel
  have hinv : EachCall step (After step fun s => s.Arranged ∧ Kin s.parentOf s.childrenOf ∧
      ∀ a, a ≠ 0 → Complete s.parentOf s.childrenOf a) kmain boot := by
    refine EachCall.invariant ?_ ⟨arranged_boot, kin_boot, fun a _ => complete_boot a⟩ hops
    rintro s op s' ⟨harranged, hkin, hcomplete⟩ ⟨hallowed, hmem⟩ hs'
    have hright : s.Arranges op ∧ s.Reaps op ∧ ∀ a loads, op = .exec a loads → a = 0 := by
      rcases List.mem_cons.mp hmem with rfl | hmem
      · exact ⟨trivial, trivial, by simp⟩
      rcases List.mem_cons.mp hmem with rfl | hmem
      · exact ⟨trivial, trivial, by simp +contextual⟩
      · obtain rfl := List.mem_singleton.mp hmem
        exact ⟨trivial, trivial, by simp⟩
    obtain ⟨harranges, hreaps, hexec⟩ := hright
    have hkin' : Kin s'.parentOf s'.childrenOf := by
      refine (regroups_step (a := maxProcesses) harranged.orderly hkin hallowed hreaps ?_ hs').kin hkin
      intro loads heq
      have hzero := hexec _ _ heq
      simp [maxProcesses] at hzero
    refine ⟨harranged.step hallowed harranges hs', hkin', ?_⟩
    intro a ha
    refine (regroups_step harranged.orderly hkin hallowed hreaps ?_ hs').complete (hcomplete a ha)
    intro loads heq
    exact ha (hexec a loads heq)
  obtain ⟨hrun, hstopped⟩ := run_kmain
  obtain ⟨harranged, hkin, hcomplete⟩ :=
    hinv.reached ⟨arranged_boot, kin_boot, fun a _ => complete_boot a⟩ started hrun
  exact ⟨harranged, hkin, hcomplete, hstopped⟩

instance decidableLifeCycle : DecidablePred LifeCycle
  | .timer | .turn _ | .key _ | .fork | .exit _ | .kill .. | .waitPid .. => inferInstanceAs (Decidable True)
  | .exec .. | .startKernelProcess | .stopKernelInitProcess | .execve .. | .sleep _ | .getKey
  | .readWait .. | .wakeReaders _ => inferInstanceAs (Decidable False)

instance decidableSurvives (s : Scheduler) : DecidablePred s.Survives
  | .fork => inferInstanceAs (Decidable (∃ i < maxProcesses, s.pidPool i = false))
  | .waitPid waitedFor wstatus => inferInstanceAs (Decidable (s.Reaps (.waitPid waitedFor wstatus)))
  | .turn _ => decidable_of_iff (∀ pid ∈ s.readyQueue.head?, ∀ p ∈ s.processes pid,
      p.flags.terminated → ∀ q ∈ s.processes p.ppid, p.ppid ≠ pid →
        q.isWaitingForAnyChildToTerminate = false → p.isWaitedByParent = false → p.children = [])
      ⟨fun h pid p q h₁ h₂ h₃ h₄ => h pid h₁ p h₂ h₃ q h₄,
        fun h pid h₁ p h₂ h₃ q h₄ => h pid p q h₁ h₂ h₃ h₄⟩
  | .timer | .key _ | .exec .. | .startKernelProcess | .stopKernelInitProcess
  | .execve .. | .exit _ | .kill .. | .sleep _ | .getKey | .readWait .. | .wakeReaders _ =>
      inferInstanceAs (Decidable True)

instance decidableReturns (s : Scheduler) : DecidablePred s.Returns :=
  fun op => decidable_of_iff ((s.step op).toOption.isSome) (by
    unfold Returns
    rcases s.step op with e | s'
    · simp [Except.toOption]
    · simp [Except.toOption])

end Scheduler

end BrebOS
