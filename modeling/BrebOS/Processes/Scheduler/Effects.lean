import BrebOS.Processes.Scheduler
import BrebOS.Lib.Loop

/-!
# What the parts of the scheduler do

Most of what happens besides the calls themselves is calm: processes are woken or told about a child,
processes that have ended are freed, and the ready queue gets longer at its end.  `Alters` says this
once for all of these functions; the processes that are freed are named, and what happens to the others
is a parameter.
-/

namespace BrebOS

/-- A process that at most got rid of flags it waits with. -/
structure Pcb.Calm (p p' : Pcb) : Prop where
  terminated : p'.flags.terminated = p.flags.terminated
  zombie : p'.flags.zombie = p.flags.zombie
  exec : p'.flags.exec = p.flags.exec
  waitingKey : p'.flags.waitingKey → p.flags.waitingKey
  waitingProcess : p'.flags.waitingProcess → p.flags.waitingProcess
  sleeping : p'.flags.sleeping → p.flags.sleeping
  waitingRead : p'.flags.waitingRead → p.flags.waitingRead

/-- A process that was woken, but not by a child, or not even that. -/
structure Pcb.Woken (p p' : Pcb) : Prop extends p.Calm p' where
  waits : p'.flags.waitingProcess = p.flags.waitingProcess
  rest : p' = { p with flags := p'.flags, eax := p'.eax }

/-- A process is told that a child of it has ended. -/
def Pcb.told (child : ℕ) (status : ℤ) (p : Pcb) : Pcb :=
  { p with
    valuesToWrite := if p.esi ≠ 0 then p.valuesToWrite ++ [(p.esi, status)] else p.valuesToWrite
    flags := { p.flags with waitingProcess := false }
    eax := child
    children := p.children.erase child
    isWaitingForAnyChildToTerminate := false }

namespace Pcb

variable {p p' p'' : Pcb}

lemma Calm.of_flags (h : p'.flags = p.flags) : Calm p p' := by
  refine ⟨by rw [h], by rw [h], by rw [h], ?_, ?_, ?_, ?_⟩
  all_goals rw [h]
  all_goals exact id

lemma Calm.trans (h : Calm p p') (h' : Calm p' p'') : Calm p p'' where
  terminated := h'.terminated.trans h.terminated
  zombie := h'.zombie.trans h.zombie
  exec := h'.exec.trans h.exec
  waitingKey := h.waitingKey ∘ h'.waitingKey
  waitingProcess := h.waitingProcess ∘ h'.waitingProcess
  sleeping := h.sleeping ∘ h'.sleeping
  waitingRead := h.waitingRead ∘ h'.waitingRead

lemma Calm.flags_eq (h : Calm p p') (hp : p.flags = {}) : p'.flags = {} := by
  have h₁ := h.terminated
  have h₂ := h.zombie
  have h₃ := h.exec
  have h₄ := h.waitingKey
  have h₅ := h.waitingProcess
  have h₆ := h.sleeping
  have h₇ := h.waitingRead
  rw [hp] at h₁ h₂ h₃ h₄ h₅ h₆ h₇
  rcases hflags : p'.flags with ⟨_, _, _, _, _, _, _⟩
  simp_all

instance Calm.isPreorder : IsPreorder Pcb Calm where
  refl _ := .of_flags rfl
  trans _ _ _ := Calm.trans

instance Woken.isPreorder : IsPreorder Pcb Woken where
  refl _ := ⟨.of_flags rfl, rfl, rfl⟩
  trans _ _ _ h h' := by
    refine ⟨h.toCalm.trans h'.toCalm, h'.waits.trans h.waits, ?_⟩
    conv_lhs => rw [h'.rest, h.rest]

end Pcb

namespace Scheduler

variable {s s' s'' : Scheduler} {pid q : ℕ} {p : Pcb} {f : Pcb → Pcb} {gone gone' : Finset ℕ}
  {R R' : Pcb → Pcb → Prop}

/-! ## Processes -/

lemma proc_eq_ok : s.proc pid = .ok p ↔ s.processes pid = some p := by
  unfold proc
  rcases s.processes pid with _ | p'
  · simp
  · simp

@[simp]
lemma processes_modify : (s.modify pid f).processes pid = (s.processes pid).map f := by
  simp [modify]

@[simp]
lemma processes_modify_ne (h : q ≠ pid) : (s.modify pid f).processes q = s.processes q := by
  simp [modify, h]

/-- The fields of the scheduler that only calls and turns change. -/
structure SameCpu (s s' : Scheduler) : Prop where
  runningProcess : s'.runningProcess = s.runningProcess
  cpu : s'.cpu = s.cpu
  execReplacement : s'.execReplacement = s.execReplacement
  initStopped : s'.initStopped = s.initStopped
  ticks : s'.ticks = s.ticks

lemma SameCpu.trans (h : SameCpu s s') (h' : SameCpu s' s'') : SameCpu s s'' :=
  ⟨h'.1.trans h.1, h'.2.trans h.2, h'.3.trans h.3, h'.4.trans h.4, h'.5.trans h.5⟩

/-- The processes change as `R` says, those in `gone` are freed, and others come to the ready queue. -/
structure Alters (R : Pcb → Pcb → Prop) (gone : Finset ℕ) (s s' : Scheduler) : Prop where
  same : SameCpu s s'
  ready : s.readyQueue <+: s'.readyQueue
  pool : ∀ q, s'.pidPool q = (s.pidPool q && decide (q ∉ gone))
  none_iff : ∀ q, s'.processes q = none ↔ s.processes q = none ∨ q ∈ gone
  alters : ∀ q p', s'.processes q = some p' → ∃ p, s.processes q = some p ∧ R p p'

/-- Processes are woken or told about a child, and those in `gone` are freed. -/
abbrev Calms (gone : Finset ℕ) (s s' : Scheduler) : Prop := Alters Pcb.Calm gone s s'

/-- Processes are woken. -/
abbrev Wakes (s s' : Scheduler) : Prop := Alters Pcb.Woken ∅ s s'

namespace Alters

lemma mono (h : Alters R gone s s') (hR : ∀ p p', R p p' → R' p p') : Alters R' gone s s' := by
  refine ⟨h.same, h.ready, h.pool, h.none_iff, ?_⟩
  intro q p' hp'
  obtain ⟨p, hp, hpp'⟩ := h.alters q p' hp'
  exact ⟨p, hp, hR p p' hpp'⟩

lemma calms (h : Wakes s s') : Calms ∅ s s' := h.mono fun _ _ => Pcb.Woken.toCalm

lemma kept (h : Alters R gone s s') (hp : s.processes q = some p) (hq : q ∉ gone) :
    ∃ p', s'.processes q = some p' ∧ R p p' := by
  have hsome : s'.processes q ≠ none := by
    rw [Ne, h.none_iff, hp]
    simp [hq]
  obtain ⟨p', hp'⟩ := Option.ne_none_iff_exists'.mp hsome
  obtain ⟨p₀, hp₀, hR⟩ := h.alters q p' hp'
  obtain rfl : p = p₀ := by simpa [hp] using hp₀
  exact ⟨p', hp', hR⟩

section Preorder

variable [IsPreorder Pcb R]

lemma of_eq (hpool : s'.pidPool = s.pidPool) (hprocs : s'.processes = s.processes)
    (hready : s'.readyQueue = s.readyQueue) (hsame : SameCpu s s') : Alters R ∅ s s' := by
  refine ⟨hsame, ?_, ?_, ?_, ?_⟩
  · rw [hready]
  · simp [hpool]
  · simp [hprocs]
  · intro q p hp
    exact ⟨p, hprocs ▸ hp, refl_of R p⟩

lemma refl (s : Scheduler) : Alters R ∅ s s := of_eq rfl rfl rfl ⟨rfl, rfl, rfl, rfl, rfl⟩

lemma trans (h : Alters R gone s s') (h' : Alters R gone' s' s'') : Alters R (gone ∪ gone') s s'' := by
  refine ⟨h.same.trans h'.same, h.ready.trans h'.ready, ?_, ?_, ?_⟩
  · intro q
    rw [h'.pool, h.pool]
    simp [Bool.and_assoc]
  · intro q
    rw [h'.none_iff, h.none_iff, Finset.mem_union, or_assoc]
  · intro q p'' hp''
    obtain ⟨p', hp', hR'⟩ := h'.alters q p'' hp''
    obtain ⟨p, hp, hR⟩ := h.alters q p' hp'
    exact ⟨p, hp, trans_of R hR hR'⟩

lemma andThen (h : Alters R ∅ s s') (h' : Alters R gone s' s'') : Alters R gone s s'' := by
  simpa using h.trans h'

lemma before (h : Alters R gone s s') (h' : Alters R ∅ s' s'') : Alters R gone s s'' := by
  simpa using h.trans h'

lemma modify (s : Scheduler) (pid : ℕ) (hf : ∀ p, s.processes pid = some p → R p (f p)) :
    Alters R ∅ s (s.modify pid f) := by
  refine ⟨⟨rfl, rfl, rfl, rfl, rfl⟩, List.prefix_refl _, ?_, ?_, ?_⟩
  · intro q
    simp [Scheduler.modify]
  · intro q
    rcases eq_or_ne q pid with rfl | hne
    · simp
    · simp [hne]
  · intro q p' hp'
    rcases eq_or_ne q pid with rfl | hne
    · rw [processes_modify] at hp'
      obtain ⟨p, hp, rfl⟩ := Option.map_eq_some_iff.mp hp'
      exact ⟨p, hp, hf p hp⟩
    · rw [processes_modify_ne hne] at hp'
      exact ⟨p', hp', refl_of R p'⟩

lemma enqueueReady (s : Scheduler) (pid : ℕ) : Alters R ∅ s (s.enqueueReady pid) := by
  refine ⟨⟨rfl, rfl, rfl, rfl, rfl⟩, ?_, ?_, ?_, ?_⟩
  · show s.readyQueue <+: enqueue s.readyQueue pid
    unfold enqueue
    split_ifs
    · exact List.prefix_refl _
    · exact List.prefix_append _ _
  · intro q
    simp [Scheduler.enqueueReady, setReadyQueue]
  · intro q
    simp [Scheduler.enqueueReady, setReadyQueue]
  · intro q p hp
    exact ⟨p, hp, refl_of R p⟩

lemma wakeUp (hf : ∀ p, R p (f p)) (h : s.wakeUp pid f = .ok s') : Alters R ∅ s s' := by
  obtain ⟨p, -, hs'⟩ := bind_eq_ok.mp h
  cases hs'
  exact (enqueueReady s pid).andThen (modify _ pid fun p _ => hf p)

lemma foldlM {α : Type} {g : Scheduler → α → Except Fault Scheduler} {l : List α}
    (hg : ∀ s a s', g s a = .ok s' → Alters R ∅ s s') (h : l.foldlM g s = .ok s') :
    Alters R ∅ s s' :=
  foldlM_invariant (fun t => Alters R ∅ s t) h (refl s) fun a _ c c' hc hstep =>
    hc.andThen (hg c a c' hstep)

end Preorder

end Alters

/-! ## Wake-ups -/

namespace Wakes

lemma resumeReader {e : ProcWaitingForRead} (h : s.resumeReader e = .ok s') : Wakes s s' := by
  have hread : Wakes s { s with processesWaitingForRead :=
      s.processesWaitingForRead.eraseP fun x => x.pid = e.pid ∧ x.fd = e.fd } :=
    .of_eq rfl rfl rfl ⟨rfl, rfl, rfl, rfl, rfl⟩
  refine hread.andThen (.wakeUp ?_ h)
  intro p
  exact ⟨⟨rfl, rfl, rfl, id, id, id, by simp⟩, rfl, rfl⟩

lemma wakeUpReadWaitingProcesses {w : ReadWake} (h : s.wakeUpReadWaitingProcesses w = .ok s') :
    Wakes s s' := by
  have hcount : Wakes s { s with processesWaitingForRead :=
      (s.processesWaitingForRead.map (countBytes w)).map Prod.fst } :=
    .of_eq rfl rfl rfl ⟨rfl, rfl, rfl, rfl, rfl⟩
  exact hcount.andThen (.foldlM (fun _ _ _ => resumeReader) h)

lemma wakeAll {wakes : List ReadWake}
    (h : wakes.foldlM Scheduler.wakeUpReadWaitingProcesses s = .ok s') : Wakes s s' :=
  .foldlM (fun _ _ _ => wakeUpReadWaitingProcesses) h

lemma checkForProcessesToWakeUp : ∀ {fuel : ℕ} {s : Scheduler},
    s.checkForProcessesToWakeUp fuel = .ok s' → Wakes s s' := by
  intro fuel
  induction fuel with
  | zero =>
    intro s h
    cases h
    exact .refl _
  | succ fuel ih =>
    intro s h
    unfold Scheduler.checkForProcessesToWakeUp at h
    rcases hmin : s.sleepingProcesses.min? with _ | a
    · rw [hmin] at h
      cases h
      exact .refl _
    · rw [hmin] at h
      simp only at h
      split_ifs at h
      · obtain ⟨s₁, hwake, h⟩ := bind_eq_ok.mp h
        have hheap : Wakes s { s with sleepingProcesses := s.sleepingProcesses.deleteMin } :=
          .of_eq rfl rfl rfl ⟨rfl, rfl, rfl, rfl, rfl⟩
        refine (hheap.andThen (.wakeUp ?_ hwake)).andThen (ih h)
        intro p
        exact ⟨⟨rfl, rfl, rfl, id, id, by simp, id⟩, rfl, rfl⟩
      · cases h
        exact .refl _

lemma wakeUpKeyWaitingProcesses {key : ℤ} : ∀ {fuel i : ℕ} {s : Scheduler},
    s.wakeUpKeyWaitingProcesses key fuel i = .ok s' → Wakes s s' := by
  intro fuel
  induction fuel with
  | zero =>
    intro i s h
    cases h
    exact .refl _
  | succ fuel ih =>
    intro i s h
    unfold Scheduler.wakeUpKeyWaitingProcesses at h
    split_ifs at h
    · rcases hqueue : s.waitingQueue with _ | ⟨pid, rest⟩
      · rw [hqueue] at h
        cases h
        exact .refl _
      · rw [hqueue] at h
        obtain ⟨s₁, hwake, h⟩ := bind_eq_ok.mp h
        have hrest : Wakes s { s with waitingQueue := rest } :=
          .of_eq rfl rfl rfl ⟨rfl, rfl, rfl, rfl, rfl⟩
        refine (hrest.andThen (.wakeUp ?_ hwake)).andThen (ih h)
        intro p
        exact ⟨⟨rfl, rfl, rfl, by simp, id, id, id⟩, rfl, rfl⟩
    · cases h
      exact .refl _

end Wakes

/-! ## The end of a process -/

lemma modify_modify {g : Pcb → Pcb} : (s.modify pid f).modify pid g = s.modify pid (g ∘ f) := by
  simp [modify]

lemma preFree_cases {wakes : List ReadWake} (h : s.preFree pid p wakes = .ok s') :
    (p.isPreFreed = true ∧ s' = s) ∨ (p.isPreFreed = false ∧ (p.children = [] ∨ p.flags.exec) ∧
      ∃ s₁, wakes.foldlM Scheduler.wakeUpReadWaitingProcesses s = .ok s₁ ∧
        s' = s₁.modify pid fun p => { p with isPreFreed := true }) := by
  unfold preFree at h
  by_cases hfreed : p.isPreFreed
  · rw [if_pos hfreed] at h
    cases h
    exact Or.inl ⟨hfreed, rfl⟩
  · rw [if_neg hfreed] at h
    obtain ⟨s₁, hwakes, h⟩ := bind_eq_ok.mp h
    by_cases hchildren : p.children ≠ [] ∧ ¬ p.flags.exec
    · rw [if_pos hchildren] at h
      cases h
    · rw [if_neg hchildren] at h
      cases h
      refine Or.inr ⟨by simpa using hfreed, ?_, s₁, hwakes, rfl⟩
      by_contra hcon
      rw [not_or] at hcon
      exact hchildren hcon

@[simp]
lemma processes_readyUnlessRuns :
    (if s.runningProcess ≠ some q then s.enqueueReady q else s).processes = s.processes := by
  split_ifs
  · rfl
  · rfl

lemma wakeUpProcessParent_eq (h : s.wakeUpProcessParent pid = .ok s') :
    ∃ p q, s.processes pid = some p ∧ s.processes p.ppid = some q ∧
      s'.modify p.ppid (fun q => { q with isWaitingForAnyChildToTerminate := false }) =
        (if s.runningProcess ≠ some p.ppid then s.enqueueReady p.ppid else s).modify p.ppid
          (Pcb.told pid p.retStatus) := by
  obtain ⟨p, hp, h⟩ := bind_eq_ok.mp h
  obtain ⟨q, hq, h⟩ := bind_eq_ok.mp h
  rw [proc_eq_ok] at hp hq
  refine ⟨p, q, hp, hq, ?_⟩
  cases h
  have hprocs : (if s.runningProcess ≠ some p.ppid then s.enqueueReady p.ppid else s).processes p.ppid =
      some q := by rw [processes_readyUnlessRuns, hq]
  rw [modify_modify]
  unfold modify
  rw [hprocs]
  rfl

lemma tellParent_cases (h : s.tellParent pid = .ok s') : ∃ p, s.processes pid = some p ∧
    ((s.parentWaits p = .ok false ∧ s' = s) ∨
      (s.parentWaits p = .ok true ∧ (∃ q, s.processes p.ppid = some q) ∧
        s' = ((if s.runningProcess ≠ some p.ppid then s.enqueueReady p.ppid else s).modify p.ppid
          (Pcb.told pid p.retStatus)).modify pid fun p => { p with isWaitedByParent := false })) := by
  obtain ⟨p, hp, h⟩ := bind_eq_ok.mp h
  obtain ⟨waits, hwaits, h⟩ := bind_eq_ok.mp h
  rw [proc_eq_ok] at hp
  refine ⟨p, hp, ?_⟩
  cases waits with
  | false =>
    rw [if_neg (by simp)] at h
    cases h
    exact Or.inl ⟨hwaits, rfl⟩
  | true =>
    rw [if_pos rfl] at h
    obtain ⟨s₁, hwake, h⟩ := bind_eq_ok.mp h
    cases h
    obtain ⟨p', q, hp', hq, heq⟩ := wakeUpProcessParent_eq hwake
    obtain rfl : p = p' := by simpa [hp] using hp'
    rw [heq]
    exact Or.inr ⟨hwaits, ⟨q, hq⟩, rfl⟩

/-- The process is taken out of the table, and its pid given back. -/
abbrev unregistered (s : Scheduler) (pid : ℕ) : Scheduler :=
  { s.releasePid pid with processes := Function.update s.processes pid none }

lemma freeTerminatedProcess_cases {wakes : List ReadWake}
    (h : s.freeTerminatedProcess pid wakes = .ok s') :
    ∃ p, s.processes pid = some p ∧ (p.flags.terminated ∨ p.flags.zombie) ∧
      ((p.flags.exec = true ∧ s.preFree pid p wakes = .ok s') ∨
        (p.flags.exec = false ∧ ∃ s₁ p₁ s₂, s.tellParent pid = .ok s₁ ∧ s₁.processes pid = some p₁ ∧
          p₁.children.foldlM Scheduler.orphan s₁ = .ok s₂ ∧
          (s₂.unregistered pid).preFree pid { p with children := [] } wakes = .ok s')) := by
  obtain ⟨p, hp, h⟩ := bind_eq_ok.mp h
  rw [proc_eq_ok] at hp
  have hended : ¬ (¬ p.flags.terminated ∧ ¬ p.flags.zombie) := by
    intro hflags
    rw [if_pos hflags] at h
    cases h
  rw [if_neg hended] at h
  refine ⟨p, hp, by tauto, ?_⟩
  by_cases hexec : p.flags.exec
  · rw [if_pos hexec] at h
    exact Or.inl ⟨hexec, h⟩
  · rw [if_neg hexec] at h
    obtain ⟨s₁, htell, h⟩ := bind_eq_ok.mp h
    obtain ⟨p₁, hp₁, h⟩ := bind_eq_ok.mp h
    obtain ⟨s₂, horphan, h⟩ := bind_eq_ok.mp h
    rw [proc_eq_ok] at hp₁
    exact Or.inr ⟨by simpa using hexec, s₁, p₁, s₂, htell, hp₁, horphan, h⟩

/-- What may happen to a process while another one ends, and to the one that ends. -/
structure Bears (R : Pcb → Pcb → Prop) : Prop where
  woken : ∀ p p', p.Woken p' → R p p'
  told : ∀ p child status, R p (p.told child status)
  heard : ∀ p, R p { p with isWaitedByParent := false }
  orphan : ∀ p ppid, R p { p with ppid }
  preFreed : ∀ p, R p { p with isPreFreed := true }

namespace Alters

section Ends

variable [IsPreorder Pcb R]

lemma preFree {wakes : List ReadWake} (hR : Bears R) (h : s.preFree pid p wakes = .ok s') :
    Alters R ∅ s s' := by
  rcases preFree_cases h with ⟨-, rfl⟩ | ⟨-, -, s₁, hwakes, rfl⟩
  · exact .refl s'
  · exact ((Wakes.wakeAll hwakes).mono hR.woken).andThen (.modify _ pid fun p _ => hR.preFreed p)

lemma orphan {child : ℕ} (hR : Bears R) (h : s.orphan child = .ok s') : Alters R ∅ s s' := by
  obtain ⟨p, -, h⟩ := bind_eq_ok.mp h
  cases h
  exact .modify s child fun p _ => hR.orphan p child

lemma tellParent (hR : Bears R) (h : s.tellParent pid = .ok s') : Alters R ∅ s s' := by
  obtain ⟨p, -, ⟨-, rfl⟩ | ⟨-, -, rfl⟩⟩ := tellParent_cases h
  · exact .refl s'
  · have hready : Alters R ∅ s (if s.runningProcess ≠ some p.ppid then s.enqueueReady p.ppid else s) := by
      split_ifs
      · exact .enqueueReady s p.ppid
      · exact .refl s
    exact (hready.andThen (.modify _ p.ppid fun q _ => hR.told q _ _)).andThen
      (.modify _ pid fun p _ => hR.heard p)

lemma unregister (s : Scheduler) (pid : ℕ) : Alters R {pid} s (s.unregistered pid) := by
  refine ⟨⟨rfl, rfl, rfl, rfl, rfl⟩, List.prefix_refl _, ?_, ?_, ?_⟩
  · intro q
    show Function.update s.pidPool pid false q = _
    rcases eq_or_ne q pid with rfl | hne
    · simp
    · simp [hne]
  · intro q
    show Function.update s.processes pid none q = none ↔ _
    rcases eq_or_ne q pid with rfl | hne
    · simp
    · simp [hne]
  · intro q p hp
    have hp : Function.update s.processes pid none q = some p := hp
    rcases eq_or_ne q pid with rfl | hne
    · simp at hp
    · rw [Function.update_of_ne hne] at hp
      exact ⟨p, hp, refl_of R p⟩

lemma freeTerminatedProcess {wakes : List ReadWake} (hR : Bears R)
    (h : s.freeTerminatedProcess pid wakes = .ok s') :
    ∃ p, s.processes pid = some p ∧ (p.flags.terminated ∨ p.flags.zombie) ∧
      Alters R (if p.flags.exec then ∅ else {pid}) s s' := by
  obtain ⟨p, hp, hended, ⟨hexec, hfree⟩ | ⟨hexec, s₁, p₁, s₂, htell, -, horphan, hfree⟩⟩ :=
    freeTerminatedProcess_cases h
  · refine ⟨p, hp, hended, ?_⟩
    rw [if_pos hexec]
    exact preFree hR hfree
  · refine ⟨p, hp, hended, ?_⟩
    rw [if_neg (by simp [hexec])]
    refine (tellParent hR htell).andThen ?_
    refine Alters.andThen (.foldlM (fun _ _ _ => orphan hR) horphan) ?_
    exact (unregister s₂ pid).before (preFree hR hfree)

end Ends

end Alters

lemma bears_calm : Bears Pcb.Calm where
  woken _ _ := Pcb.Woken.toCalm
  told _ _ _ := ⟨rfl, rfl, rfl, id, by simp [Pcb.told], id, id⟩
  heard _ := .of_flags rfl
  orphan _ _ := .of_flags rfl
  preFreed _ := .of_flags rfl

namespace Calms

lemma preFree {wakes : List ReadWake} (h : s.preFree pid p wakes = .ok s') : Calms ∅ s s' :=
  Alters.preFree bears_calm h

lemma orphan {child : ℕ} (h : s.orphan child = .ok s') : Calms ∅ s s' := Alters.orphan bears_calm h

lemma tellParent (h : s.tellParent pid = .ok s') : Calms ∅ s s' := Alters.tellParent bears_calm h

lemma freeTerminatedProcess {wakes : List ReadWake}
    (h : s.freeTerminatedProcess pid wakes = .ok s') :
    ∃ p, s.processes pid = some p ∧ (p.flags.terminated ∨ p.flags.zombie) ∧
      Calms (if p.flags.exec then ∅ else {pid}) s s' :=
  Alters.freeTerminatedProcess bears_calm h

end Calms

end Scheduler

end BrebOS
