import BrebOS.Processes.Scheduler.NoPanic
import BrebOS.Lib.Loop

/-!
# The next process

`Scheduler::get_next_process` looks at the first process of the ready queue until it finds one to run or
the queue is empty.  A turn of its loop deals with a process that has ended or is replaced (`unsettled`),
or takes one that has blocked off the queue, or moves one without time left to its end with time again.
-/

namespace BrebOS

/-- What a turn leaves of a process that is not replaced. -/
structure Pcb.Passes (p p' : Pcb) : Prop where
  terminated : p'.flags.terminated = p.flags.terminated
  exec : p'.flags.exec = p.flags.exec
  zombie : p.flags.zombie → p'.flags.zombie
  place : p.flags.place = .ready → p'.flags.place = .ready
  children : p.children = [] → p'.children = []
  priority : p'.priority = p.priority

instance Pcb.Passes.isPreorder : IsPreorder Pcb Pcb.Passes where
  refl _ := ⟨rfl, rfl, id, id, id, rfl⟩
  trans _ _ _ h h' := ⟨h'.terminated.trans h.terminated, h'.exec.trans h.exec, h'.zombie ∘ h.zombie,
    h'.place ∘ h.place, h'.children ∘ h.children, h'.priority.trans h.priority⟩

/-- The end of a process, or its replacement, is still to be dealt with. -/
def Pcb.unsettled (p : Pcb) : Bool := p.flags.terminated && !p.flags.zombie || p.flags.exec

lemma Pcb.Passes.unsettled {p p' : Pcb} (h : p.Passes p') (hp' : p'.unsettled) : p.unsettled := by
  simp only [Pcb.unsettled, h.terminated, h.exec, Bool.or_eq_true, Bool.and_eq_true,
    Bool.not_eq_true'] at hp' ⊢
  refine hp'.imp_left fun hended => ⟨hended.1, ?_⟩
  by_contra hz
  have hz' := h.zombie (by simpa using hz)
  simp [hended.2] at hz'

namespace Scheduler

lemma bears_passes : Bears Pcb.Passes where
  woken p p' h := by
    refine ⟨h.terminated, h.exec, ?_, h.toCalm.place_ready, ?_, ?_⟩
    · rw [h.zombie]
      exact id
    all_goals rw [h.rest]
    exact id
  told p child status := by
    refine ⟨rfl, rfl, id, (bears_calm.told p child status).place_ready, ?_, rfl⟩
    intro hnone
    simp [Pcb.told, hnone]
  heard _ := ⟨rfl, rfl, id, id, id, rfl⟩
  orphan _ _ := ⟨rfl, rfl, id, id, id, rfl⟩
  preFreed _ := ⟨rfl, rfl, id, id, id, rfl⟩

variable {s s' s₀ : Scheduler} {pid q : ℕ} {p r : Pcb} {rest : List ℕ} {wakes : List ReadWake}
  {gone : Finset ℕ}

/-! ## What a turn does to the processes -/

/-- The processes after a turn are the ones before it, or replacements. -/
structure Follows (s s' : Scheduler) : Prop where
  back : ∀ q p', s'.processes q = some p' → (∃ p, s.processes q = some p ∧ p.Passes p') ∨
    ∃ p r, s.processes q = some p ∧ p.flags.exec ∧ s.execReplacement q = some r ∧ r.flags = {} ∧ r.Passes p'
  on : ∀ q p, s.processes q = some p → p.flags.terminated = false →
    ∃ p', s'.processes q = some p' ∧ (p.Passes p' ∨ p'.flags = {})
  replacement : ∀ q r, s'.execReplacement q = some r → s.execReplacement q = some r

namespace Follows

lemma congr (hprocs : s'.processes = s.processes) (hexec : s'.execReplacement = s.execReplacement) :
    Follows s s' := by
  refine ⟨?_, ?_, ?_⟩
  · intro q p hp
    rw [hprocs] at hp
    exact Or.inl ⟨p, hp, refl_of Pcb.Passes p⟩
  · intro q p hp _
    exact ⟨p, by rw [hprocs, hp], Or.inl (refl_of Pcb.Passes p)⟩
  · intro q r hr
    rwa [hexec] at hr

lemma of_alters (h : Alters Pcb.Passes gone s₀ s') (hprocs : s₀.processes = s.processes)
    (hexec : s₀.execReplacement = s.execReplacement)
    (hgone : ∀ q ∈ gone, ∀ p, s.processes q = some p → p.flags.terminated) : Follows s s' := by
  refine ⟨?_, ?_, ?_⟩
  · intro q p' hp'
    obtain ⟨p, hp, hpass⟩ := h.alters q p' hp'
    rw [hprocs] at hp
    exact Or.inl ⟨p, hp, hpass⟩
  · intro q p hp hterm
    have hkept : q ∉ gone := by
      intro hq
      simp [hgone q hq p hp] at hterm
    obtain ⟨p', hp', hpass⟩ := h.kept (by rw [hprocs, hp]) hkept
    exact ⟨p', hp', Or.inl hpass⟩
  · intro q r hr
    rwa [h.same.execReplacement, hexec] at hr

lemma replace {r' : Pcb} (hp : s.processes pid = some p) (hpexec : p.flags.exec)
    (h : Alters Pcb.Passes ∅ s₀ s') (hprocs : ∀ q, q ≠ pid → s₀.processes q = s.processes q)
    (hexec : s₀.execReplacement = s.execReplacement) (hr : s.execReplacement pid = some r)
    (hflags : r.flags = {}) (hr' : r.Passes r') (hflags' : r'.flags = {}) {s'' : Scheduler}
    (hprocs'' : s''.processes = Function.update s'.processes pid (some r'))
    (hexec'' : s''.execReplacement = Function.update s'.execReplacement pid none) : Follows s s'' := by
  refine ⟨?_, ?_, ?_⟩
  · intro q p' hp'
    rw [hprocs''] at hp'
    rcases eq_or_ne q pid with rfl | hne
    · rw [Function.update_self, Option.some.injEq] at hp'
      subst hp'
      exact Or.inr ⟨p, r, hp, hpexec, hr, hflags, hr'⟩
    · rw [Function.update_of_ne hne] at hp'
      obtain ⟨p, hp, hpass⟩ := h.alters q p' hp'
      rw [hprocs q hne] at hp
      exact Or.inl ⟨p, hp, hpass⟩
  · intro q p hp _
    rcases eq_or_ne q pid with rfl | hne
    · exact ⟨r', by rw [hprocs'', Function.update_self], Or.inr hflags'⟩
    · obtain ⟨p', hp', hpass⟩ := h.kept (by rw [hprocs q hne, hp]) (by simp)
      exact ⟨p', by rw [hprocs'', Function.update_of_ne hne, hp'], Or.inl hpass⟩
  · intro q r₁ hr₁
    rw [hexec''] at hr₁
    rcases eq_or_ne q pid with rfl | hne
    · simp at hr₁
    · rwa [Function.update_of_ne hne, h.same.execReplacement, hexec] at hr₁

end Follows

lemma runFirst_processes (s : Scheduler) (pid : ℕ) (p : Pcb) :
    ∃ p', (s.runFirst pid p).processes = Function.update s.processes pid (some p') ∧ p.Passes p' ∧
      p'.flags = p.flags := by
  unfold runFirst
  split_ifs
  · exact ⟨p.resumed, rfl, ⟨rfl, rfl, id, id, id, rfl⟩, rfl⟩
  · exact ⟨p.resetQuantum, rfl, ⟨rfl, rfl, id, id, id, rfl⟩, rfl⟩

lemma runFirst_execReplacement : (s.runFirst pid p).execReplacement = s.execReplacement := by
  unfold runFirst
  split_ifs
  · rfl
  · rfl

lemma ended_follows (hp : s.processes pid = some p) (hterm : p.flags.terminated)
    (hexec : p.flags.exec = false)
    (hs' : (s.lookAt pid).relinquishFirstReadyProcess pid wakes = .ok s') :
    Follows s s' ∧ ∀ p', s'.processes pid = some p' → p'.unsettled = false := by
  have hended : ∀ q ∈ ({pid} : Finset ℕ), ∀ p, s.processes q = some p → p.flags.terminated := by
    intro q hq p' hp'
    obtain rfl := Finset.mem_singleton.mp hq
    obtain rfl : p = p' := by simpa [hp] using hp'
    exact hterm
  obtain ⟨p₁, hp₁, hcases⟩ := relinquish_cases hs'
  have hp₁ : s.processes pid = some p₁ := hp₁
  obtain rfl : p = p₁ := by simpa [hp] using hp₁
  rcases hcases with ⟨-, -, -, -, hzombie⟩ | ⟨-, hfree⟩
  · have hpre := Alters.preFree bears_passes hzombie
    have hmark : Alters Pcb.Passes ∅ ((s.lookAt pid).setReadyQueue (s.lookAt pid).readyQueue.tail)
        (((s.lookAt pid).setReadyQueue (s.lookAt pid).readyQueue.tail).modify pid fun p =>
          { p with flags := { p.flags with zombie := true } }) :=
      .modify _ pid fun _ _ => ⟨rfl, rfl, fun _ => rfl, id, id, rfl⟩
    refine ⟨.of_alters (hmark.andThen hpre) rfl rfl (by simp), ?_⟩
    intro p' hp'
    obtain ⟨p₂, hp₂, hpass⟩ := hpre.alters pid p' hp'
    rw [processes_modify, show ((s.lookAt pid).setReadyQueue (s.lookAt pid).readyQueue.tail).processes pid =
      some p from hp, Option.map_some, Option.some.injEq] at hp₂
    subst hp₂
    have hz : p'.flags.zombie := hpass.zombie rfl
    have hexec' : p'.flags.exec = false := hpass.exec.trans hexec
    simp [Pcb.unsettled, hz, hexec']
  · rw [if_neg (by simp [hexec])] at hfree
    obtain ⟨p₂, hp₂, -, halters⟩ := Alters.freeTerminatedProcess bears_passes hfree
    have hp₂ : s.processes pid = some p₂ := hp₂
    obtain rfl : p = p₂ := by simpa [hp] using hp₂
    rw [if_neg (by simp [hexec])] at halters
    refine ⟨.of_alters halters rfl rfl hended, ?_⟩
    intro p' hp'
    have hnone := (halters.none_iff pid).mpr (Or.inr (Finset.mem_singleton_self pid))
    simp [hnone] at hp'

lemma replaced_follows {s₁ : Scheduler} (hp : s.processes pid = some p) (hpexec : p.flags.exec)
    (hr : s.execReplacement pid = some r) (hflags : r.flags = {})
    (hs₁ : (s.markReplaced pid).preFree pid { p with flags := { p.flags with terminated := true } } wakes =
      .ok s₁)
    (hs' : s' = Scheduler.runFirst pid r { s₁ with
      processes := Function.update s₁.processes pid (some r)
      execReplacement := Function.update s₁.execReplacement pid none }) :
    Follows s s' ∧ ∀ p', s'.processes pid = some p' → p'.unsettled = false := by
  obtain ⟨r', hprocs, hpass, hflags'⟩ := runFirst_processes { s₁ with
      processes := Function.update s₁.processes pid (some r)
      execReplacement := Function.update s₁.execReplacement pid none } pid r
  rw [← hs', Function.update_idem] at hprocs
  have hexec : s'.execReplacement = Function.update s₁.execReplacement pid none := by
    rw [hs', runFirst_execReplacement]
  refine ⟨.replace hp hpexec (Alters.preFree bears_passes hs₁) (fun q hne => processes_modify_ne hne) rfl hr
    hflags hpass (hflags'.trans hflags) hprocs hexec, ?_⟩
  intro p' hp'
  rw [hprocs, Function.update_self, Option.some.injEq] at hp'
  simp [← hp', Pcb.unsettled, hflags', hflags]

lemma runs_follows (hp : s.processes pid = some p) : Follows s ((s.lookAt pid).runFirst pid p) := by
  obtain ⟨p', hprocs, hpass, -⟩ := runFirst_processes (s.lookAt pid) pid p
  have hmodify : Alters Pcb.Passes ∅ s (s.modify pid fun _ => p') := by
    refine .modify s pid ?_
    intro p₁ hp₁
    obtain rfl : p = p₁ := by simpa [hp] using hp₁
    exact hpass
  have hmap : ((s.lookAt pid).runFirst pid p).processes = (s.modify pid fun _ => p').processes := by
    rw [hprocs, modify, hp]
    rfl
  refine ⟨?_, ?_, ?_⟩
  · intro q p₁ hp₁
    rw [hmap] at hp₁
    exact Or.inl (hmodify.alters q p₁ hp₁)
  · intro q p₁ hp₁ _
    obtain ⟨p₂, hp₂, hpass₂⟩ := hmodify.kept hp₁ (by simp)
    exact ⟨p₂, by rw [hmap, hp₂], Or.inl hpass₂⟩
  · intro q r hr
    rwa [runFirst_execReplacement] at hr

lemma noProcess_processes : s.noProcess.processes = s.processes ∧
    s.noProcess.execReplacement = s.execReplacement ∧ s.noProcess.readyQueue = s.readyQueue ∧
    (s.noProcess.cpu = .halted ∨ s.noProcess.cpu = .off) := by
  unfold noProcess
  split_ifs
  · exact ⟨rfl, rfl, rfl, Or.inr rfl⟩
  · exact ⟨rfl, rfl, rfl, Or.inl rfl⟩

lemma turn_follows (h : s.Orderly) (hs' : s.turn wakes = .ok s') : Follows s s' := by
  rcases turn_cases hs' with ⟨-, rfl⟩ | ⟨-, hp, hterm, hs'⟩ | ⟨-, -, -, rfl⟩ | ⟨-, -, -, rfl⟩ |
    ⟨-, hp, hexec, hr, hs₁, hs'⟩ | ⟨-, hp, -, rfl⟩
  case idle => exact .congr noProcess_processes.1 noProcess_processes.2.1
  case ended pid rest p =>
    have hexec : p.flags.exec = false := by
      by_contra hexec
      have hflags := (h.exec pid p hp (by simpa using hexec)).2.2.1
      simp [hflags] at hterm
    exact (ended_follows hp hterm hexec hs').1
  case key => exact .congr rfl rfl
  case blocked => exact .congr rfl rfl
  case replaced pid rest p r s₁ =>
    obtain ⟨-, -, -, r', hr', hrep⟩ := h.exec pid p hp hexec
    obtain rfl : r = r' := by simpa [hr] using hr'
    exact (replaced_follows hp hexec hr hrep.flags hs₁ hs').1
  case runs => exact runs_follows hp

lemma cpu_turn (hcpu : s.cpu = .scheduling) (hs' : s.turn wakes = .ok s') :
    s'.cpu = .scheduling ∨ s'.cpu = .user ∨ (s'.cpu = .halted ∨ s'.cpu = .off) ∧ s'.readyQueue = [] := by
  have hrun : ∀ {t : Scheduler} {pid : ℕ} {p : Pcb}, t.cpu = .scheduling →
      (t.runFirst pid p).cpu = .scheduling ∨ (t.runFirst pid p).cpu = .user := by
    intro t pid p ht
    unfold runFirst
    split_ifs
    · exact Or.inr rfl
    · exact Or.inl ht
  rcases turn_cases hs' with ⟨hready, rfl⟩ | ⟨-, -, -, hs'⟩ | ⟨-, -, -, rfl⟩ | ⟨-, -, -, rfl⟩ |
    ⟨-, -, -, -, hs₁, rfl⟩ | ⟨-, -, -, rfl⟩
  case idle =>
    obtain ⟨-, -, hsame, hcpu'⟩ := noProcess_processes (s := s)
    exact Or.inr (Or.inr ⟨hcpu', hsame.trans hready⟩)
  case ended pid rest p =>
    obtain ⟨p', -, ⟨-, -, -, -, hzombie⟩ | ⟨-, hfree⟩⟩ := relinquish_cases hs'
    · exact Or.inl ((Calms.preFree hzombie).same.cpu.trans hcpu)
    · obtain ⟨_, -, -, hcalms⟩ := Calms.freeTerminatedProcess hfree
      refine Or.inl (hcalms.same.cpu.trans ?_)
      split_ifs
      · exact hcpu
      · exact hcpu
  case key => exact Or.inl hcpu
  case blocked => exact Or.inl hcpu
  case replaced pid rest p r s₁ =>
    have hcpu₁ : s₁.cpu = .scheduling := (Calms.preFree hs₁).same.cpu.trans hcpu
    refine (hrun ?_).imp_right Or.inl
    exact hcpu₁
  case runs pid rest p =>
    refine (hrun ?_).imp_right Or.inl
    exact hcpu

/-! ## Progress -/

/-- How many processes are still to be dealt with. -/
def unsettledProcesses (s : Scheduler) : ℕ :=
  ((Finset.range maxProcesses).filter fun q => (s.processes q).any Pcb.unsettled).card

/-- How many processes of the ready queue have no time left. -/
def exhausted (s : Scheduler) : ℕ :=
  s.readyQueue.countP fun q => (s.processes q).any fun p => p.quantum = 0

/-- What the loop has to do.  Processes come to the ready queue when one is dealt with, but never more than
there are. -/
def work (s : Scheduler) : ℕ :=
  (2 * maxProcesses + 1) * s.unsettledProcesses + (s.readyQueue.length + s.exhausted)

lemma Follows.unsettled (h : Follows s s') (hq : (s'.processes q).any Pcb.unsettled) :
    (s.processes q).any Pcb.unsettled := by
  obtain ⟨p', hp', hunsettled⟩ := (Option.any_eq_true ..).mp hq
  rcases h.back q p' hp' with ⟨p, hp, hpass⟩ | ⟨p, r, -, -, -, hflags, hpass⟩
  · exact (Option.any_eq_true ..).mpr ⟨p, hp, hpass.unsettled hunsettled⟩
  · have hr := hpass.unsettled hunsettled
    simp [Pcb.unsettled, hflags] at hr

lemma Follows.unsettledProcesses_le (h : Follows s s') : s'.unsettledProcesses ≤ s.unsettledProcesses := by
  refine Finset.card_le_card ?_
  intro q hq
  rw [Finset.mem_filter] at hq ⊢
  exact ⟨hq.1, h.unsettled hq.2⟩

lemma Follows.unsettledProcesses_lt (h : Follows s s') (hpid : pid < maxProcesses)
    (hp : s.processes pid = some p) (hunsettled : p.unsettled)
    (hdone : ∀ p', s'.processes pid = some p' → p'.unsettled = false) :
    s'.unsettledProcesses < s.unsettledProcesses := by
  refine Finset.card_lt_card (Finset.ssubset_iff_of_subset ?_ |>.mpr ⟨pid, ?_, ?_⟩)
  · intro q hq
    rw [Finset.mem_filter] at hq ⊢
    exact ⟨hq.1, h.unsettled hq.2⟩
  · rw [Finset.mem_filter, Finset.mem_range]
    exact ⟨hpid, (Option.any_eq_true ..).mpr ⟨p, hp, hunsettled⟩⟩
  · intro hmem
    obtain ⟨p', hp', htrue⟩ := (Option.any_eq_true ..).mp (Finset.mem_filter.mp hmem).2
    simp [hdone p' hp'] at htrue

lemma exhausted_le : s.exhausted ≤ s.readyQueue.length := List.countP_le_length

lemma work_lt_of_unsettled (hlt : s'.unsettledProcesses < s.unsettledProcesses)
    (hlength : s'.readyQueue.length ≤ maxProcesses) : s'.work < s.work := by
  have hle := exhausted_le (s := s')
  have hmax : maxProcesses = 32 := rfl
  rw [hmax] at hlength
  rw [work, work, hmax]
  omega

lemma work_lt_of_queue (hle : s'.unsettledProcesses ≤ s.unsettledProcesses)
    (hlt : s'.readyQueue.length + s'.exhausted < s.readyQueue.length + s.exhausted) : s'.work < s.work := by
  have hmax : maxProcesses = 32 := rfl
  rw [work, work, hmax]
  omega

lemma work_lt_dequeue (hready : s.readyQueue = pid :: rest) (hready' : s'.readyQueue = rest)
    (hprocs : s'.processes = s.processes) (hexec : s'.execReplacement = s.execReplacement) :
    s'.work < s.work := by
  refine work_lt_of_queue (Follows.congr hprocs hexec).unsettledProcesses_le ?_
  have hle : s'.exhausted ≤ s.exhausted := by
    rw [exhausted, exhausted, hready, hready', hprocs]
    exact (List.sublist_cons_self pid rest).countP_le
  rw [hready, hready', List.length_cons]
  omega

lemma work_lt_rotate (hready : s.readyQueue = pid :: rest) (hp : s.processes pid = some p)
    (hzero : p.quantum = 0) (hpriority : 0 < p.priority) :
    ((s.lookAt pid).runFirst pid p).work < s.work := by
  refine work_lt_of_queue (runs_follows hp).unsettledProcesses_le ?_
  set s' := (s.lookAt pid).runFirst pid p with hs'
  have heq : s' = { s.lookAt pid with
      readyQueue := enqueue s.readyQueue.tail pid
      processes := Function.update s.processes pid (some p.resetQuantum) } := by
    rw [hs', runFirst, if_neg (by simp [hzero])]
  have hready' : s'.readyQueue.Sublist (rest ++ [pid]) := by
    rw [heq]
    show (enqueue s.readyQueue.tail pid).Sublist (rest ++ [pid])
    rw [hready, List.tail_cons, enqueue]
    split_ifs
    · exact List.sublist_append_left rest [pid]
    · exact List.Sublist.refl _
  have htime : (s'.processes pid).any (fun p => p.quantum = 0) = false := by
    rw [heq]
    show (Function.update s.processes pid (some p.resetQuantum) pid).any _ = false
    rw [Function.update_self]
    simp [Pcb.resetQuantum, clockTickMs]
    omega
  have hother : ∀ q ∈ rest, (s'.processes q).any (fun p => p.quantum = 0) →
      (s.processes q).any fun p => p.quantum = 0 := by
    intro q _ hq
    rcases eq_or_ne q pid with rfl | hne
    · rw [htime] at hq
      cases hq
    · rw [heq] at hq
      have hq : (Function.update s.processes pid (some p.resetQuantum) q).any _ := hq
      rwa [Function.update_of_ne hne] at hq
  have hexhausted : s'.exhausted + 1 ≤ s.exhausted := by
    calc s'.exhausted + 1
        ≤ (rest ++ [pid]).countP (fun q => (s'.processes q).any fun p => p.quantum = 0) + 1 :=
          Nat.add_le_add_right hready'.countP_le 1
      _ = rest.countP (fun q => (s'.processes q).any fun p => p.quantum = 0) + 1 := by
          rw [List.countP_append, List.countP_singleton, htime]
          rfl
      _ ≤ rest.countP (fun q => (s.processes q).any fun p => p.quantum = 0) + 1 :=
          Nat.add_le_add_right (List.countP_mono_left hother) 1
      _ = s.exhausted := by
          rw [exhausted, hready, List.countP_cons_of_pos]
          simp [hp, hzero]
  have hlength := hready'.length_le
  rw [List.length_append, List.length_singleton] at hlength
  rw [hready, List.length_cons]
  omega

lemma Placed.length_ready_le {mid out : Option ℕ} (h : Placed mid out s) :
    s.readyQueue.length ≤ maxProcesses := by
  have hsub : s.readyQueue ⊆ List.range maxProcesses := by
    intro q hq
    rw [List.mem_range]
    exact h.mem_ready_lt hq
  have hle := (List.subperm_of_subset h.located.nodup_ready hsub).length_le
  rwa [List.length_range] at hle

/-! ## The calls -/

/-- The states the loop starts from: a process that has ended has no children, and processes have time when
they are given some. -/
structure Schedulable (s : Scheduler) : Prop where
  sturdy : s.Sturdy
  childless : ∀ q p, s.processes q = some p → p.flags.terminated → p.children = []
  priority : ∀ q p, s.processes q = some p → 0 < p.priority
  replacement : ∀ q p r, s.processes q = some p → p.flags.exec → s.execReplacement q = some r →
    0 < r.priority

/-- A process is in the ready queue and may run: it has not ended, and does not wait. -/
def Ready (s : Scheduler) (q : ℕ) : Prop :=
  q ∈ s.readyQueue ∧ ∃ p, s.processes q = some p ∧ p.flags.terminated = false ∧ p.flags.place = .ready

/-- A process comes to the ready queue in a turn, and may run. -/
def Joins (q : ℕ) (s : Scheduler) (wakes : List ReadWake) : Prop :=
  q ∉ s.readyQueue ∧ ∃ s', s.turn wakes = .ok s' ∧ s'.Ready q

namespace Schedulable

lemma turn_work (h : s.Schedulable) (hs' : s.turn wakes = .ok s') (hsturdy : s'.Sturdy)
    (hcpu : s'.cpu = .scheduling) : s'.work < s.work := by
  have horderly := h.sturdy.arranged.orderly
  obtain ⟨mid, hplaced, -⟩ := hsturdy.arranged.placed
  have hlength := hplaced.length_ready_le
  rcases turn_cases hs' with ⟨-, rfl⟩ | ⟨hready, hp, hterm, hs'⟩ | ⟨hready, -, -, rfl⟩ |
    ⟨hready, -, -, rfl⟩ | ⟨-, hp, hexec, hr, hs₁, hs'⟩ | ⟨hready, hp, hflags, rfl⟩
  case idle =>
    have hstopped := (noProcess_processes (s := s)).2.2.2
    simp [hcpu] at hstopped
  case ended pid rest p =>
    have hexec : p.flags.exec = false := by
      by_contra hexec
      have hflags := (horderly.exec pid p hp (by simpa using hexec)).2.2.1
      simp [hflags] at hterm
    have hz := ((h.sturdy.arranged.placed_of_head hready hp (Or.inl hterm)).place_head hready hp).2.1
    obtain ⟨hfollows, hdone⟩ := ended_follows hp hterm hexec hs'
    have hlt := (horderly.pooled pid p hp).2
    refine work_lt_of_unsettled (hfollows.unsettledProcesses_lt hlt hp ?_ hdone) hlength
    simp [Pcb.unsettled, hterm, hz]
  case key => exact work_lt_dequeue hready rfl rfl rfl
  case blocked => exact work_lt_dequeue hready rfl rfl rfl
  case replaced pid rest p r s₁ =>
    obtain ⟨-, -, -, r', hr', hrep⟩ := horderly.exec pid p hp hexec
    obtain rfl : r = r' := by simpa [hr] using hr'
    obtain ⟨hfollows, hdone⟩ := replaced_follows hp hexec hr hrep.flags hs₁ hs'
    have hlt := (horderly.pooled pid p hp).2
    refine work_lt_of_unsettled (hfollows.unsettledProcesses_lt hlt hp ?_ hdone) hlength
    simp [Pcb.unsettled, hexec]
  case runs pid rest p =>
    refine work_lt_rotate hready hp ?_ (h.priority pid p hp)
    by_contra htime
    rw [runFirst, if_pos htime] at hcpu
    cases hcpu

lemma turn (h : s.Schedulable) (hcpu : s.cpu = .scheduling) (wakes : List ReadWake) :
    ∃ s', s.turn wakes = .ok s' ∧ s'.Schedulable ∧ (s'.cpu = .scheduling → s'.work < s.work) := by
  have hsurvives : s.Survives (.turn wakes) := fun pid p q _ hp hterm _ _ _ _ => h.childless pid p hp hterm
  obtain ⟨s', hs'⟩ := h.sturdy.turn_ok hsurvives
  have hstep : s.step (.turn wakes) = .ok s' := hs'
  have hsturdy := h.sturdy.step (show s.Allowed (.turn wakes) from hcpu) trivial hsurvives hstep
  have hfollows := turn_follows h.sturdy.arranged.orderly hs'
  refine ⟨s', hs', ⟨hsturdy, ?_, ?_, ?_⟩, h.turn_work hs' hsturdy⟩
  · intro q p' hp' hterm
    rcases hfollows.back q p' hp' with ⟨p, hp, hpass⟩ | ⟨p, r, -, -, -, hflags, hpass⟩
    · rw [hpass.terminated] at hterm
      exact hpass.children (h.childless q p hp hterm)
    · rw [hpass.terminated, hflags] at hterm
      cases hterm
  · intro q p' hp'
    rcases hfollows.back q p' hp' with ⟨p, hp, hpass⟩ | ⟨p, r, hp, hexec, hr, -, hpass⟩
    · rw [hpass.priority]
      exact h.priority q p hp
    · rw [hpass.priority]
      exact h.replacement q p r hp hexec hr
  · intro q p' r hp' hexec' hr
    rcases hfollows.back q p' hp' with ⟨p, hp, hpass⟩ | ⟨p, r', -, -, -, hflags, hpass⟩
    · rw [hpass.exec] at hexec'
      exact h.replacement q p r hp hexec' (hfollows.replacement q r hr)
    · rw [hpass.exec, hflags] at hexec'
      cases hexec'

end Schedulable

/-! ## Who is ready -/

namespace Sturdy

lemma mem_ready (h : s.Sturdy) (hne : q ≠ 0) (hp : s.processes q = some p)
    (hterm : p.flags.terminated = false) (hplace : p.flags.place = .ready) : q ∈ s.readyQueue := by
  obtain ⟨mid, hplaced, -⟩ := h.arranged.placed
  refine hplaced.located.mem_ready.mpr (Or.inl (placeOf_eq_some.mpr ⟨p, hp, hplace, ?_⟩))
  rintro (hz | ⟨hzero, -⟩ | hout)
  · have hended := h.arranged.orderly.zombie q p hp hz
    simp [hterm] at hended
  · exact hne hzero
  · cases hout

lemma ne_zero (h : s.Sturdy) (hq : q ∈ s.readyQueue) : q ≠ 0 := by
  obtain ⟨mid, hplaced, -⟩ := h.arranged.placed
  have hplace : s.placeOf none q ≠ none := by
    rcases hplaced.located.mem_ready.mp hq with hready | hmid
    · simp [hready]
    · exact (hplaced.located.mid q hmid).2
  obtain ⟨b, hb⟩ := Option.ne_none_iff_exists'.mp hplace
  obtain ⟨p, -, -, hnowhere⟩ := placeOf_eq_some.mp hb
  rintro rfl
  exact hnowhere (Or.inr (Or.inl ⟨rfl, h.stopped⟩))

lemma ready_turn (h : s.Sturdy) (h' : s'.Sturdy) (hfollows : Follows s s') (hq : s.Ready q) :
    s'.Ready q := by
  obtain ⟨hmem, p, hp, hterm, hplace⟩ := hq
  obtain ⟨p', hp', hcases⟩ := hfollows.on q p hp hterm
  have hright : p'.flags.terminated = false ∧ p'.flags.place = .ready := by
    rcases hcases with hpass | hflags
    · exact ⟨hpass.terminated.trans hterm, hpass.place hplace⟩
    · rw [hflags]
      exact ⟨rfl, rfl⟩
  exact ⟨h'.mem_ready (h.ne_zero hmem) hp' hright.1 hright.2, p', hp', hright⟩

lemma not_ready_of_mid (h : s.Sturdy) (hs' : s.turn wakes = .ok s') (hhead : s.readyQueue.head? = some q)
    (hp : s.processes q = some p) (hterm : p.flags.terminated = false) (hplace : p.flags.place ≠ .ready) :
    ¬ s'.Ready q := by
  have hfirst : ∀ {pid rest p₁}, s.readyQueue = pid :: rest → s.processes pid = some p₁ → p₁ = p := by
    intro pid rest p₁ hready hp₁
    obtain rfl : pid = q := by simpa [hready] using hhead
    simpa [hp] using hp₁.symm
  have hsame : s'.processes = s.processes → ¬ s'.Ready q := by
    rintro hprocs ⟨-, p', hp', -, hplace'⟩
    rw [hprocs, hp, Option.some.injEq] at hp'
    subst hp'
    exact hplace hplace'
  rcases turn_cases hs' with ⟨hready, rfl⟩ | ⟨hready, hp₁, hended, -⟩ | ⟨-, -, -, rfl⟩ | ⟨-, -, -, rfl⟩ |
    ⟨hready, hp₁, hexec, -, -, -⟩ | ⟨hready, hp₁, hflags, -⟩
  case idle => simp [hready] at hhead
  case ended pid rest p₁ =>
    obtain rfl := hfirst hready hp₁
    simp [hterm] at hended
  case key => exact hsame rfl
  case blocked => exact hsame rfl
  case replaced pid rest p₁ r s₁ =>
    have hflags := (h.arranged.orderly.exec pid p₁ hp₁ hexec).2.2.1
    obtain rfl := hfirst hready hp₁
    rw [hflags] at hplace
    exact absurd rfl hplace
  case runs pid rest p₁ =>
    obtain rfl := hfirst hready hp₁
    rw [h.arranged.orderly.flags_of_runs hp₁ hflags] at hplace
    exact absurd rfl hplace

lemma ready_of_turn (h : s.Sturdy) (hs' : s.turn wakes = .ok s') (hmem : q ∈ s.readyQueue)
    (hq : s'.Ready q) : s.Ready q := by
  have ⟨_, p', hp', hterm', _⟩ := hq
  obtain ⟨p, hp, hterm, hexec⟩ : ∃ p, s.processes q = some p ∧ p.flags.terminated = false ∧
      (p.flags.exec → p.flags.place = .ready) := by
    have hflags : ∀ p, s.processes q = some p → p.flags.exec → p.flags = { exec := true } := by
      intro p hp hexec
      exact (h.arranged.orderly.exec q p hp hexec).2.2.1
    rcases (turn_follows h.arranged.orderly hs').back q p' hp' with ⟨p, hp, hpass⟩ | ⟨p, -, hp, hexec, -⟩
    · exact ⟨p, hp, hpass.terminated.symm.trans hterm', fun hexec => by rw [hflags p hp hexec]; rfl⟩
    · refine ⟨p, hp, ?_, fun hexec => ?_⟩
      · rw [hflags p hp hexec]
      · rw [hflags p hp hexec]
        rfl
  obtain ⟨mid, hplaced, hmid⟩ := h.arranged.placed
  refine ⟨hmem, p, hp, hterm, ?_⟩
  rcases hplaced.located.mem_ready.mp hmem with hready | hmidq
  · obtain ⟨p₁, hp₁, hplace, -⟩ := placeOf_eq_some.mp hready
    obtain rfl : p = p₁ := by simpa [hp] using hp₁
    exact hplace
  · by_contra hplace
    exact h.not_ready_of_mid hs' (hmid q hmidq).2.1 hp hterm hplace hq

end Sturdy

/-! ## Calls -/

/-- The loop of `Scheduler::get_next_process`, and what `schedule` does with its answer.  Each turn is given
the readers that closing pipes wakes in it. -/
def getNextProcess (wakes : List (List ReadWake)) (s : Scheduler) : Except Fault Scheduler :=
  whileM (fun s => s.cpu = .scheduling) (fun s wakes => s.turn wakes) wakes s

/-- A process comes to the ready queue in a turn of the loop, and may run. -/
def WokenIn (wakes : List (List ReadWake)) (q : ℕ) (s : Scheduler) : Prop :=
  DuringM (fun s => s.cpu = .scheduling) (fun s wakes => s.turn wakes) (Joins q) wakes s

/-- A call answers with the first process of the ready queue, or with none when the queue is empty; it
answers with one just when one was ready or was woken by a turn, and all of these are in the queue once. -/
structure NextRight (wakes : List (List ReadWake)) (s s' : Scheduler) : Prop where
  answer : (s'.cpu = .user ∧ ∃ q, s'.runningProcess = some q ∧ s'.readyQueue.head? = some q ∧ s'.Ready q) ∨
    (s'.cpu = .halted ∨ s'.cpu = .off) ∧ s'.readyQueue = []
  found : s'.cpu = .user ↔ ∃ q, s.Ready q ∨ s.WokenIn wakes q
  once : ∀ q, s.Ready q ∨ s.WokenIn wakes q → s'.readyQueue.count q = 1

lemma ready_of_user (h : s.Orderly) (hcpu : s.cpu = .user) :
    ∃ q, s.runningProcess = some q ∧ s.readyQueue.head? = some q ∧ s.Ready q := by
  obtain ⟨q, p, hrun, hhead, hp, hflags⟩ := h.user hcpu
  refine ⟨q, hrun, hhead, List.mem_of_head? hhead, p, hp, ?_, ?_⟩
  · rw [hflags]
  · rw [hflags]
    rfl

/-- The state after the first interrupt. -/
def interrupted : Scheduler := started.interruptTimer.toOption.getD boot

lemma schedulable_interrupted : interrupted.Schedulable := by
  have hallowed : started.Allowed .timer := Or.inr (Or.inl (by decide +kernel))
  obtain ⟨s, hs⟩ := sturdy_started.returns hallowed trivial trivial
  have hsturdy := sturdy_started.step hallowed trivial trivial hs
  have heq : interrupted = s := by
    rw [interrupted, show started.interruptTimer = .ok s from hs]
    rfl
  rw [← heq] at hsturdy
  have hright : ∀ q < maxProcesses, (interrupted.processes q).all (fun p =>
      !p.flags.terminated && !p.flags.exec && decide (0 < p.priority)) := by decide +kernel
  have hof : ∀ q p, interrupted.processes q = some p →
      p.flags.terminated = false ∧ p.flags.exec = false ∧ 0 < p.priority := by
    intro q p hp
    have hall := hright q (hsturdy.arranged.orderly.pooled q p hp).2
    rw [hp] at hall
    simpa [and_assoc] using hall
  refine ⟨hsturdy, ?_, ?_, ?_⟩
  · intro q p hp hterm
    simp [(hof q p hp).1] at hterm
  · intro q p hp
    exact (hof q p hp).2.2
  · intro q p r hp hexec
    simp [(hof q p hp).2.1] at hexec

/-- The ready queue has each process once, and those of it that have ended have a parent and no children. -/
def QueueRight (s : Scheduler) : Prop :=
  s.readyQueue.Nodup ∧ ∀ q ∈ s.readyQueue, (s.processes q).any fun p =>
    0 < p.priority && p.quantum % clockTickMs == 0 &&
      (!p.flags.terminated || (s.processes p.ppid).isSome && p.children.isEmpty)

instance decidableQueueRight : DecidablePred QueueRight :=
  fun s => inferInstanceAs (Decidable (s.readyQueue.Nodup ∧ ∀ q ∈ s.readyQueue, _))

/-- The loop in a state with a few processes. -/
def withProcesses (processes : List (ℕ × Pcb)) (readyQueue : List ℕ) : Scheduler where
  pidPool i := (processes.lookup i).isSome
  processes i := processes.lookup i
  readyQueue := readyQueue
  runningProcess := some 1
  cpu := .scheduling
  initStopped := true

/-- The last process that writes to a pipe has ended, and nobody waits for it. -/
def lastWriter : Scheduler :=
  { withProcesses [(0, { ppid := 0 }), (1, { ppid := 0, flags := { terminated := true } }),
      (2, { ppid := 0, flags := { waitingRead := true }, quantum := 10 })] [1] with
    processesWaitingForRead := [{ pid := 2, fd := 5, request := 1 }] }

/-- A process was killed while it waited for a child, which has ended. -/
def killedParent : Scheduler :=
  withProcesses [(0, { ppid := 0 }),
    (1, { ppid := 0, flags := { terminated := true, waitingProcess := true }, children := [2]
          isWaitingForAnyChildToTerminate := true }),
    (2, { ppid := 1, flags := { terminated := true } })] [2]

/-- A process that waits for a child is still in the ready queue. -/
def readyParent : Scheduler :=
  withProcesses [(0, { ppid := 0 }),
    (1, { ppid := 0, quantum := 10, children := [2], isWaitingForAnyChildToTerminate := true }),
    (2, { ppid := 1, flags := { terminated := true } })] [2, 1]

/-- A process has ended while it is replaced. -/
def endedExec : Scheduler :=
  withProcesses [(0, { ppid := 0 }),
    (1, { ppid := 0, flags := { terminated := true, exec := true }, isPreFreed := true })] [1]

end Scheduler

end BrebOS
