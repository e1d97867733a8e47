import BrebOS.Processes.Scheduler.Located
import BrebOS.Processes.Scheduler.Waits

/-!
# Where the processes are

The queues of the scheduler, its heap of sleeping processes and its list of readers say where each
process is (`Located`), and the flags of a process say the same.
-/

namespace BrebOS

/-- The place the flags of a process name. -/
def ProcessFlags.place (f : ProcessFlags) : Place :=
  if f.waitingKey then .key
  else if f.sleeping then .sleep
  else if f.waitingRead then .read
  else if f.waitingProcess then .wait
  else .ready

/-- A process waits in one way at most. -/
def ProcessFlags.Single (f : ProcessFlags) : Prop :=
  f.waitingKey.toNat + f.sleeping.toNat + f.waitingRead.toNat + f.waitingProcess.toNat ≤ 1

instance ProcessFlags.decidableSingle : DecidablePred ProcessFlags.Single :=
  fun f => inferInstanceAs (Decidable
    (f.waitingKey.toNat + f.sleeping.toNat + f.waitingRead.toNat + f.waitingProcess.toNat ≤ 1))

/-- The flags that say where a process is. -/
def Pcb.stance (p : Pcb) : ProcessFlags := { p.flags with terminated := false, exec := false }

/-- The flags of a process that is woken from a place. -/
def ProcessFlags.leave (f : ProcessFlags) : Place → ProcessFlags
  | .ready => f
  | .key => { f with waitingKey := false }
  | .sleep => { f with sleeping := false }
  | .read => { f with waitingRead := false }
  | .wait => { f with waitingProcess := false }

namespace ProcessFlags

variable {f : ProcessFlags}

lemma place_eq_ready : f.place = .ready ↔
    f.waitingKey = false ∧ f.sleeping = false ∧ f.waitingRead = false ∧ f.waitingProcess = false := by
  rcases f with ⟨t, a, b, z, c, e, d⟩
  revert t a b z c e d
  decide

lemma place_eq_key : f.place = .key ↔ f.waitingKey = true := by
  rcases f with ⟨t, a, b, z, c, e, d⟩
  revert t a b z c e d
  decide

lemma Single.place_eq_wait (h : f.Single) : f.place = .wait ↔ f.waitingProcess = true := by
  rcases f with ⟨t, a, b, z, c, e, d⟩
  revert t a b z c e d
  decide

lemma Single.of_ready (h : f.place = .ready) : f.Single := by
  obtain ⟨h₁, h₂, h₃, h₄⟩ := place_eq_ready.mp h
  simp [Single, h₁, h₂, h₃, h₄]

lemma Single.place_leave (h : f.Single) : (f.leave f.place).place = .ready := by
  rcases f with ⟨t, a, b, z, c, e, d⟩
  revert t a b z c e d
  decide

end ProcessFlags

section Stance

variable {p p' : Pcb}

lemma Pcb.zombie_of_stance (h : p'.stance = p.stance) : p'.flags.zombie = p.flags.zombie := by
  have hz : p'.stance.zombie = p.stance.zombie := by rw [h]
  exact hz

lemma Pcb.place_of_stance (h : p'.stance = p.stance) : p'.flags.place = p.flags.place := by
  have hplace : p'.stance.place = p.stance.place := by rw [h]
  exact hplace

lemma Pcb.Calm.stance_eq (h : p.Calm p') (hp : p.stance = {}) : p'.stance = {} := by
  have h₁ := h.zombie
  have h₂ := h.waitingKey
  have h₃ := h.waitingProcess
  have h₄ := h.sleeping
  have h₅ := h.waitingRead
  unfold Pcb.stance at hp ⊢
  rcases hflags : p.flags with ⟨_, _, _, _, _, _, _⟩
  rcases hflags' : p'.flags with ⟨_, _, _, _, _, _, _⟩
  simp_all

lemma Pcb.Calm.place_ready (h : p.Calm p') (hp : p.flags.place = .ready) :
    p'.flags.place = .ready := by
  rw [ProcessFlags.place_eq_ready] at hp ⊢
  obtain ⟨h₁, h₂, h₃, h₄⟩ := hp
  have hkey := h.waitingKey
  have hsleep := h.sleeping
  have hread := h.waitingRead
  have hwait := h.waitingProcess
  simp_all

end Stance

namespace Scheduler

variable {s s' : Scheduler} {pid q : ℕ} {p : Pcb} {f : Pcb → Pcb} {mid out : Option ℕ}

/-- Where a process is; a zombie, the init process once it is stopped, and a process that is being
freed are nowhere. -/
def placeOf (out : Option ℕ) (s : Scheduler) (q : ℕ) : Option Place :=
  (s.processes q).bind fun p =>
    if p.flags.zombie ∨ q = 0 ∧ s.initStopped ∨ out = some q then none else some p.flags.place

/-- Who sleeps. -/
def sleepers (s : Scheduler) : List ℕ := s.sleepingProcesses.elements.map AsleepProcess.process

/-- Who waits for data. -/
def readers (s : Scheduler) : List ℕ := s.processesWaitingForRead.map ProcWaitingForRead.pid

structure Placed (mid out : Option ℕ) (s : Scheduler) : Prop where
  located : Located (s.placeOf out) mid s.readyQueue s.waitingQueue s.sleepers s.readers
  single : ∀ q p, s.processes q = some p → p.flags.Single
  still : ∀ q p, s.processes q = some p → p.flags.zombie ∨ q = 0 ∧ s.initStopped ∨ out = some q →
    p.flags.place = .ready
  stopped : s.initStopped → ∃ p, s.processes 0 = some p ∧ p.flags.zombie = false
  lt : ∀ q p, s.processes q = some p → q < maxProcesses

lemma placeOf_eq_some {b : Place} : s.placeOf out q = some b ↔ ∃ p, s.processes q = some p ∧
    p.flags.place = b ∧ ¬ (p.flags.zombie ∨ q = 0 ∧ s.initStopped ∨ out = some q) := by
  unfold placeOf
  rcases s.processes q with _ | p
  · simp
  · simp only [Option.bind_some, Option.some.injEq, exists_eq_left']
    split_ifs with h
    · simp [h]
    · simp [h]

lemma enqueue_eq {l : List ℕ} (hnodup : l.Nodup) (hlt : ∀ q ∈ l, q < maxProcesses)
    (hpid : pid < maxProcesses) (hnot : pid ∉ l) : enqueue l pid = l ++ [pid] := by
  unfold enqueue
  rw [if_neg]
  intro hfull
  have hnodup' : (pid :: l).Nodup := List.nodup_cons.mpr ⟨hnot, hnodup⟩
  have hsub : pid :: l ⊆ List.range maxProcesses := by
    intro q hq
    rw [List.mem_range]
    rcases List.mem_cons.mp hq with rfl | hq
    · exact hpid
    · exact hlt q hq
  have hle := (List.subperm_of_subset hnodup' hsub).length_le
  rw [List.length_cons, List.length_range] at hle
  omega

namespace Placed

lemma congr (h : Placed mid out s)
    (hprocs : ∀ q, (s'.processes q).map Pcb.stance = (s.processes q).map Pcb.stance)
    (hready : s'.readyQueue = s.readyQueue) (hkey : s'.waitingQueue = s.waitingQueue)
    (hsleep : s'.sleepingProcesses = s.sleepingProcesses)
    (hread : s'.readers = s.readers) (hinit : s'.initStopped = s.initStopped) : Placed mid out s' := by
  have hold : ∀ q p', s'.processes q = some p' → ∃ p, s.processes q = some p ∧
      p'.stance = p.stance := by
    intro q p' hp'
    have hq := hprocs q
    rw [hp'] at hq
    obtain ⟨p, hp, heq⟩ := Option.map_eq_some_iff.mp hq.symm
    exact ⟨p, hp, heq.symm⟩
  have hplace : s'.placeOf out = s.placeOf out := by
    funext q
    unfold placeOf
    have hq := hprocs q
    rw [hinit]
    rcases hp' : s'.processes q with _ | p'
    · rcases hp : s.processes q with _ | p
      · rfl
      · simp [hp, hp'] at hq
    · rcases hp : s.processes q with _ | p
      · simp [hp, hp'] at hq
      · have hstance : p'.stance = p.stance := by simpa [hp, hp'] using hq
        have hz : p'.flags.zombie = p.flags.zombie := Pcb.zombie_of_stance hstance
        have hplace : p'.flags.place = p.flags.place := Pcb.place_of_stance hstance
        simp [hz, hplace]
  refine ⟨?_, ?_, ?_, ?_, ?_⟩
  · rw [hplace, hready, hkey, hread, sleepers, hsleep]
    exact h.located
  · intro q p' hp'
    obtain ⟨p, hp, hstance⟩ := hold q p' hp'
    have hsingle : p'.stance.Single ↔ p.stance.Single := by rw [hstance]
    exact hsingle.mpr (h.single q p hp)
  · intro q p' hp' hnowhere
    obtain ⟨p, hp, hstance⟩ := hold q p' hp'
    have hz : p'.flags.zombie = p.flags.zombie := Pcb.zombie_of_stance hstance
    have hplace : p'.flags.place = p.flags.place := Pcb.place_of_stance hstance
    rw [hz, hinit] at hnowhere
    rw [hplace]
    exact h.still q p hp hnowhere
  · intro hstopped
    obtain ⟨p, hp, hz⟩ := h.stopped (hinit ▸ hstopped)
    have hq := hprocs 0
    rw [hp] at hq
    obtain ⟨p', hp', hstance⟩ := Option.map_eq_some_iff.mp hq
    have hz' : p'.flags.zombie = p.flags.zombie := Pcb.zombie_of_stance hstance
    exact ⟨p', hp', hz'.trans hz⟩
  · intro q p' hp'
    obtain ⟨p, hp, -⟩ := hold q p' hp'
    exact h.lt q p hp

lemma modify (h : Placed mid out s) (hf : ∀ p, s.processes pid = some p → (f p).stance = p.stance) :
    Placed mid out (s.modify pid f) := by
  refine h.congr ?_ rfl rfl rfl rfl rfl
  intro q
  rcases eq_or_ne q pid with rfl | hne
  · rw [processes_modify]
    rcases hp : s.processes q with _ | p
    · rfl
    · simp [hf p hp]
  · rw [processes_modify_ne hne]

lemma mem_ready_lt (h : Placed mid out s) (hq : q ∈ s.readyQueue) : q < maxProcesses := by
  have hplace : s.placeOf out q ≠ none := by
    rcases h.located.mem_ready.mp hq with hready | hmid
    · simp [hready]
    · exact (h.located.mid q hmid).2
  obtain ⟨b, hb⟩ := Option.ne_none_iff_exists'.mp hplace
  obtain ⟨p, hp, -⟩ := placeOf_eq_some.mp hb
  exact h.lt q p hp

lemma mem_key_lt (h : Placed mid out s) (hq : q ∈ s.waitingQueue) : q < maxProcesses := by
  obtain ⟨hkey, -⟩ := h.located.mem_key.mp hq
  obtain ⟨p, hp, -⟩ := placeOf_eq_some.mp hkey
  exact h.lt q p hp

lemma enqueue_ready (h : Placed mid out s) (hpid : pid < maxProcesses)
    (hplace : s.placeOf out pid ≠ some .ready) (hmid : mid ≠ some pid) :
    enqueue s.readyQueue pid = s.readyQueue ++ [pid] := by
  refine enqueue_eq h.located.nodup_ready (fun _ => h.mem_ready_lt) hpid ?_
  rw [h.located.mem_ready]
  exact fun hq => hq.elim hplace hmid

lemma woken {b : Place} {r : Pcb} (h : Placed mid out s) (hb : s.placeOf out pid = some b)
    (hne : b ≠ .ready) (hmid : mid ≠ some pid) (hp : s.processes pid = some p)
    (hprocs : s'.processes = Function.update s.processes pid (some r))
    (hready : s'.readyQueue = enqueue s.readyQueue pid) (hinit : s'.initStopped = s.initStopped)
    (hz : r.flags.zombie = p.flags.zombie) (hplace : r.flags.place = .ready)
    (hkey : s.waitingQueue.Perm (if b = .key then pid :: s'.waitingQueue else s'.waitingQueue))
    (hsleep : s.sleepers.Perm (if b = .sleep then pid :: s'.sleepers else s'.sleepers))
    (hread : s.readers.Perm (if b = .read then pid :: s'.readers else s'.readers)) :
    Placed mid out s' := by
  obtain ⟨p₀, hp₀, -, hnowhere⟩ := placeOf_eq_some.mp hb
  obtain rfl : p = p₀ := by simpa [hp] using hp₀
  have hplaces : s'.placeOf out = Function.update (s.placeOf out) pid (some .ready) := by
    funext q
    unfold placeOf
    rw [hprocs, hinit, Function.update_apply, Function.update_apply]
    split_ifs with hq
    · subst hq
      simp only [Option.bind_some, hz, hplace]
      rw [if_neg hnowhere]
    · rfl
  have hold : ∀ q p₁, s'.processes q = some p₁ → q = pid ∧ p₁ = r ∨ s.processes q = some p₁ := by
    intro q p₁ hp₁
    rw [hprocs] at hp₁
    rcases eq_or_ne q pid with rfl | hne'
    · rw [Function.update_self, Option.some.injEq] at hp₁
      exact Or.inl ⟨rfl, hp₁.symm⟩
    · rw [Function.update_of_ne hne'] at hp₁
      exact Or.inr hp₁
  refine ⟨?_, ?_, ?_, ?_, ?_⟩
  · rw [hplaces, hready, h.enqueue_ready (h.lt pid p hp) (by simpa [hb] using hne) hmid]
    exact h.located.wake hb hne hmid hkey hsleep hread
  · intro q p₁ hp₁
    rcases hold q p₁ hp₁ with ⟨-, rfl⟩ | hp₁
    · exact .of_ready hplace
    · exact h.single q p₁ hp₁
  · intro q p₁ hp₁ hnowhere'
    rcases hold q p₁ hp₁ with ⟨-, rfl⟩ | hp₁
    · exact hplace
    · exact h.still q p₁ hp₁ (hinit ▸ hnowhere')
  · intro hstopped
    obtain ⟨p₁, hp₁, hz₁⟩ := h.stopped (hinit ▸ hstopped)
    rw [hprocs]
    rcases eq_or_ne 0 pid with rfl | hne'
    · obtain rfl : p = p₁ := by simpa [hp] using hp₁
      exact ⟨r, Function.update_self .., hz.trans hz₁⟩
    · exact ⟨p₁, by rw [Function.update_of_ne hne', hp₁], hz₁⟩
  · intro q p₁ hp₁
    rcases hold q p₁ hp₁ with ⟨rfl, -⟩ | hp₁
    · exact h.lt q p hp
    · exact h.lt q p₁ hp₁

/-! ## Wake-ups -/

lemma wakeUp {b : Place} {s₀ : Scheduler} (h : Placed mid out s) (hb : s.placeOf out pid = some b)
    (hne : b ≠ .ready) (hmid : mid ≠ some pid)
    (hf : ∀ p, (f p).flags = p.flags.leave b) (hs' : s₀.wakeUp pid f = .ok s')
    (hprocs : s₀.processes = s.processes) (hready : s₀.readyQueue = s.readyQueue)
    (hinit : s₀.initStopped = s.initStopped)
    (hkey : s.waitingQueue.Perm (if b = .key then pid :: s₀.waitingQueue else s₀.waitingQueue))
    (hsleep : s.sleepers.Perm (if b = .sleep then pid :: s₀.sleepers else s₀.sleepers))
    (hread : s.readers.Perm (if b = .read then pid :: s₀.readers else s₀.readers)) :
    Placed mid out s' := by
  obtain ⟨p, hp, hplace, -⟩ := placeOf_eq_some.mp hb
  obtain ⟨-, -, hs'⟩ := bind_eq_ok.mp hs'
  cases hs'
  refine h.woken (r := f p) hb hne hmid hp ?_ ?_ hinit ?_ ?_ hkey hsleep hread
  · show Function.update s₀.processes pid ((s₀.processes pid).map f) = _
    rw [hprocs, hp]
    rfl
  · show enqueue s₀.readyQueue pid = _
    rw [hready]
  · rw [hf, ← hplace]
    cases p.flags.place <;> rfl
  · rw [hf, ← hplace]
    exact (h.single pid p hp).place_leave

lemma resumeReader {e : ProcWaitingForRead} (h : Placed none out s)
    (hmem : ∃ x ∈ s.processesWaitingForRead, x.pid = e.pid ∧ x.fd = e.fd)
    (hs' : s.resumeReader e = .ok s') : Placed none out s' := by
  obtain ⟨x, hx, hxe⟩ := hmem
  obtain ⟨y, l₁, l₂, -, hy, hsplit, herase⟩ :=
    List.exists_of_eraseP (p := fun x => decide (x.pid = e.pid ∧ x.fd = e.fd)) hx (by simpa using hxe)
  have hpid : y.pid = e.pid := by simp_all
  have hread : s.placeOf out e.pid = some .read := by
    refine h.located.mem_read.mp (List.mem_map.mpr ⟨x, hx, hxe.1⟩)
  refine h.wakeUp hread (by simp) (by simp) (fun _ => rfl) hs' rfl rfl rfl (List.Perm.refl _)
    (List.Perm.refl _) ?_
  show (s.processesWaitingForRead.map ProcWaitingForRead.pid).Perm
    (e.pid :: (s.processesWaitingForRead.eraseP _).map ProcWaitingForRead.pid)
  rw [herase, hsplit, List.map_append, List.map_append, List.map_cons, hpid]
  exact List.perm_middle

lemma resumeReaders : ∀ {l : List ProcWaitingForRead} {s : Scheduler}, Placed none out s →
    (∀ e ∈ l, ∃ x ∈ s.processesWaitingForRead, x.pid = e.pid ∧ x.fd = e.fd) →
    (l.map ProcWaitingForRead.pid).Nodup → l.foldlM Scheduler.resumeReader s = .ok s' →
    Placed none out s' := by
  intro l
  induction l with
  | nil =>
    intro s h _ _ hs'
    cases hs'
    exact h
  | cons e l ih =>
    intro s h hmem hnodup hs'
    rw [List.foldlM_cons] at hs'
    obtain ⟨s₁, hs₁, hs'⟩ := bind_eq_ok.mp hs'
    rw [List.map_cons, List.nodup_cons] at hnodup
    refine ih (h.resumeReader (hmem e (by simp)) hs₁) ?_ hnodup.2 hs'
    intro e' he'
    obtain ⟨x, hx, hpid, hfd⟩ := hmem e' (by simp [he'])
    obtain ⟨-, -, hs₁⟩ := bind_eq_ok.mp hs₁
    cases hs₁
    refine ⟨x, ?_, hpid, hfd⟩
    -- the entry is one of another process
    have hother : ¬ decide (x.pid = e.pid ∧ x.fd = e.fd) := by
      rw [decide_eq_true_eq, hpid]
      rintro ⟨heq, -⟩
      exact hnodup.1 (List.mem_map.mpr ⟨e', he', heq⟩)
    exact (List.mem_eraseP_of_neg (p := fun x => decide (x.pid = e.pid ∧ x.fd = e.fd)) hother).mpr hx

lemma wakeUpReadWaitingProcesses {w : ReadWake} (h : Placed none out s)
    (hs' : s.wakeUpReadWaitingProcesses w = .ok s') : Placed none out s' := by
  have hpid : ∀ e, (countBytes w e).1.pid = e.pid := by
    intro e
    unfold countBytes
    split_ifs
    · rfl
    · rfl
  have hmap : ((s.processesWaitingForRead.map (countBytes w)).map Prod.fst).map
      ProcWaitingForRead.pid = s.readers := by
    rw [List.map_map, List.map_map]
    exact List.map_congr_left fun e _ => hpid e
  have h₀ : Placed none out { s with
      processesWaitingForRead := (s.processesWaitingForRead.map (countBytes w)).map Prod.fst } :=
    h.congr (fun _ => rfl) rfl rfl rfl hmap rfl
  refine h₀.resumeReaders ?_ ?_ hs'
  · intro e he
    refine ⟨e, ?_, rfl, rfl⟩
    exact (List.filter_sublist.map Prod.fst).subset he
  · refine List.Nodup.sublist ((List.filter_sublist.map Prod.fst).map ProcWaitingForRead.pid) ?_
    rw [hmap]
    exact h.located.nodup_read

lemma wakeAll {wakes : List ReadWake} (h : Placed none out s)
    (hs' : wakes.foldlM Scheduler.wakeUpReadWaitingProcesses s = .ok s') : Placed none out s' :=
  foldlM_invariant (Placed none out) hs' h fun _ _ _ _ hs hstep => hs.wakeUpReadWaitingProcesses hstep

lemma wakeUpKeyWaitingProcesses {key : ℤ} : ∀ {fuel i : ℕ} {s : Scheduler}, Placed mid out s →
    s.wakeUpKeyWaitingProcesses key fuel i = .ok s' →
    Placed mid out s' ∧ s'.sleepingProcesses = s.sleepingProcesses := by
  intro fuel
  induction fuel with
  | zero =>
    intro i s h hs'
    cases hs'
    exact ⟨h, rfl⟩
  | succ fuel ih =>
    intro i s h hs'
    unfold Scheduler.wakeUpKeyWaitingProcesses at hs'
    split_ifs at hs'
    · split at hs'
      next =>
        cases hs'
        exact ⟨h, rfl⟩
      next pid rest hqueue =>
        obtain ⟨s₁, hwake, hs'⟩ := bind_eq_ok.mp hs'
        obtain ⟨hkey, hmid⟩ := h.located.mem_key.mp (by rw [hqueue]; simp : pid ∈ s.waitingQueue)
        have h₁ : Placed mid out s₁ := by
          refine h.wakeUp hkey (by simp) hmid (fun _ => rfl) hwake rfl rfl rfl ?_ (List.Perm.refl _)
            (List.Perm.refl _)
          rw [if_pos rfl, hqueue]
        obtain ⟨h', hheap⟩ := ih h₁ hs'
        refine ⟨h', hheap.trans ?_⟩
        obtain ⟨-, -, hwake⟩ := bind_eq_ok.mp hwake
        cases hwake
        rfl
    · cases hs'
      exact ⟨h, rfl⟩

lemma checkForProcessesToWakeUp : ∀ {fuel : ℕ} {s : Scheduler}, Placed mid out s →
    (∀ q a, mid = some q → a ∈ s.sleepingProcesses.elements → a.process = q → s.ticks < a.endTick) →
    s.checkForProcessesToWakeUp fuel = .ok s' → Placed mid out s' := by
  intro fuel
  induction fuel with
  | zero =>
    intro s h _ hs'
    cases hs'
    exact h
  | succ fuel ih =>
    intro s h hlate hs'
    unfold Scheduler.checkForProcessesToWakeUp at hs'
    split at hs'
    next =>
      cases hs'
      exact h
    next a hmin =>
      have hperm := MinHeap.deleteMin_perm hmin
      split_ifs at hs' with hend
      · obtain ⟨s₁, hwake, hs'⟩ := bind_eq_ok.mp hs'
        have hmem : a ∈ s.sleepingProcesses.elements := hperm.subset (by simp)
        have hsleep : s.placeOf out a.process = some .sleep :=
          h.located.mem_sleep.mp (List.mem_map.mpr ⟨a, hmem, rfl⟩)
        have hmid : mid ≠ some a.process := by
          intro hmid
          have := hlate a.process a hmid hmem rfl
          omega
        have h₁ : Placed mid out s₁ := by
          refine h.wakeUp hsleep (by simp) hmid (fun _ => rfl) hwake rfl rfl rfl (List.Perm.refl _) ?_
            (List.Perm.refl _)
          exact (hperm.map AsleepProcess.process).symm
        obtain ⟨-, -, hwake⟩ := bind_eq_ok.mp hwake
        cases hwake
        refine ih h₁ ?_ hs'
        intro q a' hq ha'
        exact hlate q a' hq (hperm.subset (List.mem_cons_of_mem a ha'))
      · cases hs'
        exact h

/-! ## The end of a process -/

lemma preFree {wakes : List ReadWake} (h : Placed none out s) (hs' : s.preFree pid p wakes = .ok s') :
    Placed none out s' := by
  rcases preFree_cases hs' with ⟨-, rfl⟩ | ⟨-, -, s₁, hwakes, rfl⟩
  · exact h
  · exact (h.wakeAll hwakes).modify fun _ _ => rfl

lemma orphan {child : ℕ} (h : Placed mid out s) (hs' : s.orphan child = .ok s') :
    Placed mid out s' := by
  obtain ⟨p, -, hs'⟩ := bind_eq_ok.mp hs'
  cases hs'
  exact h.modify fun _ _ => rfl

lemma takeOut (h : Placed mid none s) (hp : s.processes pid = some p) (hz : p.flags.zombie) :
    Placed mid (some pid) s := by
  have hplace : s.placeOf (some pid) = s.placeOf none := by
    funext q
    unfold placeOf
    rcases eq_or_ne q pid with rfl | hne
    · simp [hp, hz]
    · simp [hne.symm]
  refine ⟨?_, h.single, ?_, h.stopped, h.lt⟩
  · rw [hplace]
    exact h.located
  · rintro q p' hp' (hz' | hstopped | hout)
    · exact h.still q p' hp' (Or.inl hz')
    · exact h.still q p' hp' (Or.inr (Or.inl hstopped))
    · obtain rfl : pid = q := by simpa using hout
      obtain rfl : p = p' := by simpa [hp] using hp'
      exact h.still pid p hp (Or.inl hz)

lemma dequeue {rest : List ℕ} (h : Placed none none s) (hready : s.readyQueue = pid :: rest) :
    Placed none (some pid) (s.setReadyQueue rest) := by
  have hhead : s.placeOf none pid = some .ready := by
    have hmem := h.located.mem_ready.mp (by rw [hready]; simp : pid ∈ s.readyQueue)
    simpa using hmem
  obtain ⟨p, hp, hflags, -⟩ := placeOf_eq_some.mp hhead
  have hplace : (s.setReadyQueue rest).placeOf (some pid) =
      Function.update (s.placeOf none) pid none := by
    funext q
    unfold placeOf
    rcases eq_or_ne q pid with rfl | hne
    · rw [Function.update_self]
      rcases (s.setReadyQueue rest).processes q with _ | p'
      · rfl
      · simp
    · rw [Function.update_of_ne hne]
      simp [Scheduler.setReadyQueue, hne.symm]
  refine ⟨?_, h.single, ?_, h.stopped, h.lt⟩
  · rw [hplace]
    exact h.located.remove hhead (by rw [hready]; exact List.Perm.refl _)
  · rintro q p' hp' (hz | hstopped | hout)
    · exact h.still q p' hp' (Or.inl hz)
    · exact h.still q p' hp' (Or.inr (Or.inl hstopped))
    · obtain rfl : pid = q := by simpa using hout
      have hp' : s.processes pid = some p' := hp'
      obtain rfl : p = p' := by simpa [hp] using hp'
      exact hflags

lemma becomeZombie (h : Placed none (some pid) s) (hstopped : ¬ (pid = 0 ∧ s.initStopped)) :
    Placed none none (s.modify pid fun p => { p with flags := { p.flags with zombie := true } }) := by
  set s' := s.modify pid fun p => { p with flags := { p.flags with zombie := true } } with hs'
  have hcases : ∀ q p', s'.processes q = some p' → (q = pid ∧ ∃ p, s.processes pid = some p ∧
      p' = { p with flags := { p.flags with zombie := true } }) ∨
      (q ≠ pid ∧ s.processes q = some p') := by
    intro q p' hp'
    rcases eq_or_ne q pid with rfl | hne
    · rw [hs', processes_modify] at hp'
      obtain ⟨p, hp, heq⟩ := Option.map_eq_some_iff.mp hp'
      exact Or.inl ⟨rfl, p, hp, heq.symm⟩
    · rw [hs', processes_modify_ne hne] at hp'
      exact Or.inr ⟨hne, hp'⟩
  have hplace : s'.placeOf none = s.placeOf (some pid) := by
    funext q
    unfold placeOf
    rcases eq_or_ne q pid with rfl | hne
    · rw [hs', processes_modify]
      rcases s.processes q with _ | p
      · rfl
      · simp
    · rw [hs', processes_modify_ne hne]
      simp [hne.symm, Scheduler.modify]
  refine ⟨?_, ?_, ?_, ?_, ?_⟩
  · rw [hplace]
    exact h.located
  · intro q p' hp'
    rcases hcases q p' hp' with ⟨-, p, hp, rfl⟩ | ⟨-, hp'⟩
    · exact h.single pid p hp
    · exact h.single q p' hp'
  · intro q p' hp' hnowhere
    rcases hcases q p' hp' with ⟨-, p, hp, rfl⟩ | ⟨-, hp'⟩
    · exact h.still pid p hp (Or.inr (Or.inr rfl))
    · refine h.still q p' hp' ?_
      rcases hnowhere with hz | hinit | hout
      · exact Or.inl hz
      · exact Or.inr (Or.inl hinit)
      · cases hout
  · intro hinit
    obtain ⟨p, hp, hz⟩ := h.stopped hinit
    have hne : 0 ≠ pid := by
      rintro rfl
      exact hstopped ⟨rfl, hinit⟩
    exact ⟨p, by rw [hs', processes_modify_ne hne, hp], hz⟩
  · intro q p' hp'
    rcases hcases q p' hp' with ⟨rfl, p, hp, -⟩ | ⟨-, hp'⟩
    · exact h.lt q p hp
    · exact h.lt q p' hp'

lemma unregister (h : Placed none (some pid) s) (hstopped : ¬ (pid = 0 ∧ s.initStopped)) :
    Placed none none (s.unregistered pid) := by
  have hcases : ∀ q p', (s.unregistered pid).processes q = some p' → q ≠ pid ∧ s.processes q = some p' := by
    intro q p' hp'
    have hp' : Function.update s.processes pid none q = some p' := hp'
    rcases eq_or_ne q pid with rfl | hne
    · simp at hp'
    · rw [Function.update_of_ne hne] at hp'
      exact ⟨hne, hp'⟩
  have hplace : (s.unregistered pid).placeOf none = s.placeOf (some pid) := by
    funext q
    unfold placeOf
    show (Function.update s.processes pid none q).bind _ = _
    rcases eq_or_ne q pid with rfl | hne
    · rw [Function.update_self]
      rcases s.processes q with _ | p
      · rfl
      · simp
    · rw [Function.update_of_ne hne]
      simp [hne.symm, releasePid]
  refine ⟨?_, ?_, ?_, ?_, ?_⟩
  · rw [hplace]
    exact h.located
  · intro q p' hp'
    exact h.single q p' (hcases q p' hp').2
  · intro q p' hp' hnowhere
    refine h.still q p' (hcases q p' hp').2 ?_
    rcases hnowhere with hz | hinit | hout
    · exact Or.inl hz
    · exact Or.inr (Or.inl hinit)
    · cases hout
  · intro hinit
    obtain ⟨p, hp, hz⟩ := h.stopped hinit
    have hne : 0 ≠ pid := by
      rintro rfl
      exact hstopped ⟨rfl, hinit⟩
    refine ⟨p, ?_, hz⟩
    show Function.update s.processes pid none 0 = some p
    rw [Function.update_of_ne hne, hp]
  · intro q p' hp'
    exact h.lt q p' (hcases q p' hp').2

lemma tellParent (h : Placed none out s) (hp : s.processes pid = some p)
    (hparent : s.parentWaits p = .ok true → ∃ q, s.processes p.ppid = some q ∧
      (s.runningProcess = some p.ppid ∧ q.flags.place = .ready ∨
        s.runningProcess ≠ some p.ppid ∧ q.flags.waitingProcess))
    (hs' : s.tellParent pid = .ok s') : Placed none out s' := by
  obtain ⟨p', hp', ⟨-, rfl⟩ | ⟨hwaits, -, rfl⟩⟩ := tellParent_cases hs'
  · exact h
  obtain rfl : p = p' := by simpa [hp] using hp'
  refine modify ?_ fun _ _ => rfl
  obtain ⟨q, hq, ⟨hrun, hplace⟩ | ⟨hrun, hwait⟩⟩ := hparent hwaits
  · rw [if_neg (by simpa using hrun)]
    refine h.modify ?_
    intro q' hq'
    obtain rfl : q = q' := by simpa [hq] using hq'
    -- the flag that is cleared was not set
    have hclear := (ProcessFlags.place_eq_ready.mp hplace).2.2.2
    simp [Pcb.stance, Pcb.told, hclear]
  · rw [if_pos hrun]
    have hsingle := h.single _ q hq
    have hplace : q.flags.place = .wait := hsingle.place_eq_wait.mpr hwait
    have hat : s.placeOf out p.ppid = some .wait := by
      refine placeOf_eq_some.mpr ⟨q, hq, hplace, ?_⟩
      intro hnowhere
      have := h.still _ q hq hnowhere
      simp [hplace] at this
    refine h.woken (r := q.told pid p.retStatus) hat (by simp) (by simp) hq ?_ rfl rfl rfl ?_
      (List.Perm.refl _) (List.Perm.refl _) (List.Perm.refl _)
    · show Function.update s.processes p.ppid ((s.processes p.ppid).map _) = _
      rw [hq]
      rfl
    · have hleave := hsingle.place_leave
      rw [hplace] at hleave
      exact hleave

lemma freeTerminatedProcess {wakes : List ReadWake} (h : Placed none (some pid) s)
    (hp : s.processes pid = some p) (hexec : p.flags.exec = false)
    (hstopped : ¬ (pid = 0 ∧ s.initStopped))
    (hparent : s.parentWaits p = .ok true → ∃ q, s.processes p.ppid = some q ∧
      (s.runningProcess = some p.ppid ∧ q.flags.place = .ready ∨
        s.runningProcess ≠ some p.ppid ∧ q.flags.waitingProcess))
    (hs' : s.freeTerminatedProcess pid wakes = .ok s') : Placed none none s' := by
  obtain ⟨p', hp', -, ⟨hexec', -⟩ | ⟨-, s₁, p₁, s₂, htell, -, horphan, hfree⟩⟩ :=
    freeTerminatedProcess_cases hs'
  all_goals obtain rfl : p = p' := by simpa [hp] using hp'
  · simp [hexec] at hexec'
  · have h₁ := h.tellParent hp hparent htell
    have h₂ : Placed none (some pid) s₂ :=
      foldlM_invariant (Placed none (some pid)) horphan h₁ fun _ _ _ _ hs hstep => hs.orphan hstep
    have hcalms : Calms ∅ s s₂ :=
      (Calms.tellParent htell).andThen (.foldlM (fun _ _ _ => Calms.orphan) horphan)
    have hstopped₂ : ¬ (pid = 0 ∧ s₂.initStopped) := by rwa [hcalms.same.initStopped]
    exact (h₂.unregister hstopped₂).preFree hfree

/-! ## Turns and calls -/

lemma place_head {rest : List ℕ} (h : Placed none none s) (hready : s.readyQueue = pid :: rest)
    (hp : s.processes pid = some p) : p.flags.place = .ready ∧ p.flags.zombie = false ∧
      ¬ (pid = 0 ∧ s.initStopped) := by
  have hmem := h.located.mem_ready.mp (by rw [hready]; simp : pid ∈ s.readyQueue)
  have hhead : s.placeOf none pid = some .ready := by simpa using hmem
  obtain ⟨p', hp', hplace, hnowhere⟩ := placeOf_eq_some.mp hhead
  obtain rfl : p = p' := by simpa [hp] using hp'
  simp only [not_or] at hnowhere
  exact ⟨hplace, by simpa using hnowhere.1, hnowhere.2.1⟩

lemma leave {rest : List ℕ} (h : Placed (some pid) none s) (hready : s.readyQueue = pid :: rest)
    (hp : s.processes pid = some p)
    (hkey : s'.waitingQueue = if p.flags.waitingKey then enqueue s.waitingQueue pid else s.waitingQueue)
    (hready' : s'.readyQueue = rest) (hprocs : s'.processes = s.processes)
    (hsleep : s'.sleepingProcesses = s.sleepingProcesses)
    (hread : s'.processesWaitingForRead = s.processesWaitingForRead)
    (hinit : s'.initStopped = s.initStopped) : Placed none none s' := by
  obtain ⟨-, hsome⟩ := h.located.mid pid rfl
  obtain ⟨b, hb⟩ := Option.ne_none_iff_exists'.mp hsome
  obtain ⟨p', hp', hplace, -⟩ := placeOf_eq_some.mp hb
  obtain rfl : p = p' := by simpa [hp] using hp'
  have hplaces : s'.placeOf none = s.placeOf none := by
    funext q
    unfold placeOf
    rw [hprocs, hinit]
  have hqueue : s'.waitingQueue =
      if s.placeOf none pid = some .key then s.waitingQueue ++ [pid] else s.waitingQueue := by
    have hiff : s.placeOf none pid = some .key ↔ p.flags.waitingKey = true := by
      rw [hb, Option.some.injEq, ← hplace]
      exact ProcessFlags.place_eq_key
    rw [hkey]
    by_cases hwaits : p.flags.waitingKey = true
    · rw [if_pos hwaits, if_pos (hiff.mpr hwaits)]
      refine enqueue_eq h.located.nodup_key (fun _ => h.mem_key_lt) (h.lt pid p hp) ?_
      rw [h.located.mem_key]
      simp
    · rw [if_neg hwaits, if_neg (mt hiff.mp hwaits)]
  have hloc := h.located
  rw [hready] at hloc
  refine ⟨?_, ?_, ?_, ?_, ?_⟩
  · rw [hplaces, hready', hqueue, sleepers, readers, hsleep, hread]
    exact hloc.leave
  · rw [hprocs]
    exact h.single
  · rw [hprocs, hinit]
    exact h.still
  · rw [hprocs, hinit]
    exact h.stopped
  · rw [hprocs]
    exact h.lt

lemma block {b : Place} (h : Placed none none s) (hp : s.processes pid = some p)
    (hready : pid ∈ s.readyQueue) (hb : b ≠ .ready)
    (hf : (f p).flags.place = b ∧ (f p).flags.Single ∧ (f p).flags.zombie = false)
    (hprocs : s'.processes = (s.modify pid f).processes) (hready' : s'.readyQueue = s.readyQueue)
    (hkey : s'.waitingQueue = s.waitingQueue) (hinit : s'.initStopped = s.initStopped)
    (hsleep : s'.sleepers.Perm (if b = .sleep then pid :: s.sleepers else s.sleepers))
    (hread : s'.readers.Perm (if b = .read then pid :: s.readers else s.readers)) :
    Placed (some pid) none s' := by
  have hat : s.placeOf none pid = some .ready := by simpa using h.located.mem_ready.mp hready
  obtain ⟨p', hp', -, hnowhere⟩ := placeOf_eq_some.mp hat
  obtain rfl : p = p' := by simpa [hp] using hp'
  simp only [not_or] at hnowhere
  have hcases : ∀ q p', s'.processes q = some p' → (q = pid ∧ p' = f p) ∨
      (q ≠ pid ∧ s.processes q = some p') := by
    intro q p' hp'
    rw [hprocs] at hp'
    rcases eq_or_ne q pid with rfl | hne
    · rw [processes_modify, hp] at hp'
      exact Or.inl ⟨rfl, by simpa using hp'.symm⟩
    · rw [processes_modify_ne hne] at hp'
      exact Or.inr ⟨hne, hp'⟩
  have hplaces : s'.placeOf none = Function.update (s.placeOf none) pid (some b) := by
    funext q
    unfold placeOf
    rw [hprocs, hinit]
    rcases eq_or_ne q pid with rfl | hne
    · rw [processes_modify, hp, Function.update_self]
      show (if (f p).flags.zombie ∨ _ ∨ _ then none else some (f p).flags.place) = some b
      rw [if_neg, hf.1]
      simpa [hf.2.2] using hnowhere.2.1
    · rw [processes_modify_ne hne, Function.update_of_ne hne]
  refine ⟨?_, ?_, ?_, ?_, ?_⟩
  · rw [hplaces, hready', hkey]
    exact (h.located.block hat hb).perm (List.Perm.refl _) (List.Perm.refl _) hsleep hread
  · intro q p' hp'
    rcases hcases q p' hp' with ⟨-, rfl⟩ | ⟨-, hp'⟩
    · exact hf.2.1
    · exact h.single q p' hp'
  · intro q p' hp' hnowhere'
    rcases hcases q p' hp' with ⟨rfl, rfl⟩ | ⟨-, hp'⟩
    · exfalso
      rw [hf.2.2, hinit] at hnowhere'
      rcases hnowhere' with hz | hstopped | hout
      · cases hz
      · exact hnowhere.2.1 hstopped
      · cases hout
    · exact h.still q p' hp' (hinit ▸ hnowhere')
  · intro hstopped
    rw [hinit] at hstopped
    obtain ⟨p', hp', hz⟩ := h.stopped hstopped
    have hne : 0 ≠ pid := by
      rintro rfl
      exact hnowhere.2.1 ⟨rfl, hstopped⟩
    exact ⟨p', by rw [hprocs, processes_modify_ne hne, hp'], hz⟩
  · intro q p' hp'
    rcases hcases q p' hp' with ⟨rfl, -⟩ | ⟨-, hp'⟩
    · exact h.lt q p hp
    · exact h.lt q p' hp'

lemma starts (h : Placed none none s) (hstarts : Starts pid p s s') (hnone : s.processes pid = none)
    (hflags : p.flags = {}) : Placed none none s' := by
  have hnowhere : s.placeOf none pid = none := by
    unfold placeOf
    rw [hnone]
    rfl
  have hroom := h.enqueue_ready hstarts.lt (by simp [hnowhere]) (by simp)
  have hstopped : ¬ (pid = 0 ∧ s.initStopped) := by
    rintro ⟨rfl, hinit⟩
    obtain ⟨p', hp', -⟩ := h.stopped hinit
    simp [hnone] at hp'
  rw [hstarts.eq]
  have hcases : ∀ q p', Function.update s.processes pid (some p.resetQuantum) q = some p' →
      (q = pid ∧ p' = p.resetQuantum) ∨ s.processes q = some p' := by
    intro q p' hp'
    rcases eq_or_ne q pid with rfl | hne
    · rw [Function.update_self, Option.some.injEq] at hp'
      exact Or.inl ⟨rfl, hp'.symm⟩
    · rw [Function.update_of_ne hne] at hp'
      exact Or.inr hp'
  have hflags' : p.resetQuantum.flags = {} := hflags
  refine ⟨?_, ?_, ?_, ?_, ?_⟩
  · show Located _ none (enqueue s.readyQueue pid) s.waitingQueue s.sleepers s.readers
    rw [hroom]
    have hadd := h.located.add hnowhere
    convert hadd using 1
    funext q
    unfold placeOf
    show (Function.update s.processes pid (some p.resetQuantum) q).bind _ = _
    rcases eq_or_ne q pid with rfl | hne
    · rw [Function.update_self, Function.update_self]
      show (if p.resetQuantum.flags.zombie ∨ _ ∨ _ then none else some p.resetQuantum.flags.place) = _
      rw [if_neg, hflags']
      · rfl
      · simpa [hflags'] using hstopped
    · rw [Function.update_of_ne hne, Function.update_of_ne hne]
  · intro q p' hp'
    rcases hcases q p' hp' with ⟨-, rfl⟩ | hp'
    · rw [hflags']
      decide
    · exact h.single q p' hp'
  · intro q p' hp' hnowhere'
    rcases hcases q p' hp' with ⟨-, rfl⟩ | hp'
    · rw [hflags']
      rfl
    · exact h.still q p' hp' hnowhere'
  · intro hinit
    obtain ⟨p', hp', hz⟩ := h.stopped hinit
    have hne : 0 ≠ pid := by
      rintro rfl
      exact hstopped ⟨rfl, hinit⟩
    refine ⟨p', ?_, hz⟩
    show Function.update s.processes pid (some p.resetQuantum) 0 = some p'
    rw [Function.update_of_ne hne, hp']
  · intro q p' hp'
    rcases hcases q p' hp' with ⟨rfl, -⟩ | hp'
    · exact hstarts.lt
    · exact h.lt q p' hp'

lemma replace {r : Pcb} (h : Placed mid out s) (hp : s.processes pid = some p)
    (hr : r.stance = p.stance) (hprocs : s'.processes = Function.update s.processes pid (some r))
    (hready : s'.readyQueue = s.readyQueue) (hkey : s'.waitingQueue = s.waitingQueue)
    (hsleep : s'.sleepingProcesses = s.sleepingProcesses)
    (hread : s'.processesWaitingForRead = s.processesWaitingForRead)
    (hinit : s'.initStopped = s.initStopped) : Placed mid out s' := by
  refine h.congr ?_ hready hkey hsleep (by rw [readers, hread]; rfl) hinit
  intro q
  rw [hprocs]
  rcases eq_or_ne q pid with rfl | hne
  · rw [Function.update_self, hp]
    simp [hr]
  · rw [Function.update_of_ne hne]

lemma runFirst {rest : List ℕ} (h : Placed none none s) (hready : s.readyQueue = pid :: rest)
    (hp : s.processes pid = some p) : Placed none none (s.runFirst pid p) := by
  unfold Scheduler.runFirst
  split_ifs
  · exact h.replace (r := p.resumed) hp rfl rfl rfl rfl rfl rfl rfl
  · -- the process goes to the end of the queue
    have hnodup := h.located.nodup_ready
    rw [hready, List.nodup_cons] at hnodup
    have hroom : enqueue rest pid = rest ++ [pid] := by
      refine enqueue_eq hnodup.2 ?_ (h.lt pid p hp) hnodup.1
      intro q hq
      exact h.mem_ready_lt (by rw [hready]; exact List.mem_cons_of_mem pid hq)
    have h₁ : Placed none none { s with
        processes := Function.update s.processes pid (some p.resetQuantum) } :=
      h.replace (r := p.resetQuantum) hp rfl rfl rfl rfl rfl rfl rfl
    have hperm : (enqueue s.readyQueue.tail pid).Perm s.readyQueue := by
      rw [hready, List.tail_cons, hroom]
      exact List.perm_append_singleton pid rest
    exact ⟨h₁.located.perm hperm (List.Perm.refl _) (List.Perm.refl _) (List.Perm.refl _), h₁.single,
      h₁.still, h₁.stopped, h₁.lt⟩

lemma stop (h : Placed none none s) (hp : s.processes 0 = some p) (hflags : p.flags = {})
    (hready : 0 ∈ s.readyQueue) : Placed none none s.stopKernelInitProcess := by
  have hat : s.placeOf none 0 = some .ready := by simpa using h.located.mem_ready.mp hready
  have hplaces : s.stopKernelInitProcess.placeOf none = Function.update (s.placeOf none) 0 none := by
    funext q
    unfold placeOf
    show (s.processes q).bind _ = _
    rcases eq_or_ne q 0 with rfl | hne
    · rw [Function.update_self, hp]
      simp [stopKernelInitProcess]
    · rw [Function.update_of_ne hne]
      simp [stopKernelInitProcess, hne]
  have hperm : s.readyQueue.Perm (0 :: s.readyQueue.filter (· ≠ 0)) := by
    have hfilter : s.readyQueue.filter (· ≠ 0) = s.readyQueue.erase 0 := by
      rw [h.located.nodup_ready.erase_eq_filter 0]
      refine List.filter_congr ?_
      intro q _
      rcases eq_or_ne q 0 with rfl | hne
      · rfl
      · simp [hne]
    rw [hfilter]
    exact List.perm_cons_erase hready
  refine ⟨?_, h.single, ?_, ?_, h.lt⟩
  · rw [hplaces]
    exact h.located.remove hat hperm
  · intro q p' hp' hnowhere
    have hp' : s.processes q = some p' := hp'
    rcases hnowhere with hz | ⟨rfl, -⟩ | hout
    · exact h.still q p' hp' (Or.inl hz)
    · obtain rfl : p = p' := by simpa [hp] using hp'
      rw [hflags]
      rfl
    · cases hout
  · intro _
    exact ⟨p, hp, by rw [hflags]⟩

end Placed

end Scheduler

end BrebOS
