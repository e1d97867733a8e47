import BrebOS.Processes.Scheduler.NoPanic
import BrebOS.Utils.MinHeap

/-!
# Waking up

A key wakes the processes that wait for one, and the timer those whose time has come.  The first loop counts
up to the length of a queue that gets shorter with every turn, so it wakes half of it; the second one looks
at the heap of sleepers until the least of them is to sleep on.
-/

namespace BrebOS

namespace Scheduler

/-- Processes go to the ready queue, one after the other, and something is done to each. -/
def woken (clear : Pcb → Pcb) (pids : List ℕ) (s : Scheduler) : Scheduler :=
  { s with
    readyQueue := pids.foldl enqueue s.readyQueue
    processes := fun q => if q ∈ pids then (s.processes q).map clear else s.processes q }

section Woken

variable {s : Scheduler} {pid : ℕ} {pids q : List ℕ} {clear : Pcb → Pcb}

lemma woken_nil : s.woken clear [] = s := by
  simp [woken]

lemma wakeUp_ok (h : (s.processes pid).isSome) : s.wakeUp pid clear = .ok (s.woken clear [pid]) := by
  obtain ⟨p, hp⟩ := exists_proc h
  have hprocs : Function.update s.processes pid ((s.processes pid).map clear) =
      fun q => if q ∈ [pid] then (s.processes q).map clear else s.processes q := by
    funext q
    simp only [Function.update_apply, List.mem_singleton]
    split_ifs with hq
    · rw [hq]
    · rfl
  rw [wakeUp, hp]
  show Except.ok _ = _
  rw [woken, ← hprocs]
  rfl

lemma woken_woken (hclear : ∀ p, clear (clear p) = clear p) :
    (s.woken clear [pid]).woken clear pids = s.woken clear (pid :: pids) := by
  have hmap : ∀ o : Option Pcb, (o.map clear).map clear = o.map clear := by
    intro o
    cases o with
    | none => rfl
    | some p => exact congrArg some (hclear p)
  have hprocs : ((s.woken clear [pid]).woken clear pids).processes =
      (s.woken clear (pid :: pids)).processes := by
    funext q
    by_cases hq : q = pid
    · simp [woken, hq, hmap]
    · simp [woken, hq]
  show { s with readyQueue := _, processes := ((s.woken clear [pid]).woken clear pids).processes } = _
  rw [hprocs]
  rfl

lemma known_woken (h : s.Known q) : (s.woken clear pids).Known q := by
  intro pid hpid
  show ((if pid ∈ pids then (s.processes pid).map clear else s.processes pid) : Option Pcb).isSome
  split_ifs
  · rw [Option.isSome_map]
    exact h pid hpid
  · exact h pid hpid

lemma foldl_enqueue : ∀ {pids q : List ℕ}, q.length + pids.length ≤ maxProcesses →
    pids.foldl enqueue q = q ++ pids := by
  intro pids
  induction pids with
  | nil =>
    intro q _
    exact (List.append_nil q).symm
  | cons pid pids ih =>
    intro q hroom
    rw [List.length_cons] at hroom
    have hnext : enqueue q pid = q ++ [pid] := if_neg (by omega)
    rw [List.foldl_cons, hnext, ih (by rw [List.length_append, List.length_singleton]; omega),
      List.append_assoc, List.singleton_append]

end Woken

/-! ## Keys -/

/-- A process gets a key. -/
def gotKey (key : ℤ) (p : Pcb) : Pcb :=
  { p with eax := key, flags := { p.flags with waitingKey := false } }

def setWaitingQueue (q : List ℕ) (s : Scheduler) : Scheduler := { s with waitingQueue := q }

lemma gotKey_gotKey {key : ℤ} (p : Pcb) : gotKey key (gotKey key p) = gotKey key p := rfl

/-- All processes that wait for a key get it, in the order in which they wait, and nobody else does. -/
def KeyWakeRight (key : ℤ) (s : Scheduler) : Prop :=
  ∃ s', s.wakeUpKeyWaitingProcesses key s.waitingQueue.length 0 = .ok s' ∧
    s'.readyQueue = s.readyQueue ++ s.waitingQueue ∧ s'.waitingQueue = [] ∧
    ∀ pid, s'.processes pid =
      if pid ∈ s.waitingQueue then (s.processes pid).map (gotKey key) else s.processes pid

lemma wakeUpKeyWaitingProcesses_eq {key : ℤ} : ∀ {fuel i : ℕ} {s : Scheduler},
    s.waitingQueue.length ≤ fuel + i → s.Known s.waitingQueue →
      s.wakeUpKeyWaitingProcesses key fuel i = .ok
        ((s.woken (gotKey key) (s.waitingQueue.take ((s.waitingQueue.length + 1 - i) / 2))).setWaitingQueue
          (s.waitingQueue.drop ((s.waitingQueue.length + 1 - i) / 2))) := by
  intro fuel
  induction fuel with
  | zero =>
    intro i s hfuel _
    have hnone : (s.waitingQueue.length + 1 - i) / 2 = 0 := by omega
    rw [hnone, List.take_zero, List.drop_zero, woken_nil]
    rfl
  | succ fuel ih =>
    intro i s hfuel hknown
    rw [wakeUpKeyWaitingProcesses]
    by_cases hi : i < s.waitingQueue.length
    · rw [if_pos hi]
      rcases hqueue : s.waitingQueue with _ | ⟨pid, rest⟩
      · rw [hqueue] at hi
        exact absurd hi (Nat.not_lt_zero i)
      · rw [hqueue] at hfuel hknown hi
        rw [List.length_cons] at hfuel hi
        have hpid : (s.processes pid).isSome := hknown pid List.mem_cons_self
        have hrest : s.Known rest := fun q hq => hknown q (List.mem_cons_of_mem pid hq)
        have hwake : (s.setWaitingQueue rest).wakeUp pid (gotKey key) =
            .ok ((s.setWaitingQueue rest).woken (gotKey key) [pid]) := wakeUp_ok hpid
        have hhalf : (rest.length + 1 + 1 - i) / 2 = (rest.length + 1 - (i + 1)) / 2 + 1 := by omega
        dsimp only
        rw [List.length_cons, hhalf, List.take_succ_cons, List.drop_succ_cons, ← woken_woken gotKey_gotKey]
        refine (congrArg (· >>= fun s => s.wakeUpKeyWaitingProcesses key fuel (i + 1)) hwake).trans ?_
        have hfuel : rest.length ≤ fuel + (i + 1) := by omega
        exact ih hfuel (known_woken hrest)
    · rw [if_neg hi]
      have hnone : (s.waitingQueue.length + 1 - i) / 2 = 0 := by omega
      rw [hnone, List.take_zero, List.drop_zero, woken_nil]
      rfl

lemma keyWakeRight_iff {s : Scheduler} {key : ℤ} (hknown : s.Known s.waitingQueue)
    (hroom : s.readyQueue.length + s.waitingQueue.length ≤ maxProcesses) :
    s.KeyWakeRight key ↔ s.waitingQueue.length ≤ 1 := by
  rw [KeyWakeRight, wakeUpKeyWaitingProcesses_eq (by omega) hknown]
  constructor
  · rintro ⟨s', heq, -, hempty, -⟩
    cases heq
    have hall := List.drop_eq_nil_iff.mp hempty
    omega
  · intro hle
    have hall : s.waitingQueue.length ≤ (s.waitingQueue.length + 1 - 0) / 2 := by omega
    refine ⟨_, rfl, ?_, List.drop_of_length_le hall, fun pid => ?_⟩
    · show (s.waitingQueue.take _).foldl enqueue s.readyQueue = _
      rw [List.take_of_length_le hall, foldl_enqueue hroom]
    · show (if pid ∈ s.waitingQueue.take _ then _ else _) = _
      rw [List.take_of_length_le hall]

theorem key_wake_right_iff {s : Scheduler} {key : ℤ} (hknown : s.Known s.waitingQueue)
    (hroom : s.readyQueue.length + s.waitingQueue.length ≤ maxProcesses) :
    s.KeyWakeRight key ↔ s.waitingQueue.length ≤ 1 :=
  keyWakeRight_iff hknown hroom

theorem key_wake_right_one :
    KeyWakeRight 97 { processes := fun _ => some { ppid := 0 }, waitingQueue := [1] } :=
  (key_wake_right_iff (fun _ _ => rfl) (by decide)).mpr le_rfl

/-- The second of two processes waits on. -/
theorem key_wake_not_right :
    ¬KeyWakeRight 97 { processes := fun _ => some { ppid := 0 }, waitingQueue := [1, 2] } := by
  intro h
  have hle := (keyWakeRight_iff (fun _ _ => rfl) (by decide)).mp h
  exact absurd hle (by decide)

/-! ## Sleepers -/

/-- A process no longer sleeps. -/
def awake (p : Pcb) : Pcb := { p with flags := { p.flags with sleeping := false } }

lemma awake_awake (p : Pcb) : awake (awake p) = awake p := rfl

def setSleepers (h : MinHeap AsleepProcess) (s : Scheduler) : Scheduler := { s with sleepingProcesses := h }

/-- The processes whose time has come wake up in the order of their times and go to the ready queue one
after the other; the others sleep on. -/
def WakesDue (s : Scheduler) : Prop :=
  ∃ (due : List AsleepProcess) (s' : Scheduler),
    s.checkForProcessesToWakeUp s.sleepingProcesses.elements.length = .ok s' ∧
    due.Pairwise (fun a b => a.endTick ≤ b.endTick) ∧
    due.Perm (s.sleepingProcesses.elements.filter fun a => a.endTick ≤ s.ticks) ∧
    s'.sleepingProcesses.elements.Perm
      (s.sleepingProcesses.elements.filter fun a => ¬a.endTick ≤ s.ticks) ∧
    s'.readyQueue = (due.map AsleepProcess.process).foldl enqueue s.readyQueue ∧
    ∀ pid, s'.processes pid = if pid ∈ due.map AsleepProcess.process then (s.processes pid).map awake
      else s.processes pid

lemma asleep_lt (a b : AsleepProcess) : a < b ↔ a.endTick < b.endTick := Iff.rfl

lemma checkForProcessesToWakeUp_eq : ∀ {fuel : ℕ} {s : Scheduler},
    s.sleepingProcesses.elements.length ≤ fuel → s.Known s.sleepers →
    MinHeap.Ordered AsleepProcess.endTick s.sleepingProcesses.elements →
      ∃ (due : List AsleepProcess) (h : MinHeap AsleepProcess), s.checkForProcessesToWakeUp fuel =
          .ok ((s.woken awake (due.map AsleepProcess.process)).setSleepers h) ∧
        due.Pairwise (fun a b => a.endTick ≤ b.endTick) ∧
        (due ++ h.elements).Perm s.sleepingProcesses.elements ∧
        (∀ a ∈ due, a.endTick ≤ s.ticks) ∧ ∀ a ∈ h.elements, ¬a.endTick ≤ s.ticks := by
  intro fuel
  induction fuel with
  | zero =>
    intro s hfuel _ _
    have hnone : s.sleepingProcesses.elements = [] := List.eq_nil_of_length_eq_zero (by omega)
    refine ⟨[], s.sleepingProcesses, ?_, List.Pairwise.nil, List.Perm.refl _, nofun, ?_⟩
    · rw [List.map_nil, woken_nil]
      rfl
    · rw [hnone]
      exact nofun
  | succ fuel ih =>
    intro s hfuel hknown hord
    rw [checkForProcessesToWakeUp]
    rcases hmin : s.sleepingProcesses.min? with _ | a
    · have hnone : s.sleepingProcesses.elements = [] := List.head?_eq_none_iff.mp hmin
      refine ⟨[], s.sleepingProcesses, ?_, List.Pairwise.nil, List.Perm.refl _, nofun, ?_⟩
      · rw [List.map_nil, woken_nil]
        rfl
      · rw [hnone]
        exact nofun
    · have hleast := hord.min_le asleep_lt hmin
      have hperm := MinHeap.deleteMin_perm hmin
      dsimp only
      by_cases hdue : a.endTick ≤ s.ticks
      · rw [if_pos hdue]
        have ha : (s.processes a.process).isSome :=
          hknown a.process (List.mem_map_of_mem (List.mem_of_mem_head? hmin))
        have hwake : (s.setSleepers s.sleepingProcesses.deleteMin).wakeUp a.process awake =
            .ok ((s.setSleepers s.sleepingProcesses.deleteMin).woken awake [a.process]) := wakeUp_ok ha
        have hlen := hperm.length_eq
        rw [List.length_cons] at hlen
        have hfuel' : s.sleepingProcesses.deleteMin.elements.length ≤ fuel := by omega
        have hknown' : ((s.setSleepers s.sleepingProcesses.deleteMin).woken awake [a.process]).Known
            (s.sleepingProcesses.deleteMin.elements.map AsleepProcess.process) := by
          refine known_woken fun q hq => hknown q ?_
          obtain ⟨b, hb, rfl⟩ := List.mem_map.mp hq
          exact List.mem_map_of_mem (hperm.mem_iff.mp (List.mem_cons_of_mem a hb))
        obtain ⟨due, h, hrun, hsorted, hrest, hin, hout⟩ :=
          ih hfuel' hknown' (MinHeap.deleteMin_ordered asleep_lt hord)
        refine ⟨a :: due, h, ?_, List.Pairwise.cons (fun b hb => ?_) hsorted,
          (hrest.cons a).trans hperm, ?_, hout⟩
        · have hboth : s.woken awake (a.process :: due.map AsleepProcess.process) =
              (s.woken awake [a.process]).woken awake (due.map AsleepProcess.process) :=
            (woken_woken awake_awake).symm
          rw [List.map_cons, hboth]
          refine (congrArg (· >>= fun s => s.checkForProcessesToWakeUp fuel) hwake).trans ?_
          exact hrun
        · have hmem := hrest.mem_iff.mp (List.mem_append_left h.elements hb)
          exact not_lt.mp (hleast b (hperm.mem_iff.mp (List.mem_cons_of_mem a hmem)))
        · intro b hb
          rcases List.mem_cons.mp hb with rfl | hb
          · exact hdue
          · exact hin b hb
      · -- the least of them sleeps on, and so do all
        rw [if_neg hdue]
        refine ⟨[], s.sleepingProcesses, ?_, List.Pairwise.nil, List.Perm.refl _, nofun, ?_⟩
        · rw [List.map_nil, woken_nil]
          rfl
        · intro b hb hle
          exact hdue ((not_lt.mp (hleast b hb)).trans hle)

lemma wakesDue {s : Scheduler} (hknown : s.Known s.sleepers)
    (hord : MinHeap.Ordered AsleepProcess.endTick s.sleepingProcesses.elements) : s.WakesDue := by
  obtain ⟨due, h, hrun, hsorted, hperm, hin, hout⟩ := checkForProcessesToWakeUp_eq le_rfl hknown hord
  refine ⟨due, _, hrun, hsorted, ?_, ?_, rfl, fun pid => rfl⟩
  · have hfilter := hperm.filter fun a => a.endTick ≤ s.ticks
    rw [List.filter_append, List.filter_eq_self.mpr (by simpa using hin),
      List.filter_eq_nil_iff.mpr (by simpa using hout), List.append_nil] at hfilter
    exact hfilter
  · have hfilter := hperm.filter fun a => ¬a.endTick ≤ s.ticks
    rw [List.filter_append, List.filter_eq_nil_iff.mpr (by simpa using hin),
      List.filter_eq_self.mpr (by simpa using hout), List.nil_append] at hfilter
    exact hfilter

end Scheduler

section Heaps

variable {α κ : Type} [LinearOrder κ] [LT α] [DecidableLT α]

/-- Heaps are right after every run, and so the timer wakes those whose time has come. -/
theorem heap_right (key : α → κ) (hkey : ∀ x y : α, x < y ↔ key x < key y)
    (ops : List (HeapOp α)) (capacity : ℕ) {removed : List α} {h : MinHeap α}
    (hrun : MinHeap.run ops { capacity } = some (removed, h))
    (calls : List (HeapOp AsleepProcess)) {woken : List AsleepProcess} {s : Scheduler}
    (hcalls : MinHeap.run calls { capacity := maxProcesses } = some (woken, s.sleepingProcesses))
    (hknown : s.Known s.sleepers) : MinHeap.HeapRight ops removed h ∧ s.WakesDue :=
  ⟨MinHeap.run_right hkey hrun,
    Scheduler.wakesDue hknown (MinHeap.run_new_ordered Scheduler.asleep_lt hcalls)⟩

theorem heap_right_nat :
    MinHeap.HeapRight [.insert 3, .insert 1, .insert 1, .deleteMin] [1] { capacity := 4, elements := [1, 3] } ∧
      Scheduler.WakesDue
        { processes := fun _ => some { ppid := 0 }
          sleepingProcesses := { capacity := maxProcesses, elements := [⟨2, 5⟩, ⟨1, 9⟩] }, ticks := 7 } :=
  heap_right id (fun _ _ => Iff.rfl) _ 4 rfl [.insert ⟨1, 9⟩, .insert ⟨2, 5⟩] rfl fun _ _ => rfl

end Heaps

end BrebOS
