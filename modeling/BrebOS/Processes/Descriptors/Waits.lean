import BrebOS.Processes.Descriptors.Files

/-!
# Processes that wait for a pipe

A process waits in the middle of a `VFS::read` that found nothing.  Its entry in
`processes_waiting_for_read` counts the bytes written since: at least as many as the buffer holds, and
fewer than it asked for, or it would have been resumed.
-/

namespace BrebOS

/-- There is room in the buffer, and the bytes counted for a process are at least those in it and
fewer than the request.  A request for no bytes is resumed by any write. -/
def ProcWaitingForRead.Counted (size : ℕ) (w : ProcWaitingForRead) : Prop :=
  size < pipeBufSize ∧
    (w.request = 0 ∧ w.readSoFar = 0 ∨ size ≤ w.readSoFar ∧ w.readSoFar < w.request)

namespace Descriptors

/-- The pipe an entry is for: the one its process reads from. -/
def WaitsFor (s : Descriptors) (w : ProcWaitingForRead) : Prop :=
  ∃ (fd id : ℕ) (p : PipeFds), s.pending w.pid = some (fd, w.request) ∧
    s.vfs.kindAt fd = some (.pipe id .read) ∧ s.vfs.pipes[id]? = some p ∧
    p.pipe.writeOpen = true ∧ p.writeFd = w.fd ∧ w.Counted p.pipe.buf.size

/-- The processes in the list. -/
def waitingPids (s : Descriptors) : List ℕ := s.waiting.map ProcWaitingForRead.pid

/-- Who waits, and for what. -/
structure Waits (s : Descriptors) : Prop where
  nodup : s.waitingPids.Nodup
  ready : s.ready.Nodup
  live : ∀ pid ∈ s.ready, (s.procs pid).isSome
  flag : ∀ pid, s.waitingRead pid = true ↔ pid ∈ s.waitingPids
  notReady : ∀ pid ∈ s.waitingPids, pid ∉ s.ready
  holds : ∀ pid x, s.pending pid = some x → ∃ i, s.sysFdAt (pid, i) = some x.1
  pending : ∀ pid x, s.pending pid = some x → pid ∈ s.ready ∨ pid ∈ s.waitingPids
  entry : ∀ w ∈ s.waiting, s.WaitsFor w

section Resume

variable {s : Descriptors} {w : ProcWaitingForRead} {R : List ProcWaitingForRead}

lemma eraseP_eq_filter : ∀ {l : List ProcWaitingForRead},
    (l.map ProcWaitingForRead.pid).Nodup → w ∈ l →
    l.eraseP (fun x => x.pid = w.pid ∧ x.fd = w.fd) = l.filter (fun x => x.pid ≠ w.pid)
  | [], _, hw => by simp at hw
  | x :: l, hl, hw => by
      rw [List.map_cons, List.nodup_cons] at hl
      rcases List.mem_cons.mp hw with rfl | hw
      · have hrest : ∀ y ∈ l, y.pid ≠ w.pid := by
          intro y hy heq
          exact hl.1 (heq ▸ List.mem_map_of_mem hy)
        rw [List.eraseP_cons_of_pos (by simp), List.filter_cons_of_neg (by simp)]
        exact (List.filter_eq_self.mpr fun y hy => by simpa using hrest y hy).symm
      · have hne : x.pid ≠ w.pid := by
          intro heq
          exact hl.1 (heq ▸ List.mem_map_of_mem hw)
        rw [List.eraseP_cons_of_neg (by simp [hne]), List.filter_cons_of_pos (by simpa using hne),
          eraseP_eq_filter hl.2 hw]

lemma foldl_resume : ∀ {R : List ProcWaitingForRead} {s : Descriptors}, s.waitingPids.Nodup →
    (R.map ProcWaitingForRead.pid).Nodup → (∀ w ∈ R, w ∈ s.waiting) →
    R.foldl resume s = { s with
      waiting := s.waiting.filter fun x => x.pid ∉ R.map ProcWaitingForRead.pid
      waitingRead := fun pid => s.waitingRead pid && pid ∉ R.map ProcWaitingForRead.pid
      ready := s.ready ++ R.map ProcWaitingForRead.pid }
  | [], s, _, _, _ => by simp
  | w :: R, s, hs, hR, hsub => by
      rw [List.map_cons, List.nodup_cons] at hR
      have hwait : (s.resume w).waiting = s.waiting.filter (fun x => x.pid ≠ w.pid) :=
        eraseP_eq_filter hs (hsub w (by simp))
      have hs' : (s.resume w).waitingPids.Nodup := by
        unfold waitingPids
        rw [hwait]
        exact hs.sublist (List.filter_sublist.map _)
      have hsub' : ∀ x ∈ R, x ∈ (s.resume w).waiting := by
        intro x hx
        rw [hwait, List.mem_filter]
        refine ⟨hsub x (by simp [hx]), ?_⟩
        have : x.pid ≠ w.pid := by
          intro heq
          exact hR.1 (heq ▸ List.mem_map_of_mem hx)
        simpa using this
      rw [List.foldl_cons, foldl_resume hs' hR.2 hsub', hwait, List.filter_filter]
      simp only [resume, List.map_cons, List.mem_cons, not_or, List.append_assoc,
        List.singleton_append, Descriptors.mk.injEq, true_and, and_true]
      refine ⟨?_, ?_⟩
      · funext pid
        rcases eq_or_ne pid w.pid with rfl | hne
        · simp
        · simp [hne]
      · refine List.filter_congr fun x _ => ?_
        simp [Bool.and_comm]

end Resume

section Wake

variable {s s' : Descriptors} {v : FileTable} {writeFd readFd count pid fd id : ℕ}
  {w : ProcWaitingForRead} {ws : List ProcWaitingForRead}

/-- The entry after bytes were written to a file. -/
def advance (writeFd count : ℕ) (w : ProcWaitingForRead) : ProcWaitingForRead :=
  if w.fd = writeFd then
    { w with readSoFar := w.readSoFar + min (w.request - w.readSoFar) count }
  else w

@[simp] lemma advance_pid : (advance writeFd count w).pid = w.pid := by unfold advance; split_ifs <;> rfl

@[simp] lemma advance_fd : (advance writeFd count w).fd = w.fd := by unfold advance; split_ifs <;> rfl

@[simp] lemma advance_request : (advance writeFd count w).request = w.request := by
  unfold advance
  split_ifs <;> rfl

lemma advance_of_ne (h : w.fd ≠ writeFd) : advance writeFd count w = w := if_neg h

/-- The entries that are resumed: those that have all they asked for, or, where the write end is
closed, all. -/
def Resumed (writeFd : ℕ) (shouldWait : Bool) (w : ProcWaitingForRead) : Prop :=
  w.fd = writeFd ∧ (w.readSoFar = w.request ∨ shouldWait = false)

instance : DecidablePred (Resumed writeFd b) := fun _ => instDecidableAnd

lemma countBytes_spec {f : FileInterface} {b : Bool} (hf : v.files readFd = some f)
    (hb : v.shouldWaitForDataOnRead f.kind = .ok b) : ∀ ws,
    countBytes v writeFd readFd count ws = .ok (ws.map (advance writeFd count),
      (ws.map (advance writeFd count)).filter (Resumed writeFd b))
  | [] => rfl
  | w :: ws => by
      have ih := countBytes_spec hf hb ws
      by_cases hw : w.fd = writeFd
      · have hnew : advance writeFd count w =
            { w with readSoFar := w.readSoFar + min (w.request - w.readSoFar) count } := if_pos hw
        simp only [countBytes, ne_eq, hw, not_true_eq_false, if_false, List.map_cons, hf, hb, ih]
        rw [hnew]
        by_cases hdone : w.readSoFar + min (w.request - w.readSoFar) count = w.request
        · simp [hdone, Resumed, hw, bind, Except.bind]
        · cases b
          · simp [hdone, Resumed, hw, bind, Except.bind, Except.map]
          · simp [hdone, Resumed, hw, bind, Except.bind, Except.map]
      · have hsame : advance writeFd count w = w := advance_of_ne hw
        simp [countBytes, hw, ih, bind, Except.bind, hsame, Resumed]

lemma countBytes_of_forall_ne : ∀ {ws}, (∀ w ∈ ws, w.fd ≠ writeFd) →
    countBytes v writeFd readFd count ws = .ok (ws, [])
  | [], _ => rfl
  | w :: ws, h => by
      have ih := countBytes_of_forall_ne fun x hx => h x (List.mem_cons_of_mem _ hx)
      simp [countBytes, h w (by simp), ih, bind, Except.bind]

lemma wake_of_forall_ne (h : ∀ w ∈ s.waiting, w.fd ≠ writeFd) :
    s.wakeUpReadWaitingProcesses writeFd readFd count = .ok s := by
  simp [wakeUpReadWaitingProcesses, countBytes_of_forall_ne h, bind, Except.bind]

/-- The processes `wake_up_read_waiting_processes` resumes. -/
def resumedPids (s : Descriptors) (writeFd count : ℕ) (b : Bool) : List ℕ :=
  ((s.waiting.map (advance writeFd count)).filter (Resumed writeFd b)).map ProcWaitingForRead.pid

lemma wake_spec {f : FileInterface} {b : Bool} (hs : s.waitingPids.Nodup)
    (hf : s.vfs.files readFd = some f) (hb : s.vfs.shouldWaitForDataOnRead f.kind = .ok b) :
    s.wakeUpReadWaitingProcesses writeFd readFd count = .ok { s with
      waiting := (s.waiting.map (advance writeFd count)).filter
        fun w => w.pid ∉ s.resumedPids writeFd count b
      waitingRead := fun pid => s.waitingRead pid && pid ∉ s.resumedPids writeFd count b
      ready := s.ready ++ s.resumedPids writeFd count b } := by
  have hpids : (s.waiting.map (advance writeFd count)).map ProcWaitingForRead.pid = s.waitingPids := by
    rw [List.map_map]
    exact List.map_congr_left fun w _ => advance_pid
  simp only [wakeUpReadWaitingProcesses, countBytes_spec hf hb, bind, Except.bind]
  rw [foldl_resume]
  · rfl
  · show (List.map ProcWaitingForRead.pid _).Nodup
    rw [hpids]
    exact hs
  · exact (hpids.symm ▸ hs).sublist (List.filter_sublist.map _)
  · intro w hw
    exact List.mem_of_mem_filter hw

lemma mem_resumedPids {b : Bool} {q : ℕ} : q ∈ s.resumedPids writeFd count b ↔
    ∃ w ∈ s.waiting, w.pid = q ∧ Resumed writeFd b (advance writeFd count w) := by
  simp only [resumedPids, List.mem_map, List.mem_filter, decide_eq_true_eq]
  constructor
  · rintro ⟨x, ⟨⟨w, hw, rfl⟩, hr⟩, rfl⟩
    exact ⟨w, hw, advance_pid.symm, hr⟩
  · rintro ⟨w, hw, rfl, hr⟩
    exact ⟨_, ⟨⟨w, hw, rfl⟩, hr⟩, advance_pid⟩

lemma map_pid_filter {l : List ℕ} : ((s.waiting.map (advance writeFd count)).filter
    fun w => w.pid ∉ l).map ProcWaitingForRead.pid = s.waitingPids.filter fun q => q ∉ l := by
  rw [waitingPids, List.filter_map, List.filter_map, List.map_map]
  refine congrArg₂ _ (funext fun w => advance_pid) (List.filter_congr fun w _ => ?_)
  simp

lemma pid_mem_resumedPids {b : Bool} (hs : s.waitingPids.Nodup) (hw : w ∈ s.waiting) :
    w.pid ∈ s.resumedPids writeFd count b ↔ Resumed writeFd b (advance writeFd count w) := by
  rw [mem_resumedPids]
  constructor
  · rintro ⟨x, hx, hpid, hr⟩
    rwa [List.inj_on_of_nodup_map hs hx hw hpid] at hr
  · intro hr
    exact ⟨w, hw, rfl, hr⟩

lemma known_wake {b : Bool} (q : ℕ) :
    q ∈ s.ready ++ s.resumedPids writeFd count b ∨
      q ∈ ((s.waiting.map (advance writeFd count)).filter
        fun w => w.pid ∉ s.resumedPids writeFd count b).map ProcWaitingForRead.pid ↔
      q ∈ s.ready ∨ q ∈ s.waitingPids := by
  rw [map_pid_filter, List.mem_filter, List.mem_append, decide_eq_true_eq]
  have hsub : q ∈ s.resumedPids writeFd count b → q ∈ s.waitingPids := by
    intro hq
    obtain ⟨w, hw, rfl, -⟩ := mem_resumedPids.mp hq
    exact List.mem_map_of_mem hw
  tauto

namespace Waits

lemma wake {b : Bool} (h : s.Waits) (hsched : s'.ready = s.ready ∧ s'.waitingRead = s.waitingRead ∧
      s'.waiting = s.waiting ∧ s'.pending = s.pending)
    (hprocs : s'.procs = s.procs)
    (hentry : ∀ w ∈ s.waiting, ¬ Resumed writeFd b (advance writeFd count w) →
      s'.WaitsFor (advance writeFd count w)) :
    Waits { s' with
      waiting := (s'.waiting.map (advance writeFd count)).filter
        fun w => w.pid ∉ s'.resumedPids writeFd count b
      waitingRead := fun pid => s'.waitingRead pid && pid ∉ s'.resumedPids writeFd count b
      ready := s'.ready ++ s'.resumedPids writeFd count b } := by
  obtain ⟨hready, hflag, hwaiting, hpending⟩ := hsched
  have hresumed : s'.resumedPids writeFd count b = s.resumedPids writeFd count b := by
    simp [resumedPids, hwaiting]
  have hslots : s'.sysFdAt = s.sysFdAt := by
    funext x
    simp [sysFdAt, table, hprocs]
  rw [hready, hflag, hwaiting, hresumed]
  have hsub : ∀ q ∈ s.resumedPids writeFd count b, q ∈ s.waitingPids := by
    intro q hq
    obtain ⟨w, hw, rfl, -⟩ := mem_resumedPids.mp hq
    exact List.mem_map_of_mem hw
  have hpids : ((s.waiting.map (advance writeFd count)).filter
      fun w => w.pid ∉ s.resumedPids writeFd count b).map ProcWaitingForRead.pid =
      s.waitingPids.filter fun q => q ∉ s.resumedPids writeFd count b := map_pid_filter
  refine ⟨?_, ?_, ?_, ?_, ?_, ?_, ?_, ?_⟩
  · show (List.map ProcWaitingForRead.pid _).Nodup
    rw [hpids]
    exact h.nodup.filter _
  · refine List.nodup_append'.mpr ⟨h.ready, ?_, ?_⟩
    · have hall : ((s.waiting.map (advance writeFd count)).map ProcWaitingForRead.pid).Nodup := by
        rw [List.map_map, show ProcWaitingForRead.pid ∘ advance writeFd count =
          ProcWaitingForRead.pid from funext fun w => advance_pid]
        exact h.nodup
      exact hall.sublist (List.filter_sublist.map _)
    · intro q hq hq'
      exact h.notReady q (hsub q hq') hq
  · intro q hq
    show (s'.procs q).isSome
    rw [hprocs]
    rcases List.mem_append.mp hq with hq | hq
    · exact h.live q hq
    · -- a process that waits has a descriptor, so it exists
      obtain ⟨w, hw, rfl, -⟩ := mem_resumedPids.mp hq
      obtain ⟨fd, id, p, hpend, -⟩ := h.entry w hw
      obtain ⟨i, hi⟩ := h.holds _ _ hpend
      rcases hp : s.procs w.pid with _ | t
      · simp [sysFdAt, table, hp] at hi
      · rfl
  · intro q
    show (s.waitingRead q && _) = true ↔ q ∈ List.map ProcWaitingForRead.pid _
    rw [hpids, List.mem_filter, Bool.and_eq_true, h.flag q]
  · intro q hq hq'
    have hq : q ∈ List.map ProcWaitingForRead.pid _ := hq
    rw [hpids, List.mem_filter] at hq
    rcases List.mem_append.mp hq' with hq' | hq'
    · exact h.notReady q hq.1 hq'
    · simp [hq'] at hq
  · intro q x hx
    obtain ⟨i, hi⟩ := h.holds q x (hpending ▸ hx)
    exact ⟨i, (congrFun hslots _).trans hi⟩
  · intro q x hx
    show q ∈ s.ready ++ _ ∨ q ∈ List.map ProcWaitingForRead.pid _
    rw [hpids, List.mem_filter, List.mem_append]
    rcases h.pending q x (hpending ▸ hx) with hq | hq
    · exact Or.inl (Or.inl hq)
    · by_cases hr : q ∈ s.resumedPids writeFd count b
      · exact Or.inl (Or.inr hr)
      · exact Or.inr ⟨hq, by simpa using hr⟩
  · intro w hw
    rw [List.mem_filter] at hw
    obtain ⟨⟨w, hmem, rfl⟩, hnot⟩ := And.imp_left List.mem_map.mp hw
    rw [advance_pid, decide_eq_true_eq, pid_mem_resumedPids h.nodup hmem] at hnot
    exact hentry w hmem hnot

lemma congr (h : s.Waits) (hready : s'.ready = s.ready) (hflag : s'.waitingRead = s.waitingRead)
    (hwaiting : s'.waiting = s.waiting) (hpending : s'.pending = s.pending)
    (hprocs : ∀ q ∈ s.ready, (s'.procs q).isSome)
    (hslots : ∀ q, (s.pending q).isSome → ∀ i, s'.sysFdAt (q, i) = s.sysFdAt (q, i))
    (hentry : ∀ w ∈ s.waiting, s.WaitsFor w → s'.WaitsFor w) : s'.Waits := by
  have hpids : s'.waitingPids = s.waitingPids := by rw [waitingPids, hwaiting, waitingPids]
  refine ⟨hpids ▸ h.nodup, hready ▸ h.ready, hready ▸ hprocs, ?_, ?_, ?_, ?_, ?_⟩
  · rw [hflag, hpids]
    exact h.flag
  · rw [hready, hpids]
    exact h.notReady
  · rw [hpending]
    intro q x hx
    obtain ⟨i, hi⟩ := h.holds q x hx
    exact ⟨i, (hslots q (by simp [hx]) i).trans hi⟩
  · rw [hpending, hready, hpids]
    exact h.pending
  · rw [hwaiting]
    intro w hw
    exact hentry w hw (h.entry w hw)

end Waits

end Wake

end Descriptors

end BrebOS
