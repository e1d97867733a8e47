import BrebOS.Processes.Descriptors.Cursors

/-!
# Waiting for a pipe

A process waits for a pipe only while the write end is open and there is room in the buffer, along
every run in which no process waits for no bytes on a full pipe, and no write fills a pipe for which
somebody waits who asked for more.  A process that is woken is in the ready queue once.
-/

namespace BrebOS

namespace Descriptors

variable {α : Type} {s s' : Descriptors} {pid fd sysFd id n : ℕ} {p : PipeFds} {b : CircularBuffer}
  {w w' : ProcWaitingForRead}

/-- Every process in the list reads from a pipe whose write end is open and that is not full. -/
def NoDeadlock (s : Descriptors) : Prop :=
  ∀ w ∈ s.waiting, ∃ (fd id : ℕ) (p : PipeFds), s.pending w.pid = some (fd, w.request) ∧
    s.vfs.kindAt fd = some (.pipe id .read) ∧ s.vfs.pipes[id]? = some p ∧
    p.pipe.writeOpen = true ∧ p.pipe.buf.size < p.pipe.buf.capacity

/-- Who leaves the list was not in the ready queue, is in it once, and does not wait any more. -/
def Woken (s s' : Descriptors) : Prop :=
  ∀ pid ∈ s.waitingPids, pid ∉ s'.waitingPids →
    pid ∉ s.ready ∧ s'.ready.count pid = 1 ∧ s'.waitingRead pid = false

/-- A step leads to no deadlock and loses no process. -/
def WaitsRightAfter (s : Descriptors) (op : FdOp) : Prop :=
  match s.step op with
  | .ok s' => s'.NoDeadlock ∧ Woken s s'
  | .error _ => True

/-- The system descriptor that a descriptor of a process stands for. -/
def openSysFd (s : Descriptors) (pid : ℕ) (fd : ℤ) : Option ℕ :=
  if 0 ≤ fd ∧ fd < maxFdPerProcess then s.sysFdAt (pid, fd.toNat) else none

/-- The pipe a file is an end of. -/
def pipeAt (s : Descriptors) (e : Pipe.End) (fd : ℕ) : Option PipeFds :=
  match s.vfs.kindAt fd with
  | some (.pipe id e') => if e' = e then s.vfs.pipes[id]? else none
  | _ => none

/-- A read of no bytes does not come to wait on a full pipe. -/
def ReadsRight (s : Descriptors) (sysFd n : ℕ) : Prop :=
  n = 0 → ∀ p ∈ s.pipeAt .read sysFd, p.pipe.writeOpen = true →
    p.pipe.buf.size < p.pipe.buf.capacity

/-- A write that fills the pipe, and is not one that goes out of bounds, satisfies whoever waits. -/
def WritesRight (s : Descriptors) (sysFd n : ℕ) : Prop :=
  ∀ p ∈ s.pipeAt .write sysFd, p.pipe.readOpen = true →
    p.pipe.buf.beg + p.pipe.buf.size ≤ p.pipe.buf.capacity →
    p.pipe.buf.capacity ≤ p.pipe.buf.size + n →
    ∀ w ∈ s.waiting, w.fd = sysFd →
      w.request ≤ w.readSoFar + (p.pipe.buf.capacity - p.pipe.buf.size)

/-- The steps that let nobody wait on a full pipe. -/
def LeavesRoom (s : Descriptors) : FdOp → Prop
  | .read pid fd n => ∀ sysFd ∈ s.openSysFd pid fd, s.ReadsRight sysFd n
  | .write pid fd bytes => ∀ sysFd ∈ s.openSysFd pid fd, s.WritesRight sysFd bytes.length
  | .resume pid => ∀ x ∈ s.pending pid, s.ReadsRight x.1 x.2
  | _ => True

lemma Inv.noDeadlock (h : s.Inv) : s.NoDeadlock := by
  intro w hw
  obtain ⟨fd, id, p, hpend, hkind, hp, hopen, -, hcount⟩ := h.waits.entry w hw
  refine ⟨fd, id, p, hpend, hkind, hp, hopen, ?_⟩
  rw [(h.pipes.buf id p hp).2]
  exact hcount.1

lemma Inv.woken (h : s.Inv) (h' : s'.Inv)
    (hpending : ∀ q ∈ s.waitingPids, s'.pending q = s.pending q) : Woken s s' := by
  intro q hq hq'
  obtain ⟨w, hw, rfl⟩ := List.mem_map.mp hq
  obtain ⟨fd, id, p, hpend, -⟩ := h.waits.entry w hw
  refine ⟨h.waits.notReady _ hq, ?_, ?_⟩
  · rcases h'.waits.pending _ _ ((hpending _ hq).trans hpend) with hready | hwait
    · exact List.count_eq_one_of_mem h'.waits.ready hready
    · exact absurd hwait hq'
  · simpa using (h'.waits.flag w.pid).not.mpr hq'

/-! ## Buffers -/

/-- Another buffer in a pipe. -/
def setBuf (id : ℕ) (p : PipeFds) (b : CircularBuffer) (s : Descriptors) : Descriptors :=
  { s with vfs := s.vfs.modifyPipe id fun _ => { p.pipe with buf := b } }

lemma setBuf_self (hp : s.vfs.pipes[id]? = some p) : s.setBuf id p p.pipe.buf = s := by
  have hpipes : (s.vfs.modifyPipe id fun _ => p.pipe).pipes = s.vfs.pipes := by
    refine List.ext_getElem? fun j => ?_
    rcases eq_or_ne j id with rfl | hj
    · rw [FileTable.Pipes.getElem?_modifyPipe hp, hp]
    · rw [FileTable.Pipes.getElem?_modifyPipe_ne hj]
  show { s with vfs := { s.vfs with pipes := (s.vfs.modifyPipe id fun _ => p.pipe).pipes } } = s
  rw [hpipes]

lemma WaitsFor.setBuf (hw : s.WaitsFor w) (hv : s.vfs.Pipes) (hp : s.vfs.pipes[id]? = some p)
    (hpid : w'.pid = w.pid) (hfd : w'.fd = w.fd) (hrequest : w'.request = w.request)
    (hcount : w.fd = p.writeFd → w.Counted p.pipe.buf.size → w'.Counted b.size)
    (hother : w' ≠ w → p.pipe.writeOpen = true ∧ w.fd = p.writeFd) :
    (s.setBuf id p b).WaitsFor w' := by
  obtain ⟨fd, id', p', hpend, hkind, hp', hopen, hwfd, hc⟩ := hw
  rcases eq_or_ne id' id with rfl | hid
  · obtain rfl : p = p' := by simpa [hp] using hp'
    refine ⟨fd, id', _, ?_, hkind, FileTable.Pipes.getElem?_modifyPipe hp, hopen, ?_, ?_⟩
    · rw [hpid, hrequest]
      exact hpend
    · rw [hfd]
      exact hwfd
    · exact hcount hwfd.symm hc
  · have hsame : w' = w := by
      by_contra hne
      obtain ⟨hopen', hfd'⟩ := hother hne
      have hwrite := hv.writeOpen id p hp hopen'
      have hwrite' := hv.writeOpen id' p' hp' hopen
      rw [hwfd, hfd', hwrite, Option.some.injEq, FileKind.pipe.injEq] at hwrite'
      exact hid hwrite'.1.symm
    subst hsame
    exact ⟨fd, id', p', hpend, hkind,
      (FileTable.Pipes.getElem?_modifyPipe_ne hid).trans hp', hopen, hwfd, hc⟩

lemma Inv.shrink (h : s.Inv) (hp : s.vfs.pipes[id]? = some p) (hb : b.InBounds)
    (hcap : b.capacity = pipeBufSize) (hsize : b.size ≤ p.pipe.buf.size) : (s.setBuf id p b).Inv := by
  refine ⟨h.files.congr (fun _ _ => rfl) rfl, h.pipes.setBuf hp hb hcap, ?_⟩
  refine h.waits.congr rfl rfl rfl rfl h.waits.live (fun _ _ _ => rfl) ?_
  intro w _ hw
  refine hw.setBuf h.pipes hp rfl rfl rfl ?_ fun hne => absurd rfl hne
  rintro - ⟨hlt, hc⟩
  exact ⟨lt_of_le_of_lt hsize hlt, hc.imp_right fun hle => ⟨le_trans hsize hle.1, hle.2⟩⟩

/-! ## Reading -/

/-- A process begins to wait in the middle of a read. -/
def startWait (pid sysFd n writeFd : ℕ) (s : Descriptors) : Descriptors :=
  { s.doReadWait pid writeFd n with pending := Function.update s.pending pid (some (sysFd, n)) }

lemma Inv.startWait (h : s.Inv) (hready : pid ∈ s.ready)
    (hholds : ∃ i, s.sysFdAt (pid, i) = some sysFd)
    (hkind : s.vfs.kindAt sysFd = some (.pipe id .read)) (hp : s.vfs.pipes[id]? = some p)
    (hopen : p.pipe.writeOpen = true)
    (hcount : ProcWaitingForRead.Counted p.pipe.buf.size { pid, fd := p.writeFd, request := n }) :
    (s.startWait pid sysFd n p.writeFd).Inv := by
  have hw := h.waits
  have hnot : pid ∉ s.waitingPids := fun hmem => hw.notReady pid hmem hready
  have hpids : (s.startWait pid sysFd n p.writeFd).waitingPids = s.waitingPids ++ [pid] := by
    simp [waitingPids, Descriptors.startWait, doReadWait]
  refine ⟨h.files.congr (fun _ _ => rfl) rfl, h.pipes, ?_, hw.ready.erase pid, ?_, ?_, ?_, ?_, ?_, ?_⟩
  · rw [hpids]
    refine List.nodup_append'.mpr ⟨hw.nodup, List.nodup_singleton _, ?_⟩
    simpa using hnot
  · intro q hq
    exact hw.live q (List.mem_of_mem_erase hq)
  · intro q
    rw [hpids, List.mem_append, List.mem_singleton]
    show Function.update s.waitingRead pid true q = true ↔ _
    rcases eq_or_ne q pid with rfl | hq
    · simp
    · rw [Function.update_of_ne hq, hw.flag q]
      simp [hq]
  · intro q hq hq'
    rw [hpids, List.mem_append, List.mem_singleton] at hq
    obtain ⟨hne, hmem⟩ := hw.ready.mem_erase_iff.mp hq'
    rcases hq with hq | rfl
    · exact hw.notReady q hq hmem
    · exact hne rfl
  · intro q x hx
    have hx : Function.update s.pending pid (some (sysFd, n)) q = some x := hx
    rcases eq_or_ne q pid with rfl | hq
    · rw [Function.update_self, Option.some.injEq] at hx
      exact hx ▸ hholds
    · rw [Function.update_of_ne hq] at hx
      exact hw.holds q x hx
  · intro q x hx
    have hx : Function.update s.pending pid (some (sysFd, n)) q = some x := hx
    rw [hpids, List.mem_append, List.mem_singleton]
    rcases eq_or_ne q pid with rfl | hq
    · exact Or.inr (Or.inr rfl)
    · rw [Function.update_of_ne hq] at hx
      rcases hw.pending q x hx with hmem | hmem
      · exact Or.inl ((List.mem_erase_of_ne hq).mpr hmem)
      · exact Or.inr (Or.inl hmem)
  · intro w hmem
    rcases List.mem_append.mp hmem with hmem | hmem
    · obtain ⟨fd, id', p', hpend, hrest⟩ := hw.entry w hmem
      have hready' := hw.notReady w.pid (List.mem_map_of_mem hmem)
      have hne : w.pid ≠ pid := by
        rintro rfl
        exact hready' hready
      exact ⟨fd, id', p', (Function.update_of_ne hne _ _).trans hpend, hrest⟩
    · rw [List.mem_singleton] at hmem
      subst hmem
      exact ⟨sysFd, id, p, Function.update_self _ _ _, hkind, hp, hopen, rfl, hcount⟩

lemma startWait_deadlock (hkind : s.vfs.kindAt sysFd = some (.pipe id .read))
    (hp : s.vfs.pipes[id]? = some p) (hfull : p.pipe.buf.capacity ≤ p.pipe.buf.size) :
    ¬ (s.startWait pid sysFd n p.writeFd).NoDeadlock := by
  intro h
  obtain ⟨fd, id', p', hpend, hkind', hp', -, hlt⟩ := h { pid, fd := p.writeFd, request := n }
    (List.mem_append_right _ (List.mem_singleton_self _))
  have hpend : Function.update s.pending pid (some (sysFd, n)) pid = some (fd, n) := hpend
  rw [Function.update_self] at hpend
  obtain rfl : sysFd = fd := by simpa using hpend
  have hid : some (FileKind.pipe id .read) = some (.pipe id' .read) := hkind.symm.trans hkind'
  obtain rfl : id = id' := by simpa using hid
  have hpp : some p = some p' := hp.symm.trans hp'
  obtain rfl : p = p' := by simpa using hpp
  omega

lemma read_nothing (hb : b.InBounds) (h : min n b.size = 0) : (b.read n).2 = b := by
  have := hb.beg_lt
  simp only [CircularBuffer.read, h, Nat.add_zero, Nat.sub_zero, if_neg (Nat.not_le.mpr this)]

/-- What a read or a write of a process does: it keeps the invariant when `cond` holds, and leaves
somebody waiting on a full pipe when it does not. -/
structure Moves (pid : ℕ) (s : Descriptors) (cond : Prop) (r : Except Fault (α × Descriptors)) :
    Prop where
  procs : ∀ a s', r = .ok (a, s') → s'.procs = s.procs
  pending : ∀ a s', r = .ok (a, s') → ∀ q, q ≠ pid → s'.pending q = s.pending q
  inv : cond → ∀ a s', r = .ok (a, s') → s'.Inv
  deadlock : ¬ cond → ∃ a s', r = .ok (a, s') ∧ ¬ s'.NoDeadlock

namespace Moves

variable {cond : Prop} {r : Except Fault (α × Descriptors)} {a : α}

lemma ok (hr : r = .ok (a, s')) (hprocs : s'.procs = s.procs)
    (hpending : ∀ q, q ≠ pid → s'.pending q = s.pending q) (hinv : cond → s'.Inv)
    (hdead : ¬ cond → ¬ s'.NoDeadlock) : Moves pid s cond r := by
  have heq : ∀ a' s'', r = .ok (a', s'') → s' = s'' := by
    intro a' s'' h
    rw [hr] at h
    cases h
    rfl
  exact ⟨fun a' s'' h => heq a' s'' h ▸ hprocs, fun a' s'' h => heq a' s'' h ▸ hpending,
    fun hc a' s'' h => heq a' s'' h ▸ hinv hc, fun hc => ⟨a, s', hr, hdead hc⟩⟩

lemma unchanged (h : s.Inv) (hcond : cond) (a : α) : Moves pid s cond (.ok (a, s)) :=
  ok rfl rfl (fun _ _ => rfl) (fun _ => h) fun hc => absurd hcond hc

lemma fault (e : Fault) (hcond : cond) : Moves pid s cond (.error e : Except Fault (α × Descriptors)) := by
  refine ⟨?_, ?_, ?_, fun hc => absurd hcond hc⟩
  · intro a s' h
    cases h
  · intro a s' h
    cases h
  · intro _ a s' h
    cases h

end Moves

lemma Inv.readPipe (h : s.Inv) (hready : pid ∈ s.ready) (hholds : ∃ i, s.sysFdAt (pid, i) = some sysFd)
    (hkind : s.vfs.kindAt sysFd = some (.pipe id .read)) (hp : s.vfs.pipes[id]? = some p) :
    Moves pid s (s.ReadsRight sysFd n)
      (if (p.pipe.buf.contents.take n).length = 0 ∧ p.pipe.shouldWaitForDataOnRead then
        .ok (none, (s.setBuf id p (p.pipe.buf.read n).2).startWait pid sysFd n p.writeFd)
      else .ok (some ((p.pipe.buf.contents.take n).length : ℤ), s.setBuf id p (p.pipe.buf.read n).2)) := by
  obtain ⟨hb, hcap⟩ := h.pipes.buf id p hp
  have hpipeAt : s.pipeAt .read sysFd = some p := by simp [pipeAt, hkind, hp]
  have hlen : (p.pipe.buf.contents.take n).length = min n p.pipe.buf.size := by simp
  rw [hlen]
  split_ifs with hwait
  · obtain ⟨hzero, hopen⟩ := hwait
    rw [read_nothing hb hzero, setBuf_self hp]
    refine .ok rfl rfl (fun q hq => Function.update_of_ne hq _ _) ?_ ?_
    · intro hright
      refine h.startWait hready hholds hkind hp hopen ⟨?_, ?_⟩
      · rcases Nat.eq_zero_or_pos n with hn | hn
        · rw [← hcap]
          exact hright hn p hpipeAt hopen
        · have := hb.pos
          omega
      · rcases Nat.eq_zero_or_pos n with hn | hn
        · exact Or.inl ⟨hn, rfl⟩
        · exact Or.inr ⟨by omega, hn⟩
    · intro hwrong
      refine startWait_deadlock hkind hp ?_
      by_contra hroom
      refine hwrong ?_
      intro _ p' hp' _
      obtain rfl : p = p' := by simpa [hpipeAt] using hp'
      omega
  · refine .ok rfl rfl (fun _ _ => rfl) ?_ ?_
    · intro _
      exact h.shrink hp hb.read hcap (Nat.sub_le _ _)
    · intro hwrong
      refine absurd ?_ hwrong
      intro hn p' hp' hopen
      obtain rfl : p = p' := by simpa [hpipeAt] using hp'
      exact absurd ⟨by omega, hopen⟩ hwait

lemma Inv.vfsRead (h : s.Inv) (hready : pid ∈ s.ready) (hholds : ∃ i, s.sysFdAt (pid, i) = some sysFd)
    (n : ℕ) : Moves pid s (s.ReadsRight sysFd n) (s.vfsRead pid sysFd n) := by
  obtain ⟨i, hi⟩ := hholds
  obtain ⟨f, hf⟩ := Option.isSome_iff_exists.mp (h.files.opened _ _ hi)
  have hkindAt : s.vfs.kindAt sysFd = some f.kind := by simp [FileTable.kindAt, hf]
  have hother : s.pipeAt .read sysFd = none → s.ReadsRight sysFd n := by
    intro hnone _ p hp
    rw [hnone] at hp
    cases hp
  unfold Descriptors.vfsRead
  rw [hf]
  rcases hk : f.kind with _ | _ | ⟨id, _ | _⟩
  · rw [hk] at hkindAt
    simp only [hk]
    exact .unchanged h (hother (by simp [pipeAt, hkindAt])) _
  · rw [hk] at hkindAt
    simp only [hk]
    exact .unchanged h (hother (by simp [pipeAt, hkindAt])) _
  · rw [hk] at hkindAt
    obtain ⟨p, hp, -, -⟩ := h.pipes.readEnd sysFd id hkindAt
    have hmoves := h.readPipe hready ⟨i, hi⟩ hkindAt hp (n := n)
    simp only [hk, hp, Pipe.read_spec (h.pipes.buf id p hp).1, bind, Except.bind]
    exact hmoves
  · rw [hk] at hkindAt
    obtain ⟨p, hp, -, -⟩ := h.pipes.writeEnd sysFd id hkindAt
    have hpipe : s.setBuf id p p.pipe.buf = s := setBuf_self hp
    have hmoves : Moves pid s (s.ReadsRight sysFd n)
        (.ok (some (-Errno.einval.code), s.setBuf id p p.pipe.buf)) := by
      rw [hpipe]
      exact .unchanged h (hother (by simp [pipeAt, hkindAt])) _
    simp only [hk, hp, Pipe.read, bind, Except.bind]
    exact hmoves

/-! ## Writing -/

lemma Counted.advance {size count writeFd : ℕ} (h : w.Counted size) (hfd : w.fd = writeFd)
    (hleft : ¬ Resumed writeFd true (advance writeFd count w)) (hroom : size + count < pipeBufSize) :
    (advance writeFd count w).Counted (size + count) := by
  have hnew : Descriptors.advance writeFd count w =
      { w with readSoFar := w.readSoFar + min (w.request - w.readSoFar) count } := if_pos hfd
  rw [hnew] at hleft ⊢
  have hne : w.readSoFar + min (w.request - w.readSoFar) count ≠ w.request :=
    fun heq => hleft ⟨hfd, Or.inl heq⟩
  refine ⟨hroom, ?_⟩
  rcases h.2 with hzero | hlt
  · exact absurd (by omega) hne
  · right
    show size + count ≤ w.readSoFar + min (w.request - w.readSoFar) count ∧
      w.readSoFar + min (w.request - w.readSoFar) count < w.request
    omega

/-- The state after bytes were written to a pipe, and who waits for them was told. -/
def wakeAfter (writeFd count : ℕ) (s : Descriptors) : Descriptors :=
  { s with
    waiting := (s.waiting.map (advance writeFd count)).filter
      fun w => w.pid ∉ s.resumedPids writeFd count true
    waitingRead := fun pid => s.waitingRead pid && pid ∉ s.resumedPids writeFd count true
    ready := s.ready ++ s.resumedPids writeFd count true }

section Written

variable {bytes : List UInt8}

lemma Inv.written (h : s.Inv) (hkind : s.vfs.kindAt sysFd = some (.pipe id .write))
    (hp : s.vfs.pipes[id]? = some p) (hread : p.pipe.readOpen = true)
    (hflat : p.pipe.buf.beg + p.pipe.buf.size ≤ p.pipe.buf.capacity)
    (hn : n = min bytes.length (p.pipe.buf.capacity - p.pipe.buf.size))
    (hb : CircularBuffer.Appended bytes n p.pipe.buf b)
    (hright : s.WritesRight sysFd bytes.length) : ((s.setBuf id p b).wakeAfter sysFd n).Inv := by
  obtain ⟨hbounds, hcap⟩ := h.pipes.buf id p hp
  have hle := hbounds.size_le
  obtain ⟨p', hp', hfd, hopen⟩ := h.pipes.writeEnd sysFd id hkind
  obtain rfl : p = p' := by simpa [hp] using hp'
  have hpipeAt : s.pipeAt .write sysFd = some p := by simp [pipeAt, hkind, hp]
  have hsize : b.size = p.pipe.buf.size + n := hb.2.2.1
  refine ⟨h.files.congr (fun _ _ => rfl) rfl,
    h.pipes.setBuf hp (hb.inBounds hbounds (by omega)) (hb.1.trans hcap), ?_⟩
  refine h.waits.wake ⟨rfl, rfl, rfl, rfl⟩ rfl ?_
  intro w hmem hleft
  refine (h.waits.entry w hmem).setBuf h.pipes hp advance_pid advance_fd advance_request ?_ ?_
  · intro hwfd hcount
    rw [hsize]
    have hw : w.fd = sysFd := hwfd.trans hfd
    refine Counted.advance hcount hw hleft ?_
    rw [← hcap]
    by_contra hfull
    have hreq := hright p hpipeAt hread hflat (by omega) w hmem hw
    refine hleft ⟨by rw [advance_fd, hw], Or.inl ?_⟩
    have hnew : advance sysFd n w =
        { w with readSoFar := w.readSoFar + min (w.request - w.readSoFar) n } := if_pos hw
    rw [hnew]
    show w.readSoFar + min (w.request - w.readSoFar) n = w.request
    have hcount := hcount.2
    omega
  · intro hne
    refine ⟨hopen, ?_⟩
    by_contra hwfd
    exact hne (advance_of_ne fun heq => hwfd (heq.trans hfd.symm))

lemma Inv.written_deadlock (h : s.Inv) (hkind : s.vfs.kindAt sysFd = some (.pipe id .write))
    (hp : s.vfs.pipes[id]? = some p)
    (hn : n = min bytes.length (p.pipe.buf.capacity - p.pipe.buf.size))
    (hb : CircularBuffer.Appended bytes n p.pipe.buf b)
    (hwrong : ¬ s.WritesRight sysFd bytes.length) :
    ¬ ((s.setBuf id p b).wakeAfter sysFd n).NoDeadlock := by
  obtain ⟨hbounds, hcap⟩ := h.pipes.buf id p hp
  have hle := hbounds.size_le
  obtain ⟨p', hp', hfd, hopen⟩ := h.pipes.writeEnd sysFd id hkind
  obtain rfl : p = p' := by simpa [hp] using hp'
  have hpipeAt : s.pipeAt .write sysFd = some p := by simp [pipeAt, hkind, hp]
  have hsize : b.size = p.pipe.buf.size + n := hb.2.2.1
  simp only [WritesRight, hpipeAt, Option.mem_some_iff, forall_eq'] at hwrong
  push Not at hwrong
  obtain ⟨-, -, hfill, w, hmem, hw, hreq⟩ := hwrong
  obtain ⟨hpend, hreadKind, -⟩ :=
    (h.waits.entry w hmem).eq_of_writeFd h.pipes hp hopen (hw.trans hfd.symm)
  have hleft : w.pid ∉ s.resumedPids sysFd n true := by
    rw [pid_mem_resumedPids h.waits.nodup hmem]
    rintro ⟨-, hdone | hdone⟩
    · have hnew : advance sysFd n w =
          { w with readSoFar := w.readSoFar + min (w.request - w.readSoFar) n } := if_pos hw
      rw [hnew] at hdone
      have hdone : w.readSoFar + min (w.request - w.readSoFar) n = w.request := hdone
      omega
    · cases hdone
  intro hno
  obtain ⟨fd, id', p', hpend', hkind', hp', -, hlt⟩ := hno (advance sysFd n w) (by
    refine List.mem_filter.mpr ⟨List.mem_map_of_mem hmem, ?_⟩
    rw [advance_pid, decide_eq_true_eq]
    exact hleft)
  rw [advance_pid] at hpend'
  have hpend' : s.pending w.pid = some (fd, _) := hpend'
  rw [hpend] at hpend'
  obtain rfl : p.readFd = fd := by simpa using hpend'
  have hid : some (FileKind.pipe id .read) = some (.pipe id' .read) := hreadKind.symm.trans hkind'
  obtain rfl : id = id' := by simpa using hid
  have hpp := (FileTable.Pipes.getElem?_modifyPipe hp).symm.trans hp'
  rw [Option.some.injEq] at hpp
  subst hpp
  have hlt : b.size < b.capacity := hlt
  rw [hb.1] at hlt
  omega

lemma Inv.writePipe (h : s.Inv) (hkind : s.vfs.kindAt sysFd = some (.pipe id .write))
    (hp : s.vfs.pipes[id]? = some p) (hread : p.pipe.readOpen = true)
    (hflat : p.pipe.buf.beg + p.pipe.buf.size ≤ p.pipe.buf.capacity)
    (hn : n = min bytes.length (p.pipe.buf.capacity - p.pipe.buf.size))
    (hb : CircularBuffer.Appended bytes n p.pipe.buf b) :
    Moves pid s (s.WritesRight sysFd bytes.length) (if 0 < n then do
        let s ← (s.setBuf id p b).wakeUpReadWaitingProcesses sysFd p.readFd n
        .ok ((n : ℤ), s)
      else .ok ((n : ℤ), s.setBuf id p b)) := by
  obtain ⟨hbounds, hcap⟩ := h.pipes.buf id p hp
  have hle := hbounds.size_le
  obtain ⟨p', hp', hfd, hopen⟩ := h.pipes.writeEnd sysFd id hkind
  obtain rfl : p = p' := by simpa [hp] using hp'
  have hsize : b.size = p.pipe.buf.size + n := hb.2.2.1
  split_ifs with hpos
  · have hreadKind := h.pipes.readOpen id p hp hread
    obtain ⟨g, hg, hgk⟩ := Option.map_eq_some_iff.mp hreadKind
    have hwait : (s.setBuf id p b).vfs.shouldWaitForDataOnRead g.kind = .ok true := by
      have hpipe : (s.setBuf id p b).vfs.pipes[id]? = some _ := FileTable.Pipes.getElem?_modifyPipe hp
      simp only [hgk, FileTable.shouldWaitForDataOnRead, hpipe]
      exact congrArg Except.ok hopen
    rw [wake_spec (s := s.setBuf id p b) (b := true) h.waits.nodup hg hwait]
    exact .ok (show _ = Except.ok (_, (s.setBuf id p b).wakeAfter sysFd n) from rfl) rfl (fun _ _ => rfl)
      (fun hright => h.written hkind hp hread hflat hn hb hright)
      fun hwrong => h.written_deadlock hkind hp hn hb hwrong
  · refine .ok rfl rfl (fun _ _ => rfl) (fun _ => ?_) ?_
    · exact h.shrink hp (hb.inBounds hbounds (by omega)) (hb.1.trans hcap) (by omega)
    · intro hwrong
      refine absurd ?_ hwrong
      intro p' hp' _ _ hfill w hmem hw
      have hpipeAt : s.pipeAt .write sysFd = some p := by simp [pipeAt, hkind, hp]
      obtain rfl : p = p' := by simpa [hpipeAt] using hp'
      -- the pipe is full, so nobody waits for it
      have hcount := ((h.waits.entry w hmem).eq_of_writeFd h.pipes hp hopen (hw.trans hfd.symm)).2.2
      have := hcount.1
      omega

lemma Inv.vfsWrite (h : s.Inv) (hholds : ∃ i, s.sysFdAt (pid, i) = some sysFd) (bytes : List UInt8) :
    Moves pid s (s.WritesRight sysFd bytes.length) (s.vfsWrite sysFd bytes) := by
  obtain ⟨i, hi⟩ := hholds
  obtain ⟨f, hf⟩ := Option.isSome_iff_exists.mp (h.files.opened _ _ hi)
  have hkindAt : s.vfs.kindAt sysFd = some f.kind := by simp [FileTable.kindAt, hf]
  have hother : s.pipeAt .write sysFd = none → s.WritesRight sysFd bytes.length := by
    intro hnone p hp
    rw [hnone] at hp
    cases hp
  unfold Descriptors.vfsWrite
  rw [hf]
  rcases hk : f.kind with _ | _ | ⟨id, _ | _⟩
  · rw [hk] at hkindAt
    simp only [hk]
    exact .unchanged h (hother (by simp [pipeAt, hkindAt])) _
  · rw [hk] at hkindAt
    simp only [hk]
    exact .unchanged h (hother (by simp [pipeAt, hkindAt])) _
  · rw [hk] at hkindAt
    obtain ⟨p, hp, -, -⟩ := h.pipes.readEnd sysFd id hkindAt
    have hpipe : s.setBuf id p p.pipe.buf = s := setBuf_self hp
    have hmoves : Moves pid s (s.WritesRight sysFd bytes.length)
        (.ok (-Errno.einval.code, s.setBuf id p p.pipe.buf)) := by
      rw [hpipe]
      exact .unchanged h (hother (by simp [pipeAt, hkindAt])) _
    simp only [hk, hp, Pipe.write, bind, Except.bind]
    exact hmoves
  · rw [hk] at hkindAt
    obtain ⟨p, hp, -, -⟩ := h.pipes.writeEnd sysFd id hkindAt
    have hpipeAt : s.pipeAt .write sysFd = some p := by simp [pipeAt, hkindAt, hp]
    have hbounds := (h.pipes.buf id p hp).1
    simp only [hk, hp, bind, Except.bind]
    rcases hread : p.pipe.readOpen with _ | _
    · have hmoves : Moves pid s (s.WritesRight sysFd bytes.length)
          (.ok (-Errno.epipe.code, s.setBuf id p p.pipe.buf)) := by
        rw [setBuf_self hp]
        refine .unchanged h ?_ _
        intro p' hp' hread'
        obtain rfl : p = p' := by simpa [hpipeAt] using hp'
        rw [hread] at hread'
        cases hread'
      simp only [Pipe.write, reduceCtorEq, if_false, hread, Bool.not_false, if_true]
      exact hmoves
    · by_cases hflat : p.pipe.buf.beg + p.pipe.buf.size ≤ p.pipe.buf.capacity
      · obtain ⟨b, hb, happ⟩ := Pipe.write_spec bytes hbounds hread hflat
        have hfd : (s.setBuf id p b).vfs.getReadFd sysFd (.pipe id .write) = some p.readFd := by
          have hpipe : (s.setBuf id p b).vfs.pipes[id]? = some _ :=
            FileTable.Pipes.getElem?_modifyPipe hp
          simp [FileTable.getReadFd, hpipe, hread]
        rw [hb]
        set n := min bytes.length (p.pipe.buf.capacity - p.pipe.buf.size) with hn
        simp only [setBuf] at hfd
        simp only [hfd]
        exact h.writePipe hkindAt hp hread hflat hn happ
      · rw [Pipe.write_wrapped hbounds hread (Nat.not_le.mp hflat)]
        refine Moves.fault .outOfBounds ?_
        intro p' hp' _ hflat'
        obtain rfl : p = p' := by simpa [hpipeAt] using hp'
        exact absurd hflat' hflat

end Written

/-! ## Runs -/

/-- What a step leaves to the next one, and whom it wakes. -/
structure Carries (s s' : Descriptors) : Prop where
  between : s'.Between
  woken : Woken s s'

/-- A step from a state in which it may leave somebody waiting on a full pipe. -/
structure Outcome (s : Descriptors) (cond : Prop) (r : Except Fault Descriptors) : Prop where
  carries : cond → ∀ s', r = .ok s' → Carries s s'
  deadlock : ¬ cond → ∃ s', r = .ok s' ∧ ¬ s'.NoDeadlock

lemma Steps.outcome {c : Prop} {r : Except Fault Descriptors} (h : s.Between) (hr : Steps s c r) :
    Outcome s True r := by
  refine ⟨?_, fun hc => absurd trivial hc⟩
  intro _ s' hs'
  have hb := hr.between s' hs'
  exact ⟨hb, h.inv.woken hb.inv fun q _ => by rw [hr.pending s' hs']⟩

lemma Moves.outcome {cond : Prop} {r : Except Fault (α × Descriptors)} (h : s.Between)
    (hready : pid ∈ s.ready) (hr : Moves pid s cond r) : Outcome s cond (r.map Prod.snd) := by
  constructor
  · intro hcond s' hs'
    obtain ⟨⟨a, s'⟩, ha, rfl⟩ := map_eq_ok.mp hs'
    have hinv := hr.inv hcond a s' ha
    refine ⟨⟨hinv, ?_⟩, h.inv.woken hinv ?_⟩
    · rw [hr.procs a s' ha]
      exact h.vacant
    · intro q hq
      refine hr.pending a s' ha q ?_
      rintro rfl
      exact h.inv.waits.notReady q hq hready
  · intro hcond
    obtain ⟨a, s', ha, hdead⟩ := hr.deadlock hcond
    exact ⟨s', map_eq_ok.mpr ⟨_, ha, rfl⟩, hdead⟩

lemma openSysFd_holds {fd : ℤ} (h : s.openSysFd pid fd = some sysFd) :
    ∃ i, s.sysFdAt (pid, i) = some sysFd := by
  unfold openSysFd at h
  split_ifs at h
  exact ⟨_, h⟩

lemma Inv.read (h : s.Inv) (hready : pid ∈ s.ready) (fd : ℤ) (n : ℕ) :
    Moves pid s (s.LeavesRoom (.read pid fd n)) (s.read pid fd n) := by
  have heq : s.procToSysFd pid fd = .ok (s.openSysFd pid fd) := h.procToSysFd pid fd
  simp only [LeavesRoom, Descriptors.read, heq, bind, Except.bind]
  rcases hfd : s.openSysFd pid fd with _ | sysFd
  · exact .unchanged h nofun _
  · simp only [Option.mem_some_iff, forall_eq']
    exact h.vfsRead hready (openSysFd_holds hfd) n

lemma Inv.write (h : s.Inv) (fd : ℤ) (bytes : List UInt8) :
    Moves pid s (s.LeavesRoom (.write pid fd bytes)) (s.write pid fd bytes) := by
  have heq : s.procToSysFd pid fd = .ok (s.openSysFd pid fd) := h.procToSysFd pid fd
  simp only [LeavesRoom, Descriptors.write, heq, bind, Except.bind]
  rcases hfd : s.openSysFd pid fd with _ | sysFd
  · exact .unchanged h nofun _
  · simp only [Option.mem_some_iff, forall_eq']
    exact h.vfsWrite (openSysFd_holds hfd) bytes

lemma Inv.leaveRead (h : s.Inv) (hready : pid ∈ s.ready) :
    Inv { s with pending := Function.update s.pending pid none } := by
  have hw := h.waits
  have hpend : ∀ {q x}, Function.update s.pending pid none q = some x → s.pending q = some x := by
    intro q x hx
    rcases eq_or_ne q pid with rfl | hq
    · simp at hx
    · rwa [Function.update_of_ne hq] at hx
  refine ⟨h.files.congr (fun _ _ => rfl) rfl, h.pipes, hw.nodup, hw.ready, hw.live, hw.flag, hw.notReady,
    fun q x hx => hw.holds q x (hpend hx), fun q x hx => hw.pending q x (hpend hx), ?_⟩
  intro w hmem
  obtain ⟨fd, id, p, hp, hrest⟩ := hw.entry w hmem
  have hnot := hw.notReady w.pid (List.mem_map_of_mem hmem)
  have hne : w.pid ≠ pid := by
    rintro rfl
    exact hnot hready
  exact ⟨fd, id, p, (Function.update_of_ne hne _ _).trans hp, hrest⟩

lemma Inv.resumeRead (h : s.Inv) (hready : pid ∈ s.ready) :
    Moves pid s (s.LeavesRoom (.resume pid)) (s.resumeRead pid) := by
  simp only [LeavesRoom, Descriptors.resumeRead]
  rcases hpend : s.pending pid with _ | ⟨sysFd, n⟩
  · exact .unchanged h nofun _
  · simp only [Option.mem_some_iff, forall_eq']
    have hmoves := (h.leaveRead hready).vfsRead hready (h.waits.holds pid _ hpend) n
    refine ⟨hmoves.procs, ?_, hmoves.inv, hmoves.deadlock⟩
    intro r s' hr q hq
    rw [hmoves.pending r s' hr q hq]
    exact Function.update_of_ne hq _ _

lemma Between.outcome {op : FdOp} (h : s.Between) (hallowed : s.Allowed op) :
    Outcome s (s.LeavesRoom op) (s.step op) := by
  cases op with
  | read pid fd n => exact (h.inv.read hallowed.2.2.1 fd n).outcome h hallowed.2.2.1
  | write pid fd bytes => exact (h.inv.write fd bytes).outcome h hallowed.2.2.1
  | resume pid => exact (h.inv.resumeRead hallowed.2.2.1).outcome h hallowed.2.2.1
  | _ => exact (h.steps hallowed trivial).outcome h

lemma Between.waits_iff : ∀ {ops : List FdOp} {s : Descriptors}, s.Between →
    EachCall step Allowed ops s →
    (EachCall step WaitsRightAfter ops s ↔ EachCall step LeavesRoom ops s)
  | [], s, _, _ => Iff.rfl
  | op :: ops, s, h, ⟨hallowed, hrest⟩ => by
      have hout := h.outcome hallowed
      by_cases hcond : s.LeavesRoom op
      · rcases hok : s.step op with e | s'
        · simp [EachCall, WaitsRightAfter, hok, hcond]
        · obtain ⟨hb, hwoken⟩ := hout.carries hcond s' hok
          have hafter : s.WaitsRightAfter op := by
            rw [WaitsRightAfter, hok]
            exact ⟨hb.inv.noDeadlock, hwoken⟩
          rw [hok] at hrest
          simp only [EachCall, hok, hcond, hafter, true_and]
          exact waits_iff hb hrest
      · obtain ⟨s', hok, hdead⟩ := hout.deadlock hcond
        have hafter : ¬ s.WaitsRightAfter op := by
          rw [WaitsRightAfter, hok]
          exact fun hright => hdead hright.1
        simp only [EachCall, hcond, hafter, false_and]

instance decidableReadsRight (s : Descriptors) (sysFd n : ℕ) : Decidable (s.ReadsRight sysFd n) :=
  inferInstanceAs (Decidable (n = 0 → ∀ p ∈ s.pipeAt .read sysFd, p.pipe.writeOpen = true →
    p.pipe.buf.size < p.pipe.buf.capacity))

instance decidableWritesRight (s : Descriptors) (sysFd n : ℕ) : Decidable (s.WritesRight sysFd n) :=
  inferInstanceAs (Decidable (∀ p ∈ s.pipeAt .write sysFd, p.pipe.readOpen = true →
    p.pipe.buf.beg + p.pipe.buf.size ≤ p.pipe.buf.capacity →
    p.pipe.buf.capacity ≤ p.pipe.buf.size + n →
    ∀ w ∈ s.waiting, w.fd = sysFd →
      w.request ≤ w.readSoFar + (p.pipe.buf.capacity - p.pipe.buf.size)))

instance decidableLeavesRoom (s : Descriptors) : DecidablePred s.LeavesRoom
  | .read pid fd n =>
      inferInstanceAs (Decidable (∀ sysFd ∈ s.openSysFd pid fd, s.ReadsRight sysFd n))
  | .write pid fd bytes =>
      inferInstanceAs (Decidable (∀ sysFd ∈ s.openSysFd pid fd, s.WritesRight sysFd bytes.length))
  | .resume pid => inferInstanceAs (Decidable (∀ x ∈ s.pending pid, s.ReadsRight x.1 x.2))
  | .spawn .. | .openFile .. | .close .. | .dup .. | .dup2 .. | .pipe .. | .setCloExec .. | .fork ..
  | .exec .. | .execve .. | .exit .. => inferInstanceAs (Decidable True)

end Descriptors

end BrebOS
