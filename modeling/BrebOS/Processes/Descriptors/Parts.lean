import BrebOS.Processes.Descriptors.Waits

/-!
# The parts of calls on descriptors

The parts every call is made of keep `Inv`, and change the table of one process only.  What they make
of that table is the last part of each lemma.
-/

namespace BrebOS

/-- The table after `release_fd`. -/
def FdTable.release (t : FdTable) (i : ℕ) : FdTable :=
  { t.setSlot i none with lowestFreeFd := min t.lowestFreeFd i }

namespace FdTable

variable {t : FdTable} {i : ℕ} {d : FileDescriptor}

/-- `lowest_free_fd` is the least descriptor that is not open, or `MAX_FD_PER_PROCESS`. -/
structure Lowest (t : FdTable) : Prop where
  le : t.lowestFreeFd ≤ maxFdPerProcess
  used : ∀ i < t.lowestFreeFd, (t.slots i).isSome
  free : t.lowestFreeFd < maxFdPerProcess → t.slots t.lowestFreeFd = none

lemma nextFree_spec (t : FdTable) (hi : i ≤ maxFdPerProcess) :
    i ≤ t.nextFree i ∧ t.nextFree i ≤ maxFdPerProcess ∧
      (∀ j, i ≤ j → j < t.nextFree i → (t.slots j).isSome) ∧
      (t.nextFree i < maxFdPerProcess → t.slots (t.nextFree i) = none) := by
  obtain ⟨hle, hmax, hused, hfree⟩ :=
    skipWhile_spec (fun j => (t.slots j).isSome) (maxFdPerProcess - i) i
  refine ⟨hle, ?_, hused, ?_⟩
  · simp only [nextFree]
    omega
  · intro hlt
    have := hfree (by simp only [nextFree] at hlt; omega)
    simpa [nextFree] using this

/-- The cursor is at a free slot, or past the last one. -/
def CursorFree (t : FdTable) : Prop :=
  t.lowestFreeFd ≤ maxFdPerProcess ∧
    (t.lowestFreeFd < maxFdPerProcess → t.slots t.lowestFreeFd = none)

lemma Lowest.cursorFree (h : t.Lowest) : t.CursorFree := ⟨h.le, h.free⟩

/-- The faults of `get_free_fd`. -/
def CursorFault (e : Fault) : Prop := e = notFree ∨ e = .outOfBounds

lemma getFreeFd_cases (t : FdTable) :
    (∃ e, t.getFreeFd = .error e ∧ ¬ t.CursorFree ∧ CursorFault e) ∨
      (t.lowestFreeFd = maxFdPerProcess ∧ t.getFreeFd = .ok (none, t)) ∨
      (t.lowestFreeFd < maxFdPerProcess ∧ t.slots t.lowestFreeFd = none ∧
        t.getFreeFd = .ok (some t.lowestFreeFd,
          { t with lowestFreeFd := t.nextFree (t.lowestFreeFd + 1) })) := by
  unfold getFreeFd
  split_ifs with hfull hout hused
  · exact Or.inr (Or.inl ⟨hfull, rfl⟩)
  · exact Or.inl ⟨_, rfl, fun h => by have := h.1; omega, Or.inr rfl⟩
  · refine Or.inl ⟨_, rfl, fun h => ?_, Or.inl rfl⟩
    simp [h.2 (by omega)] at hused
  · exact Or.inr (Or.inr ⟨by omega, by simpa using hused, rfl⟩)

lemma cursorFree_reserved (hlt : t.lowestFreeFd < maxFdPerProcess) :
    CursorFree { t with lowestFreeFd := t.nextFree (t.lowestFreeFd + 1) } := by
  obtain ⟨-, hmax, -, hfree⟩ := t.nextFree_spec (i := t.lowestFreeFd + 1) hlt
  exact ⟨hmax, hfree⟩

lemma Lowest.reserve (h : t.Lowest) (hlt : t.lowestFreeFd < maxFdPerProcess) :
    (FdTable.setSlot t.lowestFreeFd (some d)
      { t with lowestFreeFd := t.nextFree (t.lowestFreeFd + 1) }).Lowest := by
  obtain ⟨hle, hmax, hused, hfree⟩ := t.nextFree_spec (i := t.lowestFreeFd + 1) hlt
  refine ⟨hmax, ?_, ?_⟩
  · intro j hj
    rcases Nat.lt_trichotomy j t.lowestFreeFd with hlt' | rfl | hgt
    · simpa [setSlot, hlt'.ne] using h.used j hlt'
    · simp [setSlot]
    · simpa [setSlot, hgt.ne'] using hused j hgt hj
  · intro hlt'
    show Function.update t.slots t.lowestFreeFd (some d) (t.nextFree (t.lowestFreeFd + 1)) = none
    rw [Function.update_of_ne (by omega)]
    exact hfree hlt'

lemma Lowest.fill (h : t.Lowest) : Lowest { t.setSlot i (some d) with
    lowestFreeFd := (t.setSlot i (some d)).nextFree (t.setSlot i (some d)).lowestFreeFd } := by
  obtain ⟨hle, hmax, hused, hfree⟩ :=
    (t.setSlot i (some d)).nextFree_spec (i := t.lowestFreeFd) h.le
  refine ⟨hmax, ?_, hfree⟩
  intro j hj
  rcases Nat.lt_or_ge j t.lowestFreeFd with hlt | hge
  · rcases eq_or_ne j i with rfl | hji
    · simp [setSlot]
    · simpa [setSlot, hji] using h.used j hlt
  · exact hused j hge hj

lemma Lowest.release (h : t.Lowest) (hi : i < maxFdPerProcess) : (t.release i).Lowest := by
  refine ⟨?_, ?_, ?_⟩
  · show min t.lowestFreeFd i ≤ _
    omega
  · intro j hj
    have hj : j < min t.lowestFreeFd i := hj
    simpa [FdTable.release, setSlot, show j ≠ i by omega] using h.used j (by omega)
  · intro _
    show Function.update t.slots i none (min t.lowestFreeFd i) = none
    rcases eq_or_ne (min t.lowestFreeFd i) i with heq | hne
    · rw [heq, Function.update_self]
    · rw [Function.update_of_ne hne, show min t.lowestFreeFd i = t.lowestFreeFd by omega]
      exact h.free (by omega)

lemma release_reserved (hslot : t.slots t.lowestFreeFd = none)
    (hlt : t.lowestFreeFd < maxFdPerProcess) :
    FdTable.release { t with lowestFreeFd := t.nextFree (t.lowestFreeFd + 1) } t.lowestFreeFd = t := by
  have hle := (t.nextFree_spec (i := t.lowestFreeFd + 1) hlt).1
  rcases t with ⟨slots, low⟩
  simp only [FdTable.release, setSlot, FdTable.mk.injEq]
  refine ⟨Function.update_eq_self_iff.mpr hslot.symm, ?_⟩
  exact Nat.min_eq_right (le_trans (Nat.le_succ _) hle)

lemma release_release_reserved {m : ℕ} (hslot : t.slots t.lowestFreeFd = none)
    (hi : t.slots i = none) (hlt : t.lowestFreeFd < i) (him : i ≤ m) :
    (FdTable.release { t with lowestFreeFd := m } t.lowestFreeFd).release i = t := by
  rcases t with ⟨slots, low⟩
  simp only [FdTable.release, setSlot, FdTable.mk.injEq]
  have hlt : low < i := hlt
  have hlow : Function.update slots low none = slots := Function.update_eq_self_iff.mpr hslot.symm
  refine ⟨?_, by omega⟩
  rw [hlow]
  exact Function.update_eq_self_iff.mpr hi.symm

lemma Lowest.reserve_two {d' : FileDescriptor} (h : t.Lowest)
    (hi : i = t.nextFree (t.lowestFreeFd + 1)) (hlt : t.lowestFreeFd < maxFdPerProcess)
    (hlt' : i < maxFdPerProcess) :
    ((FdTable.setSlot t.lowestFreeFd (some d)
      { t with lowestFreeFd := t.nextFree (i + 1) }).setSlot i (some d')).Lowest := by
  obtain ⟨hle, -, hused, -⟩ := t.nextFree_spec (i := t.lowestFreeFd + 1) hlt
  obtain ⟨hle', hmax', hused', hfree'⟩ := t.nextFree_spec (i := i + 1) hlt'
  rw [← hi] at hle hused
  refine ⟨hmax', ?_, ?_⟩
  · intro j hj
    have hj : j < t.nextFree (i + 1) := hj
    rcases eq_or_ne j i with rfl | hji
    · simp [setSlot]
    rcases eq_or_ne j t.lowestFreeFd with rfl | hjl
    · simp [setSlot, hji]
    simp only [setSlot, Function.update_of_ne hji, Function.update_of_ne hjl]
    rcases Nat.lt_or_gt_of_ne hjl with hlt | hgt
    · exact h.used j hlt
    rcases Nat.lt_or_gt_of_ne hji with hlt | hgt'
    · exact hused j hgt hlt
    · exact hused' j hgt' hj
  · intro hlt
    show Function.update (Function.update t.slots t.lowestFreeFd (some d)) i (some d')
      (t.nextFree (i + 1)) = none
    rw [Function.update_of_ne (by omega), Function.update_of_ne (by omega)]
    exact hfree' hlt

end FdTable

namespace Descriptors

/-- The reference counts, the ends of the pipes and the processes that wait. -/
structure Inv (s : Descriptors) : Prop where
  files : s.Files
  pipes : s.vfs.Pipes
  waits : s.Waits

/-- Nobody starts or ends a read.  Processes may have been resumed. -/
structure Quiet (s s' : Descriptors) : Prop where
  pending : s'.pending = s.pending
  known : ∀ q, q ∈ s'.ready ∨ q ∈ s'.waitingPids ↔ q ∈ s.ready ∨ q ∈ s.waitingPids

/-- The table of one process changes to `t`, and nothing else of the processes. -/
structure Edits (pid : ℕ) (t : FdTable) (s s' : Descriptors) : Prop where
  procs : s'.procs = Function.update s.procs pid (some t)
  quiet : Quiet s s'

variable {s s' : Descriptors} {pid q i fd : ℕ} {t : FdTable} {d : FileDescriptor}

lemma Quiet.refl (s : Descriptors) : Quiet s s := ⟨rfl, fun _ => Iff.rfl⟩

lemma Quiet.trans {s'' : Descriptors} (h : Quiet s s') (h' : Quiet s' s'') : Quiet s s'' :=
  ⟨h'.pending.trans h.pending, fun q => (h'.known q).trans (h.known q)⟩

namespace Edits

lemma pending (h : Edits pid t s s') : s'.pending = s.pending := h.quiet.pending

lemma table (h : Edits pid t s s') : s'.table pid = t := by simp [Descriptors.table, h.procs]

lemma table_ne (h : Edits pid t s s') (hq : q ≠ pid) : s'.table q = s.table q := by
  simp [Descriptors.table, h.procs, hq]

lemma trans {s'' : Descriptors} {t' : FdTable} (h : Edits pid t s s') (h' : Edits pid t' s' s'') :
    Edits pid t' s s'' :=
  ⟨by rw [h'.procs, h.procs, Function.update_idem], h.quiet.trans h'.quiet⟩

end Edits

/-! ## An entry that nobody needs any more -/

lemma WaitsFor.eq_of_writeFd {w : ProcWaitingForRead} {id : ℕ} {p : PipeFds} (hv : s.vfs.Pipes)
    (hw : s.WaitsFor w) (hp : s.vfs.pipes[id]? = some p) (hopen : p.pipe.writeOpen = true)
    (hfd : w.fd = p.writeFd) : s.pending w.pid = some (p.readFd, w.request) ∧
      s.vfs.kindAt p.readFd = some (.pipe id .read) ∧ w.Counted p.pipe.buf.size := by
  obtain ⟨fd, id', p', hpend, hkind, hp', hopen', hfd', hcount⟩ := hw
  have hwrite := hv.writeOpen id p hp hopen
  have hwrite' := hv.writeOpen id' p' hp' hopen'
  rw [hfd', hfd, hwrite, Option.some.injEq, FileKind.pipe.injEq] at hwrite'
  obtain ⟨rfl, -⟩ := hwrite'
  obtain rfl : p = p' := by simpa [hp] using hp'
  obtain ⟨p', hp', hread, -⟩ := hv.readEnd fd id hkind
  obtain rfl : p = p' := by simpa [hp] using hp'
  subst hread
  exact ⟨hpend, hkind, hcount⟩

lemma Inv.pending_ne (h : s.Inv) {x : ℕ × ℕ} (hx : s.pending q = some x) (hzero : s.refs fd = 0) :
    x.1 ≠ fd := by
  rintro rfl
  obtain ⟨i, hi⟩ := h.waits.holds q x hx
  have := refs_pos (h.files.mem_allSlots hi) hi
  omega

lemma files_remove {v : FileTable} {f : FileInterface} :
    (v.remove fd f).files = Function.update v.files fd none := by
  show ((v.destroy f.kind).setFile fd none).files = _
  rcases f with ⟨_ | _ | ⟨id, _ | _⟩, rc⟩ <;> rfl

lemma WaitsFor.remove {w : ProcWaitingForRead} {f : FileInterface} (hw : s.WaitsFor w)
    (hne : ∀ x, s.pending w.pid = some x → x.1 ≠ fd)
    (hpipe : ∀ id e, f.kind = .pipe id e → ∀ x, s.pending w.pid = some x →
      s.vfs.kindAt x.1 ≠ some (.pipe id .read)) :
    WaitsFor { s with vfs := s.vfs.remove fd f } w := by
  obtain ⟨fd', id, p, hpend, hkind, hp, hrest⟩ := hw
  refine ⟨fd', id, p, hpend, ?_, ?_, hrest⟩
  · show (s.vfs.remove fd f).kindAt fd' = _
    rw [FileTable.Pipes.kindAt_remove, Function.update_of_ne (hne _ hpend)]
    exact hkind
  · show (s.vfs.remove fd f).pipes[id]? = _
    rcases hk : f.kind with _ | _ | ⟨id', e⟩
    · simpa [FileTable.remove, hk, FileTable.destroy, FileTable.setFile] using hp
    · simpa [FileTable.remove, hk, FileTable.destroy, FileTable.setFile] using hp
    · have hid : id ≠ id' := by
        rintro rfl
        exact hpipe id e hk _ hpend hkind
      cases e with
      | read =>
        simpa [FileTable.remove, hk, FileTable.destroy, FileTable.setFile, FileTable.modifyPipe,
          hid.symm] using hp
      | write =>
        simpa [FileTable.remove, hk, FileTable.destroy, FileTable.setFile, FileTable.modifyPipe,
          hid.symm] using hp

lemma Inv.closeReadEnd {id : ℕ} {f : FileInterface} (h : s.Inv) (hf : s.vfs.files fd = some f)
    (hk : f.kind = .pipe id .read) (hne : ∀ q x, s.pending q = some x → x.1 ≠ fd)
    (hquiet : (∀ id e, f.kind = .pipe id e → ∀ w ∈ s.waiting, ∀ x, s.pending w.pid = some x →
      s.vfs.kindAt x.1 ≠ some (.pipe id .read)) → Inv { s with vfs := s.vfs.remove fd f }) :
    ∃ r s', (match s.vfs.getWriteFd fd (.pipe id .read), s.vfs.getReadFd fd (.pipe id .read) with
      | some writeFd, some readFd => do
          let s ← { s with vfs := s.vfs.remove fd f }.wakeUpReadWaitingProcesses writeFd readFd 0
          .ok (0, s)
      | _, _ => .ok (0, { s with vfs := s.vfs.remove fd f })) = (.ok (r, s') : Except Fault (ℤ × _)) ∧
      s'.Inv ∧ s'.procs = s.procs ∧ Quiet s s' := by
  have hkindAt : s.vfs.kindAt fd = some (.pipe id .read) := by simp [FileTable.kindAt, hf, hk]
  obtain ⟨p, hp, rfl, -⟩ := h.pipes.readEnd fd id hkindAt
  have hinv := hquiet (by
    intro id' e hk' w hmem x hx hkind
    obtain ⟨rfl, -⟩ : id = id' ∧ _ := by simpa [hk] using hk'
    obtain ⟨p', hp', hfd, -⟩ := h.pipes.readEnd x.1 id hkind
    obtain rfl : p = p' := by simpa [hp] using hp'
    exact hne _ x hx hfd.symm)
  rcases hopen : p.pipe.writeOpen with _ | _
  · have hnone : s.vfs.getWriteFd p.readFd (.pipe id .read) = none := by
      simp [FileTable.getWriteFd, hp, hopen]
    rw [hnone]
    exact ⟨0, _, rfl, hinv, rfl, ⟨rfl, fun _ => Iff.rfl⟩⟩
  · have hsome : s.vfs.getWriteFd p.readFd (.pipe id .read) = some p.writeFd := by
      simp [FileTable.getWriteFd, hp, hopen]
    have hnobody : ∀ w ∈ s.waiting, w.fd ≠ p.writeFd := by
      intro w hmem hfd
      have hpend := ((h.waits.entry w hmem).eq_of_writeFd h.pipes hp hopen hfd).1
      exact hne _ _ hpend rfl
    rw [hsome]
    refine ⟨0, _, ?_, hinv, rfl, ⟨rfl, fun _ => Iff.rfl⟩⟩
    show (_ >>= _) = _
    rw [wake_of_forall_ne (s := { s with vfs := s.vfs.remove p.readFd f }) hnobody]
    rfl

lemma Inv.closeWriteEnd {id : ℕ} {f : FileInterface} (h : s.Inv) (hf : s.vfs.files fd = some f)
    (hk : f.kind = .pipe id .write) (hne : ∀ q x, s.pending q = some x → x.1 ≠ fd)
    (hfiles : Files { s with vfs := s.vfs.remove fd f }) (hpipes : (s.vfs.remove fd f).Pipes)
    (hquiet : (∀ id e, f.kind = .pipe id e → ∀ w ∈ s.waiting, ∀ x, s.pending w.pid = some x →
      s.vfs.kindAt x.1 ≠ some (.pipe id .read)) → Inv { s with vfs := s.vfs.remove fd f }) :
    ∃ r s', (match s.vfs.getWriteFd fd (.pipe id .write), s.vfs.getReadFd fd (.pipe id .write) with
      | some writeFd, some readFd => do
          let s ← { s with vfs := s.vfs.remove fd f }.wakeUpReadWaitingProcesses writeFd readFd 0
          .ok (0, s)
      | _, _ => .ok (0, { s with vfs := s.vfs.remove fd f })) = (.ok (r, s') : Except Fault (ℤ × _)) ∧
      s'.Inv ∧ s'.procs = s.procs ∧ Quiet s s' := by
  have hkindAt : s.vfs.kindAt fd = some (.pipe id .write) := by simp [FileTable.kindAt, hf, hk]
  obtain ⟨p, hp, rfl, hwopen⟩ := h.pipes.writeEnd fd id hkindAt
  rcases hopen : p.pipe.readOpen with _ | _
  · have hnone : s.vfs.getReadFd p.writeFd (.pipe id .write) = none := by
      simp [FileTable.getReadFd, hp, hopen]
    have hinv := hquiet (by
      intro id' e hk' w hmem x hx hkind
      obtain ⟨rfl, -⟩ : id = id' ∧ _ := by simpa [hk] using hk'
      obtain ⟨p', hp', -, hopen'⟩ := h.pipes.readEnd x.1 id hkind
      obtain rfl : p = p' := by simpa [hp] using hp'
      simp [hopen] at hopen')
    rw [hnone]
    exact ⟨0, _, rfl, hinv, rfl, ⟨rfl, fun _ => Iff.rfl⟩⟩
  · have hsome : s.vfs.getReadFd p.writeFd (.pipe id .write) = some p.readFd := by
      simp [FileTable.getReadFd, hp, hopen]
    have hread : s.vfs.kindAt p.readFd = some (.pipe id .read) := h.pipes.readOpen id p hp hopen
    have hfds : p.readFd ≠ p.writeFd := by
      intro heq
      rw [heq, hkindAt] at hread
      cases hread
    obtain ⟨g, hg, hgk⟩ := Option.map_eq_some_iff.mp hread
    have hg₁ : (s.vfs.remove p.writeFd f).files p.readFd = some g := by
      rw [files_remove, Function.update_of_ne hfds, hg]
    have hshould : (s.vfs.remove p.writeFd f).shouldWaitForDataOnRead g.kind = .ok false := by
      have hp₁ : (s.vfs.remove p.writeFd f).pipes[id]? =
          some { p with pipe := { p.pipe with writeOpen := false } } := by
        simp [FileTable.remove, hk, FileTable.destroy, FileTable.setFile, FileTable.modifyPipe, hp]
      rw [hgk]
      simp [FileTable.shouldWaitForDataOnRead, hp₁, Pipe.shouldWaitForDataOnRead]
    have hentry : ∀ w ∈ s.waiting, ¬ Resumed p.writeFd false (advance p.writeFd 0 w) →
        WaitsFor { s with vfs := s.vfs.remove p.writeFd f } (advance p.writeFd 0 w) := by
      intro w hmem hnot
      have hfd : w.fd ≠ p.writeFd := by
        intro heq
        exact hnot ⟨advance_fd.trans heq, Or.inr rfl⟩
      rw [advance_of_ne hfd]
      have hw := h.waits.entry w hmem
      refine hw.remove (fun x hx => hne _ x hx) ?_
      intro id' e hk' x hx hkind
      obtain ⟨rfl, -⟩ : id = id' ∧ _ := by simpa [hk] using hk'
      obtain ⟨fd', id', p', hpend, hkind', hp', -, hfd', -⟩ := hw
      obtain rfl : x = (fd', w.request) := by simpa [hpend] using hx.symm
      obtain rfl : id = id' := by simpa [hkind] using hkind'
      obtain rfl : p = p' := by simpa [hp] using hp'
      exact hfd hfd'.symm
    rw [hsome]
    show ∃ r s', (Descriptors.wakeUpReadWaitingProcesses _ _ _ _ >>= _) = _ ∧ _
    rw [wake_spec (s := { s with vfs := s.vfs.remove p.writeFd f }) h.waits.nodup hg₁ hshould]
    refine ⟨0, _, rfl, ⟨?_, hpipes, ?_⟩, rfl, rfl, ?_⟩
    · exact hfiles.congr (fun _ _ => rfl) rfl
    · exact h.waits.wake ⟨rfl, rfl, rfl, rfl⟩ rfl hentry
    · exact known_wake (s := { s with vfs := s.vfs.remove p.writeFd f })

lemma Inv.vfsClose (h : s.Inv) (fd : ℕ) : ∃ r s', s.vfsClose fd = .ok (r, s') ∧ s'.Inv ∧
    s'.procs = s.procs ∧ Quiet s s' := by
  unfold Descriptors.vfsClose
  rcases hf : s.vfs.files fd with _ | f
  · exact ⟨_, s, rfl, h, rfl, Quiet.refl s⟩
  by_cases hrc : f.rc = 0
  · have hzero : s.refs fd = 0 := by
      have := h.files.rc fd f hf
      omega
    have hkindAt : s.vfs.kindAt fd = some f.kind := by simp [FileTable.kindAt, hf]
    set s₁ : Descriptors := { s with vfs := s.vfs.remove fd f } with hs₁
    have hfiles : s₁.Files := h.files.remove hzero (fun _ _ => rfl) files_remove
    have hpipes : s₁.vfs.Pipes := h.pipes.remove hkindAt
    have hne : ∀ q x, s.pending q = some x → x.1 ≠ fd := fun q x hx => h.pending_ne hx hzero
    simp only [hrc, if_true]
    -- without a wake-up, nobody may wait for the pipe of the file
    have hquiet : (∀ id e, f.kind = .pipe id e → ∀ w ∈ s.waiting, ∀ x, s.pending w.pid = some x →
        s.vfs.kindAt x.1 ≠ some (.pipe id .read)) → s₁.Inv := by
      intro hnobody
      refine ⟨hfiles, hpipes, h.waits.congr rfl rfl rfl rfl h.waits.live (fun _ _ _ => rfl) ?_⟩
      intro w hmem hw
      exact hw.remove (fun x hx => hne _ x hx) fun id e hk x hx => hnobody id e hk w hmem x hx
    rcases hk : f.kind with _ | _ | ⟨id, e⟩
    · exact ⟨0, s₁, rfl, hquiet (by simp [hk]), rfl, ⟨rfl, fun _ => Iff.rfl⟩⟩
    · exact ⟨0, s₁, rfl, hquiet (by simp [hk]), rfl, ⟨rfl, fun _ => Iff.rfl⟩⟩
    · cases e with
      | read => exact h.closeReadEnd hf hk hne hquiet
      | write => exact h.closeWriteEnd hf hk hne hfiles hpipes hquiet
  · simp only [hrc, if_false]
    exact ⟨_, s, rfl, h, rfl, Quiet.refl s⟩

/-! ## One slot -/

lemma Waits.edit (h : s.Waits) (hidle : s.pending pid = none)
    (hready : s'.ready = s.ready) (hflag : s'.waitingRead = s.waitingRead)
    (hwaiting : s'.waiting = s.waiting) (he : Edits pid t s s')
    (hkind : ∀ fd id, s.vfs.kindAt fd = some (.pipe id .read) →
      s'.vfs.kindAt fd = some (.pipe id .read))
    (hpipes : ∀ (id : ℕ) (p : PipeFds), s.vfs.pipes[id]? = some p → s'.vfs.pipes[id]? = some p) :
    s'.Waits := by
  refine h.congr hready hflag hwaiting he.pending ?_ ?_ ?_
  · intro q hq
    rw [he.procs]
    rcases eq_or_ne q pid with rfl | hne
    · simp
    · rw [Function.update_of_ne hne]
      exact h.live q hq
  · intro q hq i
    have hne : q ≠ pid := by
      rintro rfl
      simp [hidle] at hq
    simp only [sysFdAt, he.table_ne hne]
  · rintro w - ⟨fd, id, p, hpend, hk, hp, hrest⟩
    exact ⟨fd, id, p, he.pending ▸ hpend, hkind fd id hk, hpipes id p hp, hrest⟩

lemma Inv.setTable (h : s.Inv) (hidle : s.pending pid = none)
    (hslots : ∀ i, t.slots i = (s.table pid).slots i) :
    (s.setTable pid t).Inv ∧ Edits pid t s (s.setTable pid t) := by
  have he : Edits pid t s (s.setTable pid t) := ⟨rfl, rfl, fun _ => Iff.rfl⟩
  refine ⟨⟨h.files.congr ?_ rfl, h.pipes,
    h.waits.edit hidle rfl rfl rfl he (fun _ _ hk => hk) fun _ _ hp => hp⟩, he⟩
  intro q i
  rcases eq_or_ne q pid with rfl | hq
  · rw [he.table, hslots]
  · rw [he.table_ne hq]

lemma Inv.install (h : s.Inv) (hidle : s.pending pid = none) (hi : (pid, i) ∈ allSlots)
    (hslot : (s.table pid).slots i = none) (hd : d.fd = i)
    (hopen : (s.vfs.files d.sysFd).isSome) :
    ∃ s', s.install pid i d = .ok s' ∧ s'.Inv ∧
      Edits pid ((s.table pid).setSlot i (some d)) s s' ∧ s'.vfs.lowestFreeFd = s.vfs.lowestFreeFd ∧
      ∀ j, (s'.vfs.files j).isSome = (s.vfs.files j).isSome := by
  obtain ⟨f, hf⟩ := Option.isSome_iff_exists.mp hopen
  set v := s.vfs.setFile d.sysFd (some { f with rc := f.rc + 1 }) with hv
  have hadd : s.vfs.addRef d.sysFd = .ok v := by rw [FileTable.addRef, hf]
  set s' : Descriptors :=
    { s with vfs := v }.setTable pid ((s.table pid).setSlot i (some d)) with hs'
  have hkind : s'.vfs.kindAt = s.vfs.kindAt := by
    show v.kindAt = _
    rw [hv, FileTable.kindAt_setFile]
    exact Function.update_eq_self_iff.mpr (by simp [FileTable.kindAt, hf])
  have he : Edits pid ((s.table pid).setSlot i (some d)) s s' := ⟨rfl, rfl, fun _ => Iff.rfl⟩
  refine ⟨s', ?_, ⟨?_, ?_, ?_⟩, he, rfl, ?_⟩
  · rw [Descriptors.install, hadd]
    rfl
  · refine h.files.fill hslot hi hd hf ?_ rfl
    intro q j
    rcases eq_or_ne q pid with rfl | hq
    · rw [he.table]
      rcases eq_or_ne j i with rfl | hj
      · simp
      · simp [hj]
    · rw [he.table_ne hq, if_neg (by simp [hq])]
  · refine h.pipes.congr ?_ rfl
    intro fd id e
    rw [hkind]
  · exact h.waits.edit hidle rfl rfl rfl he (fun fd id hk => hkind ▸ hk) fun _ _ hp => hp
  · intro j
    show (Function.update s.vfs.files d.sysFd _ j).isSome = _
    rcases eq_or_ne j d.sysFd with rfl | hj
    · simp [hf]
    · rw [Function.update_of_ne hj]

lemma Inv.releaseFd (h : s.Inv) (hidle : s.pending pid = none) (i : ℕ) :
    ∃ s', s.releaseFd pid i = .ok s' ∧ s'.Inv ∧ Edits pid ((s.table pid).release i) s s' := by
  rcases hslot : (s.table pid).slots i with _ | d
  · -- the slot was only reserved
    have hslots : ∀ j, ((s.table pid).release i).slots j = (s.table pid).slots j := by
      intro j
      rcases eq_or_ne j i with rfl | hj
      · simp [FdTable.release, FdTable.setSlot, hslot]
      · simp [FdTable.release, FdTable.setSlot, hj]
    obtain ⟨hinv, he⟩ := h.setTable hidle hslots
    refine ⟨_, ?_, hinv, he⟩
    simp only [Descriptors.releaseFd, hslot]
    rfl
  · obtain ⟨f, hf⟩ := Option.isSome_iff_exists.mp
      (h.files.opened (pid, i) d.sysFd (by simp [sysFdAt, hslot]))
    set v := s.vfs.setFile d.sysFd (some { f with rc := f.rc - 1 }) with hv
    have hdrop : s.vfs.dropRef d.sysFd = .ok v := by rw [FileTable.dropRef, hf]
    set s' : Descriptors := { s with vfs := v }.setTable pid ((s.table pid).release i) with hs'
    have hkind : s'.vfs.kindAt = s.vfs.kindAt := by
      show v.kindAt = _
      rw [hv, FileTable.kindAt_setFile]
      exact Function.update_eq_self_iff.mpr (by simp [FileTable.kindAt, hf])
    have he : Edits pid ((s.table pid).release i) s s' := ⟨rfl, rfl, fun _ => Iff.rfl⟩
    refine ⟨s', ?_, ⟨?_, ?_, ?_⟩, he⟩
    · simp only [Descriptors.releaseFd, hslot, hdrop]
      rfl
    · refine h.files.clear hslot hf ?_ rfl
      intro q j
      rcases eq_or_ne q pid with rfl | hq
      · rw [he.table]
        rcases eq_or_ne j i with rfl | hj
        · simp [FdTable.release, FdTable.setSlot]
        · simp [FdTable.release, FdTable.setSlot, hj]
      · rw [he.table_ne hq, if_neg (by simp [hq])]
    · refine h.pipes.congr ?_ rfl
      intro fd id e
      rw [hkind]
    · exact h.waits.edit hidle rfl rfl rfl he (fun fd id hk => hkind ▸ hk) fun _ _ hp => hp

lemma Inv.procToSysFd (h : s.Inv) (pid : ℕ) (fd : ℤ) :
    s.procToSysFd pid fd = .ok (if 0 ≤ fd ∧ fd < maxFdPerProcess then s.sysFdAt (pid, fd.toNat)
      else none) := by
  unfold Descriptors.procToSysFd
  split_ifs with hrange
  · rcases hslot : (s.table pid).slots fd.toNat with _ | d
    · simp [sysFdAt, hslot]
    · obtain ⟨f, hf⟩ := Option.isSome_iff_exists.mp
        (h.files.opened (pid, fd.toNat) d.sysFd (by simp [sysFdAt, hslot]))
      simp [sysFdAt, hslot, hf]
  · rfl

lemma Inv.close (h : s.Inv) (hidle : s.pending pid = none) (fd : ℤ) :
    ∃ r s', s.close pid fd = .ok (r, s') ∧ s'.Inv ∧ Quiet s s' ∧
      s'.procs = if (0 ≤ fd ∧ fd < maxFdPerProcess) ∧ ((s.table pid).slots fd.toNat).isSome then
        Function.update s.procs pid (some ((s.table pid).release fd.toNat)) else s.procs := by
  unfold Descriptors.close
  rw [h.procToSysFd]
  by_cases hopen : (0 ≤ fd ∧ fd < maxFdPerProcess) ∧ ((s.table pid).slots fd.toNat).isSome
  · obtain ⟨d, hd⟩ := Option.isSome_iff_exists.mp hopen.2
    obtain ⟨s₁, hok₁, hinv₁, he₁⟩ := h.releaseFd hidle fd.toNat
    obtain ⟨r, s₂, hok₂, hinv₂, hprocs₂, hpend₂⟩ := hinv₁.vfsClose d.sysFd
    refine ⟨r, s₂, ?_, hinv₂, he₁.quiet.trans hpend₂, ?_⟩
    · simp only [if_pos hopen.1, sysFdAt, hd, Option.map_some, bind, Except.bind, hok₁]
      exact hok₂
    · rw [if_pos hopen, hprocs₂, he₁.procs]
  · have hnone : (if 0 ≤ fd ∧ fd < maxFdPerProcess then s.sysFdAt (pid, fd.toNat) else none) =
        none := by
      split_ifs with hrange
      · have : (s.table pid).slots fd.toNat = none := by simpa [hrange] using hopen
        simp [sysFdAt, this]
      · rfl
    rw [hnone, if_neg hopen]
    exact ⟨_, s, rfl, h, Quiet.refl s, rfl⟩

/-! ## New entries -/

lemma Inv.setVfs {v : FileTable} (h : s.Inv) (hfiles : v.files = s.vfs.files)
    (hpipes : v.pipes = s.vfs.pipes) : Inv { s with vfs := v } := by
  have hkind : v.kindAt = s.vfs.kindAt := by
    funext fd
    simp [FileTable.kindAt, hfiles]
  refine ⟨h.files.congr (fun _ _ => rfl) hfiles, h.pipes.congr (fun _ _ _ => by rw [hkind]) hpipes,
    h.waits.congr rfl rfl rfl rfl h.waits.live (fun _ _ _ => rfl) ?_⟩
  rintro w - ⟨fd, id, p, hpend, hk, hp, hrest⟩
  exact ⟨fd, id, p, hpend, (congrFun hkind fd).trans hk, by rw [hpipes]; exact hp, hrest⟩

lemma Inv.addFile {v : FileTable} {k : FileKind} (h : s.Inv) (hnone : s.vfs.files fd = none)
    (hk : ∀ id e, k ≠ .pipe id e)
    (hfiles : v.files = Function.update s.vfs.files fd (some { kind := k }))
    (hpipes : v.pipes = s.vfs.pipes) : Inv { s with vfs := v } := by
  have hnone' : s.vfs.kindAt fd = none := by simp [FileTable.kindAt, hnone]
  have hkind : v.kindAt = Function.update s.vfs.kindAt fd (some k) := by
    have : v.kindAt = (s.vfs.setFile fd (some { kind := k })).kindAt := by
      funext j
      simp [FileTable.kindAt, hfiles, FileTable.setFile]
    rw [this, FileTable.kindAt_setFile]
    rfl
  refine ⟨h.files.add hnone (fun _ _ => rfl) hfiles, ?_,
    h.waits.congr rfl rfl rfl rfl h.waits.live (fun _ _ _ => rfl) ?_⟩
  · exact h.pipes.update (by simp [hnone']) (by simpa using hk) hkind hpipes
  · rintro w - ⟨fd', id, p, hpend, hk', hp, hrest⟩
    have hne : fd' ≠ fd := by
      rintro rfl
      simp [hnone'] at hk'
    refine ⟨fd', id, p, hpend, ?_, by rw [hpipes]; exact hp, hrest⟩
    show v.kindAt fd' = _
    rw [hkind, Function.update_of_ne hne]
    exact hk'

lemma Inv.addPipe {v : FileTable} {rfd wfd : ℕ} (h : s.Inv) (hpipe : s.vfs.pipe = (some (rfd, wfd), v)) :
    Inv { s with vfs := v } := by
  obtain ⟨hne, hr, hw, hfiles, hpipes⟩ := FileTable.pipe_spec hpipe
  set id := s.vfs.pipes.length
  set v₁ := s.vfs.setFile rfd (some { kind := .pipe id .read }) with hv₁
  have hr' : s.vfs.kindAt rfd = none := by simp [FileTable.kindAt, hr]
  have hw' : s.vfs.kindAt wfd = none := by simp [FileTable.kindAt, hw]
  have hkind : v.kindAt = Function.update (Function.update s.vfs.kindAt rfd
      (some (.pipe id .read))) wfd (some (.pipe id .write)) := by
    have : v.kindAt = (v₁.setFile wfd (some { kind := .pipe id .write })).kindAt := by
      funext j
      simp [FileTable.kindAt, hfiles, FileTable.setFile, hv₁]
    rw [this, FileTable.kindAt_setFile, hv₁, FileTable.kindAt_setFile]
    rfl
  have hfiles₁ : Files { s with vfs := v₁ } := h.files.add hr (fun _ _ => rfl) rfl
  have hw₁ : v₁.files wfd = none := by
    simp [hv₁, FileTable.setFile, hne.symm, hw]
  refine ⟨hfiles₁.add hw₁ (fun _ _ => rfl) hfiles, h.pipes.pipe hne hr' hw' hkind hpipes,
    h.waits.congr rfl rfl rfl rfl h.waits.live (fun _ _ _ => rfl) ?_⟩
  rintro w - ⟨fd, id', p, hpend, hk, hp, hrest⟩
  refine ⟨fd, id', p, hpend, ?_, ?_, hrest⟩
  · show v.kindAt fd = _
    rw [hkind, Function.update_of_ne, Function.update_of_ne]
    · exact hk
    · rintro rfl
      simp [hr'] at hk
    · rintro rfl
      simp [hw'] at hk
  · show v.pipes[id']? = _
    rw [hpipes, List.getElem?_append_left (List.getElem?_eq_some_iff.mp hp).1, hp]

end Descriptors

end BrebOS
