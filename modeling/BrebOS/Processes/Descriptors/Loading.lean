import BrebOS.Processes.Descriptors.Exec

/-!
# What loading leaves open

`load_elf` opens the executable, and then its interpreter, through the table of the process that calls
`exec`, and gives the descriptor back only when the file cannot be read.  So the tables are as before exactly
when no file is opened, or the first one cannot be read.
-/

namespace BrebOS

/-- What `open` is told of the file. -/
def ElfLoad.openError : ElfLoad → Option OpenError
  | .openFails e => some e
  | _ => none

namespace Descriptors

/-- The descriptors of the process, and the files of the system, are as before. -/
def SameTables (pid : ℕ) (s s' : Descriptors) : Prop :=
  (s'.table pid).slots = (s.table pid).slots ∧ s'.vfs.files = s.vfs.files

/-- There is a free descriptor for the process, and one for the system. -/
def HasRoom (s : Descriptors) (pid : ℕ) : Prop :=
  (∃ fd t, (s.table pid).getFreeFd = .ok (some fd, t)) ∧ ∃ fd v, s.vfs.getFreeFd = (some fd, v)

/-- The first file is not opened, or it is closed again since it cannot be read. -/
def NothingOpened (s : Descriptors) (pid : ℕ) : List ElfLoad → Prop
  | [] => True
  | .openFails _ :: _ => True
  | .readFails :: _ => True
  | .invalid :: _ => ¬s.HasRoom pid
  | .loaded :: _ => ¬s.HasRoom pid

variable {s s' : Descriptors} {pid i sysFd : ℕ} {fd : ℤ} {err : Option OpenError} {loads : List ElfLoad}

lemma SameTables.refl (pid : ℕ) (s : Descriptors) : SameTables pid s s := ⟨rfl, rfl⟩

/-! ## Opening and closing a file -/

/-- A file was opened: it has a descriptor of the process, at a slot that was free. -/
structure Opened (pid : ℕ) (s : Descriptors) (fd sysFd : ℕ) (s' : Descriptors) : Prop where
  lt : fd < maxFdPerProcess
  free : (s.table pid).slots fd = none
  unused : s.vfs.files sysFd = none
  slots : (s'.table pid).slots = Function.update (s.table pid).slots fd (some { fd, sysFd })
  cursor : (s'.table pid).CursorFree
  files : s'.vfs.files = Function.update s.vfs.files sysFd (some { kind := .file, rc := 1 })

lemma releaseFd_reserved (hslot : (s.table pid).slots i = none) :
    s.releaseFd pid i = .ok (s.setTable pid ((s.table pid).release i)) := by
  simp only [Descriptors.releaseFd, hslot]
  rfl

lemma install_eq {f : FileInterface} {d : FileDescriptor} (hf : s.vfs.files d.sysFd = some f) :
    s.install pid i d = .ok ({ s with vfs := s.vfs.setFile d.sysFd (some { f with rc := f.rc + 1 }) }.setTable pid
      ((s.table pid).setSlot i (some d))) := by
  rw [Descriptors.install, FileTable.addRef, hf]
  rfl

lemma getFreeFd_reserves (hlt : (s.table pid).lowestFreeFd < maxFdPerProcess)
    (hslot : (s.table pid).slots (s.table pid).lowestFreeFd = none) :
    s.getFreeFd pid = .ok (some (s.table pid).lowestFreeFd, s.setTable pid (s.reserved pid)) := by
  rw [Descriptors.getFreeFd, FdTable.getFreeFd, if_neg (ne_of_lt hlt), if_neg (by omega), hslot]
  rfl

lemma openFile_fails {e : ℤ} {v : FileTable} (hlt : (s.table pid).lowestFreeFd < maxFdPerProcess)
    (hslot : (s.table pid).slots (s.table pid).lowestFreeFd = none)
    (hvfs : s.vfs.openFile err = (.error e, v)) :
    s.openFile pid err = .ok (e, { s with vfs := v }.setTable pid (s.table pid)) := by
  have htable : Descriptors.table ({ s with vfs := v }.setTable pid (s.reserved pid)) pid = s.reserved pid :=
    table_setTable
  have hrelease : Descriptors.releaseFd pid (s.table pid).lowestFreeFd
      ({ s with vfs := v }.setTable pid (s.reserved pid)) =
        .ok ({ s with vfs := v }.setTable pid (s.table pid)) := by
    rw [releaseFd_reserved (by rw [htable]; exact hslot), htable, reserved,
      FdTable.release_reserved hslot hlt, setTable_setTable]
  rw [Descriptors.openFile, getFreeFd_reserves hlt hslot]
  simp only [bind, Except.bind, show (s.setTable pid _).vfs = s.vfs from rfl, hvfs]
  exact congrArg (fun r => r >>= fun s => (.ok (e, s) : Except Fault (ℤ × Descriptors))) hrelease

lemma openFile_succeeds {v : FileTable} (hlt : (s.table pid).lowestFreeFd < maxFdPerProcess)
    (hslot : (s.table pid).slots (s.table pid).lowestFreeFd = none)
    (hvfs : s.vfs.openFile err = (.ok sysFd, v)) :
    s.openFile pid err = .ok ((s.table pid).lowestFreeFd,
      { s with vfs := v.setFile sysFd (some { kind := .file, rc := 1 }) }.setTable pid
        ((s.reserved pid).setSlot (s.table pid).lowestFreeFd
          (some { fd := (s.table pid).lowestFreeFd, sysFd }))) := by
  have hfile : v.files sysFd = some { kind := .file } := by
    rw [(FileTable.openFile_spec hvfs).2.2.1, Function.update_self]
  have htable : Descriptors.table ({ s with vfs := v }.setTable pid (s.reserved pid)) pid = s.reserved pid :=
    table_setTable
  have hinstall : Descriptors.install pid (s.table pid).lowestFreeFd
      { fd := (s.table pid).lowestFreeFd, sysFd } ({ s with vfs := v }.setTable pid (s.reserved pid)) = _ :=
    install_eq hfile
  rw [htable] at hinstall
  rw [Descriptors.openFile, getFreeFd_reserves hlt hslot]
  simp only [bind, Except.bind, show (s.setTable pid _).vfs = s.vfs from rfl, hvfs]
  refine (congrArg (fun r => r >>= fun s₁ => (.ok (((s.table pid).lowestFreeFd : ℤ), s₁) :
    Except Fault (ℤ × Descriptors))) hinstall).trans ?_
  have htwice : ∀ t, ({ s with vfs := v.setFile sysFd (some { kind := .file, rc := 1 }) }.setTable pid
      (s.reserved pid)).setTable pid t =
        { s with vfs := v.setFile sysFd (some { kind := .file, rc := 1 }) }.setTable pid t :=
    fun t => setTable_setTable
  exact congrArg (fun s₁ => (.ok (((s.table pid).lowestFreeFd : ℤ), s₁) : Except Fault (ℤ × Descriptors)))
    (htwice _)

lemma openFile_cases (s : Descriptors) (pid : ℕ) (err : Option OpenError) :
    (∃ e, s.openFile pid err = .error e ∧ ¬(s.table pid).CursorFree ∧ ¬s.HasRoom pid) ∨
    (∃ e s', e < 0 ∧ s.openFile pid err = .ok (e, s') ∧ SameTables pid s s' ∧
      (err = none → ¬s.HasRoom pid)) ∨
    ∃ (fd sysFd : ℕ) (s' : Descriptors), s.openFile pid err = .ok (fd, s') ∧ err = none ∧ s.HasRoom pid ∧
      Opened pid s fd sysFd s' := by
  rcases (s.table pid).getFreeFd_cases with ⟨e, he, hcur, -⟩ | ⟨-, hnone⟩ | ⟨hlt, hslot, hsome⟩
  · refine Or.inl ⟨e, ?_, hcur, ?_⟩
    · rw [Descriptors.openFile, Descriptors.getFreeFd, he]
      rfl
    · rintro ⟨⟨fd, t, hroom⟩, -⟩
      rw [he] at hroom
      cases hroom
  · refine Or.inr (Or.inl ⟨-emfile, s.setTable pid (s.table pid), by decide, ?_, ?_, ?_⟩)
    · rw [Descriptors.openFile, Descriptors.getFreeFd, hnone]
      rfl
    · exact ⟨by rw [table_setTable], rfl⟩
    · rintro - ⟨⟨fd, t, hroom⟩, -⟩
      rw [hnone] at hroom
      cases hroom
  · rcases hvfs : s.vfs.openFile err with ⟨e | sysFd, v⟩
    · obtain ⟨hfiles, -, hneg⟩ := FileTable.openFile_error hvfs
      refine Or.inr (Or.inl ⟨e, _, hneg, openFile_fails hlt hslot hvfs, ⟨by rw [table_setTable], hfiles⟩, ?_⟩)
      rintro rfl ⟨-, fd, v', hroom⟩
      rw [FileTable.openFile, hroom] at hvfs
      cases hvfs
    · obtain ⟨-, hunused, hfiles, -⟩ := FileTable.openFile_spec hvfs
      have hopen := openFile_succeeds hlt hslot hvfs
      have hfree : err = none ∧ ∃ fd v, s.vfs.getFreeFd = (some fd, v) := by
        rcases hfree : s.vfs.getFreeFd with ⟨_ | i, u⟩
        · rw [FileTable.openFile, hfree] at hvfs
          cases hvfs
        · rw [FileTable.openFile, hfree] at hvfs
          cases err with
          | none => exact ⟨rfl, i, u, rfl⟩
          | some e => cases hvfs
      refine Or.inr (Or.inr ⟨_, sysFd, _, hopen, hfree.1, ⟨⟨_, _, hsome⟩, hfree.2⟩, hlt, hslot,
        hunused, ?_, ?_, ?_⟩)
      · rw [table_setTable]
        rfl
      · obtain ⟨hle, hnext⟩ := FdTable.cursorFree_reserved hlt
        rw [table_setTable]
        refine ⟨hle, fun hlt' => ?_⟩
        have hgt := ((s.table pid).nextFree_spec (i := (s.table pid).lowestFreeFd + 1) hlt).1
        show Function.update (s.table pid).slots _ _ ((s.table pid).nextFree _) = none
        rw [Function.update_of_ne (by omega)]
        exact hnext hlt'
      · show Function.update v.files sysFd _ = _
        rw [hfiles, Function.update_idem]

lemma Opened.close {fd : ℕ} (h : Opened pid s fd sysFd s') :
    ∃ s'', s'.close pid fd = .ok (0, s'') ∧ SameTables pid s s'' := by
  have hlt := h.lt
  have hslot : (s'.table pid).slots fd = some { fd, sysFd } := by rw [h.slots, Function.update_self]
  have hfile : s'.vfs.files sysFd = some { kind := .file, rc := 1 } := by rw [h.files, Function.update_self]
  have hsys : s'.procToSysFd pid fd = .ok (some sysFd) := by
    rw [Descriptors.procToSysFd, if_pos ⟨by omega, by omega⟩, Int.toNat_natCast, hslot]
    dsimp only
    rw [hfile]
  obtain ⟨v, hv, hfiles⟩ : ∃ v, s'.vfs.dropRef sysFd = .ok v ∧
      v.files = Function.update s.vfs.files sysFd (some { kind := .file, rc := 0 }) := by
    refine ⟨_, by rw [FileTable.dropRef, hfile], ?_⟩
    show Function.update s'.vfs.files sysFd _ = _
    rw [h.files, Function.update_idem]
    rfl
  obtain ⟨s₁, hs₁, hprocs, hvfs⟩ : ∃ s₁, s'.releaseFd pid fd = .ok s₁ ∧
      s₁.procs = Function.update s'.procs pid (some ((s'.table pid).release fd)) ∧ s₁.vfs = v := by
    refine ⟨{ s' with vfs := v }.setTable pid ((s'.table pid).release fd), ?_, rfl, rfl⟩
    rw [Descriptors.releaseFd, hslot]
    dsimp only
    rw [hv]
    rfl
  have hzero : s₁.vfs.files sysFd = some { kind := .file, rc := 0 } := by
    rw [hvfs, hfiles, Function.update_self]
  refine ⟨{ s₁ with vfs := s₁.vfs.remove sysFd { kind := .file, rc := 0 } }, ?_, ?_, ?_⟩
  · rw [Descriptors.close, hsys]
    show (s'.releaseFd pid (fd : ℤ).toNat >>= _) = _
    rw [Int.toNat_natCast, hs₁]
    show s₁.vfsClose sysFd = _
    rw [Descriptors.vfsClose, hzero]
    rfl
  · have htable : Descriptors.table { s₁ with vfs := s₁.vfs.remove sysFd { kind := .file, rc := 0 } } pid =
        (s'.table pid).release fd := by
      simp [Descriptors.table, hprocs]
    rw [htable]
    show Function.update (s'.table pid).slots fd none = _
    rw [h.slots, Function.update_idem]
    exact Function.update_eq_self_iff.mpr h.free.symm
  · show (s₁.vfs.remove sysFd { kind := .file, rc := 0 }).files = _
    rw [files_remove, hvfs, hfiles, Function.update_idem]
    exact Function.update_eq_self_iff.mpr h.unused.symm

/-! ## Loading -/

/-- What `load_elf` does with a file that was opened. -/
def loadOpened (pid : ℕ) (load : ElfLoad) (loads : List ElfLoad) (fd : ℤ) (s : Descriptors) :
    Except Fault (Bool × Descriptors) :=
  match load with
  | .readFails => (s.close pid fd).map fun r => (false, r.2)
  | .loaded => s.loadElfs pid loads
  | _ => .ok (false, s)

lemma loadElfs_cons_eq {load : ElfLoad} : s.loadElfs pid (load :: loads) =
    (s.openFile pid load.openError >>= fun r =>
      if r.1 < 0 then .ok (false, r.2) else loadOpened pid load loads r.1 r.2) := by
  have hclose : ∀ r : ℤ × Descriptors, (r.2.close pid r.1 >>= fun c => .ok (false, c.2)) =
      (r.2.close pid r.1).map fun c => (false, c.2) := by
    intro r
    cases r.2.close pid r.1 with
    | error e => rfl
    | ok c => rfl
  cases load with
  | readFails =>
    simp only [loadOpened, ← hclose]
    rfl
  | openFails e => rfl
  | invalid => rfl
  | loaded => rfl

lemma loadElfs_error {load : ElfLoad} {e : Fault} (h : s.openFile pid load.openError = .error e) :
    s.loadElfs pid (load :: loads) = .error e := by
  rw [loadElfs_cons_eq, h]
  rfl

lemma loadElfs_unopened {load : ElfLoad} {e : ℤ} (h : s.openFile pid load.openError = .ok (e, s'))
    (hneg : e < 0) : s.loadElfs pid (load :: loads) = .ok (false, s') := by
  rw [loadElfs_cons_eq, h]
  exact if_pos hneg

lemma loadElfs_opened {load : ElfLoad} {fd : ℕ} (h : s.openFile pid load.openError = .ok ((fd : ℤ), s')) :
    s.loadElfs pid (load :: loads) = s'.loadOpened pid load loads fd := by
  have hpos : ¬(fd : ℤ) < 0 := not_lt.mpr (Int.natCast_nonneg fd)
  rw [loadElfs_cons_eq, h]
  show (if (fd : ℤ) < 0 then .ok (false, s') else s'.loadOpened pid load loads fd) = _
  rw [if_neg hpos]

lemma loadElfs_slots : ∀ {loads : List ElfLoad} {s : Descriptors} {ok : Bool},
    s.loadElfs pid loads = .ok (ok, s') →
      ∀ i, ((s.table pid).slots i).isSome → ((s'.table pid).slots i).isSome := by
  intro loads
  induction loads with
  | nil =>
    intro s ok hload i hi
    cases hload
    exact hi
  | cons load loads ih =>
    intro s ok hload i hi
    rcases s.openFile_cases pid load.openError with
      ⟨e, hopen, -, -⟩ | ⟨e, s₁, hneg, hopen, hsame, -⟩ | ⟨fd, sysFd, s₁, hopen, -, -, hopened⟩
    · rw [loadElfs_error hopen] at hload
      cases hload
    · rw [loadElfs_unopened hopen hneg] at hload
      cases hload
      rw [hsame.1]
      exact hi
    · rw [loadElfs_opened hopen] at hload
      have hne : i ≠ fd := by
        rintro rfl
        rw [hopened.free] at hi
        cases hi
      have hslot : ((s₁.table pid).slots i).isSome := by
        rw [hopened.slots, Function.update_of_ne hne]
        exact hi
      cases load with
      | readFails =>
        obtain ⟨s₂, hclose, hsame⟩ := hopened.close
        rw [loadOpened, hclose] at hload
        cases hload
        rw [hsame.1]
        exact hi
      | loaded => exact ih hload i hslot
      | openFails e =>
        cases hload
        exact hslot
      | invalid =>
        cases hload
        exact hslot

lemma exists_loadElfs : ∀ {loads : List ElfLoad} {s : Descriptors},
    (s.table pid).CursorFree → ∃ ok s', s.loadElfs pid loads = .ok (ok, s') := by
  intro loads
  induction loads with
  | nil =>
    intro s _
    exact ⟨true, s, rfl⟩
  | cons load loads ih =>
    intro s hcur
    rcases s.openFile_cases pid load.openError with
      ⟨e, -, hwrong, -⟩ | ⟨e, s₁, hneg, hopen, -, -⟩ | ⟨fd, sysFd, s₁, hopen, -, -, hopened⟩
    · exact absurd hcur hwrong
    · exact ⟨false, s₁, loadElfs_unopened hopen hneg⟩
    · rw [loadElfs_opened hopen]
      cases load with
      | readFails =>
        obtain ⟨s₂, hclose, -⟩ := hopened.close
        exact ⟨false, s₂, by rw [loadOpened, hclose]; rfl⟩
      | loaded => exact ih hopened.cursor
      | openFails e => exact ⟨false, s₁, rfl⟩
      | invalid => exact ⟨false, s₁, rfl⟩

lemma Opened.not_same {fd : ℕ} {ok : Bool} {s₂ : Descriptors} (h : Opened pid s fd sysFd s')
    (hload : s'.loadElfs pid loads = .ok (ok, s₂)) : ¬SameTables pid s s₂ := by
  intro hsame
  have hopen := loadElfs_slots hload fd (by rw [h.slots, Function.update_self]; rfl)
  rw [hsame.1, h.free] at hopen
  cases hopen

lemma nothingOpened_of {load : ElfLoad} (h : load.openError = none → ¬s.HasRoom pid) :
    s.NothingOpened pid (load :: loads) := by
  cases load with
  | openFails e => trivial
  | readFails => trivial
  | invalid => exact h rfl
  | loaded => exact h rfl

/-- Loading leaves the tables as they were exactly when no file is opened for good. -/
theorem loadElfs_sameTables_iff (s : Descriptors) (pid : ℕ) (loads : List ElfLoad) :
    (∀ ok s', s.loadElfs pid loads = .ok (ok, s') → SameTables pid s s') ↔ s.NothingOpened pid loads := by
  cases loads with
  | nil =>
    refine iff_of_true (fun ok s' hload => ?_) trivial
    cases hload
    exact SameTables.refl pid s
  | cons load loads =>
    rcases s.openFile_cases pid load.openError with
      ⟨e, hopen, -, hroom⟩ | ⟨e, s₁, hneg, hopen, hsame, hroom⟩ | ⟨fd, sysFd, s₁, hopen, herr, hroom, hopened⟩
    · refine iff_of_true (fun ok s' hload => ?_) ?_
      · rw [loadElfs_error hopen] at hload
        cases hload
      · exact nothingOpened_of (fun _ => hroom)
    · refine iff_of_true (fun ok s' hload => ?_) ?_
      · rw [loadElfs_unopened hopen hneg] at hload
        cases hload
        exact hsame
      · exact nothingOpened_of hroom
    · cases load with
      | openFails e => cases herr
      | readFails =>
        refine iff_of_true (fun ok s' hload => ?_) trivial
        obtain ⟨s₂, hclose, hsame⟩ := hopened.close
        rw [loadElfs_opened hopen, loadOpened, hclose] at hload
        cases hload
        exact hsame
      | invalid =>
        refine iff_of_false (fun hall => ?_) (not_not.mpr hroom)
        have hload : s₁.loadElfs pid [] = .ok (true, s₁) := rfl
        exact hopened.not_same hload (hall false s₁ (loadElfs_opened hopen))
      | loaded =>
        refine iff_of_false (fun hall => ?_) (not_not.mpr hroom)
        obtain ⟨ok, s₂, hload⟩ := exists_loadElfs hopened.cursor
        exact hopened.not_same hload (hall ok s₂ ((loadElfs_opened hopen).trans hload))

/-- The file of a program that the first process loads stays open in it. -/
theorem loaded_stays_open :
    ∃ s, newProcess 0 {} = .ok s ∧
      ¬∀ ok s', s.loadElfs 0 [.loaded] = .ok (ok, s') → SameTables 0 s s' := by
  refine ⟨_, rfl, fun hsame => ?_⟩
  have hslot := congrFun (hsame true _ rfl).1 3
  cases congrArg Option.isSome hslot

end Descriptors

end BrebOS
