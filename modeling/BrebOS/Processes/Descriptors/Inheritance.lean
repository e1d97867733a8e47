import BrebOS.Processes.Descriptors.PipeWaits

/-!
# Which descriptors a child and a new program get

`fork` and `execve` lay the descriptors of the process over those of a new one, which has opened its
terminals already.  So a terminal stays where the process has closed its own.  The files that `execve`
loads the program from were opened by the process, and go to the new program too.
-/

namespace BrebOS

/-- The same descriptors are open, for the same files, and with the same flag. -/
def SameDescriptors (t t' : FdTable) : Prop :=
  ∀ i, (t'.slots i).map (fun d => (d.sysFd, d.cloExec)) = (t.slots i).map fun d => (d.sysFd, d.cloExec)

/-- The descriptors that are open are those that are not closed by `execve`, for the same files. -/
def KeptDescriptors (t t' : FdTable) : Prop :=
  ∀ i, (t'.slots i).map FileDescriptor.sysFd = (t.keptOnExec i).map FileDescriptor.sysFd

namespace Descriptors

variable {s s' : Descriptors} {pid child i : ℕ} {loads : List ElfLoad}

/-! ## Loading -/

lemma openFile_slots {err : Option OpenError} {fd : ℤ} (h : s.openFile pid err = .ok (fd, s'))
    (hfd : 0 ≤ fd) : ∃ i d, (s.table pid).slots i = none ∧ d.cloExec = false ∧
      (s'.table pid).slots = Function.update (s.table pid).slots i (some d) := by
  unfold Descriptors.openFile at h
  rcases s.getFreeFd_cases pid with ⟨e, he, -⟩ | hok | ⟨hlt, hslot, hok⟩
  · rw [he] at h
    cases h
  · rw [hok] at h
    obtain ⟨rfl, -⟩ : -emfile = fd ∧ _ = s' := by simpa [bind, Except.bind] using h
    exact absurd hfd (by decide)
  rw [hok] at h
  simp only [bind, Except.bind, show (s.setTable pid _).vfs = s.vfs from rfl] at h
  rcases hopen : s.vfs.openFile err with ⟨e | sysFd, v⟩
  · have hneg := (FileTable.openFile_error hopen).2.2
    rw [hopen] at h
    simp only at h
    split at h
    · cases h
    · obtain ⟨rfl, -⟩ : e = fd ∧ _ = s' := by simpa using h
      omega
  · rw [hopen] at h
    simp only [install, bind, Except.bind] at h
    rcases hadd : v.addRef sysFd with e | v'
    · rw [hadd] at h
      cases h
    · rw [hadd] at h
      obtain ⟨-, rfl⟩ : _ = fd ∧ _ = s' := by simpa using h
      refine ⟨(s.table pid).lowestFreeFd, { fd := (s.table pid).lowestFreeFd, sysFd }, hslot, rfl, ?_⟩
      have htable : Descriptors.table { s.setTable pid (s.reserved pid) with vfs := v } pid =
          s.reserved pid := table_setTable
      rw [table_setTable, htable]
      rfl

lemma loadElfs_cons {load : ElfLoad} (h : s.loadElfs pid (load :: loads) = .ok (true, s')) :
    ∃ s₁ : Descriptors, s₁.loadElfs pid loads = .ok (true, s') ∧ ∃ i d, (s.table pid).slots i = none ∧
      d.cloExec = false ∧ (s₁.table pid).slots = Function.update (s.table pid).slots i (some d) := by
  simp only [loadElfs, bind, Except.bind] at h
  split at h
  · cases h
  · case h_2 r hopen =>
    obtain ⟨fd, s₁⟩ := r
    simp only at h
    split_ifs at h with hneg
    · simp at h
    · cases load with
      | openFails e => simp at h
      | readFails =>
        simp only at h
        split at h <;> simp at h
      | invalid => simp at h
      | loaded => exact ⟨s₁, h, openFile_slots hopen (not_lt.mp hneg)⟩

lemma loadElfs_keeps (loads : List ElfLoad) : ∀ {s : Descriptors},
    s.loadElfs pid loads = .ok (true, s') → ∀ i d, (s.table pid).slots i = some d →
      (s'.table pid).slots i = some d := by
  induction loads with
  | nil =>
    intro s h i d hd
    obtain rfl : s = s' := by simpa [loadElfs] using h
    exact hd
  | cons load loads ih =>
    intro s h i d hd
    obtain ⟨s₁, hrest, j, d', hnone, -, hslots⟩ := loadElfs_cons h
    refine ih hrest i d ?_
    have hne : i ≠ j := by
      rintro rfl
      rw [hnone] at hd
      cases hd
    rw [hslots, Function.update_of_ne hne, hd]

/-! ## Tables laid over each other -/

lemma eq_slots_iff {f g : ℕ → Option FileDescriptor} {room : ℕ}
    (hsome : ∀ i d, f i = some d → g i = some d)
    (hnone : ∀ i, f i = none → ((g i).isSome ↔ i < 3 ∧ i < room)) :
    (∀ i, (g i).isSome ↔ (f i).isSome) ↔ ∀ i < 3, (f i).isSome ∨ room ≤ i := by
  constructor
  · intro h i hi
    rcases hf : f i with _ | d
    · right
      by_contra hlt
      have := (h i).mp ((hnone i hf).mpr ⟨hi, not_le.mp hlt⟩)
      simp [hf] at this
    · exact Or.inl rfl
  · intro h i
    rcases hf : f i with _ | d
    · rw [hnone i hf]
      simp only [Option.isSome_none, Bool.false_eq_true, iff_false, not_and]
      intro hi hlt
      rcases h i hi with hopen | hle
      · simp [hf] at hopen
      · omega
    · simp [hsome i d hf]

lemma map_eq_iff {β : Type} {f g : ℕ → Option FileDescriptor} (key : FileDescriptor → β)
    (hsome : ∀ i d, f i = some d → g i = some d) :
    (∀ i, (g i).map key = (f i).map key) ↔ ∀ i, (g i).isSome ↔ (f i).isSome := by
  constructor
  · intro h i
    have := congrArg Option.isSome (h i)
    simpa using this
  · intro h i
    rcases hf : f i with _ | d
    · have hg : g i = none := by
        have := (h i).not.mpr (by simp [hf])
        simpa using this
      rw [hg]
    · rw [hsome i d hf]

lemma between_of_run {ops : List FdOp}
    (h : EachCall step (fun s op => s.Allowed op ∧ s.LeavesRoom op) ops {})
    (hrun : ops.foldlM step {} = .ok s) : s.Between :=
  (EachCall.invariant (fun _ _ s' hs hop hstep => ((hs.outcome hop.1).carries hop.2 s' hstep).between)
    between_new h).reached between_new s hrun

/-- The child of a process in a state of a run has the descriptors of its parent iff the parent has no
descriptor closed where the child finds a terminal.  A new program has, besides those of the process
that are not closed by `execve`, always the one for the file it was loaded from; apart from these it has
what is kept iff no terminal shows. -/
theorem descriptors_inherited_iff (ops : List FdOp)
    (h : EachCall step (fun s op => s.Allowed op ∧ s.LeavesRoom op) ops {}) (s : Descriptors)
    (hrun : ops.foldlM step {} = .ok s) (pid : ℕ) (hcall : s.MayCall pid) :
    (∀ child, s.FreePid child → ∃ s', s.fork pid child = .ok ((child : ℤ), s') ∧
      (SameDescriptors (s.table pid) (s'.table child) ↔
        ∀ i < 3, ((s.table pid).slots i).isSome ∨ s.vfs.freeFds ≤ i)) ∧
    (∀ loads s', loads ≠ [] → s.execve pid loads = .ok (0, s') →
      ¬ KeptDescriptors (s.table pid) (s'.table pid)) ∧
    ∀ loads s₁, s.loadElfs pid loads = .ok (true, s₁) → ∃ s', s.execve pid loads = .ok (0, s') ∧
      (KeptDescriptors (s₁.table pid) (s'.table pid) ↔
        ∀ i < 3, ((s₁.table pid).keptOnExec i).isSome ∨ s₁.vfs.freeFds ≤ i) := by
  have hb := between_of_run h hrun
  have hcalls := hcall.calls hb.inv
  -- what `execve` does after the files were loaded
  have hexec : ∀ loads s₁, s.loadElfs pid loads = .ok (true, s₁) → ∃ s', s.execve pid loads = .ok (0, s') ∧
      (∀ i d, (s₁.table pid).keptOnExec i = some d → (s'.table pid).slots i = some d) ∧
      ∀ i, (s₁.table pid).keptOnExec i = none →
        (((s'.table pid).slots i).isSome ↔ i < 3 ∧ i < s₁.vfs.freeFds) := by
    intro loads s₁ hload
    obtain ⟨hinv₁, t₁, he₁, -⟩ := (hcalls.loadElfs loads).keeps true s₁ hload
    have hvacant : s₁.procs execReplacement = none := by
      rw [he₁.procs, Function.update_of_ne hcall.ne, hb.vacant]
    obtain ⟨s₂, s', t, hok₂, hok', -, he, -, hkept, hterm⟩ :=
      (hcalls.edit hinv₁ he₁).replace hcall.1 hvacant
    refine ⟨s', ?_, ?_, ?_⟩
    · simp only [Descriptors.execve, hload, hok₂, hok', bind, Except.bind]
      rfl
    · rw [he.table]
      exact hkept
    · rw [he.table]
      exact hterm
  refine ⟨?_, ?_, ?_⟩
  · intro child hfree
    obtain ⟨s', t, hok, -, hprocs, -, -, hsome, hnone⟩ := hcalls.fork hfree
    refine ⟨s', hok, ?_⟩
    have htable : s'.table child = t := by simp [table, hprocs]
    have hsome' : ∀ i d, (s.table pid).slots i = some d → t.slots i = some d := by
      intro i d hd
      rw [hsome i (by simp [hd]), hd]
    rw [htable, SameDescriptors, map_eq_iff _ hsome', eq_slots_iff hsome' hnone]
  · intro loads s' hloads hrun' hkept
    obtain ⟨load, loads, rfl⟩ := List.exists_cons_of_ne_nil hloads
    obtain ⟨s₁, hload⟩ : ∃ s₁, s.loadElfs pid (load :: loads) = .ok (true, s₁) := by
      rcases hload : s.loadElfs pid (load :: loads) with e | ⟨_ | _, s₁⟩
      · simp [Descriptors.execve, hload, bind, Except.bind] at hrun'
      · simp [Descriptors.execve, hload, bind, Except.bind] at hrun'
      · exact ⟨s₁, rfl⟩
    obtain ⟨s'', hok, hsome, -⟩ := hexec _ s₁ hload
    obtain rfl : s'' = s' := by simpa [hok] using hrun'
    -- the descriptor of the first file is new, and is kept
    obtain ⟨s₀, hrest, i, d, hnone, hclo, hslots⟩ := loadElfs_cons hload
    have hslot : (s₁.table pid).slots i = some d :=
      loadElfs_keeps loads hrest i d (by rw [hslots, Function.update_self])
    have hnew := hsome i d (by simp [FdTable.keptOnExec, hslot, hclo, Option.filter])
    have := hkept i
    simp [hnew, FdTable.keptOnExec, hnone] at this
  · intro loads s₁ hload
    obtain ⟨s', hok, hsome, hnone⟩ := hexec loads s₁ hload
    refine ⟨s', hok, ?_⟩
    rw [KeptDescriptors, map_eq_iff _ hsome, eq_slots_iff hsome hnone]

/-- A process with its terminals open forks, and loads a program. -/
theorem descriptors_inherited_first : ∃ s,
    [FdOp.spawn 0, .pipe 0].foldlM step {} = .ok s ∧
      (∃ s', s.fork 0 1 = .ok (1, s') ∧ SameDescriptors (s.table 0) (s'.table 1)) ∧
      ∃ s₁ s', s.loadElfs 0 [.loaded] = .ok (true, s₁) ∧ s.execve 0 [.loaded] = .ok (0, s') ∧
        KeptDescriptors (s₁.table 0) (s'.table 0) := by
  have hops : EachCall step (fun s op => s.Allowed op ∧ s.LeavesRoom op) [.spawn 0, .pipe 0] {} := by
    decide +kernel
  obtain ⟨s, hs⟩ : ∃ s, [FdOp.spawn 0, .pipe 0].foldlM step {} = .ok s := ⟨_, rfl⟩
  have hfacts : ∀ s, [FdOp.spawn 0, .pipe 0].foldlM step {} = .ok s → s.MayCall 0 ∧ s.FreePid 1 ∧
      (∀ i < 3, ((s.table 0).slots i).isSome ∨ s.vfs.freeFds ≤ i) ∧
      (s.loadElfs 0 [.loaded]).isOk = true ∧
      ∀ r, s.loadElfs 0 [.loaded] = .ok r → r.1 = true ∧
        ∀ i < 3, ((r.2.table 0).keptOnExec i).isSome ∨ r.2.vfs.freeFds ≤ i := by
    decide +kernel
  obtain ⟨hcall, hfree, hopen, hok₁, hload⟩ := hfacts s hs
  obtain ⟨hfork, -, hexec⟩ := descriptors_inherited_iff _ hops s hs 0 hcall
  obtain ⟨s', hok, hsame⟩ := hfork 1 hfree
  refine ⟨s, hs, ⟨s', hok, hsame.mpr hopen⟩, ?_⟩
  rcases hrun : s.loadElfs 0 [.loaded] with e | ⟨b, s₁⟩
  · rw [hrun] at hok₁
    cases hok₁
  · obtain ⟨hb, hkept⟩ := hload _ hrun
    obtain rfl : b = true := hb
    obtain ⟨s'', hok'', hiff⟩ := hexec _ s₁ hrun
    exact ⟨s₁, s'', rfl, hok'', hiff.mpr hkept⟩

/-- The child of a process that closed its standard input has a terminal there; and a program has a
descriptor for its own file. -/
theorem descriptors_not_inherited : ∃ s s' s'',
    [FdOp.spawn 0, .close 0 0].foldlM step {} = .ok s ∧ s.fork 0 1 = .ok (1, s') ∧
      ¬ SameDescriptors (s.table 0) (s'.table 1) ∧ s.execve 0 [.loaded] = .ok (0, s'') ∧
      ¬ KeptDescriptors (s.table 0) (s''.table 0) := by
  obtain ⟨s, hs⟩ : ∃ s, [FdOp.spawn 0, .close 0 0].foldlM step {} = .ok s := ⟨_, rfl⟩
  have hfacts : ∀ s, [FdOp.spawn 0, .close 0 0].foldlM step {} = .ok s →
      (s.table 0).slots 0 = none ∧ (s.fork 0 1).isOk = true ∧ (s.execve 0 [.loaded]).isOk = true ∧
      (∀ r, s.fork 0 1 = .ok r → r.1 = 1 ∧ ((r.2.table 1).slots 0).isSome) ∧
      ∀ r, s.execve 0 [.loaded] = .ok r → r.1 = 0 ∧ ((r.2.table 0).slots 0).isSome := by
    decide +kernel
  obtain ⟨hnone, hok, hok', hfork, hexec⟩ := hfacts s hs
  rcases hrun : s.fork 0 1 with e | ⟨c, s'⟩
  · rw [hrun] at hok
    cases hok
  rcases hrun' : s.execve 0 [.loaded] with e | ⟨c', s''⟩
  · rw [hrun'] at hok'
    cases hok'
  obtain ⟨hc, hopen⟩ := hfork _ hrun
  obtain ⟨hc', hopen'⟩ := hexec _ hrun'
  obtain rfl : c = 1 := hc
  obtain rfl : c' = 0 := hc'
  refine ⟨s, s', s'', hs, hrun, ?_, hrun', ?_⟩
  · intro hsame
    have := hsame 0
    rw [hnone, Option.map_none, Option.map_eq_none_iff] at this
    simp [this] at hopen
  · intro hkept
    have := hkept 0
    rw [FdTable.keptOnExec, hnone, Option.filter_none, Option.map_none, Option.map_eq_none_iff] at this
    simp [this] at hopen'

end Descriptors

end BrebOS
