import BrebOS.Processes.Descriptors.Parts
import BrebOS.Lib.Loop

/-!
# The calls on descriptors

Every call of a process keeps `Inv` and changes the table of that process only.  When the cursor of
the table is right, the call returns, and the cursor is right afterwards; `dup2` needs its target to
be in range for that.
-/

namespace BrebOS

namespace Descriptors

variable {α β : Type} {s s' : Descriptors} {pid i : ℕ} {t : FdTable} {d : FileDescriptor}

/-- What holds of a process that makes a call. -/
structure Calls (s : Descriptors) (pid : ℕ) : Prop where
  inv : s.Inv
  idle : s.pending pid = none
  live : (s.procs pid).isSome
  le : pid ≤ maxProcesses

/-- The call keeps the invariant and the cursor. -/
structure Keeps (pid : ℕ) (s : Descriptors) (r : Except Fault (α × Descriptors)) : Prop where
  keeps : ∀ a s', r = .ok (a, s') → s'.Inv ∧
    ∃ t, Edits pid t s s' ∧ ((s.table pid).Lowest → t.Lowest)
  returns : (s.table pid).Lowest → ∃ a s', r = .ok (a, s')
  fault : ∀ e, r = .error e → FdTable.CursorFault e

lemma Calls.procs_eq (h : s.Calls pid) : s.procs pid = some (s.table pid) := by
  obtain ⟨t, ht⟩ := Option.isSome_iff_exists.mp h.live
  simp [table, ht]

lemma Calls.edits_self (h : s.Calls pid) : Edits pid (s.table pid) s s := by
  refine ⟨?_, Quiet.refl s⟩
  rw [← h.procs_eq, Function.update_eq_self]

lemma Calls.edit (h : s.Calls pid) (hinv : s'.Inv) (he : Edits pid t s s') : s'.Calls pid :=
  ⟨hinv, by rw [he.pending]; exact h.idle, by simp [he.procs], h.le⟩

lemma Calls.mem_allSlots (h : s.Calls pid) (hi : i < maxFdPerProcess) : (pid, i) ∈ allSlots := by
  simp only [allSlots, Finset.mem_product, Finset.mem_range]
  exact ⟨Nat.lt_succ_of_le h.le, hi⟩

namespace Keeps

variable {a : α} {r : Except Fault (α × Descriptors)} {e : Fault}

lemma ok (hr : r = .ok (a, s')) (hinv : s'.Inv) (he : Edits pid t s s')
    (hlow : (s.table pid).Lowest → t.Lowest) : Keeps pid s r := by
  subst hr
  refine ⟨?_, fun _ => ⟨a, s', rfl⟩, fun e he => by cases he⟩
  intro a' s'' h
  obtain ⟨-, rfl⟩ : a = a' ∧ s' = s'' := by simpa using h
  exact ⟨hinv, t, he, hlow⟩

lemma error (hr : r = .error e) (hlow : ¬ (s.table pid).Lowest) (he : FdTable.CursorFault e) :
    Keeps pid s r := by
  subst hr
  refine ⟨?_, fun h => absurd h hlow, ?_⟩
  · intro a s' h
    cases h
  · intro e' he'
    cases he'
    exact he

lemma unchanged (h : s.Calls pid) (a : α) : Keeps pid s (.ok (a, s)) :=
  ok rfl h.inv h.edits_self fun hlow => hlow

lemma bind {f : α × Descriptors → Except Fault (β × Descriptors)} (h : Keeps pid s r)
    (hf : ∀ a s' t, s'.Inv → Edits pid t s s' → ((s.table pid).Lowest → t.Lowest) →
      Keeps pid s' (f (a, s'))) : Keeps pid s (r >>= f) := by
  refine ⟨?_, ?_, ?_⟩
  · intro b s'' hok
    obtain ⟨⟨a, s'⟩, ha, hb⟩ := bind_eq_ok.mp hok
    obtain ⟨hinv, t, he, hlow⟩ := h.keeps a s' ha
    obtain ⟨hinv', t', he', hlow'⟩ := (hf a s' t hinv he hlow).keeps b s'' hb
    refine ⟨hinv', t', he.trans he', fun hl => hlow' ?_⟩
    rw [he.table]
    exact hlow hl
  · intro hl
    obtain ⟨a, s', ha⟩ := h.returns hl
    obtain ⟨hinv, t, he, hlow⟩ := h.keeps a s' ha
    obtain ⟨b, s'', hb⟩ := (hf a s' t hinv he hlow).returns (by rw [he.table]; exact hlow hl)
    exact ⟨b, s'', bind_eq_ok.mpr ⟨_, ha, hb⟩⟩
  · intro e he
    rcases hr : r with e' | ⟨a, s'⟩
    · rw [hr] at he
      cases he
      exact h.fault _ hr
    · rw [hr] at he
      obtain ⟨hinv, t, hed, hlow⟩ := h.keeps a s' hr
      exact (hf a s' t hinv hed hlow).fault e he

end Keeps

lemma Calls.close (h : s.Calls pid) (fd : ℤ) : Keeps pid s (s.close pid fd) := by
  obtain ⟨r, s', hok, hinv, hpend, hprocs⟩ := h.inv.close h.idle fd
  by_cases hopen : (0 ≤ fd ∧ fd < maxFdPerProcess) ∧ ((s.table pid).slots fd.toNat).isSome
  · rw [if_pos hopen] at hprocs
    exact .ok hok hinv ⟨hprocs, hpend⟩ fun hlow => hlow.release (by omega)
  · rw [if_neg hopen] at hprocs
    refine .ok hok hinv ⟨?_, hpend⟩ fun hlow => hlow
    rw [hprocs, ← h.procs_eq, Function.update_eq_self]

/-- The table of a process that reserved its lowest descriptor. -/
def reserved (s : Descriptors) (pid : ℕ) : FdTable :=
  { s.table pid with lowestFreeFd := (s.table pid).nextFree ((s.table pid).lowestFreeFd + 1) }

lemma getFreeFd_cases (s : Descriptors) (pid : ℕ) :
    (∃ e, s.getFreeFd pid = .error e ∧ ¬ (s.table pid).CursorFree ∧ FdTable.CursorFault e) ∨
      (s.getFreeFd pid = .ok (none, s.setTable pid (s.table pid))) ∨
      ((s.table pid).lowestFreeFd < maxFdPerProcess ∧
        (s.table pid).slots (s.table pid).lowestFreeFd = none ∧
        s.getFreeFd pid =
          .ok (some (s.table pid).lowestFreeFd, s.setTable pid (s.reserved pid))) := by
  unfold Descriptors.getFreeFd
  rcases (s.table pid).getFreeFd_cases with ⟨e, he, hlow, hfault⟩ | ⟨hfull, hok⟩ | ⟨hlt, hslot, hok⟩
  · exact Or.inl ⟨e, by rw [he]; rfl, hlow, hfault⟩
  · exact Or.inr (Or.inl (by rw [hok]; rfl))
  · exact Or.inr (Or.inr ⟨hlt, hslot, by rw [hok]; rfl⟩)

lemma Calls.reserve (h : s.Calls pid) : (s.setTable pid (s.reserved pid)).Calls pid ∧
    Edits pid (s.reserved pid) s (s.setTable pid (s.reserved pid)) := by
  obtain ⟨hinv, hedit⟩ := h.inv.setTable h.idle (t := s.reserved pid) fun _ => rfl
  exact ⟨h.edit hinv hedit, hedit⟩

lemma Calls.unreserve {v : FileTable} (h : s.Calls pid)
    (hlt : (s.table pid).lowestFreeFd < maxFdPerProcess)
    (hslot : (s.table pid).slots (s.table pid).lowestFreeFd = none)
    (hv : Inv { s.setTable pid (s.reserved pid) with vfs := v }) :
    ∃ s', Descriptors.releaseFd pid (s.table pid).lowestFreeFd
        { s.setTable pid (s.reserved pid) with vfs := v } = .ok s' ∧ s'.Inv ∧
      Edits pid (s.table pid) s s' := by
  obtain ⟨s', hok, hinv, he⟩ := hv.releaseFd h.idle (s.table pid).lowestFreeFd
  have htable : Descriptors.table { s.setTable pid (s.reserved pid) with vfs := v } pid =
      s.reserved pid := table_setTable
  rw [htable, reserved, FdTable.release_reserved hslot hlt] at he
  exact ⟨s', hok, hinv, h.reserve.2.trans ⟨he.procs, he.quiet.pending, he.quiet.known⟩⟩

lemma Calls.fillReserved {v : FileTable} (h : s.Calls pid) (sysFd : ℕ)
    (hlt : (s.table pid).lowestFreeFd < maxFdPerProcess)
    (hslot : (s.table pid).slots (s.table pid).lowestFreeFd = none)
    (hv : Inv { s.setTable pid (s.reserved pid) with vfs := v }) (hopen : (v.files sysFd).isSome) :
    ∃ s', Descriptors.install pid (s.table pid).lowestFreeFd
        { fd := (s.table pid).lowestFreeFd, sysFd } { s.setTable pid (s.reserved pid) with vfs := v } =
        .ok s' ∧ s'.Inv ∧ Edits pid ((s.reserved pid).setSlot (s.table pid).lowestFreeFd
          (some { fd := (s.table pid).lowestFreeFd, sysFd })) s s' := by
  have htable : Descriptors.table { s.setTable pid (s.reserved pid) with vfs := v } pid =
      s.reserved pid := table_setTable
  obtain ⟨s', hok, hinv, he, -⟩ := hv.install h.idle (h.mem_allSlots hlt)
    (d := { fd := (s.table pid).lowestFreeFd, sysFd }) (by rw [htable]; exact hslot) rfl hopen
  rw [htable] at he
  exact ⟨s', hok, hinv, h.reserve.2.trans ⟨he.procs, he.quiet.pending, he.quiet.known⟩⟩

lemma Calls.openFile (h : s.Calls pid) (err : Option OpenError) :
    Keeps pid s (s.openFile pid err) := by
  unfold Descriptors.openFile
  rcases s.getFreeFd_cases pid with ⟨e, he, hcur, hfault⟩ | hok | ⟨hlt, hslot, hok⟩
  · exact .error (by rw [he]; rfl) (fun hlow => hcur hlow.cursorFree) hfault
  · obtain ⟨hinv, hedit⟩ := h.inv.setTable h.idle (t := s.table pid) fun _ => rfl
    exact .ok (by rw [hok]; rfl) hinv hedit fun hlow => hlow
  · rw [hok]
    rcases hopen : s.vfs.openFile err with ⟨e | sysFd, v⟩
    · obtain ⟨hfiles, hpipes, -⟩ := FileTable.openFile_error hopen
      obtain ⟨s', hok', hinv', he'⟩ := h.unreserve hlt hslot (h.reserve.1.inv.setVfs hfiles hpipes)
      refine .ok (a := e) ?_ hinv' he' fun hlow => hlow
      simp only [bind, Except.bind, show (s.setTable pid _).vfs = s.vfs from rfl, hopen]
      simp only [hok']
    · obtain ⟨-, hnone, hfiles, hpipes⟩ := FileTable.openFile_spec hopen
      have hinv := h.reserve.1.inv.addFile hnone (k := .file) (by simp) hfiles hpipes
      obtain ⟨s', hok', hinv', he'⟩ := h.fillReserved sysFd hlt hslot hinv (by simp [hfiles])
      refine .ok (a := ((s.table pid).lowestFreeFd : ℤ)) ?_ hinv' he' fun hlow => hlow.reserve hlt
      simp only [bind, Except.bind, show (s.setTable pid _).vfs = s.vfs from rfl, hopen]
      simp only [hok']

lemma Calls.dup (h : s.Calls pid) (oldFd : ℤ) : Keeps pid s (s.dup pid oldFd) := by
  unfold Descriptors.dup
  rw [h.inv.procToSysFd]
  rcases hold : (if 0 ≤ oldFd ∧ oldFd < maxFdPerProcess then s.sysFdAt (pid, oldFd.toNat) else none)
    with _ | sysFd
  · exact .unchanged h _
  have hopen : (s.vfs.files sysFd).isSome := by
    split_ifs at hold
    exact h.inv.files.opened _ _ hold
  simp only [bind, Except.bind]
  rcases s.getFreeFd_cases pid with ⟨e, he, hcur, hfault⟩ | hok | ⟨hlt, hslot, hok⟩
  · exact .error (by rw [he]) (fun hlow => hcur hlow.cursorFree) hfault
  · obtain ⟨hinv, hedit⟩ := h.inv.setTable h.idle (t := s.table pid) fun _ => rfl
    exact .ok (by rw [hok]) hinv hedit fun hlow => hlow
  · obtain ⟨s', hok', hinv', he'⟩ :=
      h.fillReserved sysFd hlt hslot (v := s.vfs) h.reserve.1.inv hopen
    refine .ok (a := ((s.table pid).lowestFreeFd : ℤ)) ?_ hinv' he' fun hlow => hlow.reserve hlt
    have hok' : Descriptors.install pid (s.table pid).lowestFreeFd
        { fd := (s.table pid).lowestFreeFd, sysFd } (s.setTable pid (s.reserved pid)) = .ok s' := hok'
    simp only [hok, hok']

lemma Calls.freeTarget {newFd : ℤ} (h : s.Calls pid) (hnew : 0 ≤ newFd ∧ newFd < maxFdPerProcess) :
    ∃ s₁ t₁, (if ((s.table pid).slots newFd.toNat).isSome then (s.close pid newFd).map Prod.snd
        else .ok s) = .ok s₁ ∧ s₁.Inv ∧ Edits pid t₁ s s₁ ∧ t₁.slots newFd.toNat = none ∧
      (∀ j, j ≠ newFd.toNat → t₁.slots j = (s.table pid).slots j) ∧
      ((s.table pid).Lowest → t₁.Lowest) := by
  by_cases hused : ((s.table pid).slots newFd.toNat).isSome
  · obtain ⟨r, s₁, hok, hinv, hpend, hprocs⟩ := h.inv.close h.idle newFd
    rw [if_pos ⟨hnew, hused⟩] at hprocs
    refine ⟨s₁, _, ?_, hinv, ⟨hprocs, hpend⟩, ?_, ?_, fun hlow => hlow.release (by omega)⟩
    · rw [if_pos hused, hok]
      rfl
    · simp [FdTable.release, FdTable.setSlot]
    · intro j hj
      simp [FdTable.release, FdTable.setSlot, hj]
  · refine ⟨s, _, if_neg hused, h.inv, h.edits_self, by simpa using hused, fun _ _ => rfl, ?_⟩
    intro hlow
    exact hlow

lemma Calls.dup2 (h : s.Calls pid) (oldFd newFd : ℤ)
    (hrange : (0 ≤ oldFd ∧ oldFd < maxFdPerProcess) → ((s.table pid).slots oldFd.toNat).isSome →
      oldFd ≠ newFd → 0 ≤ newFd ∧ newFd < maxFdPerProcess) :
    Keeps pid s (s.dup2 pid oldFd newFd) := by
  unfold Descriptors.dup2
  rw [h.inv.procToSysFd]
  rcases hold : (if 0 ≤ oldFd ∧ oldFd < maxFdPerProcess then s.sysFdAt (pid, oldFd.toNat) else none)
    with _ | sysFd
  · exact .unchanged h _
  split_ifs at hold with hin
  obtain ⟨d, hd, rfl⟩ := Option.map_eq_some_iff.mp hold
  simp only [bind, Except.bind]
  by_cases hne : oldFd = newFd
  · rw [if_pos hne]
    exact .unchanged h _
  have hnew := hrange hin (by simp [hd]) hne
  rw [if_neg hne, if_neg (not_not.mpr hnew)]
  have hlt : newFd.toNat < maxFdPerProcess := by omega
  obtain ⟨s₁, t₁, hok₁, hinv₁, he₁, hnone₁, hother₁, hlow₁⟩ := h.freeTarget hnew
  have hcalls₁ := h.edit hinv₁ he₁
  have hopen : (s₁.vfs.files d.sysFd).isSome := by
    refine hinv₁.files.opened (pid, oldFd.toNat) _ ?_
    rw [sysFdAt, he₁.table, hother₁ _ (by omega), hd]
    rfl
  obtain ⟨s₂, hok₂, hinv₂, he₂, -⟩ := hinv₁.install hcalls₁.idle (hcalls₁.mem_allSlots hlt)
    (d := { fd := newFd.toNat, sysFd := d.sysFd }) (by rw [he₁.table]; exact hnone₁) rfl hopen
  rw [he₁.table] at he₂
  have hcalls₂ := hcalls₁.edit hinv₂ he₂
  obtain ⟨hinv₃, he₃⟩ := hinv₂.setTable hcalls₂.idle
    (t := { s₂.table pid with lowestFreeFd := (s₂.table pid).nextFree (s₂.table pid).lowestFreeFd })
    fun _ => rfl
  refine .ok (a := newFd) ?_ hinv₃ ((he₁.trans he₂).trans he₃) ?_
  · split_ifs at hok₁ ⊢
    · simp only [hok₁, hok₂]
    · obtain rfl : s = s₁ := by simpa using hok₁
      simp only [hok₂]
  · intro hlow
    rw [he₂.table]
    exact (hlow₁ hlow).fill

lemma setTable_setTable {t' : FdTable} :
    (s.setTable pid t).setTable pid t' = s.setTable pid t' := by
  simp [setTable]

lemma Calls.pipe (h : s.Calls pid) : Keeps pid s (s.pipe pid) := by
  unfold Descriptors.pipe
  rcases s.getFreeFd_cases pid with ⟨e, he, hcur, hfault⟩ | hok | ⟨hlt, hslot, hok⟩
  · exact .error (by rw [he]; rfl) (fun hlow => hcur hlow.cursorFree) hfault
  · obtain ⟨hinv, hedit⟩ := h.inv.setTable h.idle (t := s.table pid) fun _ => rfl
    exact .ok (by rw [hok]; rfl) hinv hedit fun hlow => hlow
  simp only [hok, bind, Except.bind]
  obtain ⟨h₁, he₁⟩ := h.reserve
  rcases (s.setTable pid (s.reserved pid)).getFreeFd_cases pid with
    ⟨e, he, hcur, -⟩ | hok₁ | ⟨hlt₁, hslot₁, hok₁⟩
  · rw [table_setTable] at hcur
    exact absurd (FdTable.cursorFree_reserved hlt) hcur
  · -- there is no second descriptor
    rw [table_setTable, setTable_setTable] at hok₁
    obtain ⟨s', hok', hinv', he'⟩ := h.unreserve hlt hslot (v := s.vfs) h₁.inv
    have hok' : Descriptors.releaseFd pid (s.table pid).lowestFreeFd
        (s.setTable pid (s.reserved pid)) = .ok s' := hok'
    refine .ok (a := -emfile) ?_ hinv' he' fun hlow => hlow
    simp only [hok₁, hok']
  rw [table_setTable] at hlt₁ hslot₁ hok₁
  obtain ⟨h₂, he₂⟩ := h₁.reserve
  have htable : ((s.setTable pid (s.reserved pid)).setTable pid
      ((s.setTable pid (s.reserved pid)).reserved pid)).table pid = { s.table pid with
        lowestFreeFd := (s.table pid).nextFree ((s.reserved pid).lowestFreeFd + 1) } := by
    rw [table_setTable, reserved, table_setTable]
    rfl
  generalize hs₂ : (s.setTable pid (s.reserved pid)).setTable pid
    ((s.setTable pid (s.reserved pid)).reserved pid) = s₂ at *
  have hvfs : s₂.vfs = s.vfs := by rw [← hs₂]; rfl
  have he := he₁.trans he₂
  have hnext := (s.table pid).nextFree_spec (i := (s.table pid).lowestFreeFd + 1) hlt
  have hnext' := (s.table pid).nextFree_spec (i := (s.reserved pid).lowestFreeFd + 1) hlt₁
  simp only [hok₁]
  rcases hpipe : s₂.vfs.pipe with ⟨_ | ⟨sysRfd, sysWfd⟩, v⟩
  · -- both descriptors are given back
    obtain ⟨hfiles, hpipes⟩ := FileTable.pipe_none hpipe
    have h₃ := h₂.inv.setVfs hfiles hpipes
    obtain ⟨s₄, hok₄, hinv₄, he₄⟩ := h₃.releaseFd h₂.idle (s.table pid).lowestFreeFd
    have hcalls₄ := h₂.edit hinv₄ ⟨he₄.procs, he₄.quiet.pending, he₄.quiet.known⟩
    obtain ⟨s₅, hok₅, hinv₅, he₅⟩ := hinv₄.releaseFd hcalls₄.idle (s.reserved pid).lowestFreeFd
    have ht : ((Descriptors.table { s₂ with vfs := v } pid).release
        (s.table pid).lowestFreeFd).release (s.reserved pid).lowestFreeFd = s.table pid := by
      rw [show Descriptors.table { s₂ with vfs := v } pid = s₂.table pid from rfl, htable]
      exact FdTable.release_release_reserved hslot hslot₁ hnext.1 (le_trans (Nat.le_succ _) hnext'.1)
    rw [he₄.table, ht] at he₅
    refine .ok (a := -enfile) ?_ hinv₅
      (he.trans (Edits.trans ⟨he₄.procs, he₄.quiet.pending, he₄.quiet.known⟩ he₅))
      fun hlow => hlow
    simp only [hok₄, hok₅]
  · have h₃ := h₂.inv.addPipe hpipe
    obtain ⟨hne, -, -, hfiles, -⟩ := FileTable.pipe_spec hpipe
    have htable₃ : Descriptors.table { s₂ with vfs := v } pid = s₂.table pid := rfl
    obtain ⟨s₄, hok₄, hinv₄, he₄, -, hopen₄⟩ := h₃.install h₂.idle (h.mem_allSlots hlt)
      (d := { fd := (s.table pid).lowestFreeFd, sysFd := sysRfd })
      (by rw [htable₃, htable]; exact hslot) rfl (by simp [hfiles, hne])
    have hcalls₄ := h₂.edit hinv₄ ⟨he₄.procs, he₄.quiet.pending, he₄.quiet.known⟩
    have hslot₄ : (s₄.table pid).slots (s.reserved pid).lowestFreeFd = none := by
      have hlt' : (s.table pid).lowestFreeFd < (s.reserved pid).lowestFreeFd := hnext.1
      rw [he₄.table, slots_setSlot_ne hlt'.ne', htable₃, htable]
      exact hslot₁
    obtain ⟨s₅, hok₅, hinv₅, he₅, -⟩ := hinv₄.install hcalls₄.idle (h.mem_allSlots hlt₁)
      (d := { fd := (s.reserved pid).lowestFreeFd, sysFd := sysWfd }) hslot₄ rfl
      (by rw [hopen₄]; simp [hfiles])
    rw [he₄.table, htable₃, htable] at he₅
    refine .ok (a := 0) ?_ hinv₅
      (he.trans (Edits.trans ⟨he₄.procs, he₄.quiet.pending, he₄.quiet.known⟩ he₅)) ?_
    · simp only [hok₄, hok₅]
    · intro hlow
      exact hlow.reserve_two rfl hlt hlt₁

lemma Calls.setCloExec (h : s.Calls pid) (fd : ℤ) (cloExec : Bool) :
    Keeps pid s (s.setCloExec pid fd cloExec) := by
  unfold Descriptors.setCloExec
  rw [h.inv.procToSysFd]
  rcases (if 0 ≤ fd ∧ fd < maxFdPerProcess then s.sysFdAt (pid, fd.toNat) else none) with _ | sysFd
  · exact .unchanged h _
  set t := (s.table pid).setSlot fd.toNat
    (((s.table pid).slots fd.toNat).map fun d => { d with cloExec }) with ht
  have hslots : ∀ j, (t.slots j).map FileDescriptor.sysFd =
      ((s.table pid).slots j).map FileDescriptor.sysFd ∧
      (∀ d, t.slots j = some d → ∃ d', (s.table pid).slots j = some d' ∧ d'.fd = d.fd) := by
    intro j
    rcases eq_or_ne j fd.toNat with rfl | hj
    · rcases hslot : (s.table pid).slots fd.toNat with _ | d
      · simp [ht, FdTable.setSlot, hslot]
      · simp [ht, FdTable.setSlot, hslot]
    · have hsame : t.slots j = (s.table pid).slots j := slots_setSlot_ne hj
      rw [hsame]
      exact ⟨rfl, fun d hd => ⟨d, hd, rfl⟩⟩
  have he : Edits pid t s (s.setTable pid t) := ⟨rfl, rfl, fun _ => Iff.rfl⟩
  have hfiles : (s.setTable pid t).Files := by
    refine h.inv.files.congr_sysFdAt ?_ ?_ rfl
    · funext x
      rcases x with ⟨q, j⟩
      rcases eq_or_ne q pid with rfl | hq
      · simp only [sysFdAt, he.table, (hslots j).1]
      · simp only [sysFdAt, he.table_ne hq]
    · intro q j d hd
      rcases eq_or_ne q pid with rfl | hq
      · rw [he.table] at hd
        exact (hslots j).2 d hd
      · rw [he.table_ne hq] at hd
        exact ⟨d, hd, rfl⟩
  have hsome : ∀ j, (t.slots j).isSome = ((s.table pid).slots j).isSome := by
    intro j
    have := congrArg Option.isSome (hslots j).1
    simpa using this
  refine .ok rfl ⟨hfiles, h.inv.pipes, h.inv.waits.edit h.idle rfl rfl rfl he
    (fun _ _ hk => hk) fun _ _ hp => hp⟩ he ?_
  intro hlow
  refine ⟨hlow.le, ?_, ?_⟩
  · intro j hj
    rw [hsome]
    exact hlow.used j hj
  · intro hlt
    have hnone := hsome (s.table pid).lowestFreeFd
    rw [hlow.free hlt] at hnone
    show t.slots (s.table pid).lowestFreeFd = none
    simpa using hnone

end Descriptors

end BrebOS
