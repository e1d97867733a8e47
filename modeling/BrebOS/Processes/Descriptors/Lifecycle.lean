import BrebOS.Processes.Descriptors.Calls

/-!
# Processes and their descriptors

A new process has terminals for descriptors 0 to 2, as far as the table of open files has room.
`fork` puts the descriptors of the parent over them, and copies the cursor of the parent: where the
parent has no descriptor the terminal stays, and the cursor is wrong.
-/

namespace BrebOS

namespace FdTable

lemma lowestEmpty_spec (t : FdTable) : ∀ n init,
    (t.lowestEmpty n init = init ∧ ∀ i < n, (t.slots i).isSome) ∨
      (t.lowestEmpty n init < n ∧ t.slots (t.lowestEmpty n init) = none ∧
        ∀ i < t.lowestEmpty n init, (t.slots i).isSome)
  | 0, init => Or.inl ⟨rfl, by simp⟩
  | n + 1, init => by
      have hstep : t.lowestEmpty (n + 1) init =
          t.lowestEmpty n (if (t.slots n).isNone then n else init) := by
        simp [lowestEmpty, List.range_succ]
      rw [hstep]
      rcases t.lowestEmpty_spec n (if (t.slots n).isNone then n else init) with ⟨heq, hused⟩ | hfound
      · rw [heq]
        rcases hn : t.slots n with _ | d
        · refine Or.inr ⟨by simp, by simpa using hn, by simpa using hused⟩
        · refine Or.inl ⟨by simp, fun i hi => ?_⟩
          rcases Nat.lt_succ_iff_lt_or_eq.mp hi with hi | rfl
          · exact hused i hi
          · simp [hn]
      · exact Or.inr ⟨by omega, hfound.2⟩

end FdTable

namespace Descriptors

variable {s s' : Descriptors} {pid child i : ℕ} {t : FdTable}

lemma table_of_none (h : s.procs pid = none) : s.table pid = {} := by simp [table, h]

lemma Inv.create (h : s.Inv) (hnone : s.procs pid = none) (hle : pid ≤ maxProcesses) :
    (s.setTable pid {}).Calls pid ∧ Edits pid {} s (s.setTable pid {}) := by
  have hidle : s.pending pid = none := by
    by_contra hcon
    obtain ⟨x, hx⟩ := Option.ne_none_iff_exists'.mp hcon
    obtain ⟨i, hi⟩ := h.waits.holds pid x hx
    simp [sysFdAt, table_of_none hnone] at hi
  obtain ⟨hinv, he⟩ := h.setTable hidle (t := {}) fun i => by rw [table_of_none hnone]
  exact ⟨⟨hinv, hidle, by simp [he.procs], hle⟩, he⟩

/-- The table of a process after some of its terminals were opened: as many as there was room
for. -/
structure Ttys (n room : ℕ) (t : FdTable) : Prop where
  cursor : t.lowestFreeFd = 3
  opened : ∀ i < n, (t.slots i).isSome ↔ i < room
  unopened : ∀ i, n ≤ i → t.slots i = none

lemma Calls.openTtys_from (room : ℕ) : ∀ {k n : ℕ} {s : Descriptors}, s.Calls pid → n + k = 3 →
    Ttys n room (s.table pid) → s.vfs.freeFds = room - n →
    ∃ s' t, (List.range' n k).foldlM (openTtyAt pid) s = .ok s' ∧ s'.Inv ∧ Edits pid t s s' ∧
      Ttys 3 room t
  | 0, n, s, h, hn, ht, _ => by
      obtain rfl : n = 3 := by omega
      exact ⟨s, _, rfl, h.inv, h.edits_self, ht⟩
  | k + 1, n, s, h, hn, ht, hfree => by
      rw [List.range'_succ, List.foldlM_cons]
      have hlt : n < maxFdPerProcess := lt_of_lt_of_le (show n < 3 by omega) (by decide)
      rcases hopen : s.vfs.openTty with ⟨_ | fd, v⟩
      · -- no room
        obtain rfl := FileTable.openTty_none hopen
        have hzero := FileTable.openTty_none_freeFds hopen
        have ht' : Ttys (n + 1) room (s.table pid) := by
          refine ⟨ht.cursor, ?_, fun i hi => ht.unopened i (by omega)⟩
          intro i hi
          rcases Nat.lt_succ_iff_lt_or_eq.mp hi with hi | rfl
          · exact ht.opened i hi
          · simp only [ht.unopened i le_rfl, Option.isSome_none, Bool.false_eq_true, false_iff]
            omega
        obtain ⟨s', t', hok', hrest⟩ := openTtys_from room h (by omega : n + 1 + k = 3) ht' (by omega)
        refine ⟨s', t', ?_, hrest⟩
        rw [openTtyAt, hopen]
        exact hok'
      · obtain ⟨-, hnone, hfiles, hpipes⟩ := FileTable.openTty_spec hopen
        have hroom := FileTable.openTty_freeFds hopen
        have hinv := h.inv.addFile hnone (k := .tty) (by simp) hfiles hpipes
        obtain ⟨s₁, hok₁, hinv₁, he₁, hlow₁, hsome₁⟩ := hinv.install h.idle (h.mem_allSlots hlt)
          (d := { fd := n, sysFd := fd }) (ht.unopened n le_rfl) rfl (by simp [hfiles])
        have he₁ : Edits pid ((s.table pid).setSlot n (some { fd := n, sysFd := fd })) s s₁ :=
          ⟨he₁.procs, he₁.quiet.pending, he₁.quiet.known⟩
        have ht' : Ttys (n + 1) room (s₁.table pid) := by
          rw [he₁.table]
          refine ⟨ht.cursor, ?_, ?_⟩
          · intro i hi
            rcases Nat.lt_succ_iff_lt_or_eq.mp hi with hi | rfl
            · rw [slots_setSlot_ne hi.ne]
              exact ht.opened i hi
            · simp only [slots_setSlot, Option.isSome_some, true_iff]
              omega
          · intro i hi
            rw [slots_setSlot_ne (by omega)]
            exact ht.unopened i (by omega)
        have hfree₁ : s₁.vfs.freeFds = room - (n + 1) := by
          rw [FileTable.freeFds_congr hlow₁ hsome₁]
          show v.freeFds = _
          omega
        obtain ⟨s', t', hok', hinv', he', ht''⟩ :=
          openTtys_from room (h.edit hinv₁ he₁) (by omega : n + 1 + k = 3) ht' hfree₁
        refine ⟨s', t', ?_, hinv', he₁.trans he', ht''⟩
        simp only [openTtyAt, hopen, hok₁, bind, Except.bind]
        exact hok'

lemma Inv.newProcess (h : s.Inv) (hnone : s.procs pid = none) (hle : pid ≤ maxProcesses) :
    ∃ s' t, s.newProcess pid = .ok s' ∧ s'.Inv ∧ Edits pid t s s' ∧ t.Lowest ∧
      (∀ i < 3, (t.slots i).isSome ↔ i < s.vfs.freeFds) ∧ ∀ i, 3 ≤ i → t.slots i = none := by
  obtain ⟨hcalls, he⟩ := h.create hnone hle
  have ht : Ttys 0 s.vfs.freeFds ((s.setTable pid {}).table pid) := by
    rw [table_setTable]
    exact ⟨rfl, by simp, fun _ _ => rfl⟩
  obtain ⟨s₁, t₁, hok₁, hinv₁, he₁, htty⟩ := hcalls.openTtys_from (k := 3) s.vfs.freeFds rfl ht rfl
  have hcalls₁ := hcalls.edit hinv₁ he₁
  obtain ⟨hinv₂, he₂⟩ := hinv₁.setTable hcalls₁.idle
    (t := { s₁.table pid with lowestFreeFd := (s₁.table pid).lowestEmpty 3 (s₁.table pid).lowestFreeFd })
    fun _ => rfl
  refine ⟨_, _, ?_, hinv₂, (he.trans he₁).trans he₂, ?_, ?_, ?_⟩
  · rw [Descriptors.newProcess, List.range_eq_range', hok₁]
    rfl
  · rw [he₁.table]
    have hcursor := htty.cursor
    rcases t₁.lowestEmpty_spec 3 t₁.lowestFreeFd with ⟨heq, hused⟩ | ⟨hlt, hfree, hused⟩
    · refine ⟨?_, ?_, ?_⟩
      · show t₁.lowestEmpty 3 _ ≤ _
        rw [heq, hcursor]
        decide
      · intro i hi
        have hi : i < t₁.lowestEmpty 3 t₁.lowestFreeFd := hi
        exact hused i (by omega)
      · intro _
        show t₁.slots (t₁.lowestEmpty 3 t₁.lowestFreeFd) = none
        exact htty.unopened _ (by omega)
    · refine ⟨?_, hused, fun _ => hfree⟩
      exact le_of_lt (lt_trans hlt (by decide))
  · rw [he₁.table]
    exact htty.opened
  · rw [he₁.table]
    exact htty.unopened

/-! ## `fork` -/

lemma Calls.closeSlot (h : s.Calls pid) {d : FileDescriptor} (hd : (s.table pid).slots i = some d) :
    ∃ s', (s.close pid d.fd).map Prod.snd = .ok s' ∧ s'.Inv ∧
      Edits pid ((s.table pid).release i) s s' := by
  obtain ⟨hmem, hfd⟩ := h.inv.files.index pid i d hd
  have hi : i < maxFdPerProcess := by
    simp only [allSlots, Finset.mem_product, Finset.mem_range] at hmem
    exact hmem.2
  obtain ⟨r, s', hok, hinv, hquiet, hprocs⟩ := h.inv.close h.idle d.fd
  have htoNat : ((d.fd : ℕ) : ℤ).toNat = i := by omega
  rw [htoNat, if_pos ⟨by omega, by simp [hd]⟩] at hprocs
  exact ⟨s', by rw [hok]; rfl, hinv, hprocs, hquiet⟩

lemma Calls.copyFd (h : s.Calls child) (hne : pid ≠ child) (hi : i < maxFdPerProcess) :
    ∃ s' t, s.copyFd pid child i = .ok s' ∧ s'.Inv ∧ Edits child t s s' ∧
      ∀ j, t.slots j = if j = i then ((s.table pid).slots j).or ((s.table child).slots j)
        else (s.table child).slots j := by
  unfold Descriptors.copyFd
  rcases hd : (s.table pid).slots i with _ | d
  · refine ⟨s, _, rfl, h.inv, h.edits_self, ?_⟩
    intro j
    split_ifs with hj
    · subst hj
      rw [hd]
      rfl
    · rfl
  have hfd := (h.inv.files.index pid i d hd).2
  have hfilled : ∀ {s₁ : Descriptors} {t₁ : FdTable}, s₁.Inv → Edits child t₁ s s₁ →
      t₁.slots i = none → (∀ j, j ≠ i → t₁.slots j = (s.table child).slots j) →
      ∃ s' t, s₁.install child i { fd := d.fd, sysFd := d.sysFd, cloExec := d.cloExec } = .ok s' ∧
        s'.Inv ∧ Edits child t s s' ∧ ∀ j, t.slots j =
          if j = i then ((s.table pid).slots j).or ((s.table child).slots j)
          else (s.table child).slots j := by
    intro s₁ t₁ hinv₁ he₁ hslot hother
    have hcalls₁ := h.edit hinv₁ he₁
    have hopen : (s₁.vfs.files d.sysFd).isSome := by
      refine hinv₁.files.opened (pid, i) _ ?_
      rw [sysFdAt, he₁.table_ne hne, hd]
      rfl
    obtain ⟨s', hok', hinv', he', -⟩ := hinv₁.install hcalls₁.idle (hcalls₁.mem_allSlots hi)
      (d := { fd := d.fd, sysFd := d.sysFd, cloExec := d.cloExec })
      (by rw [he₁.table]; exact hslot) hfd hopen
    refine ⟨s', _, hok', hinv', he₁.trans he', ?_⟩
    intro j
    rw [he₁.table]
    split_ifs with hj
    · subst hj
      rw [slots_setSlot, hd]
      rfl
    · rw [slots_setSlot_ne hj]
      exact hother j hj
  rcases hd' : (s.table child).slots i with _ | d'
  · obtain ⟨s', t, hok, hrest⟩ := hfilled h.inv h.edits_self hd' fun _ _ => rfl
    exact ⟨s', t, hok, hrest⟩
  · obtain ⟨s₁, hok₁, hinv₁, he₁⟩ := h.closeSlot hd'
    obtain ⟨s', t, hok, hrest⟩ := hfilled hinv₁ he₁ (by simp [FdTable.release, FdTable.setSlot])
      fun j hj => by simp [FdTable.release, FdTable.setSlot, hj]
    refine ⟨s', t, ?_, hrest⟩
    simp only [hok₁, bind, Except.bind]
    exact hok

lemma Calls.copyFds_from : ∀ {k n : ℕ} {s : Descriptors}, s.Calls child → pid ≠ child →
    n + k = maxFdPerProcess →
    ∃ s' t, (List.range' n k).foldlM (Descriptors.copyFd pid child) s = .ok s' ∧ s'.Inv ∧
      Edits child t s s' ∧ ∀ j, t.slots j =
        if n ≤ j then ((s.table pid).slots j).or ((s.table child).slots j)
        else (s.table child).slots j
  | 0, n, s, h, hne, hn => by
      refine ⟨s, _, rfl, h.inv, h.edits_self, ?_⟩
      intro j
      split_ifs with hj
      · -- no process has a descriptor that high
        rcases hd : (s.table pid).slots j with _ | d
        · rfl
        · have hmem := (h.inv.files.index pid j d hd).1
          simp only [allSlots, Finset.mem_product, Finset.mem_range] at hmem
          omega
      · rfl
  | k + 1, n, s, h, hne, hn => by
      obtain ⟨s₁, t₁, hok₁, hinv₁, he₁, hslots₁⟩ := h.copyFd hne (by omega : n < maxFdPerProcess)
      obtain ⟨s', t, hok', hinv', he', hslots'⟩ :=
        copyFds_from (h.edit hinv₁ he₁) hne (by omega : n + 1 + k = maxFdPerProcess)
      refine ⟨s', t, ?_, hinv', he₁.trans he', ?_⟩
      · rw [List.range'_succ, List.foldlM_cons, hok₁]
        exact hok'
      · intro j
        rw [hslots', he₁.table, he₁.table_ne hne, hslots₁]
        rcases Nat.lt_trichotomy j n with hlt | rfl | hgt
        · rw [if_neg (by omega), if_neg (by omega), if_neg (by omega)]
        · rw [if_neg (by omega), if_pos rfl, if_pos le_rfl]
        · rw [if_pos (by omega), if_neg (by omega), if_pos (by omega)]

lemma Inv.not_known (h : s.Inv) (hnone : s.procs pid = none) :
    ¬ (pid ∈ s.ready ∨ pid ∈ s.waitingPids) := by
  rintro (hmem | hmem)
  · simpa [hnone] using h.waits.live pid hmem
  · obtain ⟨w, hw, rfl⟩ := List.mem_map.mp hmem
    obtain ⟨fd, id, p, hpend, -⟩ := h.waits.entry w hw
    obtain ⟨i, hi⟩ := h.waits.holds _ _ hpend
    simp [sysFdAt, table_of_none hnone] at hi

lemma Calls.setReady (h : s.Calls pid) (hnew : ¬ (pid ∈ s.ready ∨ pid ∈ s.waitingPids)) :
    (s.setReady pid).Inv ∧ (s.setReady pid).pending = s.pending := by
  rw [not_or] at hnew
  have hpending : (s.setReady pid).pending = s.pending := Function.update_eq_self_iff.mpr h.idle.symm
  have hflag : (s.setReady pid).waitingRead = s.waitingRead := by
    refine Function.update_eq_self_iff.mpr ?_
    have hfalse : s.waitingRead pid = false := by
      simpa using (h.inv.waits.flag pid).not.mpr hnew.2
    exact hfalse.symm
  refine ⟨⟨h.inv.files.congr (fun _ _ => rfl) rfl, h.inv.pipes, ?_⟩, hpending⟩
  have hw := h.inv.waits
  refine ⟨hw.nodup, ?_, ?_, ?_, ?_, ?_, ?_, ?_⟩
  · refine List.nodup_append'.mpr ⟨hw.ready, List.nodup_singleton _, ?_⟩
    simpa using hnew.1
  · intro q hq
    rcases List.mem_append.mp hq with hq | hq
    · exact hw.live q hq
    · rw [List.mem_singleton.mp hq]
      exact h.live
  · rw [hflag]
    exact hw.flag
  · intro q hq hq'
    rcases List.mem_append.mp hq' with hq' | hq'
    · exact hw.notReady q hq hq'
    · rw [List.mem_singleton.mp hq'] at hq
      exact hnew.2 hq
  · rw [hpending]
    exact hw.holds
  · rw [hpending]
    intro q x hx
    rcases hw.pending q x hx with hq | hq
    · exact Or.inl (List.mem_append_left _ hq)
    · exact Or.inr hq
  · rintro w hmem
    obtain ⟨fd, id, p, hpend, hrest⟩ := hw.entry w hmem
    exact ⟨fd, id, p, by rw [hpending]; exact hpend, hrest⟩

lemma Calls.fork (h : s.Calls pid) (hfree : s.FreePid child) :
    ∃ s' t, s.fork pid child = .ok (child, s') ∧ s'.Inv ∧
      s'.procs = Function.update s.procs child (some t) ∧ s'.pending = s.pending ∧
      t.lowestFreeFd = (s.table pid).lowestFreeFd ∧
      (∀ i, (s.table pid).slots i ≠ none → t.slots i = (s.table pid).slots i) ∧
      (∀ i, (s.table pid).slots i = none → ((t.slots i).isSome ↔ i < 3 ∧ i < s.vfs.freeFds)) := by
  obtain ⟨hlt, hnone⟩ := hfree
  have hne : pid ≠ child := by
    rintro rfl
    have := h.live
    simp [hnone] at this
  obtain ⟨s₁, t₁, hok₁, hinv₁, he₁, -, htty, hrest⟩ := h.inv.newProcess hnone (le_of_lt hlt)
  have hcalls₁ : s₁.Calls child := by
    have hcreate := (h.inv.create hnone (le_of_lt hlt)).1.idle
    exact ⟨hinv₁, by rw [he₁.pending]; exact hcreate, by simp [he₁.procs], le_of_lt hlt⟩
  obtain ⟨s₂, t₂, hok₂, hinv₂, he₂, hslots₂⟩ :=
    hcalls₁.copyFds_from (k := maxFdPerProcess) (n := 0) hne (Nat.zero_add _)
  have hcalls₂ := hcalls₁.edit hinv₂ he₂
  obtain ⟨hinv₃, he₃⟩ := hinv₂.setTable hcalls₂.idle
    (t := { s₂.table child with lowestFreeFd := (s₂.table pid).lowestFreeFd }) fun _ => rfl
  have he := (he₁.trans he₂).trans he₃
  have hcalls₃ := hcalls₂.edit hinv₃ he₃
  have hnew := (he.quiet.known child).not.mpr (h.inv.not_known hnone)
  obtain ⟨hinv₄, hpending₄⟩ := hcalls₃.setReady hnew
  refine ⟨_, _, ?_, hinv₄, he.procs, hpending₄.trans he.pending, ?_, ?_, ?_⟩
  · simp only [Descriptors.fork, hok₁, List.range_eq_range', hok₂, bind, Except.bind]
  · show (s₂.table pid).lowestFreeFd = _
    rw [he₂.table_ne hne, he₁.table_ne hne]
  · intro i hi
    show (s₂.table child).slots i = _
    rw [he₂.table, hslots₂, if_pos (Nat.zero_le i), he₁.table_ne hne]
    obtain ⟨d, hd⟩ := Option.ne_none_iff_exists'.mp hi
    rw [hd]
    rfl
  · intro i hi
    show ((s₂.table child).slots i).isSome ↔ _
    rw [he₂.table, hslots₂, if_pos (Nat.zero_le i), he₁.table_ne hne, he₁.table, hi, Option.none_or]
    by_cases h3 : i < 3
    · rw [htty i h3]
      simp [h3]
    · rw [hrest i (by omega)]
      simp [h3]

end Descriptors

end BrebOS
