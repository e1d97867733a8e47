import BrebOS.Processes.Descriptors.Lifecycle

/-!
# Loading a program

`exec` and `execve` open the files of a program in the process that calls, and leave them open.  The
replacement that `execve` makes takes over the descriptors that are not `O_CLOEXEC`; a process that
ends closes all of its own.
-/

namespace BrebOS

/-- The descriptor in a slot, if it is not closed by `execve`. -/
def FdTable.keptOnExec (t : FdTable) (i : ℕ) : Option FileDescriptor :=
  (t.slots i).filter fun d => !d.cloExec

namespace Descriptors

variable {s s' : Descriptors} {pid q i : ℕ} {t : FdTable} {d : FileDescriptor}

lemma Calls.loadElfs : ∀ (loads : List ElfLoad) {s : Descriptors}, s.Calls pid →
    Keeps pid s (s.loadElfs pid loads)
  | [], s, h => .unchanged h true
  | load :: loads, s, h => by
      refine Keeps.bind (h.openFile _) ?_
      intro fd s' t hinv he _
      have hcalls := h.edit hinv he
      simp only
      split_ifs with hneg
      · exact .unchanged hcalls false
      cases load with
      | openFails e => exact .unchanged hcalls false
      | readFails =>
        refine (hcalls.close fd).bind ?_
        intro _ s'' t' hinv' he' _
        exact .unchanged (hcalls.edit hinv' he') false
      | invalid => exact .unchanged hcalls false
      | loaded => exact loadElfs loads hcalls

/-! ## `execve` -/

lemma Calls.other (h : s.Calls q) (hne : q ≠ pid) (hinv : s'.Inv) (he : Edits pid t s s') :
    s'.Calls q := by
  refine ⟨hinv, by rw [he.pending]; exact h.idle, ?_, h.le⟩
  rw [he.procs, Function.update_of_ne hne]
  exact h.live

lemma Inv.permute (h : s.Inv) (σ : Equiv.Perm (ℕ × ℕ)) (hσ : ∀ x, x ∈ allSlots ↔ σ x ∈ allSlots)
    (hslots : ∀ x, (s'.table x.1).slots x.2 = (s.table (σ x).1).slots (σ x).2)
    (hindex : ∀ x, (σ x).2 = x.2) (hpending : ∀ q, (s.pending q).isSome → ∀ i, σ (q, i) = (q, i))
    (hvfs : s'.vfs = s.vfs) (hready : s'.ready = s.ready) (hflag : s'.waitingRead = s.waitingRead)
    (hwaiting : s'.waiting = s.waiting) (hpend : s'.pending = s.pending)
    (hprocs : ∀ q ∈ s.ready, (s'.procs q).isSome) : s'.Inv := by
  have hsys : ∀ x, s'.sysFdAt x = s.sysFdAt (σ x) := by
    intro x
    rw [sysFdAt, hslots, sysFdAt]
  have hrefs : ∀ fd, s'.refs fd = s.refs fd := by
    intro fd
    refine Finset.sum_equiv σ hσ ?_
    intro x _
    rw [hsys]
  refine ⟨⟨?_, ?_, ?_⟩, hvfs ▸ h.pipes, ?_⟩
  · intro pid i d hd
    rw [hslots (pid, i)] at hd
    obtain ⟨hmem, hfd⟩ := h.files.index _ _ _ hd
    exact ⟨(hσ _).mpr hmem, hfd.trans (hindex (pid, i))⟩
  · intro x fd hx
    rw [hvfs]
    exact h.files.opened _ fd (hsys x ▸ hx)
  · intro fd f hf
    rw [hrefs]
    exact h.files.rc fd f (hvfs ▸ hf)
  · refine h.waits.congr hready hflag hwaiting hpend hprocs ?_ ?_
    · intro q hq i
      rw [hsys, hpending q hq]
    · intro w _ hw
      simpa only [WaitsFor, hpend, hvfs] using hw

lemma Calls.move (h : s.Calls pid) (h' : s.Calls q) (hne : pid ≠ q) (hi : i < maxFdPerProcess)
    (hd : (s.table pid).slots i = some d) (hnone : (s.table q).slots i = none) :
    Inv ((s.setTable q ((s.table q).setSlot i (some d))).setTable pid
      ((s.table pid).setSlot i none)) := by
  have hmem := h.mem_allSlots hi
  have hmem' := h'.mem_allSlots hi
  refine h.inv.permute (Equiv.swap (pid, i) (q, i)) ?_ ?_ ?_ ?_ rfl rfl rfl rfl rfl ?_
  · intro x
    rcases eq_or_ne x (pid, i) with rfl | hx
    · simp [hmem, hmem']
    rcases eq_or_ne x (q, i) with rfl | hx'
    · simp [hmem, hmem']
    · rw [Equiv.swap_apply_of_ne_of_ne hx hx']
  · intro x
    rcases eq_or_ne x (pid, i) with rfl | hx
    · rw [Equiv.swap_apply_left, table_setTable, slots_setSlot, hnone]
    rcases eq_or_ne x (q, i) with rfl | hx'
    · rw [Equiv.swap_apply_right, table_setTable_ne hne.symm, table_setTable, slots_setSlot, hd]
    rw [Equiv.swap_apply_of_ne_of_ne hx hx']
    rcases x with ⟨r, j⟩
    rcases eq_or_ne r pid with rfl | hr
    · rw [table_setTable, slots_setSlot_ne (by simpa using hx)]
    rw [table_setTable_ne hr]
    rcases eq_or_ne r q with rfl | hr'
    · rw [table_setTable, slots_setSlot_ne (by simpa using hx')]
    · rw [table_setTable_ne hr']
  · intro x
    rcases eq_or_ne x (pid, i) with rfl | hx
    · rw [Equiv.swap_apply_left]
    rcases eq_or_ne x (q, i) with rfl | hx'
    · rw [Equiv.swap_apply_right]
    · rw [Equiv.swap_apply_of_ne_of_ne hx hx']
  · intro r hr j
    refine Equiv.swap_apply_of_ne_of_ne ?_ ?_
    · rintro ⟨rfl, rfl⟩
      simp [h.idle] at hr
    · rintro ⟨rfl, rfl⟩
      simp [h'.idle] at hr
  · intro r hr
    simp only [Descriptors.setTable, Function.update_apply]
    split_ifs
    · rfl
    · rfl
    · exact h.inv.waits.live r hr

/-- What a turn of the loop of `execve_transfer` does to the processes: the descriptor leaves `pid`. -/
structure Transferred (pid i : ℕ) (s s' : Descriptors) : Prop where
  calls : s'.Calls pid
  replacement : s'.Calls execReplacement
  quiet : Quiet s s'
  procs : ∀ q, q ≠ pid → q ≠ execReplacement → s'.procs q = s.procs q
  slots : ∀ j, (s'.table pid).slots j = if j = i then none else (s.table pid).slots j
  target : ∀ j, (s'.table execReplacement).slots j =
    if j = i then ((s.table pid).keptOnExec j).or ((s.table execReplacement).slots j)
    else (s.table execReplacement).slots j

/-- A descriptor moved to the replacement of its process. -/
def moved (pid i : ℕ) (d : FileDescriptor) (s : Descriptors) : Descriptors :=
  let s := s.setTable execReplacement ((s.table execReplacement).setSlot i (some d))
  s.setTable pid ((s.table pid).setSlot i none)

lemma Calls.moved (h : s.Calls pid) (h' : s.Calls execReplacement) (hne : pid ≠ execReplacement)
    (hi : i < maxFdPerProcess) (hd : (s.table pid).slots i = some d) (hclo : d.cloExec = false)
    (hinv : s'.Inv) (he : Edits execReplacement t s s') (hnone : t.slots i = none)
    (hother : ∀ j, j ≠ i → t.slots j = (s.table execReplacement).slots j) :
    Transferred pid i s (s'.moved pid i d) := by
  have hcalls := h.other hne hinv he
  have hcalls' := h'.edit hinv he
  have htable : s'.table pid = s.table pid := he.table_ne hne
  have hmove := hcalls.move hcalls' hne hi (htable ▸ hd) (he.table ▸ hnone)
  rw [← table_setTable_ne (s := s') (t := (s'.table execReplacement).setSlot i (some d)) hne] at hmove
  refine ⟨⟨hmove, hcalls.idle, ?_, h.le⟩, ⟨hmove, hcalls'.idle, ?_, h'.le⟩,
    he.quiet.trans ⟨rfl, fun _ => Iff.rfl⟩, ?_, ?_, ?_⟩
  · simp [Descriptors.moved, Descriptors.setTable]
  · simp [Descriptors.moved, Descriptors.setTable, hne.symm]
  · intro q hq hq'
    simp [Descriptors.moved, Descriptors.setTable, hq, hq', he.procs]
  · intro j
    rw [Descriptors.moved, table_setTable, table_setTable_ne hne, htable]
    split_ifs with hj
    · rw [hj, slots_setSlot]
    · rw [slots_setSlot_ne hj]
  · intro j
    rw [Descriptors.moved, table_setTable_ne hne.symm, table_setTable]
    split_ifs with hj
    · rw [hj, slots_setSlot]
      simp [FdTable.keptOnExec, hd, hclo, Option.filter]
    · rw [slots_setSlot_ne hj, he.table, hother j hj]

lemma Calls.transferFd (h : s.Calls pid) (h' : s.Calls execReplacement)
    (hne : pid ≠ execReplacement) (hi : i < maxFdPerProcess) :
    ∃ s', s.transferFd pid i = .ok s' ∧ Transferred pid i s s' := by
  unfold Descriptors.transferFd
  rcases hd : (s.table pid).slots i with _ | d
  · refine ⟨s, rfl, h, h', Quiet.refl s, fun _ _ _ => rfl, ?_, ?_⟩
    · intro j
      split_ifs with hj
      · rw [hj, hd]
      · rfl
    · intro j
      split_ifs with hj
      · simp [hj, FdTable.keptOnExec, hd]
      · rfl
  rcases hclo : d.cloExec with _ | _
  · rcases hd' : (s.table execReplacement).slots i with _ | d'
    · refine ⟨s.moved pid i d, ?_, h.moved h' hne hi hd hclo h.inv h'.edits_self hd' fun _ _ => rfl⟩
      simp only [hclo, Bool.false_eq_true, if_false]
      rfl
    · obtain ⟨s₁, hok₁, hinv₁, he₁⟩ := h'.closeSlot hd'
      have hfd : ((i : ℕ) : ℤ) = (d'.fd : ℤ) := by
        rw [(h.inv.files.index _ _ _ hd').2]
      refine ⟨s₁.moved pid i d, ?_, h.moved h' hne hi hd hclo hinv₁ he₁ ?_ ?_⟩
      · simp only [hclo, Bool.false_eq_true, if_false, hfd, hok₁]
        rfl
      · simp [FdTable.release, FdTable.setSlot]
      · intro j hj
        simp [FdTable.release, FdTable.setSlot, hj]
  · obtain ⟨s', hok, hinv, he⟩ := h.closeSlot hd
    refine ⟨s', ?_, h.edit hinv he, h'.other hne.symm hinv he, he.quiet, ?_, ?_, ?_⟩
    · simp only [hclo, if_true]
      exact hok
    · intro q hq _
      rw [he.procs, Function.update_of_ne hq]
    · intro j
      rw [he.table]
      simp [FdTable.release, FdTable.setSlot, Function.update_apply]
    · intro j
      rw [he.table_ne hne.symm]
      split_ifs with hj
      · simp [hj, FdTable.keptOnExec, hd, hclo, Option.filter]
      · rfl

lemma Calls.transferFds_from (hne : pid ≠ execReplacement) : ∀ {k n : ℕ} {s : Descriptors},
    s.Calls pid → s.Calls execReplacement → n + k = maxFdPerProcess →
    (∀ i < n, (s.table pid).slots i = none) →
    ∃ s', (List.range' n k).foldlM (Descriptors.transferFd pid) s = .ok s' ∧ s'.Calls pid ∧
      s'.Calls execReplacement ∧ Quiet s s' ∧
      (∀ q, q ≠ pid → q ≠ execReplacement → s'.procs q = s.procs q) ∧
      (∀ i, (s'.table pid).slots i = none) ∧
      ∀ i, (s'.table execReplacement).slots i =
        if n ≤ i then ((s.table pid).keptOnExec i).or ((s.table execReplacement).slots i)
        else (s.table execReplacement).slots i
  | 0, n, s, h, h', hn, hbelow => by
      have hempty : ∀ i, (s.table pid).slots i = none := by
        intro i
        rcases hd : (s.table pid).slots i with _ | d
        · rfl
        · have hmem := (h.inv.files.index pid i d hd).1
          simp only [allSlots, Finset.mem_product, Finset.mem_range] at hmem
          rw [hbelow i (by omega)] at hd
          cases hd
      refine ⟨s, rfl, h, h', Quiet.refl s, fun _ _ _ => rfl, hempty, ?_⟩
      intro i
      simp [FdTable.keptOnExec, hempty i]
  | k + 1, n, s, h, h', hn, hbelow => by
      obtain ⟨s₁, hok₁, h₁⟩ := h.transferFd h' hne (by omega : n < maxFdPerProcess)
      have hbelow₁ : ∀ i < n + 1, (s₁.table pid).slots i = none := by
        intro i hi
        rw [h₁.slots]
        split_ifs with heq
        · rfl
        · exact hbelow i (by omega)
      obtain ⟨s', hok', hcalls, hcalls', hquiet, hprocs, hslots, htarget⟩ :=
        transferFds_from hne h₁.calls h₁.replacement (by omega : n + 1 + k = maxFdPerProcess) hbelow₁
      refine ⟨s', ?_, hcalls, hcalls', h₁.quiet.trans hquiet, ?_, hslots, ?_⟩
      · rw [List.range'_succ, List.foldlM_cons, hok₁]
        exact hok'
      · intro q hq hq'
        rw [hprocs q hq hq', h₁.procs q hq hq']
      · intro i
        rw [htarget, h₁.target, FdTable.keptOnExec, h₁.slots]
        rcases lt_trichotomy i n with hi | rfl | hi
        · rw [if_neg (by omega), if_neg (by omega), if_neg (by omega)]
        · rw [if_neg (by omega), if_pos rfl, if_pos le_rfl]
        · rw [if_pos (by omega), if_neg (by omega), if_neg (by omega), if_pos (by omega)]
          rfl

lemma lowest_lowestEmpty (t : FdTable) :
    FdTable.Lowest { t with lowestFreeFd := t.lowestEmpty maxFdPerProcess maxFdPerProcess } := by
  rcases t.lowestEmpty_spec maxFdPerProcess maxFdPerProcess with ⟨heq, hused⟩ | ⟨hlt, hfree, hused⟩
  · refine ⟨le_of_eq heq, ?_, ?_⟩
    · intro i hi
      exact hused i (lt_of_lt_of_eq hi heq)
    · intro hlt
      exact absurd heq (ne_of_lt hlt)
  · exact ⟨le_of_lt hlt, hused, fun _ => hfree⟩

lemma Calls.takeOver (h : s.Calls pid) (h' : s.Calls execReplacement) (hne : pid ≠ execReplacement)
    (hready : execReplacement ∉ s.ready) (hempty : ∀ i, (s.table pid).slots i = none)
    (hslots : t.slots = (s.table execReplacement).slots) :
    Inv { s with procs :=
      Function.update (Function.update s.procs pid (some t)) execReplacement none } := by
  have hrow : ∀ q i, Equiv.prodCongr (Equiv.swap pid execReplacement) (Equiv.refl ℕ) (q, i) =
      (Equiv.swap pid execReplacement q, i) := fun _ _ => rfl
  refine h.inv.permute (Equiv.prodCongr (Equiv.swap pid execReplacement) (Equiv.refl ℕ))
    ?_ ?_ (fun _ => rfl) ?_ rfl rfl rfl rfl rfl ?_
  · rintro ⟨q, i⟩
    simp only [hrow, allSlots, Finset.mem_product, Finset.mem_range]
    have hpid := h.le
    have hrep := h'.le
    rcases eq_or_ne q pid with rfl | hq
    · rw [Equiv.swap_apply_left]
      omega
    rcases eq_or_ne q execReplacement with rfl | hq'
    · rw [Equiv.swap_apply_right]
      omega
    · rw [Equiv.swap_apply_of_ne_of_ne hq hq']
  · rintro ⟨q, i⟩
    simp only [hrow]
    rcases eq_or_ne q pid with rfl | hq
    · rw [Equiv.swap_apply_left, ← hslots]
      simp [table, hne]
    rcases eq_or_ne q execReplacement with rfl | hq'
    · rw [Equiv.swap_apply_right, hempty]
      simp [table]
    · rw [Equiv.swap_apply_of_ne_of_ne hq hq']
      simp [table, hq, hq']
  · intro q hq i
    rw [hrow, Equiv.swap_apply_of_ne_of_ne]
    · rintro rfl
      simp [h.idle] at hq
    · rintro rfl
      simp [h'.idle] at hq
  · intro q hq
    have hq' : q ≠ execReplacement := by
      rintro rfl
      exact hready hq
    simp only [Function.update_apply, if_neg hq']
    split_ifs
    · rfl
    · exact h.inv.waits.live q hq

lemma Calls.execveTransfer (h : s.Calls pid) (h' : s.Calls execReplacement)
    (hne : pid ≠ execReplacement)
    (hnew : ¬ (execReplacement ∈ s.ready ∨ execReplacement ∈ s.waitingPids)) :
    ∃ s' t, s.execveTransfer pid = .ok s' ∧ s'.Inv ∧ Quiet s s' ∧ t.Lowest ∧
      s'.procs = Function.update (Function.update s.procs pid (some t)) execReplacement none ∧
      ∀ i, t.slots i = ((s.table pid).keptOnExec i).or ((s.table execReplacement).slots i) := by
  obtain ⟨s₁, hok₁, hcalls, hcalls', hquiet, hprocs, hempty, htarget⟩ :=
    Calls.transferFds_from (k := maxFdPerProcess) (n := 0) hne h h' (Nat.zero_add _) (by simp)
  have hready : execReplacement ∉ s₁.ready := by
    intro hmem
    exact hnew ((hquiet.known _).mp (Or.inl hmem))
  have hinv := hcalls.takeOver hcalls' hne hready hempty
    (t := { s₁.table execReplacement with
      lowestFreeFd := (s₁.table execReplacement).lowestEmpty maxFdPerProcess maxFdPerProcess }) rfl
  refine ⟨_, _, ?_, hinv, ?_, lowest_lowestEmpty (s₁.table execReplacement), ?_, ?_⟩
  · rw [Descriptors.execveTransfer, List.range_eq_range', hok₁]
    rfl
  · exact hquiet.trans ⟨rfl, fun _ => Iff.rfl⟩
  · funext q
    simp only [Function.update_apply]
    split_ifs with hq hq'
    · rfl
    · rfl
    · exact hprocs q hq' hq
  · intro i
    exact (htarget i).trans (if_pos (Nat.zero_le i))

lemma Calls.replace (h : s.Calls pid) (hlt : pid < maxProcesses)
    (hnone : s.procs execReplacement = none) :
    ∃ s₂ s' t, s.newProcess execReplacement = .ok s₂ ∧ s₂.execveTransfer pid = .ok s' ∧ s'.Inv ∧
      Edits pid t s s' ∧ t.Lowest ∧
      (∀ i d, (s.table pid).keptOnExec i = some d → t.slots i = some d) ∧
      ∀ i, (s.table pid).keptOnExec i = none → ((t.slots i).isSome ↔ i < 3 ∧ i < s.vfs.freeFds) := by
  have hne : pid ≠ execReplacement := ne_of_lt hlt
  obtain ⟨s₂, t₂, hok₂, hinv₂, he₂, -, hopen₂, hclosed₂⟩ := h.inv.newProcess hnone le_rfl
  have hidle₂ := (h.inv.create hnone le_rfl).1.idle
  have hcalls₂' : s₂.Calls execReplacement :=
    ⟨hinv₂, by rw [he₂.pending]; exact hidle₂, by simp [he₂.procs], le_rfl⟩
  have hnew := (he₂.quiet.known _).not.mpr (h.inv.not_known hnone)
  obtain ⟨s₃, t₃, hok₃, hinv₃, hquiet₃, hlow, hprocs₃, hslots₃⟩ :=
    (h.other hne hinv₂ he₂).execveTransfer hcalls₂' hne hnew
  have hslots : ∀ i, t₃.slots i = ((s.table pid).keptOnExec i).or (t₂.slots i) := by
    intro i
    rw [hslots₃, he₂.table_ne hne, he₂.table]
  refine ⟨s₂, s₃, t₃, hok₂, hok₃, hinv₃, ⟨?_, he₂.quiet.trans hquiet₃⟩, hlow, ?_, ?_⟩
  · rw [hprocs₃, he₂.procs]
    funext q
    simp only [Function.update_apply]
    split_ifs with hq hq' hq''
    · exact absurd (hq'.symm.trans hq) hne
    · rw [hq, hnone]
    · rfl
    · rfl
  · intro i d hd
    rw [hslots, hd]
    rfl
  · intro i hkept
    rw [hslots, hkept, Option.none_or]
    rcases Nat.lt_or_ge i 3 with hi | hi
    · simp [hopen₂ i hi, hi]
    · simp only [hclosed₂ i hi, Option.isSome_none, Bool.false_eq_true, false_iff]
      omega

lemma Calls.execve (h : s.Calls pid) (hlt : pid < maxProcesses)
    (hnone : s.procs execReplacement = none) (loads : List ElfLoad) :
    Keeps pid s (s.execve pid loads) := by
  have hne : pid ≠ execReplacement := ne_of_lt hlt
  refine (h.loadElfs loads).bind ?_
  intro ok s₁ t₁ hinv₁ he₁ _
  have hcalls₁ := h.edit hinv₁ he₁
  rcases ok with _ | _
  · exact .unchanged hcalls₁ (-1)
  have hnone₁ : s₁.procs execReplacement = none := by
    rw [he₁.procs, Function.update_of_ne hne.symm, hnone]
  obtain ⟨s₂, s₃, t₃, hok₂, hok₃, hinv₃, he₃, hlow, -⟩ := hcalls₁.replace hlt hnone₁
  refine .ok (a := 0) (t := t₃) (show _ = Except.ok (_, s₃) from ?_) hinv₃ he₃ fun _ => hlow
  simp only [hok₂, hok₃, bind, Except.bind]
  rfl

/-! ## `exec` and `exit` -/

lemma Inv.start (h : s.Inv) (hfree : s.FreePid q) :
    ∃ s₁ t, s.newProcess q = .ok s₁ ∧ (s₁.setReady q).Inv ∧ t.Lowest ∧
      (s₁.setReady q).procs = Function.update s.procs q (some t) ∧
      (s₁.setReady q).pending = s.pending := by
  obtain ⟨hlt, hnone⟩ := hfree
  obtain ⟨s₁, t, hok, hinv, he, hlow, -⟩ := h.newProcess hnone (le_of_lt hlt)
  have hidle := (h.create hnone (le_of_lt hlt)).1.idle
  have hcalls : s₁.Calls q :=
    ⟨hinv, by rw [he.pending]; exact hidle, by simp [he.procs], le_of_lt hlt⟩
  obtain ⟨hinv', hpending⟩ := hcalls.setReady ((he.quiet.known q).not.mpr (h.not_known hnone))
  exact ⟨s₁, t, hok, hinv', hlow, he.procs, hpending.trans he.pending⟩

lemma Calls.closeSlots_from : ∀ {k n : ℕ} {s : Descriptors}, s.Calls pid → n + k = maxFdPerProcess →
    (∀ i < n, (s.table pid).slots i = none) →
    ∃ s' t, (List.range' n k).foldlM (Descriptors.closeSlot pid) s = .ok s' ∧ s'.Calls pid ∧
      Edits pid t s s' ∧ ∀ i, t.slots i = none
  | 0, n, s, h, hn, hbelow => by
      refine ⟨s, _, rfl, h, h.edits_self, ?_⟩
      intro i
      rcases hd : (s.table pid).slots i with _ | d
      · rfl
      · have hmem := (h.inv.files.index pid i d hd).1
        simp only [allSlots, Finset.mem_product, Finset.mem_range] at hmem
        rw [hbelow i (by omega)] at hd
        cases hd
  | k + 1, n, s, h, hn, hbelow => by
      have hturn : ∃ s₁ t₁, s.closeSlot pid n = .ok s₁ ∧ s₁.Inv ∧ Edits pid t₁ s s₁ ∧
          ∀ i < n + 1, t₁.slots i = none := by
        unfold Descriptors.closeSlot
        rcases hd : (s.table pid).slots n with _ | d
        · refine ⟨s, _, rfl, h.inv, h.edits_self, ?_⟩
          intro i hi
          rcases Nat.lt_succ_iff_lt_or_eq.mp hi with hi | rfl
          · exact hbelow i hi
          · exact hd
        · obtain ⟨s₁, hok₁, hinv₁, he₁⟩ := h.closeSlot hd
          refine ⟨s₁, _, hok₁, hinv₁, he₁, ?_⟩
          intro i hi
          rcases Nat.lt_succ_iff_lt_or_eq.mp hi with hi | rfl
          · simp [FdTable.release, FdTable.setSlot, hi.ne, hbelow i hi]
          · simp [FdTable.release, FdTable.setSlot]
      obtain ⟨s₁, t₁, hok₁, hinv₁, he₁, hbelow₁⟩ := hturn
      obtain ⟨s', t, hok', hcalls', he', hempty⟩ := closeSlots_from (h.edit hinv₁ he₁)
        (by omega : n + 1 + k = maxFdPerProcess) (by rw [he₁.table]; exact hbelow₁)
      refine ⟨s', t, ?_, hcalls', he₁.trans he', hempty⟩
      rw [List.range'_succ, List.foldlM_cons, hok₁]
      exact hok'

lemma Calls.leave (h : s.Calls pid) (hempty : ∀ i, (s.table pid).slots i = none) :
    Inv { s with procs := Function.update s.procs pid none, ready := s.ready.erase pid } := by
  have hslots : ∀ q i, (Descriptors.table { s with
      procs := Function.update s.procs pid none, ready := s.ready.erase pid } q).slots i =
      (s.table q).slots i := by
    intro q i
    rcases eq_or_ne q pid with rfl | hq
    · rw [hempty]
      simp [table]
    · simp [table, hq]
  have hw := h.inv.waits
  refine ⟨h.inv.files.congr hslots rfl, h.inv.pipes, hw.nodup, hw.ready.erase pid, ?_, hw.flag, ?_,
    ?_, ?_, ?_⟩
  · intro q hq
    obtain ⟨hne, hmem⟩ := (hw.ready.mem_erase_iff).mp hq
    show (Function.update s.procs pid none q).isSome
    rw [Function.update_of_ne hne]
    exact hw.live q hmem
  · intro q hq hq'
    exact hw.notReady q hq (List.mem_of_mem_erase hq')
  · intro q x hx
    obtain ⟨i, hi⟩ := hw.holds q x hx
    refine ⟨i, ?_⟩
    rw [sysFdAt, hslots]
    exact hi
  · intro q x hx
    have hne : q ≠ pid := by
      rintro rfl
      rw [h.idle] at hx
      cases hx
    rcases hw.pending q x hx with hq | hq
    · exact Or.inl ((List.mem_erase_of_ne hne).mpr hq)
    · exact Or.inr hq
  · exact hw.entry

lemma Calls.exit (h : s.Calls pid) : ∃ s', s.exit pid = .ok s' ∧ s'.Inv ∧
    s'.procs = Function.update s.procs pid none ∧ s'.pending = s.pending := by
  obtain ⟨s₁, t, hok, hcalls, he, hempty⟩ :=
    h.closeSlots_from (k := maxFdPerProcess) (n := 0) (Nat.zero_add _) (by simp)
  refine ⟨_, ?_, hcalls.leave (by rw [he.table]; exact hempty), ?_, he.pending⟩
  · rw [Descriptors.exit, List.range_eq_range', hok]
    rfl
  · show Function.update s₁.procs pid none = _
    rw [he.procs, Function.update_idem]

end Descriptors

end BrebOS
