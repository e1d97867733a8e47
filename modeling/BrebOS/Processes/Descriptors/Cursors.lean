import BrebOS.Processes.Descriptors.Exec
import BrebOS.Lib.Run

/-!
# The cursors of the descriptor tables

`lowest_free_fd` is the least free descriptor of each process, along every run in which no `dup2`
has a target out of range and no `fork` comes where the parent has closed a standard descriptor:
there the child has a terminal in the slot that the cursor it copies is at.
-/

namespace BrebOS

/-- The calls that work on descriptor tables. -/
def FdOp.OnTables : FdOp → Prop
  | .read .. | .write .. | .resume .. => False
  | _ => True

instance FdOp.decidableOnTables : DecidablePred FdOp.OnTables
  | .read .. | .write .. | .resume .. => inferInstanceAs (Decidable False)
  | .spawn .. | .openFile .. | .close .. | .dup .. | .dup2 .. | .pipe .. | .setCloExec .. | .fork ..
  | .exec .. | .execve .. | .exit .. => inferInstanceAs (Decidable True)

namespace Descriptors

variable {α : Type} {s s' : Descriptors} {op : FdOp} {ops : List FdOp} {pid child : ℕ}

/-- The cursor of every process is at its least free descriptor. -/
def CursorsRight (s : Descriptors) : Prop := ∀ pid t, s.procs pid = some t → t.Lowest

/-- A step leaves the cursors right; or it fails, and neither because of the cursor nor outside of a
descriptor table. -/
def CursorsRightAfter (s : Descriptors) (op : FdOp) : Prop :=
  match s.step op with
  | .ok s' => s'.CursorsRight
  | .error e => e ≠ .outOfBounds ∧ e ≠ FdTable.notFree

/-- The steps that leave the cursors right.  `fork` copies the cursor of the parent, which must not be
where the constructor of the child opens a terminal. -/
def KeepsCursors (s : Descriptors) : FdOp → Prop
  | .dup2 pid oldFd newFd =>
      (0 ≤ oldFd ∧ oldFd < maxFdPerProcess) → ((s.table pid).slots oldFd.toNat).isSome →
        oldFd ≠ newFd → 0 ≤ newFd ∧ newFd < maxFdPerProcess
  | .fork pid _ =>
      3 ≤ (s.table pid).lowestFreeFd ∨ s.vfs.freeFds ≤ (s.table pid).lowestFreeFd
  | _ => True

/-- What holds between the steps of a run. -/
structure Between (s : Descriptors) : Prop where
  inv : s.Inv
  vacant : s.procs execReplacement = none

/-- What a call on descriptor tables does: nobody's read is started or ended, and when `cond` holds
the cursors stay right. -/
structure Steps (s : Descriptors) (cond : Prop) (r : Except Fault Descriptors) : Prop where
  between : ∀ s', r = .ok s' → s'.Between
  pending : ∀ s', r = .ok s' → s'.pending = s.pending
  right : cond → s.CursorsRight → ∃ s', r = .ok s' ∧ s'.CursorsRight

lemma MayCall.calls (h : s.MayCall pid) (hinv : s.Inv) : s.Calls pid :=
  ⟨hinv, h.2.2.2, h.2.1, le_of_lt h.1⟩

lemma MayCall.ne (h : s.MayCall pid) : execReplacement ≠ pid := (ne_of_lt h.1).symm

lemma CursorsRight.update {t : FdTable} (h : s.CursorsRight) (hlow : t.Lowest)
    (hprocs : s'.procs = Function.update s.procs pid (some t)) : s'.CursorsRight := by
  intro q t' ht'
  rw [hprocs] at ht'
  rcases eq_or_ne q pid with rfl | hq
  · rw [Function.update_self, Option.some.injEq] at ht'
    exact ht' ▸ hlow
  · rw [Function.update_of_ne hq] at ht'
    exact h q t' ht'

lemma Steps.ok {cond : Prop} {r : Except Fault Descriptors} (hr : r = .ok s') (h : s'.Between)
    (hpending : s'.pending = s.pending) (hright : cond → s.CursorsRight → s'.CursorsRight) :
    Steps s cond r := by
  have heq : ∀ s'', r = .ok s'' → s' = s'' := by
    intro s'' hr'
    simpa [hr] using hr'
  refine ⟨fun s'' hr' => heq s'' hr' ▸ h, fun s'' hr' => heq s'' hr' ▸ hpending, ?_⟩
  intro hcond hs
  exact ⟨s', hr, hright hcond hs⟩

lemma Keeps.steps {cond : Prop} {r : Except Fault (α × Descriptors)} (hb : s.Between)
    (hcalls : s.MayCall pid) (h : Keeps pid s r) : Steps s cond (r.map Prod.snd) := by
  refine ⟨?_, ?_, ?_⟩
  · intro s' hs'
    obtain ⟨⟨a, s'⟩, ha, rfl⟩ := map_eq_ok.mp hs'
    obtain ⟨hinv, t, he, -⟩ := h.keeps a s' ha
    refine ⟨hinv, ?_⟩
    rw [he.procs, Function.update_of_ne hcalls.ne]
    exact hb.vacant
  · intro s' hs'
    obtain ⟨⟨a, s'⟩, ha, rfl⟩ := map_eq_ok.mp hs'
    obtain ⟨-, t, he, -⟩ := h.keeps a s' ha
    exact he.pending
  · intro _ hright
    have hlow := hright pid _ (hcalls.calls hb.inv).procs_eq
    obtain ⟨a, s', ha⟩ := h.returns hlow
    obtain ⟨-, t, he, ht⟩ := h.keeps a s' ha
    exact ⟨s', map_eq_ok.mpr ⟨_, ha, rfl⟩, hright.update (ht hlow) he.procs⟩

lemma Between.start (h : s.Between) (hfree : s.FreePid child) {cond : Prop} :
    Steps s cond ((s.newProcess child).map fun s => s.setReady child) := by
  have hne : execReplacement ≠ child := (ne_of_lt hfree.1).symm
  obtain ⟨s₁, t, hok, hinv, hlow, hprocs, hpending⟩ := h.inv.start hfree
  refine .ok (map_eq_ok.mpr ⟨s₁, hok, rfl⟩) ⟨hinv, ?_⟩ hpending ?_
  · rw [hprocs, Function.update_of_ne hne]
    exact h.vacant
  · intro _ hright
    exact hright.update hlow hprocs

lemma Between.dup2_outOfRange {oldFd newFd : ℤ} (h : s.Between)
    (hcond : ¬ s.KeepsCursors (.dup2 pid oldFd newFd)) :
    s.dup2 pid oldFd newFd = .error .outOfBounds := by
  simp only [KeepsCursors, Classical.not_imp] at hcond
  obtain ⟨hin, hopen, hne, hout⟩ := hcond
  obtain ⟨d, hd⟩ := Option.isSome_iff_exists.mp hopen
  have hsys : s.sysFdAt (pid, oldFd.toNat) = some d.sysFd := by simp [sysFdAt, hd]
  unfold Descriptors.dup2
  rw [h.inv.procToSysFd, if_pos hin, hsys]
  simp only [bind, Except.bind, if_neg hne, if_pos hout]

lemma Between.fork (h : s.Between) (hcalls : s.MayCall pid) (hfree : s.FreePid child) :
    Steps s (s.KeepsCursors (.fork pid child)) ((s.fork pid child).map Prod.snd) := by
  have hne : execReplacement ≠ child := (ne_of_lt hfree.1).symm
  obtain ⟨s', t, hok, hinv, hprocs, hpending, hcursor, hopen, hclosed⟩ :=
    (hcalls.calls h.inv).fork hfree
  refine .ok (map_eq_ok.mpr ⟨_, hok, rfl⟩) ⟨hinv, ?_⟩ hpending ?_
  · rw [hprocs, Function.update_of_ne hne]
    exact h.vacant
  · intro hcond hright
    have hlow := hright pid _ (hcalls.calls h.inv).procs_eq
    refine hright.update ⟨hcursor ▸ hlow.le, ?_, ?_⟩ hprocs
    · intro i hi
      have hsome := hlow.used i (hcursor ▸ hi)
      rw [hopen i (Option.isSome_iff_ne_none.mp hsome)]
      exact hsome
    · rw [hcursor]
      intro hlt
      have hnot := (hclosed _ (hlow.free hlt)).not.mpr (by
        rcases hcond with hcond | hcond
        · omega
        · omega)
      simpa using hnot

lemma Between.fork_wrong (h : s.Between) (hcalls : s.MayCall pid) (hfree : s.FreePid child)
    (hright : s.CursorsRight) (hcond : ¬ s.KeepsCursors (.fork pid child)) :
    ∃ s', (s.fork pid child).map Prod.snd = .ok s' ∧ ¬ s'.CursorsRight := by
  obtain ⟨s', t, hok, -, hprocs, -, hcursor, -, hclosed⟩ := (hcalls.calls h.inv).fork hfree
  refine ⟨s', map_eq_ok.mpr ⟨_, hok, rfl⟩, ?_⟩
  intro hright'
  have hlow := hright pid _ (hcalls.calls h.inv).procs_eq
  have hlow' := hright' child t (by rw [hprocs, Function.update_self])
  simp only [KeepsCursors, not_or, not_le] at hcond
  have hlt : (s.table pid).lowestFreeFd < maxFdPerProcess := lt_trans hcond.1 (by decide)
  have hsome := (hclosed _ (hlow.free hlt)).mpr hcond
  have hnone := hlow'.free (hcursor ▸ hlt)
  rw [hcursor] at hnone
  simp [hnone] at hsome

lemma Between.exec {cond : Prop} (h : s.Between) (hcalls : s.MayCall pid) (hfree : s.FreePid child)
    (loads : List ElfLoad) : Steps s cond ((s.exec pid child loads).map Prod.snd) := by
  have hload := (hcalls.calls h.inv).loadElfs loads
  have hrest : ∀ ok s₁ t₁, s₁.Inv → Edits pid t₁ s s₁ → Steps s₁ cond
      ((if (!ok) = true then .ok (-1, s₁) else (s₁.newProcess child).bind fun s₂ =>
        .ok ((child : ℤ), s₂.setReady child) : Except Fault (ℤ × Descriptors)).map Prod.snd) := by
    intro ok s₁ t₁ hinv₁ he₁
    have hb₁ : s₁.Between := by
      refine ⟨hinv₁, ?_⟩
      rw [he₁.procs, Function.update_of_ne hcalls.ne]
      exact h.vacant
    rcases ok with _ | _
    · exact .ok rfl hb₁ rfl fun _ hright => hright
    · have hne : child ≠ pid := by
        rintro rfl
        have := hcalls.2.1
        simp [hfree.2] at this
      have hfree₁ : s₁.FreePid child := by
        refine ⟨hfree.1, ?_⟩
        rw [he₁.procs, Function.update_of_ne hne]
        exact hfree.2
      have hstart : Steps s₁ cond ((s₁.newProcess child).map fun s => s.setReady child) :=
        hb₁.start hfree₁
      rcases hnew : s₁.newProcess child with e | s₂
      · rw [hnew] at hstart
        exact hstart
      · rw [hnew] at hstart
        exact hstart
  refine ⟨?_, ?_, ?_⟩
  · intro s' hs'
    obtain ⟨⟨r, s'⟩, hr, rfl⟩ := map_eq_ok.mp hs'
    obtain ⟨⟨ok, s₁⟩, hok, hr⟩ := bind_eq_ok.mp hr
    obtain ⟨hinv₁, t₁, he₁, -⟩ := hload.keeps ok s₁ hok
    exact (hrest ok s₁ t₁ hinv₁ he₁).between s' (map_eq_ok.mpr ⟨_, hr, rfl⟩)
  · intro s' hs'
    obtain ⟨⟨r, s'⟩, hr, rfl⟩ := map_eq_ok.mp hs'
    obtain ⟨⟨ok, s₁⟩, hok, hr⟩ := bind_eq_ok.mp hr
    obtain ⟨hinv₁, t₁, he₁, -⟩ := hload.keeps ok s₁ hok
    exact ((hrest ok s₁ t₁ hinv₁ he₁).pending s' (map_eq_ok.mpr ⟨_, hr, rfl⟩)).trans he₁.pending
  · intro hcond hright
    have hlow := hright pid _ (hcalls.calls h.inv).procs_eq
    obtain ⟨ok, s₁, hok⟩ := hload.returns hlow
    obtain ⟨hinv₁, t₁, he₁, hlow₁⟩ := hload.keeps ok s₁ hok
    obtain ⟨s', hs', hright'⟩ :=
      (hrest ok s₁ t₁ hinv₁ he₁).right hcond (hright.update (hlow₁ hlow) he₁.procs)
    obtain ⟨⟨r, s'⟩, hr, rfl⟩ := map_eq_ok.mp hs'
    exact ⟨s', map_eq_ok.mpr ⟨_, bind_eq_ok.mpr ⟨_, hok, hr⟩, rfl⟩, hright'⟩

lemma Between.exit {cond : Prop} (h : s.Between) (hcalls : s.MayCall pid) :
    Steps s cond (s.exit pid) := by
  obtain ⟨s', hok, hinv, hprocs, hpending⟩ := (hcalls.calls h.inv).exit
  refine .ok hok ⟨hinv, ?_⟩ hpending ?_
  · rw [hprocs, Function.update_of_ne hcalls.ne]
    exact h.vacant
  · intro _ hright q t ht
    rw [hprocs, Function.update_apply] at ht
    split_ifs at ht with hq
    exact hright q t ht

lemma Between.steps (h : s.Between) (hallowed : s.Allowed op) (hop : op.OnTables) :
    Steps s (s.KeepsCursors op) (s.step op) := by
  cases op with
  | spawn child => exact h.start hallowed
  | openFile pid err => exact ((hallowed.calls h.inv).openFile err).steps h hallowed
  | close pid fd => exact ((hallowed.calls h.inv).close fd).steps h hallowed
  | dup pid oldFd => exact ((hallowed.calls h.inv).dup oldFd).steps h hallowed
  | dup2 pid oldFd newFd =>
    by_cases hcond : s.KeepsCursors (.dup2 pid oldFd newFd)
    · exact ((hallowed.calls h.inv).dup2 oldFd newFd hcond).steps h hallowed
    · have herr : s.step (.dup2 pid oldFd newFd) = .error .outOfBounds := by
        rw [Descriptors.step, h.dup2_outOfRange hcond]
        rfl
      rw [herr]
      exact ⟨nofun, nofun, fun hc => absurd hc hcond⟩
  | pipe pid => exact (hallowed.calls h.inv).pipe.steps h hallowed
  | setCloExec pid fd cloExec =>
    exact ((hallowed.calls h.inv).setCloExec fd cloExec).steps h hallowed
  | fork pid child => exact h.fork hallowed.1 hallowed.2
  | exec pid child loads => exact h.exec hallowed.1 hallowed.2 loads
  | execve pid loads =>
    exact ((hallowed.calls h.inv).execve hallowed.1 h.vacant loads).steps h hallowed
  | exit pid => exact h.exit hallowed
  | read pid fd n => exact hop.elim
  | write pid fd bytes => exact hop.elim
  | resume pid => exact hop.elim

lemma Between.step_wrong (h : s.Between) (hright : s.CursorsRight) (hallowed : s.Allowed op)
    (hcond : ¬ s.KeepsCursors op) : ¬ s.CursorsRightAfter op := by
  unfold CursorsRightAfter
  cases op with
  | dup2 pid oldFd newFd =>
    have herr : s.step (.dup2 pid oldFd newFd) = .error .outOfBounds := by
      rw [Descriptors.step, h.dup2_outOfRange hcond]
      rfl
    rw [herr]
    exact fun hne => hne.1 rfl
  | fork pid child =>
    obtain ⟨s', hok, hwrong⟩ := h.fork_wrong hallowed.1 hallowed.2 hright hcond
    rw [show s.step (.fork pid child) = .ok s' from hok]
    exact hwrong
  | _ => exact absurd trivial hcond

/-! ## Runs -/

lemma Between.cursors_iff : ∀ {ops : List FdOp} {s : Descriptors}, s.Between → s.CursorsRight →
    EachCall step (fun s op => s.Allowed op ∧ op.OnTables) ops s →
    (EachCall step CursorsRightAfter ops s ↔ EachCall step KeepsCursors ops s)
  | [], s, _, _, _ => Iff.rfl
  | op :: ops, s, h, hright, hallowed => by
      obtain ⟨⟨hallowed, hop⟩, hrest⟩ := hallowed
      by_cases hcond : s.KeepsCursors op
      · have hstep := h.steps hallowed hop
        obtain ⟨s', hok, hright'⟩ := hstep.right hcond hright
        have hafter : s.CursorsRightAfter op := by
          rw [CursorsRightAfter, hok]
          exact hright'
        simp only [EachCall, hok, hcond, hafter, true_and] at hrest ⊢
        exact cursors_iff (hstep.between s' hok) hright' hrest
      · have hwrong := h.step_wrong hright hallowed hcond
        simp only [EachCall, hcond, hwrong, false_and]

lemma between_new : Between {} := by
  refine ⟨⟨⟨nofun, nofun, nofun⟩, ⟨nofun, nofun, ?_, ?_, ?_⟩, ⟨List.nodup_nil, List.nodup_nil, nofun, ?_,
    nofun, nofun, nofun, nofun⟩⟩, rfl⟩
  · intro id p hp
    simp at hp
  · intro id p hp
    simp at hp
  · intro id p hp
    simp at hp
  · intro pid
    simp [waitingPids]

instance decidableFreePid (s : Descriptors) (pid : ℕ) : Decidable (s.FreePid pid) :=
  inferInstanceAs (Decidable (_ ∧ _))

instance decidableMayCall (s : Descriptors) (pid : ℕ) : Decidable (s.MayCall pid) :=
  inferInstanceAs (Decidable (_ ∧ _ ∧ _ ∧ _))

instance decidableAllowed (s : Descriptors) : DecidablePred s.Allowed
  | .spawn child => s.decidableFreePid child
  | .openFile pid _ | .close pid _ | .dup pid _ | .dup2 pid _ _ | .pipe pid | .setCloExec pid _ _
  | .execve pid _ | .exit pid | .read pid _ _ | .write pid _ _ => s.decidableMayCall pid
  | .fork pid child | .exec pid child _ =>
      inferInstanceAs (Decidable (s.MayCall pid ∧ s.FreePid child))
  | .resume pid => inferInstanceAs (Decidable (pid < maxProcesses ∧ (s.procs pid).isSome ∧
      pid ∈ s.ready ∧ (s.pending pid).isSome))

instance decidableKeepsCursors (s : Descriptors) : DecidablePred s.KeepsCursors
  | .dup2 pid oldFd newFd =>
      inferInstanceAs (Decidable ((0 ≤ oldFd ∧ oldFd < maxFdPerProcess) →
        ((s.table pid).slots oldFd.toNat).isSome → oldFd ≠ newFd →
        0 ≤ newFd ∧ newFd < maxFdPerProcess))
  | .fork pid _ => inferInstanceAs (Decidable
      (3 ≤ (s.table pid).lowestFreeFd ∨ s.vfs.freeFds ≤ (s.table pid).lowestFreeFd))
  | .spawn .. | .openFile .. | .close .. | .dup .. | .pipe .. | .setCloExec .. | .exec .. | .execve ..
  | .exit .. | .read .. | .write .. | .resume .. => inferInstanceAs (Decidable True)

/-- In a run of calls on descriptor tables from a system without processes, every step leaves each
cursor at the least free descriptor, and fails neither on a descriptor that is not free nor outside
of a table, iff every `dup2` and `fork` is one that keeps the cursors. -/
theorem cursors_right_iff (ops : List FdOp)
    (h : EachCall step (fun s op => s.Allowed op ∧ op.OnTables) ops {}) :
    EachCall step CursorsRightAfter ops {} ↔ EachCall step KeepsCursors ops {} :=
  between_new.cursors_iff nofun h

/-- A process makes a pipe and forks; the child moves its descriptors and loads a program. -/
theorem cursors_right_shell :
    EachCall step (fun s op => s.Allowed op ∧ op.OnTables)
        [.spawn 0, .pipe 0, .fork 0 1, .dup2 1 3 1, .close 1 3, .setCloExec 1 4 true,
          .openFile 1 none, .execve 1 [.loaded], .dup 1 9, .close 0 0, .exit 0] {} ∧
      EachCall step CursorsRightAfter
        [.spawn 0, .pipe 0, .fork 0 1, .dup2 1 3 1, .close 1 3, .setCloExec 1 4 true,
          .openFile 1 none, .execve 1 [.loaded], .dup 1 9, .close 0 0, .exit 0] {} :=
  have hallowed : EachCall step (fun s op => s.Allowed op ∧ op.OnTables)
      [.spawn 0, .pipe 0, .fork 0 1, .dup2 1 3 1, .close 1 3, .setCloExec 1 4 true,
        .openFile 1 none, .execve 1 [.loaded], .dup 1 9, .close 0 0, .exit 0] {} := by
    decide +kernel
  ⟨hallowed, (cursors_right_iff _ hallowed).mpr (by decide +kernel)⟩

/-- The child of a process that closed its standard input has a terminal there, and the cursor of its
parent. -/
theorem cursors_wrong_after_fork :
    EachCall step (fun s op => s.Allowed op ∧ op.OnTables) [.spawn 0, .close 0 0, .fork 0 1] {} ∧
      ¬ EachCall step CursorsRightAfter [.spawn 0, .close 0 0, .fork 0 1] {} := by
  have hallowed : EachCall step (fun s op => s.Allowed op ∧ op.OnTables)
      [.spawn 0, .close 0 0, .fork 0 1] {} := by
    decide +kernel
  refine ⟨hallowed, ?_⟩
  rw [between_new.cursors_iff nofun hallowed]
  decide +kernel

end Descriptors

end BrebOS
