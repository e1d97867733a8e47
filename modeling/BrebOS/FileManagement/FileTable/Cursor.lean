import BrebOS.FileManagement.FileTable
import BrebOS.Lib.Run

/-!
# The cursor of the system's table

`lowest_free_fd` of `VFS` over runs of `open_file`, `open_tty`, `pipe` and `close`, with process
descriptors coming and going in between.  All entries below the cursor are in use, until `open_file`
is called on a full table.
-/

namespace BrebOS

/-- The calls on the table.  `addRef` and `dropRef` are the descriptors of processes. -/
inductive TableOp
  | openFile (err : Option OpenError)
  | openTty
  | pipe
  | addRef (fd : ℕ)
  | dropRef (fd : ℕ)
  | close (fd : ℕ)
  deriving DecidableEq, Repr

namespace FileTable

/-- `VFS::close`, without the processes it wakes up. -/
def close (fd : ℕ) (v : FileTable) : FileTable :=
  match v.files fd with
  | none => v
  | some f => if f.rc = 0 then v.remove fd f else v

def step (v : FileTable) : TableOp → Except Fault FileTable
  | .openFile err => .ok (v.openFile err).2
  | .openTty => .ok v.openTty.2
  | .pipe => .ok v.pipe.2
  | .addRef fd => v.addRef fd
  | .dropRef fd => v.dropRef fd
  | .close fd => .ok (v.close fd)

/-- The cursor of the table, and what it is good for. -/
structure CursorRight (v : FileTable) : Prop where
  nonneg : 0 ≤ v.lowestFreeFd
  le : v.lowestFreeFd ≤ maxFd
  used : ∀ i : ℕ, (i : ℤ) < v.lowestFreeFd → (v.files i).isSome
  full : v.getFreeFd.1 = none → ∀ i < maxFd, (v.files i).isSome
  /-- Once a file is closed, the next one can be opened. -/
  reopens : ∀ fd f, v.files fd = some f → f.rc = 0 → ∃ fd', ((v.close fd).openFile none).1 = .ok fd'

/-- `open_file` is not called on a full table. -/
def HasRoom (v : FileTable) : TableOp → Prop
  | .openFile _ => ∃ i < maxFd, v.files i = none
  | _ => True

/-- The cursor is in range and all entries below it are in use. -/
structure CursorInv (v : FileTable) : Prop where
  nonneg : 0 ≤ v.lowestFreeFd
  le : v.lowestFreeFd ≤ maxFd
  used : ∀ i : ℕ, (i : ℤ) < v.lowestFreeFd → (v.files i).isSome
  bounded : ∀ i, (v.files i).isSome → i < maxFd

section Cursor

variable {v v' : FileTable} {i fd : ℕ} {f : FileInterface} {op : TableOp}

lemma nextFree_le (v : FileTable) (hi : i ≤ maxFd) : v.nextFree i ≤ maxFd := by
  obtain ⟨-, hmax, -, -⟩ := skipWhile_spec (fun j => (v.files j).isSome) (maxFd - i) i
  simp only [nextFree]
  omega

lemma CursorInv.getFreeFd (h : v.CursorInv) (hfree : v.getFreeFd = (some i, v')) :
    (∀ j < i, (v.files j).isSome) ∧ v'.lowestFreeFd ≤ maxFd ∧
      ∀ j : ℕ, j ≠ i → (j : ℤ) < v'.lowestFreeFd → (v.files j).isSome := by
  obtain ⟨-, rfl, hlt, rfl⟩ := getFreeFd_eq hfree
  have hnonneg := h.nonneg
  obtain ⟨hle, hused, -⟩ := v.nextFree_spec v.lowestFreeFd.toNat
  obtain ⟨hle', hused', -⟩ := v.nextFree_spec (v.nextFree v.lowestFreeFd.toNat + 1)
  have hbelow : ∀ j < v.nextFree v.lowestFreeFd.toNat, (v.files j).isSome := by
    intro j hj
    rcases Nat.lt_or_ge j v.lowestFreeFd.toNat with hlow | hlow
    · exact h.used j (by omega)
    · exact hused j hlow hj
  refine ⟨hbelow, ?_, ?_⟩
  · show ((v.nextFree (v.nextFree v.lowestFreeFd.toNat + 1) : ℕ) : ℤ) ≤ maxFd
    exact_mod_cast v.nextFree_le hlt
  · intro j hj hjlt
    have hjlt : (j : ℤ) < ((v.nextFree (v.nextFree v.lowestFreeFd.toNat + 1) : ℕ) : ℤ) := hjlt
    rcases Nat.lt_or_gt_of_ne hj with hj | hj
    · exact hbelow j hj
    · exact hused' j hj (by omega)

lemma CursorInv.full (h : v.CursorInv) (hnone : v.getFreeFd.1 = none) (hi : i < maxFd) :
    (v.files i).isSome := by
  have hnonneg := h.nonneg
  have hfree : v.getFreeFd = (none, v.getFreeFd.2) := Prod.ext hnone rfl
  rcases (getFreeFd_none hfree).2 with hneg | hmax
  · omega
  · rcases Nat.lt_or_ge i v.lowestFreeFd.toNat with hlow | hlow
    · exact h.used i (by omega)
    · exact (v.nextFree_spec _).2.1 i hlow (lt_of_lt_of_le hi hmax)

lemma CursorInv.fill (h : v.CursorInv) (hfree : v.getFreeFd = (some i, v')) (f : FileInterface) :
    (v'.setFile i (some f)).CursorInv := by
  obtain ⟨hlt, -, hfiles, -, -, hcursor⟩ := getFreeFd_spec hfree
  obtain ⟨-, hle, hused⟩ := h.getFreeFd hfree
  refine ⟨by show 0 ≤ v'.lowestFreeFd; omega, hle, ?_, ?_⟩
  · intro j hj
    show (Function.update v'.files i (some f) j).isSome
    rcases eq_or_ne j i with rfl | hne
    · simp
    · rw [Function.update_of_ne hne, hfiles]
      exact hused j hne hj
  · intro j hj
    have hj : (Function.update v'.files i (some f) j).isSome := hj
    rcases eq_or_ne j i with rfl | hne
    · exact hlt
    · rw [Function.update_of_ne hne, hfiles] at hj
      exact h.bounded j hj

lemma CursorInv.fillTwo {u w : FileTable} {j : ℕ} (h : v.CursorInv) (hfree : v.getFreeFd = (some i, u))
    (hfree' : u.getFreeFd = (some j, w)) (f g : FileInterface) (pipes : List PipeFds) :
    (({ w with pipes := pipes }.setFile i (some f)).setFile j (some g)).CursorInv := by
  obtain ⟨hlt, -, hfiles, -, -, hcursor⟩ := getFreeFd_spec hfree
  obtain ⟨hlt', -, hfiles', -, -, hcursor'⟩ := getFreeFd_spec hfree'
  obtain ⟨-, -, hused⟩ := h.getFreeFd hfree
  obtain ⟨-, rfl, -, rfl⟩ := getFreeFd_eq hfree'
  obtain ⟨hle₁, hused₁, -⟩ := u.nextFree_spec u.lowestFreeFd.toNat
  obtain ⟨hle₂, hused₂, -⟩ := u.nextFree_spec (u.nextFree u.lowestFreeFd.toNat + 1)
  refine ⟨?_, ?_, ?_, ?_⟩
  · show 0 ≤ ((u.nextFree (u.nextFree u.lowestFreeFd.toNat + 1) : ℕ) : ℤ)
    exact Int.natCast_nonneg _
  · show ((u.nextFree (u.nextFree u.lowestFreeFd.toNat + 1) : ℕ) : ℤ) ≤ maxFd
    exact_mod_cast u.nextFree_le hlt'
  · intro k hk
    have hk : (k : ℤ) < ((u.nextFree (u.nextFree u.lowestFreeFd.toNat + 1) : ℕ) : ℤ) := hk
    show (Function.update (Function.update u.files i (some f)) (u.nextFree u.lowestFreeFd.toNat)
      (some g) k).isSome
    rcases eq_or_ne k (u.nextFree u.lowestFreeFd.toNat) with rfl | hne
    · simp
    rw [Function.update_of_ne hne]
    rcases eq_or_ne k i with rfl | hne'
    · simp
    rw [Function.update_of_ne hne']
    rcases Nat.lt_or_ge k u.lowestFreeFd.toNat with hlow | hlow
    · rw [hfiles]
      exact hused k hne' (by omega)
    · rcases Nat.lt_or_gt_of_ne hne with hkj | hkj
      · exact hused₁ k hlow hkj
      · exact hused₂ k hkj (by omega)
  · intro k hk
    have hk : (Function.update (Function.update u.files i (some f)) (u.nextFree u.lowestFreeFd.toNat)
      (some g) k).isSome := hk
    rcases eq_or_ne k (u.nextFree u.lowestFreeFd.toNat) with rfl | hne
    · exact hlt'
    rw [Function.update_of_ne hne] at hk
    rcases eq_or_ne k i with rfl | hne'
    · exact hlt
    rw [Function.update_of_ne hne', hfiles] at hk
    exact h.bounded k hk

lemma CursorInv.giveBack (h : v.CursorInv) (hfree : v.getFreeFd = (some i, v')) {low : ℤ}
    (hlow : low = i) : CursorInv { v' with lowestFreeFd := low } := by
  subst hlow
  obtain ⟨hlt, -, hfiles, -, -, -⟩ := getFreeFd_spec hfree
  obtain ⟨hbelow, -, -⟩ := h.getFreeFd hfree
  refine ⟨Int.natCast_nonneg i, ?_, ?_, ?_⟩
  · show (i : ℤ) ≤ maxFd
    omega
  · intro j hj
    have hj : (j : ℤ) < i := hj
    show (v'.files j).isSome
    rw [hfiles]
    exact hbelow j (by omega)
  · intro j hj
    have hj : (v'.files j).isSome := hj
    rw [hfiles] at hj
    exact h.bounded j hj

lemma CursorInv.setRc (h : v.CursorInv) (hf : v.files fd = some f) (f' : FileInterface) :
    (v.setFile fd (some f')).CursorInv := by
  have hsome : ∀ j, (Function.update v.files fd (some f') j).isSome = (v.files j).isSome := by
    intro j
    rcases eq_or_ne j fd with rfl | hne
    · simp [hf]
    · rw [Function.update_of_ne hne]
  refine ⟨h.nonneg, h.le, ?_, ?_⟩
  · intro j hj
    show (Function.update v.files fd (some f') j).isSome
    rw [hsome]
    exact h.used j hj
  · intro j hj
    have hj : (Function.update v.files fd (some f') j).isSome := hj
    rw [hsome] at hj
    exact h.bounded j hj

lemma remove_files (fd : ℕ) (f : FileInterface) (v : FileTable) :
    (v.remove fd f).files = Function.update v.files fd none ∧
      (v.remove fd f).lowestFreeFd = min v.lowestFreeFd fd := by
  rcases f with ⟨_ | _ | ⟨id, _ | _⟩, rc⟩ <;> exact ⟨rfl, rfl⟩

lemma CursorInv.remove (h : v.CursorInv) (fd : ℕ) (f : FileInterface) : (v.remove fd f).CursorInv := by
  obtain ⟨hfiles, hlow⟩ := remove_files fd f v
  have hnonneg := h.nonneg
  have hle := h.le
  refine ⟨by omega, by omega, ?_, ?_⟩
  · intro j hj
    rw [hfiles, Function.update_of_ne (by omega)]
    exact h.used j (by omega)
  · intro j hj
    rw [hfiles] at hj
    rcases eq_or_ne j fd with rfl | hne
    · simp at hj
    · rw [Function.update_of_ne hne] at hj
      exact h.bounded j hj

lemma CursorInv.close (h : v.CursorInv) (fd : ℕ) : (v.close fd).CursorInv := by
  unfold FileTable.close
  split
  · exact h
  · split_ifs
    · exact h.remove fd _
    · exact h

lemma CursorInv.openFile_ok (h : v.CursorInv) (hroom : ∃ i < maxFd, v.files i = none) :
    ∃ fd, (v.openFile none).1 = .ok fd := by
  obtain ⟨i, hi, hnone⟩ := hroom
  unfold FileTable.openFile
  rcases hfree : v.getFreeFd with ⟨_ | j, u⟩
  · have := h.full (by rw [hfree]) hi
    simp [hnone] at this
  · exact ⟨j, rfl⟩

lemma CursorInv.right (h : v.CursorInv) : v.CursorRight := by
  refine ⟨h.nonneg, h.le, h.used, fun hnone i hi => h.full hnone hi, ?_⟩
  intro fd f hf hrc
  refine (h.close fd).openFile_ok ⟨fd, h.bounded fd (by simp [hf]), ?_⟩
  simp only [FileTable.close, hf, hrc, if_true]
  rw [(remove_files fd f v).1, Function.update_self]

lemma CursorInv.step (h : v.CursorInv) (hroom : v.HasRoom op) (hrun : v.step op = .ok v') :
    v'.CursorInv := by
  cases op with
  | openFile err =>
    obtain rfl : (v.openFile err).2 = v' := by simpa [FileTable.step] using hrun
    unfold FileTable.openFile
    rcases hfree : v.getFreeFd with ⟨_ | i, u⟩
    · obtain ⟨j, hj, hnone⟩ := hroom
      have := h.full (by rw [hfree]) hj
      simp [hnone] at this
    · rcases err with _ | e
      · exact h.fill hfree _
      · have hcursor := (getFreeFd_spec hfree).2.2.2.2.2
        exact h.giveBack hfree (by omega)
  | openTty =>
    obtain rfl : v.openTty.2 = v' := by simpa [FileTable.step] using hrun
    unfold FileTable.openTty
    rcases hfree : v.getFreeFd with ⟨_ | i, u⟩
    · rw [(getFreeFd_none hfree).1]
      exact h
    · exact h.fill hfree _
  | pipe =>
    obtain rfl : v.pipe.2 = v' := by simpa [FileTable.step] using hrun
    unfold FileTable.pipe
    rcases hfree : v.getFreeFd with ⟨_ | i, u⟩
    · rw [(getFreeFd_none hfree).1]
      exact h
    have hcursor := (getFreeFd_spec hfree).2.2.2.2.2
    rcases hfree' : u.getFreeFd with ⟨_ | j, w⟩
    · obtain rfl := (getFreeFd_none hfree').1
      simp only [hfree']
      exact h.giveBack hfree (by omega)
    · simp only [hfree']
      exact h.fillTwo hfree hfree' _ _ _
  | addRef fd =>
    simp only [FileTable.step, addRef] at hrun
    split at hrun
    · cases hrun
    · case h_2 f hf =>
      obtain rfl : _ = v' := by simpa using hrun
      exact h.setRc hf _
  | dropRef fd =>
    simp only [FileTable.step, dropRef] at hrun
    split at hrun
    · cases hrun
    · case h_2 f hf =>
      obtain rfl : _ = v' := by simpa using hrun
      exact h.setRc hf _
  | close fd =>
    obtain rfl : v.close fd = v' := by simpa [FileTable.step] using hrun
    exact h.close fd

lemma step_wrong (hroom : ¬ v.HasRoom op) :
    ¬ After FileTable.step CursorRight v op := by
  cases op with
  | openFile err =>
    have hnone : v.getFreeFd.1 = none := by
      rcases hfree : v.getFreeFd with ⟨_ | i, u⟩
      · rfl
      · obtain ⟨hlt, hfile, -⟩ := getFreeFd_spec hfree
        exact absurd ⟨i, hlt, hfile⟩ hroom
    have hfree : v.getFreeFd = (none, v.getFreeFd.2) := Prod.ext hnone rfl
    intro hafter
    have hafter : CursorRight (v.openFile err).2 := hafter
    have hneg : (v.openFile err).2.lowestFreeFd < 0 := by
      unfold FileTable.openFile
      rw [hfree]
      show min v.getFreeFd.2.lowestFreeFd (-1) < 0
      omega
    exact absurd hafter.nonneg (not_le.mpr hneg)
  | _ => exact absurd trivial hroom

lemma CursorInv.run_iff (ops : List TableOp) : ∀ {v : FileTable}, v.CursorInv →
    (EachCall FileTable.step (After FileTable.step CursorRight) ops v ↔
      EachCall FileTable.step HasRoom ops v) := by
  induction ops with
  | nil =>
    intro v _
    exact Iff.rfl
  | cons op ops ih =>
    intro v h
    by_cases hroom : v.HasRoom op
    · rcases hok : v.step op with e | v'
      · simp [EachCall, After, hok, hroom]
      · have hinv := h.step hroom hok
        have hafter : After FileTable.step CursorRight v op := by
          rw [After, hok]
          exact hinv.right
        simp only [EachCall, hok, hroom, hafter, true_and]
        exact ih hinv
    · simp only [EachCall, hroom, step_wrong hroom, false_and]

lemma cursorInv_new : CursorInv {} :=
  ⟨le_rfl, by decide, fun i hi => absurd hi (by simp), by simp⟩

end Cursor

instance decidableHasRoom (v : FileTable) : DecidablePred v.HasRoom
  | .openFile _ => inferInstanceAs (Decidable (∃ i < maxFd, v.files i = none))
  | .openTty | .pipe | .addRef _ | .dropRef _ | .close _ => isTrue trivial

/-- In a run from an empty table every step leaves the cursor right iff no step opens a file in a full
table. -/
theorem table_cursor_iff (ops : List TableOp) :
    EachCall step (After step CursorRight) ops {} ↔ EachCall step HasRoom ops {} :=
  cursorInv_new.run_iff ops

/-- With the table full of terminals, a file is opened, and a terminal is closed to make room for it. -/
theorem table_cursor_lost : ¬ EachCall step (After step CursorRight)
    (List.replicate maxFd .openTty ++ [.openFile none, .close 0, .openFile none]) {} := by
  rw [cursorInv_new.run_iff]
  decide +kernel

end FileTable

end BrebOS
