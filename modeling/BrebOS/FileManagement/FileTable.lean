import BrebOS.Core.Defs
import BrebOS.FileManagement.Pipe
import BrebOS.Lib.Loop

/-!
# The system's table of open files

`VFS::file_descriptors` and what `VFS.cpp` does with it: `get_free_fd`, `open_file`, `open_tty`,
`pipe` and `close`.  What a file holds is not modelled here, and whether `open_file` finds its file
is for the caller to say.  A pipe is named by a number; its two ends are two entries of the table.

`lowest_free_fd` is an `int`: when `open_file` finds the table full it sets it to -1, and from then on
`get_free_fd` finds nothing.
-/

namespace BrebOS

/-- `MAX_FD`. -/
def maxFd : ℕ := 100

/-- `EBADF`. -/
def ebadf : ℤ := 9

/-- `ENFILE`. -/
def enfile : ℤ := 23

/-- `EMFILE`. -/
def emfile : ℤ := 24

/-- `EPIPE`. -/
def epipe : ℤ := 32

def Errno.code : Errno → ℤ
  | .ebadf => BrebOS.ebadf
  | .einval => BrebOS.einval
  | .epipe => BrebOS.epipe

/-- The errors `VFS::open_file` returns for its arguments or its file. -/
inductive OpenError
  | einval
  | eacces
  | enoent
  | eisdir
  | eio
  deriving DecidableEq, Repr

def OpenError.code : OpenError → ℤ
  | .einval => BrebOS.einval
  | .eacces => 13
  | .enoent => 2
  | .eisdir => 21
  | .eio => 5

/-- The subclasses of `FileInterface`; for a pipe, which one and which end of it. -/
inductive FileKind
  | file
  | tty
  | pipe (id : ℕ) (e : Pipe.End)
  deriving DecidableEq, Repr

/-- `FileInterface`: an entry of the table and the number of process descriptors for it. -/
structure FileInterface where
  kind : FileKind
  rc : ℤ := 0
  deriving DecidableEq, Repr

/-- A pipe and the entries of its two ends. -/
structure PipeFds where
  pipe : Pipe := {}
  readFd : ℕ
  writeFd : ℕ

/-- The static members of `VFS`, and the pipes made so far. -/
structure FileTable where
  files : ℕ → Option FileInterface := fun _ => none
  lowestFreeFd : ℤ := 0
  pipes : List PipeFds := []

namespace FileTable

def setFile (fd : ℕ) (f : Option FileInterface) (v : FileTable) : FileTable :=
  { v with files := Function.update v.files fd f }

/-- The first free index from `i` on, or `MAX_FD`. -/
def nextFree (v : FileTable) (i : ℕ) : ℕ := skipWhile (fun j => (v.files j).isSome) (maxFd - i) i

/-- `VFS::get_free_fd`.  As a `size_t`, -1 is not below `MAX_FD`. -/
def getFreeFd (v : FileTable) : Option ℕ × FileTable :=
  if v.lowestFreeFd < 0 then (none, v)
  else
    let i := v.nextFree v.lowestFreeFd.toNat
    if i < maxFd then (some i, { v with lowestFreeFd := v.nextFree (i + 1) }) else (none, v)

/-- `VFS::open_tty`. -/
def openTty (v : FileTable) : Option ℕ × FileTable :=
  match v.getFreeFd with
  | (some fd, v) => (some fd, v.setFile fd (some { kind := .tty }))
  | (none, v) => (none, v)

/-- `VFS::open_file`; `err` is what is wrong with the arguments or the file, if anything is. -/
def openFile (err : Option OpenError) (v : FileTable) : Except ℤ ℕ × FileTable :=
  match v.getFreeFd with
  | (none, v) => (.error (-enfile), { v with lowestFreeFd := min v.lowestFreeFd (-1) })
  | (some fd, v) =>
    match err with
    | some e => (.error (-e.code), { v with lowestFreeFd := min v.lowestFreeFd fd })
    | none => (.ok fd, v.setFile fd (some { kind := .file }))

/-- `VFS::pipe`: the entries of the read end and of the write end. -/
def pipe (v : FileTable) : Option (ℕ × ℕ) × FileTable :=
  match v.getFreeFd with
  | (none, v) => (none, v)
  | (some rfd, v) =>
    match v.getFreeFd with
    | (none, v) => (none, { v with lowestFreeFd := min rfd v.lowestFreeFd })
    | (some wfd, v) =>
      let id := v.pipes.length
      let v := { v with pipes := v.pipes ++ [PipeFds.mk {} rfd wfd] }
      let v := v.setFile rfd (some { kind := .pipe id .read })
      (some (rfd, wfd), v.setFile wfd (some { kind := .pipe id .write }))

/-- `get_write_fd`. -/
def getWriteFd (v : FileTable) (fd : ℕ) : FileKind → Option ℕ
  | .pipe _ .write => some fd
  | .pipe id .read => do
      let p ← v.pipes[id]?
      if p.pipe.writeOpen then some p.writeFd else none
  | _ => none

/-- `get_read_fd`. -/
def getReadFd (v : FileTable) (fd : ℕ) : FileKind → Option ℕ
  | .pipe _ .read => some fd
  | .pipe id .write => do
      let p ← v.pipes[id]?
      if p.pipe.readOpen then some p.readFd else none
  | _ => none

/-- `should_wait_for_data_on_read`. -/
def shouldWaitForDataOnRead (v : FileTable) : FileKind → Except Fault Bool
  | .pipe _ .write =>
      .error (.irrecoverableError
        "should_wait_for_data_on_read: shouldn't be called on pipe write end")
  | .pipe id .read => .ok (v.pipes[id]?.any fun p => p.pipe.shouldWaitForDataOnRead)
  | _ => .ok false

def modifyPipe (id : ℕ) (g : Pipe → Pipe) (v : FileTable) : FileTable :=
  { v with pipes := v.pipes.modify id fun p => { p with pipe := g p.pipe } }

/-- The destructor of a file: the other end of a pipe is told. -/
def destroy (v : FileTable) : FileKind → FileTable
  | .pipe id .read => v.modifyPipe id fun p => { p with readOpen := false }
  | .pipe id .write => v.modifyPipe id fun p => { p with writeOpen := false }
  | _ => v

/-- The constructor of a `file_descriptor`. -/
def addRef (fd : ℕ) (v : FileTable) : Except Fault FileTable :=
  match v.files fd with
  | none => .error (.irrecoverableError "Trying to create a dangling file descriptor")
  | some f => .ok (v.setFile fd (some { f with rc := f.rc + 1 }))

/-- The destructor of a `file_descriptor`. -/
def dropRef (fd : ℕ) (v : FileTable) : Except Fault FileTable :=
  match v.files fd with
  | none => .error (.irrecoverableError "Trying to delete a dangling file descriptor")
  | some f => .ok (v.setFile fd (some { f with rc := f.rc - 1 }))

/-- `VFS::close` of a file nobody has a descriptor for any more. -/
def remove (fd : ℕ) (f : FileInterface) (v : FileTable) : FileTable :=
  let v := (v.destroy f.kind).setFile fd none
  { v with lowestFreeFd := min v.lowestFreeFd fd }

/-! ## What is in the table -/

/-- The kind of the file under a number, if there is one. -/
def kindAt (v : FileTable) (fd : ℕ) : Option FileKind := (v.files fd).map FileInterface.kind

section Effects

variable {v v' : FileTable} {i fd : ℕ}

lemma nextFree_spec (v : FileTable) (i : ℕ) :
    i ≤ v.nextFree i ∧ (∀ j, i ≤ j → j < v.nextFree i → (v.files j).isSome) ∧
      (v.nextFree i < maxFd → v.files (v.nextFree i) = none) := by
  obtain ⟨hle, hmax, hused, hfree⟩ :=
    skipWhile_spec (fun j => (v.files j).isSome) (maxFd - i) i
  refine ⟨hle, hused, ?_⟩
  intro hlt
  have := hfree (by simp only [nextFree] at hlt; omega)
  simpa [nextFree] using this

lemma getFreeFd_eq (h : v.getFreeFd = (some i, v')) : ¬ v.lowestFreeFd < 0 ∧
    i = v.nextFree v.lowestFreeFd.toNat ∧ i < maxFd ∧
    v' = { v with lowestFreeFd := v.nextFree (i + 1) } := by
  simp only [getFreeFd] at h
  split_ifs at h with hneg hlt
  · simp at h
  · obtain ⟨rfl, rfl⟩ : v.nextFree v.lowestFreeFd.toNat = i ∧ _ = v' := by simpa using h
    exact ⟨hneg, rfl, hlt, rfl⟩
  · simp at h

lemma getFreeFd_spec (h : v.getFreeFd = (some i, v')) :
    i < maxFd ∧ v.files i = none ∧ v'.files = v.files ∧ v'.pipes = v.pipes ∧
      v.lowestFreeFd ≤ i ∧ i < v'.lowestFreeFd := by
  obtain ⟨hneg, rfl, hlt, rfl⟩ := getFreeFd_eq h
  have hle := (v.nextFree_spec v.lowestFreeFd.toNat).1
  have hnext := (v.nextFree_spec (v.nextFree v.lowestFreeFd.toNat + 1)).1
  refine ⟨hlt, (v.nextFree_spec _).2.2 hlt, rfl, rfl, by omega, ?_⟩
  show (_ : ℤ) < ((v.nextFree (_ + 1) : ℕ) : ℤ)
  omega

lemma getFreeFd_none (h : v.getFreeFd = (none, v')) :
    v' = v ∧ (v.lowestFreeFd < 0 ∨ maxFd ≤ v.nextFree v.lowestFreeFd.toNat) := by
  simp only [getFreeFd] at h
  split_ifs at h with hneg hlt
  · exact ⟨by simpa using h.symm, Or.inl hneg⟩
  · simp at h
  · exact ⟨by simpa using h.symm, Or.inr (not_lt.mp hlt)⟩

@[simp]
lemma kindAt_setFile (fd : ℕ) (f : Option FileInterface) (v : FileTable) :
    (v.setFile fd f).kindAt = Function.update v.kindAt fd (f.map FileInterface.kind) := by
  funext j
  rcases eq_or_ne j fd with rfl | hj
  · simp [kindAt, setFile]
  · simp [kindAt, setFile, hj]

lemma openTty_spec (h : v.openTty = (some fd, v')) :
    fd < maxFd ∧ v.files fd = none ∧
      v'.files = Function.update v.files fd (some { kind := .tty }) ∧ v'.pipes = v.pipes := by
  unfold openTty at h
  rcases hfree : v.getFreeFd with ⟨_ | i, u⟩
  · simp [hfree] at h
  · obtain ⟨hlt, hnone, hfiles, hpipes, -, hcursor⟩ := getFreeFd_spec hfree
    rw [hfree] at h
    obtain ⟨rfl, rfl⟩ : i = fd ∧ _ = v' := by simpa using h
    exact ⟨hlt, hnone, by rw [← hfiles]; rfl, hpipes⟩

lemma openTty_none (h : v.openTty = (none, v')) : v' = v := by
  unfold openTty at h
  rcases hfree : v.getFreeFd with ⟨_ | i, u⟩
  · rw [hfree] at h
    obtain rfl : u = v' := by simpa using h
    exact (getFreeFd_none hfree).1
  · simp [hfree] at h

lemma openFile_spec {err : Option OpenError} (h : v.openFile err = (.ok fd, v')) :
    fd < maxFd ∧ v.files fd = none ∧
      v'.files = Function.update v.files fd (some { kind := .file }) ∧ v'.pipes = v.pipes := by
  unfold openFile at h
  rcases hfree : v.getFreeFd with ⟨_ | i, u⟩
  · simp [hfree] at h
  · obtain ⟨hlt, hnone, hfiles, hpipes, -, hcursor⟩ := getFreeFd_spec hfree
    rw [hfree] at h
    rcases err with _ | e
    · obtain ⟨rfl, rfl⟩ : i = fd ∧ _ = v' := by simpa using h
      exact ⟨hlt, hnone, by rw [← hfiles]; rfl, hpipes⟩
    · simp at h

lemma openFile_error {err : Option OpenError} {e : ℤ} (h : v.openFile err = (.error e, v')) :
    v'.files = v.files ∧ v'.pipes = v.pipes ∧ e < 0 := by
  unfold openFile at h
  rcases hfree : v.getFreeFd with ⟨_ | i, u⟩
  · rw [hfree] at h
    obtain ⟨rfl, -⟩ := getFreeFd_none hfree
    obtain ⟨rfl, rfl⟩ : -enfile = e ∧ _ = v' := by simpa using h
    exact ⟨rfl, rfl, by decide⟩
  · obtain ⟨-, -, hfiles, hpipes, -, -⟩ := getFreeFd_spec hfree
    rw [hfree] at h
    rcases err with _ | err
    · simp at h
    · obtain ⟨rfl, rfl⟩ : -err.code = e ∧ _ = v' := by simpa using h
      exact ⟨hfiles, hpipes, by cases err <;> decide⟩

lemma pipe_spec {rfd wfd : ℕ} (h : v.pipe = (some (rfd, wfd), v')) :
    rfd ≠ wfd ∧ v.files rfd = none ∧ v.files wfd = none ∧
      v'.files = Function.update (Function.update v.files rfd
        (some { kind := .pipe v.pipes.length .read })) wfd
          (some { kind := .pipe v.pipes.length .write }) ∧
      v'.pipes = v.pipes ++ [⟨{}, rfd, wfd⟩] := by
  unfold pipe at h
  rcases hfree : v.getFreeFd with ⟨_ | i, u⟩
  · simp [hfree] at h
  rcases hfree' : u.getFreeFd with ⟨_ | j, w⟩
  · simp [hfree, hfree'] at h
  obtain ⟨hlt, hnone, hfiles, hpipes, -, hcursor⟩ := getFreeFd_spec hfree
  obtain ⟨-, hnone', hfiles', hpipes', hcursor', -⟩ := getFreeFd_spec hfree'
  rw [hfree] at h
  simp only [hfree'] at h
  obtain ⟨⟨rfl, rfl⟩, rfl⟩ : (i = rfd ∧ j = wfd) ∧ _ = v' := by simpa using h
  refine ⟨?_, hnone, hfiles ▸ hnone', ?_, ?_⟩
  · -- the cursor is past the first of them
    omega
  · rw [← hpipes, ← hpipes', ← hfiles, ← hfiles']
    rfl
  · rw [← hpipes, ← hpipes']
    rfl

lemma pipe_none (h : v.pipe = (none, v')) : v'.files = v.files ∧ v'.pipes = v.pipes := by
  unfold pipe at h
  rcases hfree : v.getFreeFd with ⟨_ | i, u⟩
  · rw [hfree] at h
    obtain rfl : u = v' := by simpa using h
    rw [(getFreeFd_none hfree).1]
    exact ⟨rfl, rfl⟩
  rcases hfree' : u.getFreeFd with ⟨_ | j, w⟩
  · obtain ⟨-, -, hfiles, hpipes, -, -⟩ := getFreeFd_spec hfree
    obtain ⟨rfl, -⟩ := getFreeFd_none hfree'
    rw [hfree] at h
    simp only [hfree'] at h
    obtain rfl : _ = v' := by simpa using h
    exact ⟨hfiles, hpipes⟩
  · rw [hfree] at h
    simp [hfree'] at h

/-- The free numbers `get_free_fd` can still find. -/
def freeSet (v : FileTable) : Finset ℕ :=
  if v.lowestFreeFd < 0 then ∅
  else (Finset.range maxFd).filter fun j => v.lowestFreeFd.toNat ≤ j ∧ v.files j = none

/-- How many numbers `get_free_fd` can still find. -/
def freeFds (v : FileTable) : ℕ := v.freeSet.card

lemma freeFds_congr (hlow : v'.lowestFreeFd = v.lowestFreeFd)
    (hfiles : ∀ j, (v'.files j).isSome = (v.files j).isSome) : v'.freeFds = v.freeFds := by
  have hnone : ∀ j, v'.files j = none ↔ v.files j = none := by
    intro j
    rw [← Option.isNone_iff_eq_none, ← Option.isNone_iff_eq_none, ← Option.not_isSome,
      ← Option.not_isSome, hfiles j]
  unfold freeFds freeSet
  rw [hlow]
  simp only [hnone]

lemma openTty_freeFds (h : v.openTty = (some fd, v')) : v.freeFds = v'.freeFds + 1 := by
  obtain ⟨hlt, hnone, hfiles, -⟩ := openTty_spec h
  obtain ⟨hneg, hfd, hlow⟩ : ¬ v.lowestFreeFd < 0 ∧ fd = v.nextFree v.lowestFreeFd.toNat ∧
      v'.lowestFreeFd = v.nextFree (fd + 1) := by
    unfold openTty at h
    rcases hfree : v.getFreeFd with ⟨_ | i, u⟩
    · simp [hfree] at h
    · rw [hfree] at h
      obtain ⟨rfl, rfl⟩ : i = fd ∧ _ = v' := by simpa using h
      obtain ⟨hneg, hi, -, rfl⟩ := getFreeFd_eq hfree
      exact ⟨hneg, hi, rfl⟩
  obtain ⟨hle, hused, -⟩ := v.nextFree_spec v.lowestFreeFd.toNat
  obtain ⟨hle', hused', -⟩ := v.nextFree_spec (fd + 1)
  rw [← hfd] at hle hused
  have hset : v.freeSet = insert fd v'.freeSet := by
    ext j
    simp only [freeSet, if_neg hneg, hlow, if_neg (show ¬ ((v.nextFree (fd + 1) : ℕ) : ℤ) < 0 by omega),
      Int.toNat_natCast, Finset.mem_insert, Finset.mem_filter, Finset.mem_range, hfiles]
    constructor
    · rintro ⟨hj, hjl, hjn⟩
      rcases Nat.lt_trichotomy j fd with hjf | rfl | hjf
      · exact absurd (hused j hjl hjf) (by simp [hjn])
      · exact Or.inl rfl
      · refine Or.inr ⟨hj, ?_, by rwa [Function.update_of_ne hjf.ne']⟩
        by_contra hcon
        have := hused' j hjf (by omega)
        simp [hjn] at this
    · rintro (rfl | ⟨hj, hjl, hjn⟩)
      · exact ⟨hlt, hle, hnone⟩
      · rw [Function.update_of_ne (by omega)] at hjn
        exact ⟨hj, by omega, hjn⟩
  have hnotMem : fd ∉ v'.freeSet := by
    simp only [freeSet, hlow, if_neg (show ¬ ((v.nextFree (fd + 1) : ℕ) : ℤ) < 0 by omega),
      Int.toNat_natCast, Finset.mem_filter, not_and]
    intro _ hcon
    omega
  unfold freeFds
  rw [hset, Finset.card_insert_of_notMem hnotMem]

lemma openTty_none_freeFds (h : v.openTty = (none, v')) : v.freeFds = 0 := by
  have hnone : v.lowestFreeFd < 0 ∨ maxFd ≤ v.nextFree v.lowestFreeFd.toNat := by
    unfold openTty at h
    rcases hfree : v.getFreeFd with ⟨_ | i, u⟩
    · exact (getFreeFd_none hfree).2
    · simp [hfree] at h
  unfold freeFds freeSet
  split_ifs with hneg
  · rfl
  · rw [Finset.card_eq_zero, Finset.filter_eq_empty_iff]
    rintro j hj ⟨hjl, hjn⟩
    have hmax := hnone.resolve_left hneg
    have := (v.nextFree_spec v.lowestFreeFd.toNat).2.1 j hjl
      (lt_of_lt_of_le (Finset.mem_range.mp hj) hmax)
    simp [hjn] at this

end Effects

end FileTable

end BrebOS
