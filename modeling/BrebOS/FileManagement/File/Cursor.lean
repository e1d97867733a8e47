import BrebOS.FileManagement.File
import BrebOS.FileManagement.FAT.Load
import BrebOS.Lib.Run

/-!
# The cursor of a file

A read moves the cursor by what was read, unless the file is preloaded: then it moves by what was asked
for.  `lseek` counts from where it should if that is the start or the end of the file; when it should count
from the cursor it takes its own parameter for it.
-/

namespace BrebOS

open FAT

namespace File

/-- A place in the file, or its end. -/
def Inside (f : File) (x : ℤ) : Prop := 0 ≤ x ∧ x ≤ f.size

instance (f : File) (x : ℤ) : Decidable (f.Inside x) := inferInstanceAs (Decidable (_ ∧ _))

/-- What a seek counts from. -/
def base (f : File) (whence : ℤ) : ℤ :=
  if whence = seekSet then 0 else if whence = seekCur then f.offset else f.size

/-- The cursor goes to a place in the file, which is returned, or stays where it is. -/
def SeekRight (f : File) (offset whence : ℤ) : Prop :=
  f.lseek offset whence =
    if (0 ≤ whence ∧ whence ≤ 2) ∧ f.Inside (f.base whence + offset) then
      (f.base whence + offset, { f with offset := (f.base whence + offset).toNat })
    else (-einval, f)

/-- Neither the size nor the sum that `lseek` makes is too large for an `int`. -/
def Unwrapped (f : File) (offset whence : ℤ) : Prop :=
  0 ≤ whence → whence ≤ 2 → (whence = seekEnd → toInt f.size = f.size) ∧
    toInt (f.seekRef offset whence + offset) = f.seekRef offset whence + offset

/-- A seek from the cursor is one by as much as the cursor stands at, or goes out of the file with the one
and with the other; one from the end stays within the numbers of an `int`. -/
def SeekFits (f : File) (offset whence : ℤ) : Prop :=
  (whence = seekCur → (-2147483648 ≤ 2 * offset ∧ 2 * offset < 2147483648) ∧
    (offset = f.offset ∨ ¬f.Inside (2 * offset) ∧ ¬f.Inside (f.offset + offset))) ∧
  (whence = seekEnd → (f.size : ℤ) < 2147483648 ∧ f.size + offset < 2147483648)

variable {f : File} {d whence : ℤ}

lemma toInt_eq {x : ℤ} : toInt x = x ↔ -2147483648 ≤ x ∧ x < 2147483648 := by
  unfold toInt
  omega

lemma lseek_eq (hwhence : 0 ≤ whence ∧ whence ≤ 2)
    (hsum : toInt (f.seekRef d whence + d) = f.seekRef d whence + d) :
    f.lseek d whence = if f.Inside (f.seekRef d whence + d) then
      (f.seekRef d whence + d, { f with offset := (f.seekRef d whence + d).toNat }) else (-einval, f) := by
  rw [lseek, if_neg (by omega)]
  dsimp only
  rw [hsum]
  by_cases hneg : f.seekRef d whence + d < 0
  · rw [if_pos hneg, if_neg fun h => absurd h.1 (by omega)]
  · rw [if_neg hneg]
    by_cases hlt : (f.size : ℤ) < f.seekRef d whence + d
    · rw [if_pos hlt, if_neg fun h => absurd h.2 (by omega)]
    · rw [if_neg hlt, if_pos ⟨by omega, by omega⟩]

lemma places_eq {x y : ℤ} : ((if f.Inside x then (x, { f with offset := x.toNat }) else (-einval, f)) =
      if f.Inside y then (y, { f with offset := y.toNat }) else (-einval, f)) ↔
    x = y ∨ ¬f.Inside x ∧ ¬f.Inside y := by
  have hneg : ∀ z, f.Inside z → z ≠ -einval := by
    intro z hz heq
    have := hz.1
    rw [heq] at this
    exact absurd this (by decide)
  by_cases hx : f.Inside x
  · rw [if_pos hx]
    by_cases hy : f.Inside y
    · rw [if_pos hy]
      constructor
      · intro h
        exact Or.inl (Prod.mk.inj h).1
      · rintro (rfl | h)
        · rfl
        · exact absurd hx h.1
    · rw [if_neg hy]
      constructor
      · intro h
        exact absurd (Prod.mk.inj h).1 (hneg x hx)
      · rintro (rfl | h)
        · exact absurd hx hy
        · exact absurd hx h.1
  · rw [if_neg hx]
    by_cases hy : f.Inside y
    · rw [if_pos hy]
      constructor
      · intro h
        exact absurd (Prod.mk.inj h).1.symm (hneg y hy)
      · rintro (rfl | h)
        · exact absurd hy hx
        · exact absurd hy h.2
    · rw [if_neg hy]
      simp [hx, hy]

lemma seek_iff (hsize : f.size < 4294967296)
    (hd : -2147483648 ≤ d ∧ d < 2147483648) :
    f.SeekRight d whence ∧ f.Unwrapped d whence ↔ f.SeekFits d whence := by
  by_cases hwhence : 0 ≤ whence ∧ whence ≤ 2
  · have hright : f.Unwrapped d whence → (f.SeekRight d whence ↔
        f.seekRef d whence + d = f.base whence + d ∨
          ¬f.Inside (f.seekRef d whence + d) ∧ ¬f.Inside (f.base whence + d)) := by
      intro hun
      rw [SeekRight, lseek_eq hwhence (hun hwhence.1 hwhence.2).2]
      simp only [hwhence, and_self, true_and]
      exact places_eq
    have hcases : whence = seekSet ∨ whence = seekCur ∨ whence = seekEnd := by
      unfold seekSet seekCur seekEnd
      omega
    rw [and_comm, and_congr_right hright]
    rcases hcases with rfl | rfl | rfl
    · -- from the start
      have href : f.seekRef d seekSet = 0 := by rw [seekRef, if_pos rfl]
      have hbase : f.base seekSet = 0 := by rw [base, if_pos rfl]
      constructor
      · intro _
        exact ⟨fun h => absurd h (by decide), fun h => absurd h (by decide)⟩
      · intro _
        refine ⟨fun _ _ => ⟨fun h => absurd h (by decide), ?_⟩, Or.inl (by rw [href, hbase])⟩
        rw [href, toInt_eq]
        omega
    · -- from the cursor
      have href : f.seekRef d seekCur = d := by rw [seekRef, if_neg (by decide), if_pos rfl]
      have hbase : f.base seekCur = f.offset := by rw [base, if_neg (by decide), if_pos rfl]
      have hun : f.Unwrapped d seekCur ↔ -2147483648 ≤ 2 * d ∧ 2 * d < 2147483648 := by
        rw [← toInt_eq, Unwrapped, href, two_mul]
        constructor
        · intro h
          exact (h (by decide) (by decide)).2
        · intro h _ _
          exact ⟨fun h => absurd h (by decide), h⟩
      have heq : d + d = f.offset + d ↔ d = f.offset := by omega
      rw [hun, href, hbase, heq, ← two_mul]
      constructor
      · intro h
        exact ⟨fun _ => h, fun h => absurd h (by decide)⟩
      · intro h
        exact h.1 rfl
    · -- from the end
      have href : f.seekRef d seekEnd = toInt f.size := by
        rw [seekRef, if_neg (by decide), if_neg (by decide)]
      have hbase : f.base seekEnd = f.size := by rw [base, if_neg (by decide), if_neg (by decide)]
      constructor
      · rintro ⟨hun, -⟩
        obtain ⟨hsize, hsum⟩ := hun (by decide) (by decide)
        have hsize := hsize rfl
        rw [href, hsize, toInt_eq] at hsum
        exact ⟨fun h => absurd h (by decide), fun _ => ⟨(toInt_eq.mp hsize).2, hsum.2⟩⟩
      · intro h
        obtain ⟨hsize, hsum⟩ := h.2 rfl
        have hsize : toInt f.size = f.size := toInt_eq.mpr ⟨by omega, hsize⟩
        refine ⟨fun _ _ => ⟨fun _ => hsize, ?_⟩, Or.inl ?_⟩
        · rw [href, hsize, toInt_eq]
          omega
        · rw [href, hbase, hsize]
  · -- not one of the three
    have hcur : whence ≠ seekCur := fun h => hwhence (h ▸ by decide)
    have hend : whence ≠ seekEnd := fun h => hwhence (h ▸ by decide)
    have hfits : f.SeekFits d whence := ⟨fun h => absurd h hcur, fun h => absurd h hend⟩
    have hright : f.SeekRight d whence := by
      rw [SeekRight, if_neg fun h => hwhence h.1, lseek, if_pos (by omega)]
    exact iff_of_true ⟨hright, fun h₀ h₂ => absurd ⟨h₀, h₂⟩ hwhence⟩ hfits

end File

namespace OpenFile

/-- A read asks for a number of bytes that an `unsigned int` holds. -/
def Given : FileOp → Prop
  | .read buf => buf.length < 4294967296
  | .lseek _ _ => True

/-- A read gives an error, or moves the cursor by what it returns: as many bytes as were asked for and are
left. -/
def ReadRight (o : OpenFile) (count : ℕ) (r : ℤ) (o' : OpenFile) : Prop :=
  (r = -einval ∨ r = -eio) ∧ o'.file = o.file ∨
    r = toInt ↑(min count (o.file.size - o.file.offset)) ∧
      o'.file = { o.file with offset := o.file.offset + min count (o.file.size - o.file.offset) }

/-- A call returns, and the cursor is where it should be. -/
def CallRight (o : OpenFile) (op : FileOp) : Prop :=
  ∃ r o', o.call op = .ok (r, o') ∧ o'.file.offset ≤ o'.file.size ∧
    match op with
    | .read buf => ReadRight o buf.length r o'
    | .lseek offset whence =>
        o.file.SeekRight offset.toInt whence ∧ o.file.Unwrapped offset.toInt whence

/-- A read of a preloaded file stays in it, and a seek fits. -/
def CallFits (o : OpenFile) : FileOp → Prop
  | .read buf => o.file.regular = true → o.file.preload.isSome →
      buf.length ≤ o.file.size - o.file.offset
  | .lseek offset whence => o.file.SeekFits offset.toInt whence

/-- The file is on the volume. -/
def Stored (o : OpenFile) : Prop :=
  ∃ cs p ds, WellFormed o.session.drive.toVolume ∧ o.session.drive.toVolume.Chain o.file.parentLba cs ∧
    StoredFile o.session.drive.toVolume cs o.file.name p ds ∧
      DirEntry.fileSize (o.session.drive.toVolume.entryIn p) = o.file.size

/-- The cursor is in the file or at its end; if the file is read from the disk, it is there. -/
structure Stands (o : OpenFile) : Prop where
  le : o.file.offset ≤ o.file.size
  lt : o.file.size < 4294967296
  stored : o.file.regular = true → o.file.preload = none → o.Stored

variable {o o' : OpenFile} {op : FileOp} {buf : List UInt8}

lemma read_irregular (hreg : o.file.regular = false) :
    o.call (.read buf) = .ok (-einval, { o with session := { o.session with user := buf } }) := by
  rw [call, File.read, if_pos (by rw [hreg]; rfl)]
  rfl

lemma read_preload {data : ℕ → UInt8} (buf : List UInt8) (hreg : o.file.regular = true) (hpre : o.file.preload = some data) :
    o.call (.read buf) = .ok (toInt buf.length,
      ⟨{ o.file with offset := u32 (o.file.offset + buf.length) },
        { o.session with user := (List.range buf.length).map fun j => data (o.file.offset + j) }⟩) := by
  rcases o with ⟨⟨name, parentLba, size, regular, offset, preload, append⟩, session⟩
  cases hreg
  cases hpre
  rfl

lemma read_disk {loaded : Option ℕ} {s' : Session} (hreg : o.file.regular = true)
    (hpre : o.file.preload = none)
    (hrun : (loadFileToBuf o.file.parentLba o.file.name o.file.offset
      (min buf.length (u32Sub o.file.size o.file.offset))).run { o.session with user := buf } =
        .ok (loaded, s')) :
    o.call (.read buf) = .ok (loaded.elim (-eio, ⟨o.file, s'⟩)
      fun n => (toInt n, ⟨{ o.file with offset := u32 (o.file.offset + n) }, s'⟩)) := by
  rcases o with ⟨⟨name, parentLba, size, regular, offset, preload, append⟩, session⟩
  cases hreg
  cases hpre
  rw [call, File.read, if_neg (fun h => absurd h (by decide : ¬(!true) = true))]
  dsimp only at hrun ⊢
  rw [hrun]
  cases loaded with
  | none => rfl
  | some n => rfl

lemma Stands.read_stored (h : o.Stands) (buf : List UInt8) (hreg : o.file.regular = true)
    (hpre : o.file.preload = none) : ∃ r o', o.call (.read buf) = .ok (r, o') ∧ ReadRight o buf.length r o' ∧
      o'.session.drive.toVolume = o.session.drive.toVolume := by
  obtain ⟨cs, p, ds, hw, hchain, hfile, hsize⟩ := h.stored hreg hpre
  have hle := h.le
  have hlt := h.lt
  have hleft : u32Sub o.file.size o.file.offset = o.file.size - o.file.offset := u32Sub_of_le hle hlt
  have hin : o.file.offset + min buf.length (o.file.size - o.file.offset) ≤
      DirEntry.fileSize (o.session.drive.toVolume.entryIn p) := by
    rw [hsize]
    omega
  have hroom : min buf.length (o.file.size - o.file.offset) ≤ buf.length := min_le_left _ _
  obtain ⟨s', hvol, hrun⟩ := loadFileToBuf_cases hfile hw hchain hin hroom
  rw [← hleft] at hrun
  rcases hrun with ⟨hrun, -, -⟩ | ⟨hrun, -, -⟩
  · refine ⟨_, _, read_disk hreg hpre hrun, Or.inr ⟨by rw [hleft], ?_⟩, hvol⟩
    dsimp only
    rw [hleft, u32_of_lt (by omega)]
  · exact ⟨_, _, read_disk hreg hpre hrun, Or.inl ⟨Or.inr rfl, rfl⟩, hvol⟩

lemma call_lseek {d : Int32} {whence : ℤ} : o.call (.lseek d whence) =
    .ok ((o.file.lseek d.toInt whence).1, { o with file := (o.file.lseek d.toInt whence).2 }) := rfl

lemma int32_bounds (d : Int32) : -2147483648 ≤ d.toInt ∧ d.toInt < 2147483648 :=
  ⟨d.le_toInt, d.toInt_lt⟩

lemma lseek_le {f : File} (d whence : ℤ) (hle : f.offset ≤ f.size) :
    (f.lseek d whence).2.offset ≤ f.size := by
  rw [File.lseek]
  dsimp only
  split_ifs
  · exact hle
  · exact hle
  · exact hle
  · dsimp only at *
    omega

lemma lseek_file (f : File) (d whence : ℤ) : ∃ n, (f.lseek d whence).2 = { f with offset := n } := by
  rw [File.lseek]
  dsimp only
  split_ifs
  · exact ⟨_, rfl⟩
  · exact ⟨_, rfl⟩
  · exact ⟨_, rfl⟩
  · exact ⟨_, rfl⟩

lemma readRight_preload_iff {o' : OpenFile} {count : ℕ} (hle : o.file.offset ≤ o.file.size)
    (hlt : o.file.size < 4294967296) (hcount : count < 4294967296)
    (hfile : o'.file = { o.file with offset := u32 (o.file.offset + count) }) :
    o'.file.offset ≤ o'.file.size ∧ ReadRight o count (toInt count) o' ↔
      count ≤ o.file.size - o.file.offset := by
  have hoffset : o'.file.offset = u32 (o.file.offset + count) := by rw [hfile]
  constructor
  · rintro ⟨-, ⟨-, hsame⟩ | ⟨-, hmoved⟩⟩
    · -- the cursor has not moved
      rw [hsame] at hoffset
      unfold u32 at hoffset
      omega
    · rw [hmoved] at hoffset
      dsimp only at hoffset
      unfold u32 at hoffset
      omega
  · intro hcount
    have hmin : min count (o.file.size - o.file.offset) = count := min_eq_left hcount
    have hu32 : u32 (o.file.offset + count) = o.file.offset + count := u32_of_lt (by omega)
    refine ⟨?_, Or.inr ⟨by rw [hmin], by rw [hmin, hfile, hu32]⟩⟩
    rw [hfile, hu32]
    dsimp only
    omega

lemma Stands.call_iff (h : o.Stands) (hgiven : Given op) : CallRight o op ↔ CallFits o op := by
  cases op with
  | lseek d whence =>
    rw [CallFits, ← File.seek_iff h.lt (int32_bounds d), CallRight, call_lseek]
    constructor
    · rintro ⟨r, o', -, -, hright⟩
      exact hright
    · intro hright
      refine ⟨_, _, rfl, ?_, hright⟩
      obtain ⟨n, hn⟩ := lseek_file o.file d.toInt whence
      have hle := lseek_le d.toInt whence h.le
      dsimp only
      rw [hn] at hle ⊢
      exact hle
  | read buf =>
    by_cases hreg : o.file.regular = true
    · rcases hpre : o.file.preload with _ | data
      · refine iff_of_true ?_ ?_
        · obtain ⟨r, o', hcall, hright, -⟩ := h.read_stored buf hreg hpre
          refine ⟨r, o', hcall, ?_, hright⟩
          rcases hright with ⟨-, hfile⟩ | ⟨-, hfile⟩
          · rw [hfile]
            exact h.le
          · have hle := h.le
            rw [hfile]
            dsimp only
            omega
        · intro _ hsome
          rw [hpre] at hsome
          exact absurd hsome (by decide)
      · have hcall := read_preload buf hreg hpre
        rw [CallFits, CallRight, hcall]
        constructor
        · rintro ⟨r, o', heq, hle, hright⟩ _ _
          cases heq
          exact (readRight_preload_iff h.le h.lt hgiven rfl).mp ⟨hle, hright⟩
        · intro hfits
          have hcount := hfits hreg (by rw [hpre]; rfl)
          refine ⟨_, _, rfl, ?_⟩
          exact (readRight_preload_iff h.le h.lt hgiven rfl).mpr hcount
    · have hreg : o.file.regular = false := by simpa using hreg
      refine iff_of_true ⟨_, _, read_irregular hreg, h.le, Or.inl ⟨Or.inl rfl, rfl⟩⟩ ?_
      intro hregular
      rw [hreg] at hregular
      exact absurd hregular (by decide)

lemma lseek_stands {d whence : ℤ} (h : o.Stands) :
    Stands { o with file := (o.file.lseek d whence).2 } := by
  have hle := lseek_le d whence h.le
  obtain ⟨n, hn⟩ := lseek_file o.file d whence
  rw [hn] at hle ⊢
  exact ⟨hle, h.lt, h.stored⟩

lemma Stands.step (h : o.Stands) (hgiven : Given op) (hfits : CallFits o op)
    (hstep : o.step op = .ok o') : o'.Stands := by
  obtain ⟨⟨r, o₁⟩, hcall, rfl⟩ := map_eq_ok.mp hstep
  cases op with
  | lseek d whence =>
    rw [call_lseek] at hcall
    cases hcall
    exact lseek_stands h
  | read buf =>
    obtain ⟨r₁, o₂, hcall', hle, hright⟩ := (h.call_iff hgiven).mpr hfits
    rw [hcall] at hcall'
    cases hcall'
    -- only the cursor moves
    obtain ⟨n, hfile⟩ : ∃ n, o₁.file = { o.file with offset := n } := by
      rcases hright with ⟨-, hfile⟩ | ⟨-, hfile⟩
      · exact ⟨o.file.offset, hfile⟩
      · exact ⟨_, hfile⟩
    refine ⟨hle, by rw [hfile]; exact h.lt, fun hreg hpre => ?_⟩
    rw [hfile] at hreg hpre
    obtain ⟨r₂, o₂, hcall', -, hvol⟩ := h.read_stored buf hreg hpre
    rw [hcall] at hcall'
    cases hcall'
    rw [Stored, hvol, hfile]
    exact h.stored hreg hpre

lemma Stands.fresh {s : Session} {cs ds : List ℕ} {p : FAT.Slot} {name : Name} {parentLba : ℕ}
    (hw : WellFormed s.drive.toVolume) (hchain : s.drive.toVolume.Chain parentLba cs)
    (hfile : StoredFile s.drive.toVolume cs name p ds) :
    Stands ⟨{ name, parentLba, size := DirEntry.fileSize (s.drive.toVolume.entryIn p) }, s⟩ :=
  ⟨Nat.zero_le _, leRead_lt _ 28 4, fun _ _ => ⟨cs, p, ds, hw, hchain, hfile, rfl⟩⟩

end OpenFile

/-- The cursor is where it should be in every call of a run, exactly when each fits: the seeks from the
cursor that go wrong are those that are not by as much as the cursor stands at, the reads those that go
behind the end of a preloaded file. -/
theorem cursor_right_iff {ops : List FileOp} {o : OpenFile} (h : o.Stands)
    (hgiven : EachCall OpenFile.step (fun _ op => OpenFile.Given op) ops o) :
    EachCall OpenFile.step OpenFile.CallRight ops o ↔ EachCall OpenFile.step OpenFile.CallFits ops o :=
  EachCall.congr (fun _ _ hs ha => hs.call_iff ha) (fun _ _ _ hs ha hfits => hs.step ha hfits) h hgiven

/-- The file of `fullSector`, opened. -/
def fullSectorFile : OpenFile := ⟨{ name := [97], parentLba := 2, size := 512 }, fullSector.session⟩

lemma fullSectorFile_stands : fullSectorFile.Stands := by
  have hfresh := OpenFile.Stands.fresh (s := fullSector.session) oneEntry_wellFormed
    (oneEntry_chain two_valid) fullSector_file.stored
  have hsize : DirEntry.fileSize (fullSector.session.drive.toVolume.entryIn (2, 0)) = 512 :=
    fullSector_size
  rwa [hsize] at hfresh

/-- Ten bytes are read from the middle of a file. -/
theorem cursor_right_middle : EachCall OpenFile.step OpenFile.CallRight
    [.lseek 100 seekSet, .read (List.replicate 10 0)] fullSectorFile := by
  obtain ⟨n, hn⟩ := OpenFile.lseek_file fullSectorFile.file 100 seekSet
  have hstep : fullSectorFile.step (.lseek 100 seekSet) =
      .ok { fullSectorFile with file := { fullSectorFile.file with offset := n } } := by
    rw [← hn]
    rfl
  refine (cursor_right_iff fullSectorFile_stands ?_).mpr ?_
  · simp only [EachCall, hstep]
    refine ⟨trivial, by show (List.replicate 10 0).length < _; decide, ?_⟩
    split <;> trivial
  · simp only [EachCall, hstep]
    refine ⟨⟨fun h => absurd h (by decide), fun h => absurd h (by decide)⟩,
      fun _ h => absurd h Bool.false_ne_true, ?_⟩
    split <;> trivial

/-- A seek by 1 from the start of a file goes to 2. -/
theorem cursor_not_right_cur :
    ¬EachCall OpenFile.step OpenFile.CallRight [.lseek 1 seekCur] fullSectorFile := by
  rintro ⟨hright, -⟩
  have hgiven : OpenFile.Given (.lseek 1 seekCur) := trivial
  rcases (((fullSectorFile_stands.call_iff hgiven).mp hright).1 rfl).2 with h | h
  · exact absurd h (by decide)
  · exact h.1 (by decide)

end BrebOS
