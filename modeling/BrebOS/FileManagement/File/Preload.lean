import BrebOS.FileManagement.File.Cursor

/-!
# Preloaded files

A read that is served from memory takes as many bytes as it is asked for, where one from the disk takes no
more than are left.  They agree on the reads that stay in the file.
-/

namespace BrebOS

open FAT

namespace OpenFile

/-- A regular file on the volume whose data was read when the kernel started. -/
structure Preloaded (ds : List ℕ) (o : OpenFile) : Prop where
  le : o.file.offset ≤ o.file.size
  lt : o.file.size < 4294967296
  regular : o.file.regular = true
  stored : ∃ cs p, WellFormed o.session.drive.toVolume ∧
    o.session.drive.toVolume.Chain o.file.parentLba cs ∧
    StoredFile o.session.drive.toVolume cs o.file.name p ds ∧
      DirEntry.fileSize (o.session.drive.toVolume.entryIn p) = o.file.size
  data : ∃ data, o.file.preload = some data ∧
    ∀ i < o.file.size, data i = fileByte o.session.drive.toVolume ds i

/-- The file as it is read from the disk. -/
def fromDisk (o : OpenFile) : OpenFile := { o with file := { o.file with preload := none } }

/-- A read takes as many bytes as were asked for and are left, out of the data that was preloaded, and the
same ones as a read from the disk; the cursor stays in the file. -/
def PreloadRight (o : OpenFile) (op : FileOp) : Prop :=
  ∃ r o', o.call op = .ok (r, o') ∧ o'.file.offset ≤ o.file.size ∧
    match op with
    | .read buf => r = toInt ↑(min buf.length (o.file.size - o.file.offset)) ∧
        o.file.offset + buf.length ≤ o.file.size ∧
        ∀ r₁ o₁, o.fromDisk.call (.read buf) = .ok (r₁, o₁) → r₁ ≠ -eio →
          r = r₁ ∧ o'.session.user = o₁.session.user
    | .lseek _ _ => True

/-- A read asks for no more than is left. -/
def ReadsInside (o : OpenFile) : FileOp → Prop
  | .read buf => buf.length ≤ o.file.size - o.file.offset
  | .lseek _ _ => True

variable {o o' : OpenFile} {op : FileOp} {buf : List UInt8} {ds : List ℕ}

lemma Preloaded.fromDisk_read (h : Preloaded ds o) {r : ℤ}
    (hcall : o.fromDisk.call (.read buf) = .ok (r, o')) (hr : r ≠ -eio) :
    r = toInt ↑(min buf.length (o.file.size - o.file.offset)) ∧
      o'.session.user = loadedTo o.session.drive.toVolume ds o.file.offset
        (min buf.length (o.file.size - o.file.offset)) buf := by
  obtain ⟨cs, p, hw, hchain, hfile, hsize⟩ := h.stored
  have hle := h.le
  have hlt := h.lt
  have hleft : u32Sub o.file.size o.file.offset = o.file.size - o.file.offset := u32Sub_of_le hle hlt
  have hin : o.file.offset + min buf.length (o.file.size - o.file.offset) ≤
      DirEntry.fileSize (o.session.drive.toVolume.entryIn p) := by
    rw [hsize]
    omega
  have hroom : min buf.length (o.file.size - o.file.offset) ≤ buf.length := min_le_left _ _
  obtain ⟨s', -, hrun⟩ := loadFileToBuf_cases hfile hw hchain hin hroom
  rw [← hleft] at hrun
  rcases hrun with ⟨hrun, huser, -⟩ | ⟨hrun, -, -⟩
  · rw [read_disk (o := o.fromDisk) h.regular rfl hrun] at hcall
    cases hcall
    rw [← hleft]
    exact ⟨rfl, huser⟩
  · rw [read_disk (o := o.fromDisk) h.regular rfl hrun] at hcall
    cases hcall
    exact absurd rfl hr

lemma map_data {data : ℕ → UInt8} {n : ℕ}
    (hdata : ∀ i < o.file.size, data i = fileByte o.session.drive.toVolume ds i)
    (hn : o.file.offset + n ≤ o.file.size) (hbuf : buf.length = n) :
    (List.range n).map (fun j => data (o.file.offset + j)) =
      loadedTo o.session.drive.toVolume ds o.file.offset n buf := by
  rw [loadedTo, List.drop_of_length_le (by omega), List.append_nil]
  refine List.map_congr_left fun j hj => hdata _ ?_
  have := List.mem_range.mp hj
  omega

lemma Preloaded.right_iff (h : Preloaded ds o) (hgiven : Given op) :
    PreloadRight o op ↔ ReadsInside o op := by
  have hle := h.le
  have hlt := h.lt
  cases op with
  | lseek d whence => exact iff_of_true ⟨_, _, call_lseek, lseek_le _ _ hle, trivial⟩ trivial
  | read buf =>
    obtain ⟨data, hpre, hdata⟩ := h.data
    have hcall := read_preload buf h.regular hpre
    constructor
    · rintro ⟨r, o', -, -, -, hin, -⟩
      show buf.length ≤ _
      omega
    · intro hin
      have hin : buf.length ≤ o.file.size - o.file.offset := hin
      refine ⟨_, _, hcall, ?_, ?_, by omega, ?_⟩
      · dsimp only
        rw [u32_of_lt (by omega)]
        omega
      · rw [min_eq_left hin]
      · intro r₁ o₁ hdisk hr
        obtain ⟨hr₁, huser⟩ := h.fromDisk_read hdisk hr
        rw [min_eq_left hin] at hr₁ huser
        exact ⟨hr₁.symm, (map_data hdata (by omega) rfl).trans huser.symm⟩

lemma Preloaded.step (h : Preloaded ds o) (hin : ReadsInside o op) (hstep : o.step op = .ok o') :
    Preloaded ds o' := by
  obtain ⟨⟨r, o₁⟩, hcall, rfl⟩ := map_eq_ok.mp hstep
  have hle := h.le
  have hlt := h.lt
  cases op with
  | lseek d whence =>
    rw [call_lseek] at hcall
    cases hcall
    have hle' := lseek_le d.toInt whence hle
    obtain ⟨n, hn⟩ := lseek_file o.file d.toInt whence
    dsimp only
    rw [hn] at hle' ⊢
    exact ⟨hle', hlt, h.regular, h.stored, h.data⟩
  | read buf =>
    obtain ⟨data, hpre, hdata⟩ := h.data
    rw [read_preload buf h.regular hpre] at hcall
    cases hcall
    have hin : buf.length ≤ o.file.size - o.file.offset := hin
    refine ⟨?_, hlt, h.regular, h.stored, h.data⟩
    dsimp only
    rw [u32_of_lt (by omega)]
    omega

end OpenFile

/-- The file of `fullSector`, preloaded. -/
def fullSectorPreloaded : OpenFile :=
  { fullSectorFile with
    file := { fullSectorFile.file with preload := some (fileByte fullSector [3]) } }

lemma fullSectorPreloaded_preloaded : fullSectorPreloaded.Preloaded [3] where
  le := Nat.zero_le _
  lt := by decide
  regular := rfl
  stored := ⟨[2], (2, 0), oneEntry_wellFormed, oneEntry_chain two_valid, fullSector_file.stored,
    fullSector_size⟩
  data := ⟨_, rfl, fun _ _ => rfl⟩

end BrebOS
