import BrebOS.FileManagement.FAT.Write
import BrebOS.FileManagement.File.Cursor

/-!
# Writing to an open file

A write loads the file, moves what is behind the cursor out of the way of the new bytes and stores the file
again: the bytes are put in between, where they should take the place of others.  That is the same thing at
the end of a file only.
-/

namespace BrebOS

open FAT

/-- The content of a file with bytes over those from an offset on. -/
def overwritten (content : List UInt8) (offset : ℕ) (bytes : List UInt8) : List UInt8 :=
  content.take offset ++ bytes ++ content.drop (offset + bytes.length)

/-- The content of a file with bytes put in at an offset. -/
def inserted (content : List UInt8) (offset : ℕ) (bytes : List UInt8) : List UInt8 :=
  content.take offset ++ bytes ++ content.drop offset

/-- The bytes of a file with some clusters. -/
def fileContent (v : Volume) (ds : List ℕ) (size : ℕ) : List UInt8 := (List.range size).map (fileByte v ds)

namespace File

/-- Where a write starts. -/
def writeOffset (f : File) : ℕ := if f.append then f.size else f.offset

/-- After a write that succeeds, the file on the volume has the bytes over those from the cursor on, and
the cursor is behind them. -/
def WriteRight (cs : List ℕ) (p : FAT.Slot) (ds : List ℕ) (buf : List UInt8) (f : File) (s : Session) : Prop :=
  ∀ r f' s', f.write buf s = .ok (r, f', s') → 0 ≤ r →
    r = buf.length ∧ f'.offset = f.writeOffset + buf.length ∧
      f'.size = max f.size (f.writeOffset + buf.length) ∧
      ∃ ds', FileOn s'.drive.toVolume f.parentLba cs f.name p ds' f'.size ∧
        fileContent s'.drive.toVolume ds' f'.size =
          overwritten (fileContent s.drive.toVolume ds f.size) f.writeOffset buf

/-- The clusters that a file needs for more bytes, and does not have. -/
def missing (ds : List ℕ) (f : File) (buf : List UInt8) : ℕ := (f.size + buf.length + 511) / 512 - ds.length

/-- The bytes go to the end of the file, or there are none; or nothing is written, since the kernel has no
memory for the file with them, or the volume no clusters. -/
def WritesAtEnd (ds : List ℕ) (buf : List UInt8) (f : File) (v : Volume) : Prop :=
  f.writeOffset = f.size ∨ buf = [] ∨ kernelMemory < f.size + buf.length ∨
    v.freeClusters.length < missing ds f buf

end File

section Bytes

variable {v : Volume} {ds : List ℕ} {size o : ℕ} {content bytes : List UInt8}

lemma length_fileContent : (fileContent v ds size).length = size := by
  rw [fileContent, List.length_map, List.length_range]

lemma length_inserted : (inserted content o bytes).length = content.length + bytes.length := by
  rw [inserted, List.length_append, List.length_append, List.length_take, List.length_drop]
  omega

lemma inserted_eq_overwritten (h : o = content.length ∨ bytes = []) :
    inserted content o bytes = overwritten content o bytes := by
  rcases h with rfl | rfl
  · rw [inserted, overwritten, List.drop_of_length_le le_rfl, List.drop_of_length_le (by omega)]
  · rfl

lemma moved_inserted (bytes : List UInt8) (ho : o ≤ content.length) :
    ∃ moved, File.moveWithin (o + bytes.length) o (content.length - o)
        (content ++ List.replicate bytes.length 0) = .ok moved ∧
      pokes (.fault .outOfBounds : NoReturn) o bytes moved = .ok (inserted content o bytes) := by
  set block := content ++ List.replicate bytes.length (0 : UInt8) with hblock
  have hlength : block.length = content.length + bytes.length := by
    rw [hblock, List.length_append, List.length_replicate]
  have htail : (block.drop o).take (content.length - o) = content.drop o := by
    rw [hblock, List.drop_append_of_le_length ho, List.take_left' (List.length_drop ..)]
  have hfront : (block.take (o + bytes.length)).length = o + bytes.length := by
    rw [List.length_take]
    omega
  have hrest : block.drop (o + bytes.length + (content.drop o).length) = [] := by
    refine List.drop_of_length_le ?_
    rw [List.length_drop]
    omega
  have hmove : File.moveWithin (o + bytes.length) o (content.length - o) block =
      .ok (block.take (o + bytes.length) ++ content.drop o) := by
    rw [File.moveWithin, if_neg (by omega), htail, pokes_ok (by rw [List.length_drop]; omega), hrest,
      List.append_nil]
  have htake : (block.take (o + bytes.length) ++ content.drop o).take o = content.take o := by
    rw [List.take_append_of_le_length (by omega), List.take_take, min_eq_left (by omega), hblock,
      List.take_append_of_le_length ho]
  have hdrop : (block.take (o + bytes.length) ++ content.drop o).drop (o + bytes.length) = content.drop o :=
    List.drop_left' hfront
  refine ⟨_, hmove, ?_⟩
  rw [pokes_ok (by rw [List.length_append]; omega), htake, hdrop, inserted]

end Bytes

namespace File

section Writes

variable {f : File} {s : Session} {cs ds : List ℕ} {p : FAT.Slot} {buf : List UInt8}

lemma loadWhole_ok (h : FileOn s.drive.toVolume f.parentLba cs f.name p ds f.size) :
    ∃ s', f.loadWhole s = .ok (some (fileContent s.drive.toVolume ds f.size), s') ∧
      s'.drive.toVolume = s.drive.toVolume := by
  by_cases hzero : f.size = 0
  · refine ⟨s, ?_, rfl⟩
    rw [loadWhole, if_pos hzero, hzero]
    rfl
  · have hroom : f.size ≤ (List.replicate f.size (0 : UInt8)).length := by rw [List.length_replicate]
    have hin : 0 + f.size ≤ DirEntry.fileSize (s.drive.toVolume.entryIn p) := by rw [h.size, Nat.zero_add]
    obtain ⟨s', hvol, ⟨hrun, huser, -⟩ | ⟨-, hend, -⟩⟩ :=
      loadFileToBuf_cases h.stored h.wellFormed h.directory hin hroom
    · have hcontent : s'.user = fileContent s.drive.toVolume ds f.size := by
        rw [huser, loadedTo, List.drop_of_length_le (by rw [List.length_replicate]), List.append_nil]
        simp only [Nat.zero_add]
        rfl
      refine ⟨{ s' with user := s.user }, ?_, hvol⟩
      rw [loadWhole, if_neg hzero, hrun, ← hcontent]
      rfl
    · exact absurd hend.1 hzero

lemma write_run (h : FileOn s.drive.toVolume f.parentLba cs f.name p ds f.size) (hreg : f.regular = true)
    (ho : f.writeOffset ≤ f.size) (hpos : f.size + buf.length ≠ 0)
    (hmem : f.size + buf.length ≤ kernelMemory) : ∃ s₁,
      s₁.drive.toVolume = s.drive.toVolume ∧ s₁.inodeSize = f.size ∧
      ∀ {r s'}, (writeBufToFile f.parentLba f.name
          (fun i => (inserted (fileContent s.drive.toVolume ds f.size) f.writeOffset buf).getD i 0)
          (f.size + buf.length)).run s₁ = .ok (r, s') →
        f.write buf s = .ok (r.elim (-eio, { f with offset := f.writeOffset, size := s'.inodeSize }, s')
          fun _ => (toInt buf.length, { f with offset := u32 (f.writeOffset + buf.length), size := s'.inodeSize },
            s')) := by
  obtain ⟨s₁, hload, hvol⟩ := loadWhole_ok h
  refine ⟨{ s₁ with inodeSize := f.size }, hvol, rfl, fun {r s'} hrun => ?_⟩
  set content := fileContent s.drive.toVolume ds f.size with hcontent
  have hlength : content.length = f.size := length_fileContent
  have hmemory : kernelMemory = 1073741824 := rfl
  have hnew : u32 (f.size + buf.length) = f.size + buf.length := u32_of_lt (by omega)
  have hrealloc : reallocBuf (f.size + buf.length) content =
      .ok (content ++ List.replicate buf.length 0) := by
    rw [reallocBuf, if_neg hpos, if_neg (by omega), List.take_of_length_le (by omega), hlength,
      Nat.add_sub_cancel_left]
  have hsub : u32Sub f.size f.writeOffset = content.length - f.writeOffset := by
    rw [u32Sub_of_le ho (by omega), hlength]
  obtain ⟨moved, hmove, hcopy⟩ := moved_inserted buf (ho.trans hlength.ge)
  rw [write, if_neg (by rw [hreg]; decide), hload]
  simp only [bind, Except.bind]
  rw [hnew, hrealloc]
  dsimp only
  rw [show (if f.append then f.size else f.offset) = f.writeOffset from rfl, hsub, hmove]
  dsimp only
  rw [hcopy]
  dsimp only
  rw [hrun]
  cases r with
  | none => rfl
  | some _ => rfl

lemma write_no_memory (h : FileOn s.drive.toVolume f.parentLba cs f.name p ds f.size) (hreg : f.regular = true)
    (ho : f.writeOffset ≤ f.size) (hmem : kernelMemory < f.size + buf.length) :
    ∃ e, f.write buf s = .error e := by
  obtain ⟨s₁, hload, -⟩ := loadWhole_ok h
  set content := fileContent s.drive.toVolume ds f.size with hcontent
  have hlength : content.length = f.size := length_fileContent
  have hsize : f.size < 4294967296 := h.size ▸ leRead_lt _ 28 4
  have hsub : u32Sub f.size f.writeOffset = f.size - f.writeOffset := u32Sub_of_le ho hsize
  rw [write, if_neg (by rw [hreg]; decide), hload]
  simp only [bind, Except.bind]
  rcases hrealloc : reallocBuf (u32 (f.size + buf.length)) content with e | block
  · exact ⟨e, rfl⟩
  dsimp only
  rw [show (if f.append then f.size else f.offset) = f.writeOffset from rfl, hsub]
  -- the sum is less than the size, and the block too small
  have hblock : block.length = u32 (f.size + buf.length) ∧ u32 (f.size + buf.length) ≤ kernelMemory := by
    rw [reallocBuf] at hrealloc
    split_ifs at hrealloc with hzero hlarge
    cases hrealloc
    refine ⟨?_, not_lt.mp hlarge⟩
    rw [List.length_append, List.length_take, List.length_replicate]
    omega
  have hmemory : kernelMemory = 1073741824 := rfl
  have hwrap : block.length < f.size + buf.length := by
    rw [hblock.1]
    omega
  by_cases hend : f.writeOffset = f.size
  · -- the copy goes out of the block
    have hmove : moveWithin (f.writeOffset + buf.length) f.writeOffset (f.size - f.writeOffset) block =
        if block.length < f.size then .error (.fault .outOfBounds) else .ok block := by
      rw [moveWithin, hend, Nat.sub_self, Nat.add_zero, List.take_zero, pokes_nil]
    have hne : buf ≠ [] := by
      rintro rfl
      rw [List.length_nil, Nat.add_zero] at hwrap hblock hmem
      rw [hblock.1, u32_of_lt hsize] at hwrap
      exact lt_irrefl _ hwrap
    rw [hmove]
    split_ifs with hlt
    · exact ⟨_, rfl⟩
    · dsimp only
      rw [pokes_error hne (by omega)]
      exact ⟨_, rfl⟩
  · -- the move does
    have hmove : moveWithin (f.writeOffset + buf.length) f.writeOffset (f.size - f.writeOffset) block =
        .error (.fault .outOfBounds) := by
      rw [moveWithin]
      split_ifs with hlt
      · rfl
      · have htail : ((block.drop f.writeOffset).take (f.size - f.writeOffset)).length =
            f.size - f.writeOffset := by
          rw [List.length_take, List.length_drop]
          omega
        refine pokes_error (List.ne_nil_of_length_pos (by omega)) (by omega)
    rw [hmove]
    exact ⟨_, rfl⟩

/-- **A write** that has memory and clusters puts the bytes in at the cursor. -/
lemma write_ok (h : FileOn s.drive.toVolume f.parentLba cs f.name p ds f.size) (hreg : f.regular = true)
    (ho : f.writeOffset ≤ f.size) (hpos : f.size + buf.length ≠ 0)
    (hmem : f.size + buf.length ≤ kernelMemory)
    (hfree : missing ds f buf ≤ s.drive.toVolume.freeClusters.length) :
    ∃ ds' s', f.write buf s = .ok ((buf.length : ℤ),
        { f with offset := f.writeOffset + buf.length, size := f.size + buf.length }, s') ∧
      FileOn s'.drive.toVolume f.parentLba cs f.name p ds' (f.size + buf.length) ∧
      fileContent s'.drive.toVolume ds' (f.size + buf.length) =
        inserted (fileContent s.drive.toVolume ds f.size) f.writeOffset buf := by
  obtain ⟨s₁, hvol, hinode, hrun⟩ := write_run h hreg ho hpos hmem
  have hmemory : kernelMemory = 1073741824 := rfl
  have hgrows : s₁.inodeSize ≤ f.size + buf.length := by omega
  obtain ⟨ds', s', hwrite, hfile, hinode', hbytes⟩ := writeBufToFile_ok
    (fun i => (inserted (fileContent s.drive.toVolume ds f.size) f.writeOffset buf).getD i 0)
    (by rw [hvol, hinode]; exact h) hgrows (by omega)
    (by rw [hvol]; exact hfree)
  refine ⟨ds', s', ?_, hfile, ?_⟩
  · rw [hrun hwrite, hinode']
    have hint : toInt (buf.length : ℤ) = buf.length := toInt_eq.mpr ⟨by omega, by omega⟩
    have hoffset : u32 (f.writeOffset + buf.length) = f.writeOffset + buf.length := u32_of_lt (by omega)
    rw [hint, hoffset]
    rfl
  · refine List.ext_getElem ?_ fun i hi hi' => ?_
    · rw [length_fileContent, length_inserted, length_fileContent]
    · rw [length_fileContent] at hi
      have hi'' : i < (inserted (fileContent s.drive.toVolume ds f.size) f.writeOffset buf).length := hi'
      simp only [fileContent, List.getElem_map, List.getElem_range]
      rw [hbytes i hi, List.getD_eq_getElem _ _ hi'']
      rfl

lemma write_nothing (h : FileOn s.drive.toVolume f.parentLba cs f.name p ds f.size) (hreg : f.regular = true)
    (hzero : f.size + buf.length = 0) : ∃ e, f.write buf s = .error e := by
  obtain ⟨s₁, hload, -⟩ := loadWhole_ok h
  rw [write, if_neg (by rw [hreg]; decide), hload]
  simp only [bind, Except.bind]
  rw [hzero, show u32 0 = 0 from rfl, reallocBuf, if_pos rfl]
  exact ⟨_, rfl⟩

lemma writeOffset_le (ho : f.offset ≤ f.size) : f.writeOffset ≤ f.size := by
  rw [writeOffset]
  split_ifs <;> omega

lemma freeClusters_le {v : Volume} (hw : WellFormed v) : v.freeClusters.length ≤ v.zeroWords.length := by
  have htable := hw.table_le
  have htotal := hw.totalSectors
  refine below_length_le ?_
  calc v.clusterBound ≤ 128 * v.bs.fatSize := le_trans (min_le_right _ _) (min_le_right _ _)
    _ ≤ 128 * (v.bs.totalSectors - v.bs.firstFatSector) := Nat.mul_le_mul_left 128 (by omega)

lemma writeRight_iff (h : FileOn s.drive.toVolume f.parentLba cs f.name p ds f.size) (hreg : f.regular = true)
    (ho : f.offset ≤ f.size)
    (hsearch : s.drive.toVolume.zeroWords.length < missing ds f buf ∨
      missing ds f buf ≤ s.drive.toVolume.freeClusters.length) :
    f.WriteRight cs p ds buf s ↔ f.WritesAtEnd ds buf s.drive.toVolume := by
  have hle := writeOffset_le ho
  by_cases hmem : kernelMemory < f.size + buf.length
  · obtain ⟨e, he⟩ := write_no_memory h hreg hle hmem
    refine iff_of_true (fun r f' s' hrun => ?_) (Or.inr (Or.inr (Or.inl hmem)))
    rw [he] at hrun
    exact nomatch hrun
  by_cases hpos : f.size + buf.length = 0
  · have hnil : buf = [] := List.eq_nil_of_length_eq_zero (by omega)
    obtain ⟨e, he⟩ := write_nothing h hreg hpos
    refine iff_of_true (fun r f' s' hrun => ?_) (Or.inr (Or.inl hnil))
    rw [he] at hrun
    exact nomatch hrun
  rcases hsearch with hfew | hfree
  · -- no clusters are found, and the write fails
    obtain ⟨s₁, hvol, hinode, hrun⟩ := write_run h hreg hle hpos (not_lt.mp hmem)
    have hmemory : kernelMemory = 1073741824 := rfl
    have hgrows : s₁.inodeSize ≤ f.size + buf.length := by omega
    obtain ⟨s', hwrite, -⟩ := writeBufToFile_gives_up
      (fun i => (inserted (fileContent s.drive.toVolume ds f.size) f.writeOffset buf).getD i 0)
      (by rw [hvol, hinode]; exact h) hgrows (by omega)
      (by rw [hvol]; exact hfew)
    refine iff_of_true (fun r f' s' hrun' hr => ?_) ?_
    · rw [hrun hwrite] at hrun'
      cases hrun'
      exact absurd hr (by decide)
    · exact Or.inr (Or.inr (Or.inr (lt_of_le_of_lt (freeClusters_le h.wellFormed) hfew)))
  · obtain ⟨ds', s', hrun, hfile, hcontent⟩ := write_ok h hreg hle hpos (not_lt.mp hmem) hfree
    constructor
    · intro hright
      obtain ⟨-, -, hsize, -⟩ := hright _ _ _ hrun (Int.natCast_nonneg _)
      have hsize : f.size + buf.length = max f.size (f.writeOffset + buf.length) := hsize
      by_cases hend : f.writeOffset = f.size
      · exact Or.inl hend
      · exact Or.inr (Or.inl (List.eq_nil_of_length_eq_zero (by omega)))
    · intro hend r f' t hrun' _
      rw [hrun] at hrun'
      cases hrun'
      have hend : f.writeOffset = f.size ∨ buf = [] := by
        rcases hend with hend | hend | hend | hend
        · exact Or.inl hend
        · exact Or.inr hend
        · exact absurd hend hmem
        · exact absurd hend (not_lt.mpr hfree)
      refine ⟨rfl, rfl, ?_, ds', hfile, ?_⟩
      · rcases hend with hend | rfl
        · dsimp only
          omega
        · dsimp only [List.length_nil]
          omega
      · rw [← inserted_eq_overwritten (by rw [length_fileContent]; exact hend)]
        exact hcontent

end Writes

end File

/-- The root directory with a file of 5 bytes in cluster 3. -/
abbrev fiveBytes : Volume := oneEntry (newEntry [97] 0 3 5)

lemma fiveBytes_fileOn : FileOn fiveBytes 2 [2] [97] (2, 0) [3] 5 where
  wellFormed := oneEntry_wellFormed
  directory := oneEntry_chain two_valid
  stored := RegularFile.stored (oneEntry_file 5 (by decide) (by decide) (by decide) (by decide)
    (by decide) (by decide) rfl (by decide))
  size := by
    rw [oneEntry_entryIn]
    decide

/-- The file, opened, with the cursor at a place in it. -/
def fiveBytesFile (offset : ℕ) : File := { name := [97], parentLba := 2, size := 5, offset }

end BrebOS
