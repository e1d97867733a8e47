import BrebOS.FileManagement.FAT.Listing

/-!
# New directories

`mkdir` writes the first two entries of the new directory to a free cluster.  What the cluster held before
stays behind them, so the directory is as it should be only if nothing of that is taken for an entry.
-/

namespace BrebOS

namespace FAT

open Attempt

/-! ## What is left in a cluster -/

/-- What the entries from the third to one spell, taken for pieces of a long name. -/
def leftName (data : Sector) : ℕ → Name
  | 0 => DirEntry.getLongName (entryAt data 2)
  | i + 1 => DirEntry.getLongName (entryAt data (i + 3)) ++ leftName data i

/-- A name that is not looked for, or that a new directory has. -/
def Taken (name : Name) : Prop := name.head? = some slash ∨ name = Name.dot ∨ name = Name.dotDot

/-- What a cluster holds behind its first two entries shows no entry, and spells no other name. -/
structure Quiet (data : Sector) : Prop where
  pieces : OnlyPieces data 2 14
  names : ∀ i < 13, UsedFrom data 2 (i + 1) → Taken (leftName data i)

/-- The content of a new directory. -/
def newContent (c d : ℕ) (data : Sector) : Sector :=
  setEntry 1 (newEntry Name.dotDot directory c 0) (setEntry 0 (newEntry Name.dot directory d 0) data)

section Left

variable {c d i j k : ℕ} {data : Sector} {other : Name}

lemma entryAt_newContent_zero (hk : k < 32) :
    entryAt (newContent c d data) 0 k = newEntry Name.dot directory d 0 k := by
  rw [newContent, entryAt_setEntry_of_ne (by decide) hk, entryAt_setEntry hk]

lemma entryAt_newContent_one (hk : k < 32) :
    entryAt (newContent c d data) 1 k = newEntry Name.dotDot directory c 0 k := entryAt_setEntry hk

lemma entryAt_newContent_left (hk : k < 32) :
    entryAt (newContent c d data) (2 + i) k = entryAt data (2 + i) k := by
  rw [newContent, entryAt_setEntry_of_ne (by omega) hk, entryAt_setEntry_of_ne (by omega) hk]

lemma newDirectory_entry {e : DirEntry} {name : Name} {first : ℕ}
    (hname : name = Name.dot ∨ name = Name.dotDot)
    (he : ∀ k < 32, e k = newEntry name directory first 0 k) :
    DirEntry.isFree e = false ∧ DirEntry.isLFN e = false ∧ DirEntry.getName e = name := by
  have hshort : ∀ k < 12, e k = newEntry name directory first 0 k := fun k hk => he k (by omega)
  have hlfn : ∀ name, DirEntry.isLFN (newEntry name directory first 0) = false := by
    intro name
    have hattrs : DirEntry.attrs (newEntry name directory first 0) = directory := rfl
    rw [DirEntry.isLFN, hattrs]
    decide
  have hdots : ∀ c ∈ name, c = 46 := by
    rcases hname with rfl | rfl
    · simp [Name.dot]
    · simp [Name.dotDot]
  have hclean : ∀ c ∈ name, c ≠ 0 ∧ c ≠ namePaddingByte := by
    intro c hc
    rw [hdots c hc]
    decide
  rw [isFree_congr hshort, isLFN_congr hshort, getName_congr hshort,
    getName_directory (by decide) (by rcases hname with rfl | rfl <;> decide) hclean]
  rcases hname with rfl | rfl
  · exact ⟨rfl, hlfn _, rfl⟩
  · exact ⟨rfl, hlfn _, rfl⟩

lemma newContent_zero : DirEntry.isFree (entryAt (newContent c d data) 0) = false ∧
    DirEntry.isLFN (entryAt (newContent c d data) 0) = false ∧
      DirEntry.getName (entryAt (newContent c d data) 0) = Name.dot :=
  newDirectory_entry (Or.inl rfl) fun _ => entryAt_newContent_zero

lemma newContent_one : DirEntry.isFree (entryAt (newContent c d data) 1) = false ∧
    DirEntry.isLFN (entryAt (newContent c d data) 1) = false ∧
      DirEntry.getName (entryAt (newContent c d data) 1) = Name.dotDot :=
  newDirectory_entry (Or.inr rfl) fun _ => entryAt_newContent_one

lemma isFree_newContent : DirEntry.isFree (entryAt (newContent c d data) (2 + i)) =
    DirEntry.isFree (entryAt data (2 + i)) :=
  isFree_congr fun _ hk => entryAt_newContent_left (by omega)

lemma isLFN_newContent : DirEntry.isLFN (entryAt (newContent c d data) (2 + i)) =
    DirEntry.isLFN (entryAt data (2 + i)) :=
  isLFN_congr fun _ hk => entryAt_newContent_left (by omega)

lemma usedFrom_newContent : UsedFrom (newContent c d data) 2 j ↔ UsedFrom data 2 j :=
  forall₂_congr fun _ _ => by rw [isFree_newContent]

lemma onlyPieces_newContent {n : ℕ} : OnlyPieces (newContent c d data) 2 n ↔ OnlyPieces data 2 n :=
  forall₂_congr fun _ _ => by rw [usedFrom_newContent, isLFN_newContent]

lemma used_newContent :
    (List.range (2 + j + 1)).all (fun m => !DirEntry.isFree (entryAt (newContent c d data) m)) ↔
      UsedFrom data 2 j := by
  rw [List.all_eq_true, ← usedFrom_newContent (c := c) (d := d)]
  constructor
  · intro h m hm
    simpa using h (2 + m) (List.mem_range.mpr (by omega))
  · intro h m hm
    have hlt := List.mem_range.mp hm
    rcases Nat.lt_or_ge m 2 with hfirst | hrest
    · obtain rfl | rfl : m = 0 ∨ m = 1 := by omega
      · simp [newContent_zero.1]
      · simp [newContent_one.1]
    · obtain ⟨m, rfl⟩ := Nat.exists_eq_add_of_le hrest
      simpa using h m (by omega)

lemma piecesTo_newContent : ∀ {i : ℕ}, (∀ j < i, DirEntry.isLFN (entryAt data (2 + j))) →
    piecesTo (newContent c d data) (2 + i) = leftName data i := by
  intro i
  induction i with
  | zero =>
      intro _
      show _ ++ (if DirEntry.isLFN (entryAt (newContent c d data) 1) then _ else []) = _
      rw [newContent_one.2.1, if_neg Bool.false_ne_true, List.append_nil]
      exact getLongName_congr fun _ hk => entryAt_newContent_left (i := 0) hk
  | succ i ih =>
      intro hpieces
      have hlfn : DirEntry.isLFN (entryAt (newContent c d data) (2 + i)) := by
        rw [isLFN_newContent]
        exact hpieces i (Nat.lt_succ_self i)
      have hlong : DirEntry.getLongName (entryAt (newContent c d data) (2 + i + 1)) =
          DirEntry.getLongName (entryAt data (2 + i + 1)) :=
        getLongName_congr fun _ hk => entryAt_newContent_left (i := i + 1) hk
      have hindex : i + 3 = 2 + i + 1 := by omega
      rw [← Nat.add_assoc, piecesTo, if_pos hlfn, ih fun j hj => hpieces j (Nat.lt_succ_of_lt hj), hlong,
        leftName, hindex]

lemma looksNamed_newContent (hpieces : OnlyPieces data 2 14) (hi : i < 13) :
    looksNamed other (newContent c d data) (2 + i + 1) ↔
      UsedFrom data 2 (i + 1) ∧ leftName data i = other := by
  rw [looksNamed, Bool.and_eq_true, show 2 + i + 1 + 1 = 2 + (i + 1) + 1 from rfl, used_newContent]
  refine and_congr_right fun hused => ?_
  have hlfn : ∀ j ≤ i + 1, DirEntry.isLFN (entryAt data (2 + j)) := fun j hj =>
    hpieces j (by omega) fun m hm => hused m (le_trans hm hj)
  have hlast : DirEntry.isLFN (entryAt (newContent c d data) (2 + i + 1)) = true := by
    rw [Nat.add_assoc, isLFN_newContent]
    exact hlfn (i + 1) le_rfl
  rw [spelled, hlast, isLFN_newContent, hlfn i (Nat.le_succ i),
    piecesTo_newContent fun j hj => hlfn j (by omega)]
  simp

lemma looksNamed_first (hpieces : OnlyPieces data 2 14) (hdot : other ≠ Name.dot)
    (hdotDot : other ≠ Name.dotDot) (hj : j < 3) : looksNamed other (newContent c d data) j = false := by
  obtain rfl | rfl | rfl : j = 0 ∨ j = 1 ∨ j = 2 := by omega
  · simp [looksNamed, spelled, newContent_zero.2.2, hdot.symm]
  · simp [looksNamed, spelled, newContent_zero.2.1, newContent_one.2.2, hdotDot.symm]
  · -- behind a short entry a piece has no name
    rw [Bool.eq_false_iff]
    intro hlooks
    rw [looksNamed, Bool.and_eq_true] at hlooks
    have hused : UsedFrom data 2 0 := used_newContent.mp hlooks.1
    have hlfn : DirEntry.isLFN (entryAt (newContent c d data) 2) = true := by
      have := hpieces 0 (by decide) hused
      rwa [← isLFN_newContent (c := c) (d := d)] at this
    have hspelled : spelled other (newContent c d data) 2 = false := by
      rw [spelled, newContent_one.2.1, Bool.false_and]
    rw [hspelled, hlfn] at hlooks
    exact absurd hlooks.2 Bool.false_ne_true

lemma lookIn_newContent_iff (hpieces : OnlyPieces data 2 14) :
    (∀ other, other.head? ≠ some slash → other ≠ Name.dot → other ≠ Name.dotDot →
      lookIn other (newContent c d data) = none) ↔
        ∀ i < 13, UsedFrom data 2 (i + 1) → Taken (leftName data i) := by
  constructor
  · intro h i hi hused
    by_contra htaken
    simp only [Taken, not_or] at htaken
    have hnone := h _ htaken.1 htaken.2.1 htaken.2.2
    rw [lookIn_eq, List.find?_eq_none] at hnone
    refine hnone (2 + i + 1) (List.mem_range.mpr ?_) ((looksNamed_newContent hpieces hi).mpr ⟨hused, rfl⟩)
    show 2 + i + 1 < 16
    omega
  · intro h other hslash hdot hdotDot
    rw [lookIn_eq, List.find?_eq_none]
    intro j hj
    have hj : j < 16 := List.mem_range.mp hj
    rcases Nat.lt_or_ge j 3 with hlt | hge
    · rw [looksNamed_first hpieces hdot hdotDot hlt]
      exact Bool.false_ne_true
    · obtain ⟨i, rfl⟩ := Nat.exists_eq_add_of_le hge
      intro hlooks
      rw [show 3 + i = 2 + i + 1 by omega] at hlooks
      obtain ⟨hused, rfl⟩ := (looksNamed_newContent hpieces (by omega)).mp hlooks
      rcases h i (by omega) hused with h | h | h
      · exact hslash h
      · exact hdot h
      · exact hdotDot h

end Left

/-! ## The new directory -/

/-- What `ls` shows of a new directory. -/
def newListing (c d : ℕ) : List (Name × EntryData) :=
  [(Name.dot, ⟨.dir, d, 0⟩), (Name.dotDot, ⟨.dir, c, 0⟩)]

/-- A directory has the two entries of a new one and a chain of one cluster, and no other name is found. -/
structure IsNewDirectory (c d : ℕ) (s : Session) : Prop where
  chain : s.drive.toVolume.Chain d [d]
  entries : ∃ s', (ls d).run s = .ok (some (newListing c d), s')
  others : ∀ other, other ≠ Name.dot → other ≠ Name.dotDot →
    ∃ s', (getChildDirEntryId d other).run (s.setCtx {}) = .ok (none, s')

/-- When `mkdir` succeeds, it has made a new directory. -/
def MkdirRight (c : ℕ) (name : Name) (s : Session) : Prop :=
  ∀ dentry blocks s', (mkdir c name).run s = .ok (some (dentry, blocks), s') →
    IsNewDirectory c dentry.lba s'

section New

variable {s : Session} {c d : ℕ} {cs : List ℕ} {data : Sector}

lemma listCluster_new {n : ℕ} {shown : List (Name × EntryData)} {name : Name}
    (hname : name = Name.dot ∨ name = Name.dotDot)
    (he : ∀ k < 32, s.current k = newEntry name directory c 0 k)
    (hw : WellFormed s.drive.toVolume) (hchain : s.drive.toVolume.Chain c cs) :
    ∃ t, (ls.listCluster (n + 1) shown []).run s =
      (ls.listCluster n (shown ++ [(name, ⟨.dir, c, 0⟩)]) []).run t ∧
        t.drive.toVolume = s.drive.toVolume ∧ t.drive.buf = s.drive.buf ∧
          t.ctx.dirEntryId = s.ctx.dirEntryId + 1 := by
  obtain ⟨hfree, hlfn, hshown⟩ := newDirectory_entry hname he
  obtain ⟨rest, hcs, hvalid, -⟩ := hchain.cons
  have hlt := hw.valid_lt_table hvalid
  have hfirst : DirEntry.firstClusterAddr s.current = c :=
    (firstClusterAddr_congr he).trans (newEntry_firstClusterAddr (by omega))
  have hsize : DirEntry.fileSize s.current = 0 := (fileSize_congr he).trans (newEntry_fileSize (by decide))
  have hdir : DirEntry.isDirectory s.current :=
    (isDirectory_congr fun k hk => he k (by omega)).trans (newEntry_isDirectory.trans (by decide))
  have hmul : u32 (DirEntry.firstClusterAddr s.current * s.drive.bs.sectorsPerCluster) = c := by
    rw [hfirst, hchain.u32_mul hw.toLayout]
  obtain ⟨t, hrun, hvolume, hbuf, hctx⟩ := dirEntryToDentry_dir hdir hmul hw.reads
    (hchain.tableChain hw.toLayout) (hchain.length_lt hw.toLayout).le
  rw [hfirst, hsize] at hrun
  refine ⟨t.forward, ?_, hvolume, hbuf, ?_⟩
  · rw [listCluster_short hfree hlfn, bind_run (orStop_run hrun), update_bind, if_neg (fun h => h rfl),
      hshown]
  · show t.ctx.dirEntryId + 1 = _
    rw [hctx]

lemma ls_newContent_iff (hw : WellFormed s.drive.toVolume) (hd : s.drive.toVolume.Chain d [d])
    (hc : s.drive.toVolume.Chain c cs) (hcontent : s.drive.content d = newContent c d data) :
    (∃ s', (ls d).run s = .ok (some (newListing c d), s')) ↔ OnlyPieces data 2 14 := by
  have hbuf : ((s.setCtx {}).goto d).drive.buf = newContent c d data := hcontent
  obtain ⟨t, hfirst, hvolume, hbuf₁, hid₁⟩ := @listCluster_new ((s.setCtx {}).goto d) d [d] 15 [] Name.dot
    (Or.inl rfl) (fun k hk => by rw [Session.current, hbuf]; exact entryAt_newContent_zero hk) hw hd
  have hid₁ : t.ctx.dirEntryId = 1 := hid₁
  have hvolume : t.drive.toVolume = s.drive.toVolume := hvolume
  rw [hbuf] at hbuf₁
  obtain ⟨t', hsecond, -, hbuf₂, hid₂⟩ := @listCluster_new t c cs 14 [(Name.dot, ⟨.dir, d, 0⟩)] Name.dotDot
    (Or.inr rfl) (fun k hk => by rw [Session.current, hbuf₁, hid₁]; exact entryAt_newContent_one hk)
    (by rw [hvolume]; exact hw) (by rw [hvolume]; exact hc)
  rw [hbuf₁] at hbuf₂
  rw [hid₁] at hid₂
  have hpieces : (∃ s', (ls.listCluster 14 (newListing c d) []).run t' = .ok (some (newListing c d), s')) ↔
      OnlyPieces t'.drive.buf t'.ctx.dirEntryId 14 := listCluster_nothing_iff
  have hrun : (ls.listCluster entriesPerSector [] []).run ((s.setCtx {}).goto d) =
      (ls.listCluster 14 (newListing c d) []).run t' := hfirst.trans hsecond
  rw [ls_single_iff hw hd, hrun, hpieces, hbuf₂, hid₂, onlyPieces_newContent]

lemma others_newContent_iff (hw : WellFormed s.drive.toVolume) (hd : s.drive.toVolume.Chain d [d])
    (hcontent : s.drive.content d = newContent c d data) :
    (∀ other, other ≠ Name.dot → other ≠ Name.dotDot →
      ∃ s', (getChildDirEntryId d other).run (s.setCtx {}) = .ok (none, s')) ↔
        ∀ other, other.head? ≠ some slash → other ≠ Name.dot → other ≠ Name.dotDot →
          lookIn other (newContent c d data) = none := by
  have hrun : ∀ other, other.head? ≠ some slash → (getChildDirEntryId d other).run (s.setCtx {}) =
      .ok (lookIn other (newContent c d data), (s.setCtx {}).lookedUp other [d]) := by
    intro other hslash
    have hfound : [d].findSome? (fun c => lookIn other ((s.setCtx {}).drive.content c)) =
        lookIn other (newContent c d data) := by
      rw [List.findSome?_singleton, ← hcontent]
      rfl
    rw [← hfound]
    exact getChildDirEntryId_ok (s := s.setCtx {}) hw hd (Session.holds_new s) hslash
  constructor
  · intro h other hslash hdot hdotDot
    obtain ⟨s', hnone⟩ := h other hdot hdotDot
    rw [hrun other hslash] at hnone
    exact congrArg Prod.fst (Except.ok.inj hnone)
  · intro h other hdot hdotDot
    by_cases hslash : other.head? = some slash
    · refine ⟨s.setCtx {}, ?_⟩
      rw [getChildDirEntryId, if_pos hslash]
      rfl
    · refine ⟨(s.setCtx {}).lookedUp other [d], ?_⟩
      rw [hrun other hslash, h other hslash hdot hdotDot]

/-- **A directory with the content of a new one** is one if nothing else is left in its cluster. -/
lemma isNewDirectory_iff (hw : WellFormed s.drive.toVolume) (hd : s.drive.toVolume.Chain d [d])
    (hc : s.drive.toVolume.Chain c cs) (hcontent : s.drive.content d = newContent c d data) :
    IsNewDirectory c d s ↔ Quiet data := by
  have hlist := ls_newContent_iff hw hd hc hcontent
  have hnames := others_newContent_iff hw hd hcontent
  constructor
  · intro h
    have hpieces := hlist.mp h.entries
    exact ⟨hpieces, (lookIn_newContent_iff hpieces).mp (hnames.mp h.others)⟩
  · intro h
    exact ⟨hd, hlist.mpr h.pieces, hnames.mpr ((lookIn_newContent_iff h.pieces).mpr h.names)⟩

end New

end FAT

end BrebOS

/-!
## Creating directories

What a call of `mkdir` comes to: it finds no slot, or no cluster, or a cluster that it cannot load, or it
makes a new directory.
-/

namespace BrebOS

namespace FAT

open Attempt

/-- The sectors of a cluster number are on the disk, apart from each other. -/
structure Usable (v : Volume) (d : ℕ) : Prop where
  sector : v.bs.firstSectorOfCluster d < v.disk.size
  fatSector : v.bs.fatSectorOf d < v.disk.size
  fat_ne_zero : v.bs.fatSectorOf d ≠ 0
  apart : v.bs.fatSectorOf d ≠ v.bs.firstSectorOfCluster d

/-- The slot that `mkdir` takes: the first free one of the last cluster. -/
def mkdirSlot (v : Volume) (cs : List ℕ) : Slot :=
  (cs.getLastD 0, slotIn (fun e => !DirEntry.isFree e) (v.content (cs.getLastD 0)))

/-- The volume with the entry of the new directory, and the mark of its end in the table. -/
def Volume.entered (d : ℕ) (p : Slot) (name : Name) (v : Volume) : Volume :=
  (v.setSlot p (newEntry name directory d 0)).setEntryOf d clusterEoc

/-- The volume with the new directory. -/
def Volume.made (c d : ℕ) (p : Slot) (name : Name) (v : Volume) : Volume :=
  (v.entered d p name).setContent d (newContent c d ((v.entered d p name).content d))

section Call

variable {v : Volume} {s : Session} {c d i l id : ℕ} {cs : List ℕ} {name : Name} {e : DirEntry}

lemma Placed.usable (h : Placed v d) : Usable v d where
  sector := h.sector
  fatSector := lt_of_lt_of_le h.fatSector (le_trans h.behind h.sector.le)
  fat_ne_zero := h.fat_ne_zero
  apart := ne_of_lt (lt_of_lt_of_le h.fatSector h.behind)

lemma Usable.onDisk (h : Usable v d) (hw : Layout v) : OnDisk v d := by
  have hsize := hw.size
  have hsector := h.sector
  have hfat := h.fatSector
  rw [OnDisk, u32_of_lt (by omega), u32_of_lt (by omega)]
  exact ⟨hsector, hfat⟩

lemma at_put (hw : Layout s.drive.toVolume) (hl : Valid s.drive.toVolume l) :
    (s.put l id e).At (s.drive.toVolume.setContent l (setEntry id e (s.drive.content l))) l s.user where
  volume := rfl
  fatSector := rfl
  table := (holds_put hw hl).table (hw.placed hl).fat_ne_zero
  active := rfl
  value := (tableEntry_setContent hw hl hl).symm
  user := rfl

lemma getFreeClusters_one (hw : WellFormed s.drive.toVolume) :
    (getFreeClusters 1).run s = .ok (s.drive.toVolume.zeroWords.head?.map fun i => [u32 i], s) := by
  rw [getFreeClusters_run hw le_rfl]
  cases s.drive.toVolume.zeroWords <;> rfl

lemma setBuf_buf {b : Sector} : (s.setBuf b).drive.buf = b := rfl

lemma setBuf_setBuf {b b' : Sector} : (s.setBuf b).setBuf b' = s.setBuf b' := rfl

lemma tableEntry_made (hd : Usable v d) : (v.made c d p name).tableEntry d = clusterEoc := by
  have hsector : (v.made c d p name).disk.sectors (v.bs.fatSectorOf d) =
      (v.entered d p name).disk.sectors (v.bs.fatSectorOf d) := Function.update_of_ne hd.apart _ _
  have hentry : (v.entered d p name).tableEntry d = clusterEoc := tableEntry_setEntryOf (by decide)
  rw [← hentry]
  exact congrArg (fun s => leRead s (fatEntryOffsetOf d) 4 % 0x10000000) hsector

/-- **A call of `mkdir`** that finds a slot, and a cluster number that it can use. -/
lemma mkdir_ok (hw : WellFormed s.drive.toVolume) (hchain : s.drive.toVolume.Chain c cs)
    (hlen : name.length < 9) (hroom : (mkdirSlot s.drive.toVolume cs).2 ≠ entriesPerSector)
    (hfound : s.drive.toVolume.zeroWords.head? = some i) (hd : Usable s.drive.toVolume (u32 i))
    (hne : u32 i ≠ cs.getLastD 0) : ∃ t, (mkdir c name).run s = .ok (some (⟨.dir, u32 i, 0⟩, 1), t) ∧
      t.drive.toVolume = s.drive.toVolume.made c (u32 i) (mkdirSlot s.drive.toVolume cs) name := by
  set l := cs.getLastD 0 with hl
  set id := (mkdirSlot s.drive.toVolume cs).2 with hid
  have hvalid : Valid s.drive.toVolume l := hchain.last_valid
  have hlt : u32 i < 4294967296 := Nat.mod_lt _ (by decide)
  set d := u32 i
  set e := newEntry name directory d 0 with he
  have hfirst : u32 (c * (s.setCtx {}).drive.bs.sectorsPerCluster) = c := hchain.u32_mul hw.toLayout
  have hslot : (findSlot (fun e => !DirEntry.isFree e) c).run (s.setCtx {}) =
      .ok (some (), s.gotoEntry l id) := findSlot_ok (s := s.setCtx {}) hw hchain (Session.holds_new s)
  have hroom' := mt (full_iff (s := s) (c := l) hw.toLayout id).mp hroom
  have hfree : (getFreeClusters 1).run (s.gotoEntry l id) = .ok (some [d], s.gotoEntry l id) := by
    have hfound : (s.gotoEntry l id).drive.toVolume.zeroWords.head? = some i := hfound
    rw [getFreeClusters_one (s := s.gotoEntry l id) hw, hfound]
    rfl
  have hload : (changeActiveCluster d (some .buf)).run (s.put l id e) =
      .ok (some (), (s.put l id e).goto d) :=
    (at_put hw.toLayout hvalid).load hw.setContent (hd.onDisk hw.toLayout) hne
  set t₁ := (s.put l id e).goto d with ht₁
  have hmark : (setTableEntry clusterEoc).run t₁ = .ok (some (), t₁.wroteEntry clusterEoc) :=
    setTableEntry_run hd.fatSector hw.size
  set t₂ := t₁.wroteEntry clusterEoc with ht₂
  have ht₂v : t₂.drive.toVolume = s.drive.toVolume.entered d (l, id) name := rfl
  have hread : (readSectors t₁.ctx.activeSector).run t₂ = .ok (some (t₂.drive.content d), t₂) :=
    readSectors_onDisk hw.reads (hd.onDisk hw.toLayout).1
  set data := newContent c d (t₂.drive.content d) with hdata
  have hwrite : (writeDataSectors t₁.ctx.activeSector data true).run (t₂.setBuf data) =
      .ok (some (), (t₂.setBuf data).written t₁.ctx.activeSector data true) :=
    writeDataSectors_ok hd.sector hw.size
  set t₃ := (t₂.setBuf data).written t₁.ctx.activeSector data true with ht₃
  have ht₃v : t₃.drive.toVolume = s.drive.toVolume.made c d (l, id) name := by
    rw [Volume.made, ← ht₂v]
    rfl
  have hentry : t₃.drive.tableEntry d = clusterEoc := by
    rw [ht₃v, tableEntry_made hd]
  have hends : TableChain t₃.drive.toVolume d [d] := by
    refine TableChain.single ?_ ⟨hd.fat_ne_zero, (hd.onDisk hw.toLayout).2⟩
    rw [hentry]
    unfold clusterMinEoc clusterEoc
    omega
  have hcluster : DirEntry.firstClusterAddr e = d := newEntry_firstClusterAddr hlt
  have hdir : DirEntry.isDirectory e := newEntry_isDirectory.trans (by decide)
  have hmul : u32 (DirEntry.firstClusterAddr e * t₃.drive.bs.sectorsPerCluster) = d := by
    have hone : t₃.drive.bs.sectorsPerCluster = 1 := hw.sectorsPerCluster
    rw [hcluster, hone, Nat.mul_one, u32_of_lt hlt]
  obtain ⟨t, hdentry, hvolume, -⟩ := dirEntryToDentry_dir hdir hmul hw.reads hends
    (Nat.le_add_left 1 clusterMinEoc)
  rw [hcluster, newEntry_fileSize (by decide)] at hdentry
  refine ⟨t.setCtx s.ctx, ?_, hvolume.trans ht₃v⟩
  refine withCtx_run ?_
  rw [if_neg (by omega), state_bind, hfirst, bind_run hslot, state_bind, if_neg hroom', bind_run hfree]
  dsimp only [List.headD_cons]
  rw [bind_run (putEntry_ok hw.toLayout hvalid), bind_run hload, state_bind, bind_run hmark, bind_run hread,
    update_bind, update_bind, state_bind]
  rw [setBuf_buf, setBuf_buf, setBuf_setBuf, ← newContent, ← hdata, bind_run hwrite]
  exact hdentry

lemma mkdir_unchanged (hw : WellFormed s.drive.toVolume) (hchain : s.drive.toVolume.Chain c cs)
    (h : 9 ≤ name.length ∨ (mkdirSlot s.drive.toVolume cs).2 = entriesPerSector ∨
      s.drive.toVolume.zeroWords = []) :
    ∃ t, (mkdir c name).run s = .ok (none, t) ∧ t.drive.toVolume = s.drive.toVolume := by
  set l := cs.getLastD 0
  set id := (mkdirSlot s.drive.toVolume cs).2 with hid
  have hfirst : u32 (c * (s.setCtx {}).drive.bs.sectorsPerCluster) = c := hchain.u32_mul hw.toLayout
  have hslot : (findSlot (fun e => !DirEntry.isFree e) c).run (s.setCtx {}) =
      .ok (some (), s.gotoEntry l id) := findSlot_ok (s := s.setCtx {}) hw hchain (Session.holds_new s)
  by_cases hlen : 9 ≤ name.length
  · refine ⟨(s.setCtx {}).setCtx s.ctx, withCtx_run ?_, rfl⟩
    rw [if_pos hlen]
    rfl
  · refine ⟨(s.gotoEntry l id).setCtx s.ctx, withCtx_run ?_, rfl⟩
    rw [if_neg (by omega), state_bind, hfirst, bind_run hslot, state_bind]
    by_cases hfull : id = entriesPerSector
    · rw [if_pos ((full_iff hw.toLayout id).mpr hfull)]
      rfl
    · have hnone : (s.gotoEntry l id).drive.toVolume.zeroWords = [] :=
        (h.resolve_left hlen).resolve_left hfull
      have hfree : (getFreeClusters 1).run (s.gotoEntry l id) = .ok (none, s.gotoEntry l id) := by
        rw [getFreeClusters_one (s := s.gotoEntry l id) hw, hnone]
        rfl
      rw [if_neg (mt (full_iff hw.toLayout id).mp hfull)]
      exact bind_giveUp hfree

lemma mkdir_fails (hw : WellFormed s.drive.toVolume) (hchain : s.drive.toVolume.Chain c cs)
    (hlen : name.length < 9) (hroom : (mkdirSlot s.drive.toVolume cs).2 ≠ entriesPerSector)
    (hfound : s.drive.toVolume.zeroWords.head? = some i) (hd : ¬OnDisk s.drive.toVolume (u32 i)) :
    ∃ t, (mkdir c name).run s = .ok (none, t) ∧ t.drive.toVolume =
      s.drive.toVolume.setSlot (mkdirSlot s.drive.toVolume cs) (newEntry name directory (u32 i) 0) := by
  set l := cs.getLastD 0
  set id := (mkdirSlot s.drive.toVolume cs).2 with hid
  have hvalid : Valid s.drive.toVolume l := hchain.last_valid
  have hfirst : u32 (c * (s.setCtx {}).drive.bs.sectorsPerCluster) = c := hchain.u32_mul hw.toLayout
  have hslot : (findSlot (fun e => !DirEntry.isFree e) c).run (s.setCtx {}) =
      .ok (some (), s.gotoEntry l id) := findSlot_ok (s := s.setCtx {}) hw hchain (Session.holds_new s)
  have hroom' := mt (full_iff (s := s) (c := l) hw.toLayout id).mp hroom
  have hfree : (getFreeClusters 1).run (s.gotoEntry l id) = .ok (some [u32 i], s.gotoEntry l id) := by
    have hfound : (s.gotoEntry l id).drive.toVolume.zeroWords.head? = some i := hfound
    rw [getFreeClusters_one (s := s.gotoEntry l id) hw, hfound]
    rfl
  have hne : u32 i ≠ l := by
    rintro heq
    exact hd (heq ▸ hw.onDisk hvalid)
  have hat : (s.put l id (newEntry name directory (u32 i) 0)).At _ l s.user := at_put hw.toLayout hvalid
  obtain ⟨t, hload, hvolume⟩ := hat.load_fails hw.setContent hvalid hd hne
  refine ⟨t.setCtx s.ctx, withCtx_run ?_, hvolume⟩
  rw [if_neg (by omega), state_bind, hfirst, bind_run hslot, state_bind, if_neg hroom', bind_run hfree]
  dsimp only [List.headD_cons]
  rw [bind_run (putEntry_ok hw.toLayout hvalid)]
  exact bind_giveUp hload

lemma mkdirRight_of_none {t : Session} (h : (mkdir c name).run s = .ok (none, t)) :
    MkdirRight c name s := by
  intro dentry blocks s' hrun
  rw [h] at hrun
  cases hrun

lemma zeroWords_valid (hw : Layout v) (hfound : v.zeroWords.head? = some i)
    (hi : i < v.bs.totalClusters + 2) : Valid v i ∧ u32 i = i ∧ v.tableEntry i = 0 := by
  obtain ⟨-, hzero, hlow⟩ := mem_below.mp (List.mem_of_mem_head? hfound)
  have hvalid : Valid v i := ⟨hlow, hi⟩
  have hlt := hw.valid_lt_table hvalid
  exact ⟨hvalid, u32_of_lt (by omega), by rw [hw.tableEntry_eq_word hvalid, hzero]⟩

/-- **With a cluster to take**, it depends on what is left there. -/
lemma mkdirRight_iff_quiet (hw : WellFormed s.drive.toVolume) (hchain : s.drive.toVolume.Chain c cs)
    (hlen : name.length < 9) (hroom : (mkdirSlot s.drive.toVolume cs).2 ≠ entriesPerSector)
    (hfound : s.drive.toVolume.zeroWords.head? = some i) (hi : i < s.drive.bs.totalClusters + 2) :
    MkdirRight c name s ↔ Quiet (s.drive.content i) := by
  obtain ⟨hvalid, hu32, hzero⟩ := zeroWords_valid hw.toLayout hfound hi
  have hlayout := hw.toLayout
  have hnot : i ∉ cs := fun hmem => hchain.entry_ne_zero i hmem hzero
  have hne : i ≠ cs.getLastD 0 := fun heq => hnot (heq ▸ hchain.last_mem)
  have husable : Usable s.drive.toVolume (u32 i) := by
    rw [hu32]
    exact (hlayout.placed hvalid).usable
  obtain ⟨t, hrun, hvolume⟩ := mkdir_ok hw hchain hlen hroom hfound husable (by rwa [hu32])
  rw [hu32] at hrun hvolume
  set p := mkdirSlot s.drive.toVolume cs
  have hp : Valid s.drive.toVolume p.1 := hchain.last_valid
  have hnep : i ≠ p.1 := hne
  set v₁ := s.drive.toVolume.setSlot p (newEntry name directory i 0) with hv₁
  have hw₁ : WellFormed v₁ := hw.setContent
  have hchain₁ : v₁.Chain c cs := hchain.setContent hlayout hp
  have hw₂ : WellFormed (v₁.setEntryOf i clusterEoc) := hw₁.setEntryOf
  -- the entry of the new cluster is the only one that is written
  have hmem : ∀ x ∈ [i], Valid v₁ x := fun x hx => by rwa [List.mem_singleton.mp hx]
  have hchain₂ := hchain₁.link hw₁.toLayout hmem fun x hx heq => hnot (List.mem_singleton.mp heq ▸ hx)
  have hnew₂ := chain_link hw₁.toLayout hmem (List.nodup_singleton i)
  rw [Volume.link] at hchain₂ hnew₂
  have hcontent₂ : (v₁.setEntryOf i clusterEoc).content i = s.drive.content i := by
    rw [content_setEntryOf hw₁.toLayout hvalid hvalid, hv₁, Volume.setSlot,
      content_setContent_of_ne hlayout hp hvalid hnep]
  have hmade : t.drive.toVolume = (v₁.setEntryOf i clusterEoc).setContent i
      (newContent c i ((v₁.setEntryOf i clusterEoc).content i)) := by
    rw [hvolume, Volume.made, Volume.entered]
  have hcontent : t.drive.content i = newContent c i (s.drive.content i) := by
    rw [hmade, content_setContent, hcontent₂]
  have hnew : IsNewDirectory c i t ↔ Quiet (s.drive.content i) := by
    have hwt : WellFormed t.drive.toVolume := by
      rw [hmade]
      exact hw₂.setContent
    have hchain_d : t.drive.toVolume.Chain i [i] := by
      rw [hmade]
      exact hnew₂.setContent hw₂.toLayout hvalid
    have hchain_c : t.drive.toVolume.Chain c cs := by
      rw [hmade]
      exact hchain₂.setContent hw₂.toLayout hvalid
    exact isNewDirectory_iff hwt hchain_d hchain_c hcontent
  rw [← hnew]
  constructor
  · intro h
    exact h _ _ _ hrun
  · intro h dentry blocks s' hrun'
    rw [hrun] at hrun'
    cases hrun'
    exact h

lemma usable_of_onDisk (hw : Layout v) (hsmall : v.bs.totalSectors ≤ 8388608)
    (hfound : v.zeroWords.head? = some i) (hi : v.bs.totalClusters + 2 ≤ i) (hd : OnDisk v (u32 i)) :
    Usable v (u32 i) ∧ ¬Valid v (u32 i) := by
  obtain ⟨hlt, -⟩ := mem_below.mp (List.mem_of_mem_head? hfound)
  have htotal := hw.totalSectors
  have hdisk := hw.disk
  have hsize := hw.size
  have hu32 : u32 i = i := u32_of_lt (by omega)
  rw [hu32] at hd ⊢
  have hoffset : u32 (i * 4) / sectorSize = i / 128 := by
    rw [u32_of_lt (by omega)]
    show i * 4 / 512 = i / 128
    omega
  have hfat : v.bs.fatSectorOf i = v.bs.firstFatSector + i / 128 := by
    rw [BootSector.fatSectorOf, hoffset, u32_of_lt (by omega)]
  have hsector : v.bs.firstSectorOfCluster i = v.bs.firstDataSector + (i - 2) := by
    rw [BootSector.firstSectorOfCluster, hw.sectorsPerCluster, Nat.mul_one,
      u32Sub_of_le (by omega) (by omega), u32_of_lt (by omega)]
    omega
  obtain ⟨hon, -⟩ := hd
  rw [hsector, u32_of_lt (by omega)] at hon
  have hreserved : 0 < v.bs.firstFatSector := hw.reserved
  refine ⟨⟨?_, ?_, ?_, ?_⟩, fun hvalid => ?_⟩
  · omega
  · omega
  · omega
  · omega
  · have := hvalid.2
    omega

/-- **With a number that is not a cluster's**, it depends on whether that is on the disk. -/
lemma mkdirRight_iff_offDisk (hw : WellFormed s.drive.toVolume) (hchain : s.drive.toVolume.Chain c cs)
    (hlen : name.length < 9) (hroom : (mkdirSlot s.drive.toVolume cs).2 ≠ entriesPerSector)
    (hfound : s.drive.toVolume.zeroWords.head? = some i) (hi : s.drive.bs.totalClusters + 2 ≤ i) :
    (¬OnDisk s.drive.toVolume (u32 i) → MkdirRight c name s) ∧
      (s.drive.bs.totalSectors ≤ 8388608 → MkdirRight c name s → ¬OnDisk s.drive.toVolume (u32 i)) := by
  constructor
  · intro hd
    obtain ⟨t, hrun, -⟩ := mkdir_fails hw hchain hlen hroom hfound hd
    exact mkdirRight_of_none hrun
  · intro hsmall hright hd
    obtain ⟨husable, hnot⟩ := usable_of_onDisk hw.toLayout hsmall hfound hi hd
    have hne : u32 i ≠ cs.getLastD 0 := fun heq => hnot (heq ▸ hchain.last_valid)
    obtain ⟨t, hrun, hvolume⟩ := mkdir_ok hw hchain hlen hroom hfound husable hne
    have hvalid := (hright _ _ _ hrun).chain.2 _ List.mem_cons_self
    rw [hvolume] at hvalid
    exact hnot hvalid

end Call

/-- `mkdir` finds no slot; or the first number that it could find is that of a cluster with nothing left in
it, or that of none, and not on the disk. -/
def MkdirsRight (v : Volume) (cs : List ℕ) (name : Name) : Prop :=
  9 ≤ name.length ∨ (mkdirSlot v cs).2 = entriesPerSector ∨ ∀ i, v.zeroWords.head? = some i →
    if i < v.bs.totalClusters + 2 then Quiet (v.content i) else ¬OnDisk v (u32 i)

/-- A volume with an empty root directory, and one free cluster with something left in it. -/
def oneFree (data : Sector) : Volume := ((plainVolume 255).setEntryOf 3 0).setContent 3 data

section OneFree

variable {data : Sector}

lemma oneFree_wellFormed : WellFormed (oneFree data) := (plainVolume_wellFormed 255).setEntryOf.setContent

lemma oneFree_tableEntry : (oneFree data).tableEntry 2 = clusterEoc := by
  have hlayout := (plainVolume_wellFormed 255).toLayout
  rw [oneFree, tableEntry_setContent hlayout.setEntryOf three_valid two_valid,
    tableEntry_setEntryOf_of_ne hlayout three_valid two_valid (by decide), plainVolume_tableEntry two_valid]

lemma oneFree_chain : (oneFree data).Chain 2 [2] := by
  refine ⟨⟨rfl, ?_⟩, ?_⟩
  · rw [linked_nil, Volume.next, oneFree_tableEntry]
    rfl
  · intro x hx
    rw [List.mem_singleton.mp hx]
    exact two_valid

lemma oneFree_content : (oneFree data).content 2 = fun _ => 0 := by
  have hlayout := (plainVolume_wellFormed 255).toLayout
  have hfirst : (plainVolume 255).bs.firstDataSector = 1056 := by decide
  have hsector := (hlayout.placed two_valid).behind
  rw [oneFree, content_setContent_of_ne hlayout.setEntryOf three_valid two_valid (by decide),
    content_setEntryOf hlayout three_valid two_valid]
  funext k
  exact if_neg (by omega)

lemma oneFree_zeroWords : (oneFree data).zeroWords.head? = some 3 := by
  have hlayout := (plainVolume_wellFormed 255).toLayout
  have hp := hlayout.placed three_valid
  have hthree : (oneFree data).word 3 = 0 := by
    have hne : (plainVolume 255).bs.fatSectorOf 3 ≠ (plainVolume 255).bs.firstSectorOfCluster 3 :=
      ne_of_lt (lt_of_lt_of_le hp.fatSector hp.behind)
    have hsector : (oneFree data).disk.sectors ((plainVolume 255).bs.fatSectorOf 3) =
        leWrite (fatEntryOffsetOf 3) 4 0
          ((plainVolume 255).disk.sectors ((plainVolume 255).bs.fatSectorOf 3)) :=
      (Function.update_of_ne hne _ _).trans (Function.update_self ..)
    rw [oneFree_wellFormed.word_eq three_valid]
    exact (congrArg (fun s => leRead s (fatEntryOffsetOf 3) 4) hsector).trans (leRead_leWrite (by decide))
  have htwo : (oneFree data).word 2 ≠ 0 := by
    intro hzero
    have htwo : Valid (oneFree data) 2 := two_valid
    have hentry := oneFree_wellFormed.tableEntry_eq_word htwo
    rw [oneFree_tableEntry, hzero] at hentry
    exact absurd hentry (by decide)
  rw [Volume.zeroWords, below, List.head?_filter, List.find?_range_eq_some]
  have hmany : 3 < 128 * (plainBoot.totalSectors - plainBoot.firstFatSector) := by decide
  refine ⟨by simp [hthree], List.mem_range.mpr hmany, ?_⟩
  intro j hj
  obtain rfl | hlow : j = 2 ∨ j < 2 := by omega
  · simp [htwo]
  · simp [hlow]

end OneFree

/-- What a freed cluster may hold: its bytes look like a file, in the place of the third entry. -/
abbrev leftFile : Sector := setEntry 2 (newEntry [98] 0 5 7) fun _ => 0

end FAT

end BrebOS
