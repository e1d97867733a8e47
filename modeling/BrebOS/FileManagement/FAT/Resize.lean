import BrebOS.FileManagement.FAT.Table

/-!
# Making files longer

What `resize` leaves of a file that gets longer: its entry has the new size, and the first cluster if it had
none; free clusters are hung on behind its own, and the directory is otherwise as it was.
-/

namespace BrebOS

namespace FAT

open Attempt

/-! ## Entries with another size -/

/-- An entry with another size and first cluster, under the same name. -/
structure Resized (e e' : DirEntry) (size first : ℕ) : Prop where
  name : ∀ k < 12, e' k = e k
  size : DirEntry.fileSize e' = size
  first : DirEntry.firstClusterAddr e' = first

section Entries

variable {s s' : Sector} {e e' : DirEntry} {name : Name} {i id : ℕ}

lemma isFree_congr (h : ∀ k < 12, e k = e' k) : DirEntry.isFree e = DirEntry.isFree e' := by
  rw [DirEntry.isFree, DirEntry.isFree, h 0 (by omega)]

lemma isLFN_congr (h : ∀ k < 12, e k = e' k) : DirEntry.isLFN e = DirEntry.isLFN e' := by
  rw [DirEntry.isLFN, DirEntry.isLFN, DirEntry.attrs, DirEntry.attrs, h 11 (by omega)]

lemma utf16ToUtf8_congr {n : ℕ} (h : ∀ k < 32, e k = e' k) (hn : i + 2 * n ≤ 33) :
    utf16ToUtf8 e i n = utf16ToUtf8 e' i n := by
  have hmap : (List.range n).map (fun k => e (i + 2 * k)) = (List.range n).map fun k => e' (i + 2 * k) :=
    List.map_congr_left fun k hk => h _ (by have := List.mem_range.mp hk; omega)
  rw [utf16ToUtf8, utf16ToUtf8, hmap]

lemma getLongName_congr (h : ∀ k < 32, e k = e' k) : DirEntry.getLongName e = DirEntry.getLongName e' := by
  rw [DirEntry.getLongName, DirEntry.getLongName, utf16ToUtf8_congr h (by decide : 1 + 2 * 5 ≤ 33),
    utf16ToUtf8_congr h (by decide : 14 + 2 * 6 ≤ 33), utf16ToUtf8_congr h (by decide : 28 + 2 * 2 ≤ 33)]

lemma piecesTo_congr : ∀ {i : ℕ}, (∀ j ≤ i, ∀ k < 32, entryAt s' j k = entryAt s j k) →
    piecesTo s' i = piecesTo s i
  | 0, h => getLongName_congr (h 0 le_rfl)
  | i + 1, h => by
      have hbefore := h i (by omega)
      rw [piecesTo, piecesTo, getLongName_congr (h (i + 1) le_rfl),
        isLFN_congr fun k hk => hbefore k (by omega), piecesTo_congr fun j hj => h j (by omega)]

lemma spelled_congr (h : ∀ j < i, ∀ k < 32, entryAt s' j k = entryAt s j k) :
    spelled name s' i = spelled name s i := by
  cases i with
  | zero => rfl
  | succ i =>
    have hlast := h i (by omega)
    rw [spelled, spelled, isLFN_congr fun k hk => hlast k (by omega), piecesTo_congr fun j hj => h j (by omega)]

lemma looksNamed_congr (h : ∀ j < i, ∀ k < 32, entryAt s' j k = entryAt s j k)
    (hi : ∀ k < 12, entryAt s' i k = entryAt s i k) : looksNamed name s' i = looksNamed name s i := by
  have hall : ∀ j ∈ List.range (i + 1), (!DirEntry.isFree (entryAt s' j)) = !DirEntry.isFree (entryAt s j) := by
    intro j hj
    rcases Nat.lt_succ_iff_lt_or_eq.mp (List.mem_range.mp hj) with hj | rfl
    · rw [isFree_congr fun k hk => h j hj k (by omega)]
    · rw [isFree_congr hi]
  rw [looksNamed, looksNamed, spelled_congr h, isLFN_congr hi, getName_congr hi]
  congr 1
  rw [Bool.eq_iff_iff, List.all_eq_true, List.all_eq_true]
  exact forall₂_congr fun j hj => by rw [hall j hj]

lemma lookIn_setEntry (h : lookIn name s = some id) (hname : ∀ k < 12, e k = entryAt s id k) :
    lookIn name (setEntry id e s) = some id := by
  rw [lookIn_eq, List.find?_range_eq_some] at h ⊢
  obtain ⟨hlooks, hmem, hbefore⟩ := h
  have hother : ∀ j ≠ id, ∀ k < 32, entryAt (setEntry id e s) j k = entryAt s j k := fun j hj k hk =>
    entryAt_setEntry_of_ne hj hk
  refine ⟨?_, hmem, fun j hj => ?_⟩
  · rw [looksNamed_congr (fun j hj => hother j hj.ne) fun k hk => ?_]
    · exact hlooks
    · rw [entryAt_setEntry (by omega), hname k hk]
  · rw [looksNamed_congr (fun i hi => hother i (by omega)) fun k hk => hother j hj.ne k (by omega)]
    exact hbefore j hj

lemma setEntry_setEntry : setEntry id e (setEntry id e' s) = setEntry id e s := by
  funext k
  unfold setEntry splice
  split_ifs <;> rfl

lemma resized_setFileSize {size : ℕ} (hsize : size < 4294967296) :
    Resized e (DirEntry.setFileSize e size) size (DirEntry.firstClusterAddr e) where
  name k hk := splice_outside (by omega)
  size := leRead_leWrite hsize
  first := by
    have hhigh : leRead (DirEntry.setFileSize e size) 20 2 = leRead e 20 2 :=
      leRead_leWrite_of_apart (by omega)
    have hlow : leRead (DirEntry.setFileSize e size) 26 2 = leRead e 26 2 :=
      leRead_leWrite_of_apart (by omega)
    rw [DirEntry.firstClusterAddr, DirEntry.firstClusterAddr, DirEntry.firstClusterHigh,
      DirEntry.firstClusterHigh, DirEntry.firstClusterLow, DirEntry.firstClusterLow, hhigh, hlow]

lemma resized_setFirstCluster {size first c : ℕ} (h : Resized e e' size first) (hc : c < 4294967296) :
    Resized e (DirEntry.setFirstCluster e' c) size c where
  name k hk := by
    rw [DirEntry.setFirstCluster, leWrite, splice_outside (by omega), leWrite, splice_outside (by omega)]
    exact h.name k hk
  size := by
    have hsize : leRead (DirEntry.setFirstCluster e' c) 28 4 = leRead e' 28 4 := by
      rw [DirEntry.setFirstCluster, leRead_leWrite_of_apart (by omega), leRead_leWrite_of_apart (by omega)]
    exact hsize.trans h.size
  first := by
    have hlow : leRead (DirEntry.setFirstCluster e' c) 26 2 = c % 65536 :=
      leRead_leWrite (Nat.mod_lt _ (by decide))
    have hhigh : leRead (DirEntry.setFirstCluster e' c) 20 2 = c / 65536 := by
      rw [DirEntry.setFirstCluster, leRead_leWrite_of_apart (by omega)]
      exact leRead_leWrite (by omega)
    rw [DirEntry.firstClusterAddr, DirEntry.firstClusterHigh, DirEntry.firstClusterLow, hlow, hhigh]
    omega

lemma Resized.congr {size first : ℕ} {e₁ : DirEntry} (h : Resized e e' size first)
    (heq : ∀ k < 32, e₁ k = e' k) : Resized e e₁ size first :=
  ⟨fun k hk => (heq k (by omega)).trans (h.name k hk), (fileSize_congr heq).trans h.size,
    (firstClusterAddr_congr heq).trans h.first⟩

end Entries

/-! ## Files -/

section Files

variable {v v' : Volume} {s : Session} {c size size' first : ℕ} {cs ds fs : List ℕ} {name : Name} {p : Slot}
  {e : DirEntry}

lemma firstLooking_congr (h : ∀ c ∈ cs, lookIn name (v'.content c) = lookIn name (v.content c)) :
    v'.firstLooking cs name = v.firstLooking cs name := by
  rw [firstLooking_findSome, firstLooking_findSome]
  induction cs with
  | nil => rfl
  | cons c cs ih =>
    rw [List.findSome?_cons, List.findSome?_cons, h c List.mem_cons_self,
      ih fun c hc => h c (List.mem_cons_of_mem _ hc)]

lemma StoredFile.lookIn_eq (h : StoredFile v cs name p ds) : lookIn name (v.content p.1) = some p.2 := by
  have hfirst := h.first
  rw [firstLooking_findSome] at hfirst
  obtain ⟨c, -, hc⟩ := List.exists_of_findSome?_eq_some hfirst
  obtain ⟨id, hid, rfl⟩ := Option.map_eq_some_iff.mp hc
  exact hid

lemma StoredFile.lookup_eq (h : StoredFile s.drive.toVolume cs name p ds) (hw : WellFormed s.drive.toVolume)
    (hchain : s.drive.toVolume.Chain c cs) :
    (getChildDirEntryId c name).run (s.setCtx {}) = .ok (some p.2, s.gotoEntry p.1 p.2) := by
  have hrun := getChildDirEntryId_ok (s := s.setCtx {}) hw hchain (Session.holds_new s) h.no_slash
  have hcs : cs ≠ [] := List.ne_nil_of_mem h.mem_cs
  have hfirst := h.first
  rw [firstLooking_eq _ hcs, Option.map_eq_some_iff] at hfirst
  obtain ⟨id, hid, hp⟩ := hfirst
  have hstop : stopAt (fun c => lookIn name (s.drive.content c)) cs = p.1 := congrArg Prod.fst hp
  obtain rfl : id = p.2 := congrArg Prod.snd hp
  have hindex : (findEntry name (s.drive.content p.1) entriesPerSector 0 false []).2 = p.2 := by
    have hlook := h.lookIn_eq
    rw [lookIn] at hlook
    split at hlook
    · exact Option.some.inj hlook
    · exact nomatch hlook
  rw [hrun]
  have hlooked : (s.setCtx {}).lookedUp name cs = s.gotoEntry p.1 p.2 := by
    show s.gotoEntry (stopAt (fun c => lookIn name (s.drive.content c)) cs) (findEntry name (s.drive.content
      (stopAt (fun c => lookIn name (s.drive.content c)) cs)) entriesPerSector 0 false []).2 = _
    rw [hstop, hindex]
  rw [hlooked]
  exact congrArg (fun r => Except.ok (r, s.gotoEntry p.1 p.2)) hid

/-- A regular file on a volume: its directory, its slot there, its clusters and its size. -/
structure FileOn (v : Volume) (c : ℕ) (cs : List ℕ) (name : Name) (p : Slot) (ds : List ℕ) (size : ℕ) : Prop where
  wellFormed : WellFormed v
  directory : v.Chain c cs
  stored : StoredFile v cs name p ds
  size : DirEntry.fileSize (v.entryIn p) = size

lemma FileOn.valid (h : FileOn v c cs name p ds size) : ∀ d ∈ ds, Valid v d := fun d hd =>
  (h.stored.chain (List.ne_nil_of_mem hd)).2 d hd

lemma FileOn.slot_valid (h : FileOn v c cs name p ds size) : Valid v p.1 := h.directory.2 _ h.stored.mem_cs

lemma FileOn.firstLooking (h : FileOn v c cs name p ds size) (he : ∀ k < 12, e k = v.entryIn p k) :
    (v.setSlot p e).firstLooking cs name = some p := by
  rw [firstLooking_congr (v := v), h.stored.first]
  intro d hd
  by_cases hp : d = p.1
  · rw [hp, Volume.setSlot, content_setContent, h.stored.lookIn_eq]
    exact lookIn_setEntry h.stored.lookIn_eq he
  · rw [Volume.setSlot, content_setContent_of_ne h.wellFormed.toLayout h.slot_valid (h.directory.2 d hd) hp]

lemma isDirectory_congr {e' : DirEntry} (h : ∀ k < 12, e k = e' k) :
    DirEntry.isDirectory e = DirEntry.isDirectory e' := by
  rw [DirEntry.isDirectory, DirEntry.isDirectory, DirEntry.attrs, DirEntry.attrs, h 11 (by omega)]

lemma FileOn.setSlot (h : FileOn v c cs name p ds size)
    (he : Resized (v.entryIn p) e size' (DirEntry.firstClusterAddr (v.entryIn p)))
    (hlength : ds.length = (size' + 511) / 512) : FileOn (v.setSlot p e) c cs name p ds size' := by
  have hlayout := h.wellFormed.toLayout
  have hp := h.slot_valid
  have hentry : ∀ k < 32, (v.setSlot p e).entryIn p k = e k := fun k hk => entryIn_setSlot hk
  have hfirst : DirEntry.firstClusterAddr ((v.setSlot p e).entryIn p) =
      DirEntry.firstClusterAddr (v.entryIn p) := (firstClusterAddr_congr hentry).trans he.first
  have hsize : DirEntry.fileSize ((v.setSlot p e).entryIn p) = size' := (fileSize_congr hentry).trans he.size
  refine ⟨h.wellFormed.setContent, h.directory.setContent hlayout hp, ?_, hsize⟩
  refine ⟨h.firstLooking he.name, h.stored.no_slash, ?_, by rw [hsize, hlength], ?_, ?_, h.stored.apart⟩
  · rw [isDirectory_congr fun k hk => (hentry k (by omega)).trans (he.name k hk), h.stored.regular]
  · intro hds
    rw [hfirst, h.stored.empty hds]
  · intro hds
    rw [hfirst]
    exact (h.stored.chain hds).setContent hlayout hp

/-- The clusters that are linked when some are hung on behind those of a file. -/
def linked (ds fs : List ℕ) : List ℕ := if ds = [] then fs else ds.getLastD 0 :: fs

/-- Clusters of no chain, to be hung on behind those of a file. -/
structure NewClusters (v : Volume) (fs : List ℕ) : Prop where
  ne_nil : fs ≠ []
  nodup : fs.Nodup
  valid : ∀ f ∈ fs, Valid v f
  free : ∀ f ∈ fs, v.tableEntry f = 0

lemma NewClusters.apart (h : NewClusters v fs) (hchain : v.Chain c cs) : ∀ d ∈ cs, d ∉ fs := fun d hd hf =>
  hchain.entry_ne_zero d hd (h.free d hf)

lemma NewClusters.chain_linked (h : NewClusters v fs) (hv : Layout v) (hchain : ds ≠ [] → v.Chain first ds)
    (hapart : ∀ d ∈ ds, d ∉ fs) :
    (v.link (linked ds fs)).Chain (if ds = [] then fs.headD 0 else first) (ds ++ fs) := by
  by_cases hds : ds = []
  · obtain ⟨f, rest, rfl⟩ := List.exists_cons_of_ne_nil h.ne_nil
    rw [linked, if_pos hds, if_pos hds, hds]
    exact chain_link hv h.valid h.nodup
  · have hlast : ds.getLastD 0 = ds.getLast hds := by
      rw [List.getLastD_eq_getLast?, List.getLast?_eq_some_getLast hds]
      rfl
    have hsplit : ds.dropLast ++ [ds.getLastD 0] = ds := by
      rw [hlast]
      exact List.dropLast_append_getLast hds
    have hmem : ds.getLastD 0 ∈ ds := by
      rw [hlast]
      exact List.getLast_mem hds
    rw [linked, if_neg hds, if_neg hds]
    have hends := chain_append hv (hsplit.symm ▸ hchain hds) h.valid
      (List.nodup_cons.mpr ⟨hapart _ hmem, h.nodup⟩) fun f hf hd => hapart f (List.dropLast_subset _ hd) hf
    rwa [List.append_cons, hsplit] at hends

lemma FileOn.grown (h : FileOn v c cs name p ds size) (hfs : NewClusters v fs)
    (he : Resized (v.entryIn p) e size'
      (if ds = [] then fs.headD 0 else DirEntry.firstClusterAddr (v.entryIn p)))
    (hlength : (ds ++ fs).length = (size' + 511) / 512) :
    FileOn ((v.setSlot p e).link (linked ds fs)) c cs name p (ds ++ fs) size' := by
  have hlayout := h.wellFormed.toLayout
  have hp := h.slot_valid
  set v₁ := v.setSlot p e with hv₁
  have hw₁ : WellFormed v₁ := h.wellFormed.setContent
  have hdir₁ : v₁.Chain c cs := h.directory.setContent hlayout hp
  have hnew : NewClusters v₁ fs := ⟨hfs.ne_nil, hfs.nodup, hfs.valid, fun f hf =>
    (tableEntry_setContent hlayout hp (hfs.valid f hf)).trans (hfs.free f hf)⟩
  have hchain₁ : ds ≠ [] → v₁.Chain (DirEntry.firstClusterAddr (v.entryIn p)) ds := fun hds =>
    (h.stored.chain hds).setContent hlayout hp
  have hapart : ∀ d ∈ ds, d ∉ fs := fun d hd => hnew.apart (hchain₁ (List.ne_nil_of_mem hd)) d hd
  -- the linked clusters are those of the file or new ones
  have hlinked : ∀ x ∈ linked ds fs, x ∈ ds ∨ x ∈ fs := by
    intro x hx
    rw [linked] at hx
    split_ifs at hx with hds
    · exact Or.inr hx
    · rcases List.mem_cons.mp hx with rfl | hx
      · exact Or.inl (hchain₁ hds).last_mem
      · exact Or.inr hx
  have hvalid : ∀ x ∈ linked ds fs, Valid v₁ x := by
    intro x hx
    rcases hlinked x hx with hx | hx
    · exact h.valid x hx
    · exact hfs.valid x hx
  have hcontent : ∀ d ∈ cs, (v₁.link (linked ds fs)).content d = v₁.content d := fun d hd =>
    content_link hw₁.toLayout hvalid (h.directory.2 d hd)
  have hentry : ∀ k < 32, (v₁.link (linked ds fs)).entryIn p k = e k := by
    intro k hk
    rw [Volume.entryIn, hcontent _ h.stored.mem_cs]
    exact entryIn_setSlot hk
  have hfirst := (firstClusterAddr_congr hentry).trans he.first
  have hsize : DirEntry.fileSize ((v₁.link (linked ds fs)).entryIn p) = size' :=
    (fileSize_congr hentry).trans he.size
  have hne : ds ++ fs ≠ [] := List.append_ne_nil_of_right_ne_nil _ hfs.ne_nil
  refine ⟨hw₁.link, hdir₁.link hw₁.toLayout hvalid ?_, ?_, hsize⟩
  · intro x hx hmem
    rcases hlinked x hmem with hmem | hmem
    · exact h.stored.apart x hmem hx
    · exact hnew.apart hdir₁ x hx hmem
  refine ⟨?_, h.stored.no_slash, ?_, by rw [hsize, hlength], fun hnil => absurd hnil hne, fun _ => ?_, ?_⟩
  · rw [firstLooking_congr (v := v₁) fun d hd => by rw [hcontent d hd]]
    exact h.firstLooking he.name
  · rw [isDirectory_congr fun k hk => (hentry k (by omega)).trans (he.name k hk), h.stored.regular]
  · rw [hfirst]
    exact hnew.chain_linked hw₁.toLayout hchain₁ hapart
  · intro d hd hmem
    rcases List.mem_append.mp hd with hd | hd
    · exact h.stored.apart d hd hmem
    · exact hnew.apart hdir₁ d hmem hd

end Files

/-! ## Free clusters -/

section Free

variable {s : Session} {v : Volume} {c f i n : ℕ}

lemma advance_eq {k : ℕ} (hreads : s.drive.disk.readErrors = fun _ => false) : s.advance k = s := by
  have hdisk : { s.drive.disk with readErrors := fun i => s.drive.disk.readErrors (i + k) } = s.drive.disk := by
    cases hd : s.drive.disk
    rw [hd] at hreads
    simp only at hreads
    simp [hreads]
  rw [Session.advance]
  exact congrArg (fun disk => s.setDisk disk) hdisk

lemma Layout.word_eq (h : Layout v) (hc : Valid v c) :
    v.word c = leRead (v.disk.sectors (v.bs.fatSectorOf c)) (fatEntryOffsetOf c) 4 := by
  obtain ⟨hsector, hoffset⟩ := h.entry_place hc
  rw [Volume.word, hsector, hoffset]

lemma Layout.tableEntry_eq_word (h : Layout v) (hc : Valid v c) : v.tableEntry c = v.word c % 0x10000000 := by
  rw [Volume.tableEntry, h.word_eq hc]

lemma Volume.IsFree.valid (h : v.IsFree c) : Valid v c := ⟨h.2.2, lt_of_lt_of_le h.1 (min_le_left _ _)⟩

lemma Volume.IsFree.tableEntry (h : v.IsFree c) (hw : Layout v) : v.tableEntry c = 0 := by
  rw [hw.tableEntry_eq_word h.valid, h.2.1]

lemma WellFormed.reads_volume (h : WellFormed v) : v.Reads (v.bs.totalSectors - v.bs.firstFatSector) := by
  have hdisk := h.disk
  have hsize := h.size
  intro i hi
  refine ⟨by omega, ?_, by rw [h.reads]⟩
  rw [u32_of_lt (by omega)]
  omega

lemma WellFormed.reads_table (h : WellFormed v) : v.Reads v.bs.fatSize := by
  have htable := h.table_le
  have htotal := h.totalSectors
  exact h.reads_volume.mono (by omega)

lemma getFreeClusters_ok (hw : WellFormed s.drive.toVolume) (hn : 1 ≤ n)
    (henough : n ≤ s.drive.toVolume.freeClusters.length) :
    ∃ fs, (getFreeClusters n).run s = .ok (some fs, s) ∧ NewClusters s.drive.toVolume fs ∧ fs.length = n := by
  obtain ⟨enough, found, k, a, hsearched, -, hscan⟩ := scanFat_searched hn s
  have hbound : s.drive.toVolume.clusterBound ≤ 128 * s.drive.bs.fatSize :=
    le_trans (min_le_right _ _) (min_le_right _ _)
  have hfind : CanFind n s.drive.toVolume := by
    refine Or.inl ⟨s.drive.bs.fatSize, hw.reads_table, ?_⟩
    rwa [min_eq_right hbound]
  obtain ⟨fs, hfs, hlength, hnodup, hfree⟩ := (hsearched.right_iff.mpr hfind).enough henough
  refine ⟨fs, ?_, ⟨?_, hnodup, fun f hf => (hfree f hf).valid, fun f hf =>
    (hfree f hf).tableEntry hw.toLayout⟩, hlength⟩
  · rw [getFreeClusters_of_scan hn hscan, hfs, advance_eq hw.reads]
  · rintro rfl
    rw [List.length_nil] at hlength
    omega

/-- The words of a volume that the search would take for free clusters, on its way to the end. -/
def Volume.zeroWords (v : Volume) : List ℕ := below v.LooksFree (128 * (v.bs.totalSectors - v.bs.firstFatSector))

section Searched

variable {enough : Bool} {found : List ℕ} {k j : ℕ}

lemma Searched.le (h : Searched n v enough found k) : k ≤ v.bs.totalSectors - v.bs.firstFatSector := by
  by_contra hlt
  have := (h.reads (v.bs.totalSectors - v.bs.firstFatSector) (by omega)).1
  omega

lemma Searched.found_eq (h : Searched n v enough found k) (henough : enough = true) :
    n ≤ v.zeroWords.length ∧ found = (v.zeroWords.take n).map u32 := by
  have hmul := Nat.mul_le_mul_left 128 h.le
  obtain ⟨hmany, hfound⟩ := h.found henough
  have htake : (below v.LooksFree (128 * k)).take n = v.zeroWords.take n := by
    obtain ⟨rest, hrest⟩ := below_isPrefix (p := v.LooksFree) hmul
    rw [Volume.zeroWords, ← hrest, List.take_append_of_le_length hmany]
  exact ⟨le_trans hmany (below_length_le hmul), by rw [hfound, foundIn, ← List.map_take, htake]⟩

end Searched

lemma getFreeClusters_run (hw : WellFormed s.drive.toVolume) (hn : 1 ≤ n) :
    (getFreeClusters n).run s = .ok (if n ≤ s.drive.toVolume.zeroWords.length then
      some ((s.drive.toVolume.zeroWords.take n).map u32) else none, s) := by
  obtain ⟨enough, found, k, a, hsearched, -, hscan⟩ := scanFat_searched hn s
  rw [getFreeClusters_of_scan hn hscan, advance_eq hw.reads]
  cases enough with
  | true =>
      obtain ⟨hle, hfound⟩ := hsearched.found_eq rfl
      rw [if_pos rfl, if_pos hle, hfound]
  | false =>
      obtain ⟨hfew, hlast⟩ := hsearched.ended rfl
      have hend : k = s.drive.bs.totalSectors - s.drive.bs.firstFatSector :=
        le_antisymm hsearched.le (not_lt.mp fun hlt => hlast (hw.reads_volume.mono hlt))
      have hnot : ¬n ≤ s.drive.toVolume.zeroWords.length := by
        rw [Volume.zeroWords, ← hend]
        exact not_le.mpr hfew
      rw [if_neg hnot, if_neg Bool.false_ne_true]

lemma getFreeClusters_none (hw : WellFormed s.drive.toVolume) (hn : 1 ≤ n)
    (hfew : s.drive.toVolume.zeroWords.length < n) : (getFreeClusters n).run s = .ok (none, s) := by
  rw [getFreeClusters_run hw hn, if_neg (not_le.mpr hfew)]

lemma zeroWords_head_lt (hw : Layout v) (hf : f ∈ v.freeClusters) (hfound : v.zeroWords.head? = some i) :
    i < v.bs.totalClusters + 2 := by
  have htable := hw.table_le
  have htotal := hw.totalSectors
  obtain ⟨hbound, hzero⟩ := mem_below.mp hf
  have hfat : f < 128 * v.bs.fatSize := lt_of_lt_of_le hbound (le_trans (min_le_right _ _) (min_le_right _ _))
  have hmul : 128 * v.bs.fatSize ≤ 128 * (v.bs.totalSectors - v.bs.firstFatSector) :=
    Nat.mul_le_mul_left 128 (by omega)
  have hle := head?_below_le hfound (mem_below.mpr ⟨lt_of_lt_of_le hfat hmul, hzero⟩)
  exact lt_of_le_of_lt hle (lt_of_lt_of_le hbound (min_le_left _ _))

end Free

/-! ## Calls -/

lemma numDataSectors_eq {size : ℕ} (h : size + 511 < 4294967296) : numDataSectors size = (size + 511) / 512 := by
  have hsum : u32 (size + (sectorSize - 1)) = size + 511 := u32_of_lt h
  rw [numDataSectors, hsum]
  rfl

section Calls

variable {s : Session} {c id : ℕ} {e : DirEntry} {f : DirEntry → DirEntry}

lemma holds_put (hw : Layout s.drive.toVolume) (hc : Valid s.drive.toVolume c) : (s.put c id e).Holds := by
  have hp := hw.placed hc
  have hne : s.drive.bs.fatSectorOf c ≠ s.drive.bs.firstSectorOfCluster c :=
    ne_of_lt (lt_of_lt_of_le hp.fatSector hp.behind)
  constructor
  · intro _
    show s.drive.disk.sectors (s.drive.bs.fatSectorOf c) =
      Function.update s.drive.disk.sectors (s.drive.bs.firstSectorOfCluster c) _ (s.drive.bs.fatSectorOf c)
    rw [Function.update_of_ne hne]
  · intro _ _
    have hcontent : (s.put c id e).drive.toVolume.content c = setEntry id e (s.drive.content c) :=
      content_setContent
    exact ⟨hcontent.symm, rfl⟩

lemma writeEntry_ok (hw : Layout s.drive.toVolume) (hc : Valid s.drive.toVolume c) :
    (writeEntry id f).run ((s.gotoEntry c id).setBuf (setEntry id e (s.drive.content c))) =
      .ok (some (), s.put c id (f (entryAt (setEntry id e (s.drive.content c)) id))) := by
  unfold writeEntry
  rw [update_bind, state_bind]
  show (writeDataSectors (s.drive.bs.firstSectorOfCluster c)
    (setEntry id (f (entryAt (setEntry id e (s.drive.content c)) id)) (setEntry id e (s.drive.content c)))
    true).run ((s.gotoEntry c id).setBuf (setEntry id (f (entryAt (setEntry id e (s.drive.content c)) id))
      (setEntry id e (s.drive.content c)))) = _
  rw [setEntry_setEntry]
  exact writeDataSectors_ok (hw.placed hc).sector hw.size

variable {v : Volume} {size newSize currNum newNum : ℕ} {cs ds : List ℕ} {name : Name} {p : Slot}

/-- What `resize` works on when it has found the entry. -/
def Session.resizing (p : Slot) (e : DirEntry) (s : Session) : Session :=
  (s.gotoEntry p.1 p.2).setBuf (setEntry p.2 e (s.drive.content p.1))

lemma hangOn_ok (first : ℕ) {fs : List ℕ} (hw : WellFormed s.drive.toVolume) (hs : s.Holds)
    (hfs : NewClusters s.drive.toVolume fs) (hchain : ds ≠ [] → s.drive.toVolume.Chain first ds)
    (hfirst : ds = [] → first = fs.headD 0) (hcurr : currNum = ds.length) :
    ∃ l, (followChain (currNum - 1) first >>= fun last =>
      extendChain (if currNum = 0 then fs.tail else fs) last >>= fun last =>
        changeActiveCluster last (some .buf) >>= fun _ => setTableEntry clusterEoc).run s =
          .ok (some (), (s.onVolume (s.drive.toVolume.link (linked ds fs))).goto l) := by
  by_cases hds : ds = []
  · obtain ⟨f, rest, rfl⟩ := List.exists_cons_of_ne_nil hfs.ne_nil
    obtain rfl : currNum = 0 := by rw [hcurr, hds]; rfl
    obtain ⟨l, hrun⟩ := extendChain_ok hw hfs.valid hs
    refine ⟨l, ?_⟩
    rw [hfirst hds, linked, if_pos hds]
    exact hrun
  · have hlength := List.length_pos_of_ne_nil hds
    obtain ⟨s', hfollow, hmoved⟩ := followChain_ok (n := currNum - 1) hw hs (hchain hds) (by omega)
    have hlast : ds.getD (currNum - 1) 0 = ds.getLastD 0 := by
      rw [hcurr, List.getLastD_eq_getLast?, List.getLast?_eq_getElem?, List.getD_eq_getElem?_getD]
    have hvalid : ∀ x ∈ ds.getLastD 0 :: fs, Valid s'.drive.toVolume x := by
      intro x hx
      rw [hmoved.toVolume]
      rcases List.mem_cons.mp hx with rfl | hx
      · exact (hchain hds).last_valid
      · exact hfs.valid x hx
    obtain ⟨l, hrun⟩ := extendChain_ok (by rw [hmoved.toVolume]; exact hw) hvalid (hmoved.holds hs)
    refine ⟨l, ?_⟩
    rw [bind_run hfollow, hlast, if_neg (by omega), linked, if_neg hds, hrun, hmoved.toVolume, hmoved.goto]

lemma grow_ok (h : FileOn s.drive.toVolume c cs name p ds size)
    (he : Resized (s.drive.toVolume.entryIn p) e newSize (DirEntry.firstClusterAddr (s.drive.toVolume.entryIn p)))
    (hcurr : currNum = ds.length) (hnew : newNum = (newSize + 511) / 512) (hlt : currNum < newNum)
    (hfree : newNum - currNum ≤ s.drive.toVolume.freeClusters.length) :
    ∃ fs s', (grow p.2 currNum newNum).run (s.resizing p e) = .ok (some (), s') ∧
      FileOn s'.drive.toVolume c cs name p (ds ++ fs) newSize ∧ s'.user = s.user ∧ s'.Holds := by
  obtain ⟨fs, hrun, hfs, hlength⟩ := getFreeClusters_ok (s := s.resizing p e) h.wellFormed (by omega) hfree
  have hlayout := h.wellFormed.toLayout
  have hp := h.slot_valid
  have hnil : currNum = 0 ↔ ds = [] := by rw [hcurr, List.length_eq_zero_iff]
  -- the entry that is written
  set e₁ := entryAt (setEntry p.2 e (s.drive.content p.1)) p.2 with he₁
  set e₂ := if currNum = 0 then DirEntry.setFirstCluster e₁ (fs.headD 0) else e₁ with he₂
  have hsame : Resized (s.drive.toVolume.entryIn p) e₁ newSize
      (DirEntry.firstClusterAddr (s.drive.toVolume.entryIn p)) := he.congr fun k hk => entryAt_setEntry hk
  have hentry : Resized (s.drive.toVolume.entryIn p) e₂ newSize
      (if ds = [] then fs.headD 0 else DirEntry.firstClusterAddr (s.drive.toVolume.entryIn p)) := by
    rw [he₂]
    by_cases hds : ds = []
    · rw [if_pos hds, if_pos (hnil.mpr hds)]
      refine resized_setFirstCluster hsame ?_
      obtain ⟨f, rest, rfl⟩ := List.exists_cons_of_ne_nil hfs.ne_nil
      exact lt_trans (hlayout.valid_lt_table (hfs.valid f List.mem_cons_self)) (by norm_num)
    · rw [if_neg hds, if_neg (mt hnil.mp hds)]
      exact hsame
  set t := s.put p.1 p.2 e₂ with ht
  have htv : t.drive.toVolume = s.drive.toVolume.setSlot p e₂ := rfl
  have hgrown := h.grown hfs hentry (by rw [List.length_append]; omega)
  have hbuf : DirEntry.firstClusterAddr (entryAt t.drive.buf p.2) =
      if ds = [] then fs.headD 0 else DirEntry.firstClusterAddr (s.drive.toVolume.entryIn p) := by
    rw [← hentry.first]
    exact firstClusterAddr_congr fun k hk => entryAt_setEntry hk
  have hw₁ : WellFormed t.drive.toVolume := h.wellFormed.setContent
  have hfs₁ : NewClusters t.drive.toVolume fs := ⟨hfs.ne_nil, hfs.nodup, hfs.valid, fun f hf =>
    (tableEntry_setContent hlayout hp (hfs.valid f hf)).trans (hfs.free f hf)⟩
  obtain ⟨l, hhang⟩ := hangOn_ok (DirEntry.firstClusterAddr (entryAt t.drive.buf p.2)) hw₁
    (holds_put hlayout hp) hfs₁
    (fun hds => by rw [hbuf, if_neg hds]; exact (h.stored.chain hds).setContent hlayout hp)
    (fun hds => by rw [hbuf, if_pos hds]) hcurr
  refine ⟨fs, (t.onVolume (t.drive.toVolume.link (linked ds fs))).goto l, ?_, hgrown, rfl,
    Session.holds_goto l _⟩
  rw [grow, bind_run hrun, Session.resizing, bind_run (writeEntry_ok hlayout hp), ← he₁, ← he₂,
    ← ht, bind_run entry_run]
  exact hhang

/-- The size in the inode, when `resize` has come to an end. -/
def Session.resized (newSize : ℕ) (r : Option Unit) (s : Session) : Session :=
  if r.isSome then { s with inodeSize := newSize } else s

lemma resize_run {r : Option Unit} {t : Session} (h : FileOn s.drive.toVolume c cs name p ds s.inodeSize)
    (hle : s.inodeSize ≤ newSize) (hnew : newSize + 511 < 4294967296)
    (hrun : (if ds.length < (newSize + 511) / 512 then grow p.2 ds.length ((newSize + 511) / 512)
      else writeEntry p.2 fun e => e).run
        (s.resizing p (DirEntry.setFileSize (s.drive.toVolume.entryIn p) newSize)) = .ok (r, t)) :
    (resize c name newSize).run s = .ok (r, (t.resized newSize r).setCtx s.ctx) := by
  have hcurr : numDataSectors (s.gotoEntry p.1 p.2).inodeSize = ds.length := by
    show numDataSectors s.inodeSize = ds.length
    rw [numDataSectors_eq (by omega), h.stored.length, h.size]
  have hlength : ds.length = (s.inodeSize + 511) / 512 := by rw [h.stored.length, h.size]
  refine withCtx_run ?_
  rw [bind_run (h.stored.lookup_eq h.wellFormed h.directory), state_bind]
  dsimp only
  rw [hcurr, numDataSectors_eq hnew, update_bind, if_neg (by omega)]
  by_cases hlt : ds.length < (newSize + 511) / 512
  · rw [if_pos hlt] at hrun ⊢
    cases r with
    | none => exact bind_giveUp hrun
    | some _ => exact (bind_run hrun).trans rfl
  · rw [if_neg hlt] at hrun ⊢
    cases r with
    | none => exact bind_giveUp hrun
    | some _ => exact (bind_run hrun).trans rfl

/-- **A call of `resize`** that makes a file longer, when there are enough free clusters. -/
lemma resize_ok (h : FileOn s.drive.toVolume c cs name p ds s.inodeSize) (hle : s.inodeSize ≤ newSize)
    (hnew : newSize + 511 < 4294967296)
    (hfree : (newSize + 511) / 512 - ds.length ≤ s.drive.toVolume.freeClusters.length) :
    ∃ ds' s', (resize c name newSize).run s = .ok (some (), s') ∧
      FileOn s'.drive.toVolume c cs name p ds' newSize ∧ s'.user = s.user ∧ s'.inodeSize = newSize := by
  set e := DirEntry.setFileSize (s.drive.toVolume.entryIn p) newSize with he
  have hresized : Resized (s.drive.toVolume.entryIn p) e newSize
      (DirEntry.firstClusterAddr (s.drive.toVolume.entryIn p)) := resized_setFileSize (by omega)
  rcases Nat.lt_or_ge ds.length ((newSize + 511) / 512) with hlt | hge
  · obtain ⟨fs, t, hrun, hfile, huser, -⟩ := grow_ok h hresized rfl rfl hlt hfree
    have hres := resize_run (r := some ()) (t := t) h hle hnew (by rw [if_pos hlt]; exact hrun)
    exact ⟨ds ++ fs, _, hres, hfile, huser, rfl⟩
  · -- the number of clusters stays
    have hlength : ds.length = (s.inodeSize + 511) / 512 := by rw [h.stored.length, h.size]
    have hwrite := @writeEntry_ok s p.1 p.2 e (fun e => e) h.wellFormed.toLayout h.slot_valid
    have hentry := hresized.congr fun k hk =>
      @entryAt_setEntry (s.drive.content p.1) e p.2 k hk
    have hres := resize_run (r := some ()) h hle hnew (by rw [if_neg (by omega)]; exact hwrite)
    exact ⟨ds, _, hres, h.setSlot hentry (by omega), rfl, rfl⟩

lemma resize_gives_up (h : FileOn s.drive.toVolume c cs name p ds s.inodeSize) (hle : s.inodeSize ≤ newSize)
    (hnew : newSize + 511 < 4294967296)
    (hfew : s.drive.toVolume.zeroWords.length < (newSize + 511) / 512 - ds.length) :
    ∃ s', (resize c name newSize).run s = .ok (none, s') ∧ s'.drive.toVolume = s.drive.toVolume ∧
      s'.inodeSize = s.inodeSize := by
  have hnone := getFreeClusters_none (s := s.resizing p (DirEntry.setFileSize (s.drive.toVolume.entryIn p) newSize))
    h.wellFormed (by omega) hfew
  have hres := resize_run (r := none) h hle hnew (by
    rw [if_pos (by omega), grow]
    exact bind_giveUp hnone)
  exact ⟨_, hres, rfl, rfl⟩

end Calls

end FAT

end BrebOS
