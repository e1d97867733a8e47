import BrebOS.FileManagement.FAT.Lookup

/-!
# Creating files

`touch` looks for the name and for a free slot in one loop, and writes the new entry to wherever the loop
stops.  What it leaves of the directory, and whether the new file is found again.
-/

namespace BrebOS

namespace FAT

open Attempt

/-! ## Writing to a slot -/

section Slots

variable {s : Sector} {e e' : DirEntry} {name : Name} {i id k : ℕ}

lemma entryAt_setEntry (hk : k < 32) : entryAt (setEntry id e s) id k = e k := splice_inside hk

lemma entryAt_setEntry_of_ne (hne : i ≠ id) (hk : k < 32) : entryAt (setEntry id e s) i k = entryAt s i k :=
  splice_outside (by omega)

lemma getName_congr (h : ∀ k < 12, e k = e' k) : DirEntry.getName e = DirEntry.getName e' := by
  have hbase : (List.range 8).map e = (List.range 8).map e' :=
    List.map_congr_left fun k hk => h k (by have := List.mem_range.mp hk; omega)
  have hext : (List.range' 8 3).map e = (List.range' 8 3).map e' :=
    List.map_congr_left fun k hk => h k (by have := List.mem_range'_1.mp hk; omega)
  rw [DirEntry.getName, DirEntry.getName, hbase, hext, h 8 (by omega), DirEntry.isDirectory,
    DirEntry.isDirectory, DirEntry.attrs, DirEntry.attrs, h 11 (by omega)]

lemma extensionLoop_first (hlen : name.length ≤ 8) : ∀ {i : ℕ} {f : ℕ → UInt8},
    (extensionLoop name i f).2 0 = f 0
  | 0, _ => rfl
  | i + 1, f => by
      rw [extensionLoop]
      split
      · rfl
      · rw [extensionLoop_first hlen]
        exact Function.update_of_ne (by omega) _ _

lemma extensionLoop_lt {d : ℕ} : ∀ {i : ℕ} {f : ℕ → UInt8}, (extensionLoop name i f).1 = some d → d < i
  | 0, _, h => nomatch h
  | i + 1, f, h => by
      rw [extensionLoop] at h
      split at h
      · cases h
        exact Nat.lt_succ_self _
      · exact Nat.lt_succ_of_lt (extensionLoop_lt h)

lemma newEntry_not_free {cluster size : ℕ} (hzero : 0 ∉ name) (hlen : name.length ≤ 8) :
    DirEntry.isFree (newEntry name 0 cluster size) = false := by
  have hfirst : 0 < name.length → name.getD 0 0 ≠ 0 := getD_ne hzero
  have hfield : nameField name 0 0 ≠ 0 := by
    rw [nameField, if_neg (by decide)]
    have hf := extensionLoop_first hlen (i := name.length)
      (f := fun k => if k < 10 then namePaddingByte else 0)
    have hlt : ∀ d, (extensionLoop name name.length fun k => if k < 10 then namePaddingByte else 0).1 = some d →
        d < name.length := fun _ => extensionLoop_lt
    rcases hloop : extensionLoop name name.length (fun k => if k < 10 then namePaddingByte else 0)
      with ⟨_ | d, f⟩
    · simp only [splice]
      split
      · exact hfirst (by omega)
      · decide
    · rw [hloop] at hf hlt
      have hd := hlt d rfl
      simp only [splice]
      split
      · exact hfirst (by omega)
      · rw [show f 0 = _ from hf]
        decide
  rw [DirEntry.isFree, newEntry_name (by omega)]
  exact decide_eq_false hfield

lemma newEntry_isLFN {cluster size : ℕ} : DirEntry.isLFN (newEntry name 0 cluster size) = false := by
  have hattrs : DirEntry.attrs (newEntry name 0 cluster size) = 0 := rfl
  rw [DirEntry.isLFN, hattrs]
  decide

lemma touchSlot_spec : touchSlot name s ≤ entriesPerSector ∧
    (∀ j < touchSlot name s, DirEntry.isFree (entryAt s j) = false) ∧
    (touchSlot name s < entriesPerSector → DirEntry.isFree (entryAt s (touchSlot name s)) = true ∨
      DirEntry.getName (entryAt s (touchSlot name s)) = name) := by
  obtain ⟨-, hle, hskip, hstop⟩ := skipWhile_spec
    (fun id => !DirEntry.isFree (entryAt s id) && DirEntry.getName (entryAt s id) ≠ name) entriesPerSector 0
  rw [Nat.zero_add] at hle hstop
  refine ⟨hle, fun j hj => ?_, fun hlt => ?_⟩
  · have := hskip j (Nat.zero_le j) hj
    simp only [Bool.and_eq_true, Bool.not_eq_true'] at this
    exact this.1
  · have := hstop hlt
    simp only [Bool.and_eq_false_iff, Bool.not_eq_false', decide_eq_false_iff_not, not_not] at this
    exact this

lemma lookIn_touched {shown : Name} (hfree : DirEntry.isFree e = false)
    (hlfn : DirEntry.isLFN e = false) (hshown : DirEntry.getName e = shown)
    (hslot : touchSlot name s < entriesPerSector) :
    (lookIn shown (setEntry (touchSlot name s) e s)).isSome := by
  set id := touchSlot name s with hid
  rw [lookIn_eq, List.find?_isSome]
  refine ⟨id, List.mem_range.mpr hslot, ?_⟩
  have hlfn' : DirEntry.isLFN (entryAt (setEntry id e s) id) = false := by
    rw [← hlfn, DirEntry.isLFN, DirEntry.isLFN, DirEntry.attrs, DirEntry.attrs, entryAt_setEntry (by omega)]
  have hname : DirEntry.getName (entryAt (setEntry id e s) id) = shown := by
    rw [← hshown]
    exact getName_congr fun k hk => entryAt_setEntry (by omega)
  rw [looksNamed, hlfn', hname, Bool.and_eq_true, List.all_eq_true]
  refine ⟨fun j hj => ?_, by simp⟩
  rcases Nat.lt_succ_iff_lt_or_eq.mp (List.mem_range.mp hj) with hj | rfl
  · have hused := touchSlot_spec.2.1 j hj
    rw [DirEntry.isFree] at hused ⊢
    rw [entryAt_setEntry_of_ne (by omega) (by omega), hused]
    rfl
  · rw [DirEntry.isFree] at hfree ⊢
    rw [entryAt_setEntry (by omega), hfree]
    rfl

end Slots

/-! ## Short names -/

/-- A short name comes back off the entry of a file, and, when it has no dot, off that of a directory; and a
file that `touch` made is found again. -/
structure NameRight (base ext : Name) : Prop where
  file : ∀ attrs cluster size, attrs &&& directory = 0 →
    DirEntry.getName (newEntry (fullName base ext) attrs cluster size) = lowercase (fullName base ext)
  dir : 46 ∉ fullName base ext → ∀ attrs cluster size, attrs &&& directory ≠ 0 →
    DirEntry.getName (newEntry (fullName base ext) attrs cluster size) = lowercase (fullName base ext)
  found : ∀ (s : Session) c cs, WellFormed s.drive.toVolume → s.drive.toVolume.Chain c cs →
    ∀ d s', (touch c (fullName base ext)).run s = .ok (some d, s') →
      ∃ id s'', (getChildDirEntryId c (lowercase (fullName base ext))).run (s'.setCtx {}) =
        .ok (some id, s'')

section Short

variable {base ext : Name}

lemma ShortName.length_fullName (h : ShortName base ext) : (fullName base ext).length ≤ 8 := by
  have := h.length_le
  rw [fullName, List.length_append]
  split_ifs at this ⊢ <;> simp only [List.length_nil, List.length_cons] <;> omega

lemma ShortName.clean_fullName (h : ShortName base ext) :
    ∀ c ∈ fullName base ext, c ≠ 0 ∧ c ≠ namePaddingByte := by
  intro c hc
  rw [fullName] at hc
  split_ifs at hc
  · rw [List.append_nil] at hc
    exact h.clean c (List.mem_append_left _ hc)
  · rcases List.mem_append.mp hc with hc | hc
    · exact h.clean c (List.mem_append_left _ hc)
    · rcases List.mem_cons.mp hc with rfl | hc
      · decide
      · exact h.clean c (List.mem_append_right _ hc)

lemma lowerByte_slash {c : UInt8} (h : lowerByte c = slash) : c = slash := by
  rw [lowerByte] at h
  split at h
  · rename_i hupper
    have hsum := congrArg UInt8.toNat h
    have hlow : 65 ≤ c.toNat := hupper.1
    have hhigh : c.toNat ≤ 90 := hupper.2
    rw [UInt8.toNat_add] at hsum
    simp [slash] at hsum
    omega
  · exact h

lemma head_lowercase {name : Name} (h : name.head? ≠ some slash) : (lowercase name).head? ≠ some slash := by
  cases name with
  | nil => exact nofun
  | cons c name =>
    intro hlower
    refine h ?_
    rw [List.head?_cons, lowerByte_slash (Option.some.inj hlower)]

lemma found_after_touch {s s' : Session} {c : ℕ} {cs : List ℕ} {name : Name} {d : EntryData × ℕ}
    (hzero : 0 ∉ name) (hback : DirEntry.getName (newEntry name 0 0 0) = lowercase name)
    (hw : WellFormed s.drive.toVolume) (hchain : s.drive.toVolume.Chain c cs)
    (hrun : (touch c name).run s = .ok (some d, s')) :
    ∃ id s'', (getChildDirEntryId c (lowercase name)).run (s'.setCtx {}) = .ok (some id, s'') := by
  by_cases hname : name.head? = some slash
  · rw [touch_slash hname] at hrun
    exact nomatch hrun
  rw [touch_ok hw hchain hname] at hrun
  by_cases hfull : touchSlot name (s.drive.content (cs.getLastD 0)) = entriesPerSector
  · rw [if_pos hfull] at hrun
    exact nomatch hrun
  by_cases hlen : 8 < name.length
  · rw [if_neg hfull, if_pos hlen] at hrun
    exact nomatch hrun
  rw [if_neg hfull, if_neg hlen] at hrun
  cases hrun
  set l := cs.getLastD 0
  have hl : Valid s.drive.toVolume l := hchain.last_valid
  set data := setEntry (touchSlot name (s.drive.content l)) (newEntry name 0 0 0) (s.drive.content l)
  have hvolume : ((s.touched name cs).setCtx {}).drive.toVolume = s.drive.toVolume.setContent l data := rfl
  have hlook : (lookIn (lowercase name) (((s.touched name cs).setCtx {}).drive.content l)).isSome := by
    rw [hvolume, content_setContent]
    refine lookIn_touched (newEntry_not_free hzero (by omega)) newEntry_isLFN hback ?_
    exact lt_of_le_of_ne touchSlot_spec.1 hfull
  have hsome : (cs.findSome? fun c => lookIn (lowercase name)
      (((s.touched name cs).setCtx {}).drive.content c)).isSome := by
    rw [List.findSome?_isSome_iff]
    exact ⟨l, hchain.last_mem, hlook⟩
  obtain ⟨id, hid⟩ := Option.isSome_iff_exists.mp hsome
  have hw' : WellFormed ((s.touched name cs).setCtx {}).drive.toVolume := by
    rw [hvolume]
    exact hw.setContent
  have hchain' : ((s.touched name cs).setCtx {}).drive.toVolume.Chain c cs := by
    rw [hvolume]
    exact hchain.setContent hw.toLayout hl
  exact ⟨id, _, (getChildDirEntryId_ok hw' hchain' (Session.holds_new _) (head_lowercase hname)).trans
    (by rw [hid])⟩

lemma nameRight_iff (h : ShortName base ext) : NameRight base ext ↔ ext.length = 0 ∨ ext.length = 3 := by
  constructor
  · intro hright
    exact (getName_file_iff h (by decide : (0 : UInt8) &&& directory = 0)).mp (hright.file 0 0 0 (by decide))
  · intro hext
    have hback : ∀ attrs cluster size, attrs &&& directory = 0 →
        DirEntry.getName (newEntry (fullName base ext) attrs cluster size) =
          lowercase (fullName base ext) := fun _ _ _ hattrs => (getName_file_iff h hattrs).mpr hext
    refine ⟨hback, ?_, ?_⟩
    · intro _ attrs cluster size hattrs
      exact getName_directory hattrs h.length_fullName h.clean_fullName
    · intro s c cs hw hchain d s' hrun
      exact found_after_touch (fun hmem => (h.clean_fullName 0 hmem).1 rfl) (hback 0 0 0 (by decide))
        hw hchain hrun

end Short

/-- The entry in a slot. -/
def Volume.entryIn (v : Volume) (p : Slot) : DirEntry := entryAt (v.content p.1) p.2

/-- The content, the size and the first cluster of the file in a slot of a directory are as before. -/
structure SameFile (cs : List ℕ) (v v' : Volume) (p : Slot) : Prop where
  size : DirEntry.fileSize (v'.entryIn p) = DirEntry.fileSize (v.entryIn p)
  first : DirEntry.firstClusterAddr (v'.entryIn p) = DirEntry.firstClusterAddr (v.entryIn p)
  content : ∀ ds, v.Chain (DirEntry.firstClusterAddr (v.entryIn p)) ds → (∀ d ∈ ds, d ∉ cs) →
    v'.Chain (DirEntry.firstClusterAddr (v.entryIn p)) ds ∧ ∀ d ∈ ds, v'.content d = v.content d

/-- One slot of a directory that was free has changed, and no byte of the disk anywhere else. -/
def OneSlotChanged (cs : List ℕ) (v v' : Volume) : Prop :=
  ∃ p : Slot, p.1 ∈ cs ∧ p.2 < entriesPerSector ∧
    (DirEntry.isFree (v.entryIn p) ∨ DirEntry.isUnused (v.entryIn p)) ∧
    (∃ k < 32, v'.entryIn p k ≠ v.entryIn p k) ∧
    ∀ lba k, v'.disk.sectors lba k ≠ v.disk.sectors lba k →
      lba = v.bs.firstSectorOfCluster p.1 ∧ 32 * p.2 ≤ k ∧ k < 32 * p.2 + 32

/-- A call of `touch` leaves the file with the name as it is, or makes a new one. -/
structure TouchRight (c : ℕ) (cs : List ℕ) (name : Name) (s : Session) : Prop where
  old : ∀ r s', (touch c name).run s = .ok (r, s') →
    ∀ p, s.drive.toVolume.HasName cs name p → SameFile cs s.drive.toVolume s'.drive.toVolume p
  new : (∀ p, ¬s.drive.toVolume.HasName cs name p) → ∀ r s', (touch c name).run s = .ok (r, s') →
    match r with
    | none => s'.drive.toVolume = s.drive.toVolume
    | some _ => OneSlotChanged cs s.drive.toVolume s'.drive.toVolume

/-- The slot that `touch` takes: in the last cluster, the first that is free or has the short name. -/
def touchedSlot (v : Volume) (cs : List ℕ) (name : Name) : Slot :=
  (cs.getLastD 0, touchSlot name (v.content (cs.getLastD 0)))

/-- `touch` comes to nothing, or it takes a free entry; or it takes another one, which is not the file's or
is that of a file without content when there is such a file, and which was deleted when there is none. -/
def TouchesRight (v : Volume) (cs : List ℕ) (name : Name) : Prop :=
  let p := touchedSlot v cs name
  let e := v.entryIn p
  name.head? = some slash ∨ p.2 = entriesPerSector ∨ 8 < name.length ∨ DirEntry.isFree e ∨
    ((∃ q, v.HasName cs name q) ∧
      (v.HasName cs name p → DirEntry.fileSize e = 0 ∧ DirEntry.firstClusterAddr e = 0)) ∨
    (∀ q, ¬v.HasName cs name q) ∧ DirEntry.isUnused e ∧ ∃ k < 32, newEntry name 0 0 0 k ≠ e k

section Named

variable {v : Volume} {cs : List ℕ} {name : Name} {p : Slot} {pieces : Option Name}

lemma mem_usedOf {c : ℕ} {s : Sector} {e : DirEntry} (h : (p, e) ∈ usedOf c s) :
    p.1 = c ∧ p.2 < entriesPerSector ∧ e = entryAt s p.2 ∧ DirEntry.isFree e = false := by
  have hfree := List.mem_takeWhile_imp h
  obtain ⟨i, hi, heq⟩ := List.mem_map.mp ((List.takeWhile_prefix _).subset h)
  cases heq
  exact ⟨rfl, List.mem_range.mp hi, rfl, by simpa using hfree⟩

lemma mem_nameEntries : ∀ {es : List (Slot × DirEntry)} {pieces : Option Name},
    (p, name) ∈ (nameEntries pieces es).1 → ∃ e, (p, e) ∈ es
  | [], _, h => absurd h List.not_mem_nil
  | (q, e) :: es, pieces, h => by
      rw [nameEntries] at h
      split_ifs at h
      · obtain ⟨e', he'⟩ := mem_nameEntries h
        exact ⟨e', List.mem_cons_of_mem _ he'⟩
      · obtain ⟨e', he'⟩ := mem_nameEntries h
        exact ⟨e', List.mem_cons_of_mem _ he'⟩
      · rcases List.mem_cons.mp h with h | h
        · cases h
          exact ⟨e, List.mem_cons_self⟩
        · obtain ⟨e', he'⟩ := mem_nameEntries h
          exact ⟨e', List.mem_cons_of_mem _ he'⟩

lemma mem_nameClusters : ∀ {cs : List ℕ} {pieces : Option Name}, (p, name) ∈ v.nameClusters pieces cs →
    p.1 ∈ cs ∧ p.2 < entriesPerSector ∧ DirEntry.isFree (v.entryIn p) = false
  | [], _, h => absurd h List.not_mem_nil
  | c :: cs, pieces, h => by
      rw [Volume.nameClusters] at h
      rcases List.mem_append.mp h with h | h
      · obtain ⟨e, he⟩ := mem_nameEntries h
        obtain ⟨hc, hlt, rfl, hfree⟩ := mem_usedOf he
        refine ⟨List.mem_cons.mpr (Or.inl hc), hlt, ?_⟩
        rw [Volume.entryIn, hc]
        exact hfree
      · obtain ⟨hc, hrest⟩ := mem_nameClusters h
        exact ⟨List.mem_cons_of_mem _ hc, hrest⟩

end Named

section Written

variable {v : Volume} {c l id : ℕ} {cs : List ℕ} {name : Name} {p : Slot} {e e' : DirEntry} {s : Session}

lemma fileSize_congr (h : ∀ k < 32, e k = e' k) : DirEntry.fileSize e = DirEntry.fileSize e' :=
  leRead_congr fun k _ hk => h k (by omega)

lemma firstClusterAddr_congr (h : ∀ k < 32, e k = e' k) :
    DirEntry.firstClusterAddr e = DirEntry.firstClusterAddr e' := by
  rw [DirEntry.firstClusterAddr, DirEntry.firstClusterAddr, DirEntry.firstClusterHigh,
    DirEntry.firstClusterHigh, DirEntry.firstClusterLow, DirEntry.firstClusterLow,
    leRead_congr fun k _ hk => h k (by omega), leRead_congr fun k _ hk => h k (by omega)]

/-- A volume with an entry written to a slot. -/
def Volume.setSlot (p : Slot) (e : DirEntry) (v : Volume) : Volume :=
  v.setContent p.1 (setEntry p.2 e (v.content p.1))

lemma entryIn_setSlot {k : ℕ} (hk : k < 32) : (v.setSlot p e).entryIn p k = e k := by
  rw [Volume.entryIn, Volume.setSlot, content_setContent]
  exact entryAt_setEntry hk

lemma entryIn_setSlot_of_ne {q : Slot} {k : ℕ} (h : Layout v) (hp : Valid v p.1) (hq : Valid v q.1)
    (hne : q ≠ p) (hk : k < 32) : (v.setSlot p e).entryIn q k = v.entryIn q k := by
  rw [Volume.entryIn, Volume.entryIn, Volume.setSlot]
  by_cases hcluster : q.1 = p.1
  · rw [hcluster, content_setContent]
    exact entryAt_setEntry_of_ne (fun hid => hne (Prod.ext hcluster hid)) hk
  · rw [content_setContent_of_ne h hp hq hcluster]

lemma sectors_setSlot {lba k : ℕ} (h : (v.setSlot p e).disk.sectors lba k ≠ v.disk.sectors lba k) :
    lba = v.bs.firstSectorOfCluster p.1 ∧ 32 * p.2 ≤ k ∧ k < 32 * p.2 + 32 := by
  have hlba : lba = v.bs.firstSectorOfCluster p.1 := by
    by_contra hne
    exact h (congrFun (Function.update_of_ne hne _ _) k)
  refine ⟨hlba, ?_⟩
  by_contra hout
  have hsame : (v.setSlot p e).content p.1 k = v.content p.1 k := by
    rw [Volume.setSlot, content_setContent]
    exact splice_outside (by omega)
  rw [hlba] at h
  exact h hsame

lemma sameFile_setSlot {q : Slot} (h : Layout v) (hp : Valid v p.1) (hpcs : p.1 ∈ cs)
    (hsize : DirEntry.fileSize ((v.setSlot p e).entryIn q) = DirEntry.fileSize (v.entryIn q))
    (hfirst : DirEntry.firstClusterAddr ((v.setSlot p e).entryIn q) =
      DirEntry.firstClusterAddr (v.entryIn q)) : SameFile cs v (v.setSlot p e) q where
  size := hsize
  first := hfirst
  content := by
    intro ds hchain hapart
    refine ⟨hchain.setContent h hp, fun d hd => ?_⟩
    exact content_setContent_of_ne h hp (hchain.2 d hd) fun heq => hapart d hd (heq ▸ hpcs)

lemma sameFile_of_ne {q : Slot} (h : Layout v) (hp : Valid v p.1) (hpcs : p.1 ∈ cs) (hq : Valid v q.1)
    (hne : q ≠ p) : SameFile cs v (v.setSlot p e) q :=
  have hsame : ∀ k < 32, (v.setSlot p e).entryIn q k = v.entryIn q k := fun _ hk =>
    entryIn_setSlot_of_ne h hp hq hne hk
  sameFile_setSlot h hp hpcs (fileSize_congr hsame) (firstClusterAddr_congr hsame)

lemma oneSlotChanged_iff (h : Layout v) (hcs : ∀ c ∈ cs, Valid v c) (hp : p.1 ∈ cs)
    (hid : p.2 < entriesPerSector) : OneSlotChanged cs v (v.setSlot p e) ↔
      (DirEntry.isFree (v.entryIn p) ∨ DirEntry.isUnused (v.entryIn p)) ∧
        ∃ k < 32, e k ≠ v.entryIn p k := by
  constructor
  · rintro ⟨q, hq, -, hfree, ⟨k, hk, hne⟩, -⟩
    obtain rfl : q = p := by
      by_contra hqp
      exact hne (entryIn_setSlot_of_ne h (hcs _ hp) (hcs _ hq) hqp hk)
    rw [entryIn_setSlot hk] at hne
    exact ⟨hfree, k, hk, hne⟩
  · rintro ⟨hfree, k, hk, hne⟩
    refine ⟨p, hp, hid, hfree, ⟨k, hk, ?_⟩, fun lba k hlba => sectors_setSlot hlba⟩
    rwa [entryIn_setSlot hk]

lemma touchRight_of_unchanged (h : ∀ r s', (touch c name).run s = .ok (r, s') → r = none ∧
      s'.drive.toVolume = s.drive.toVolume) : TouchRight c cs name s := by
  constructor
  · intro r s' hrun p _
    rw [(h r s' hrun).2]
    exact ⟨rfl, rfl, fun ds hchain _ => ⟨hchain, fun _ _ => rfl⟩⟩
  · intro _ r s' hrun
    obtain ⟨rfl, hvolume⟩ := h r s' hrun
    exact hvolume

lemma touchRight_iff_of_run {d : EntryData × ℕ} {s' : Session}
    (hrun : (touch c name).run s = .ok (some d, s')) :
    TouchRight c cs name s ↔
      (∀ q, s.drive.toVolume.HasName cs name q → SameFile cs s.drive.toVolume s'.drive.toVolume q) ∧
        ((∀ q, ¬s.drive.toVolume.HasName cs name q) →
          OneSlotChanged cs s.drive.toVolume s'.drive.toVolume) := by
  constructor
  · intro h
    exact ⟨h.old _ s' hrun, fun hnew => h.new hnew _ s' hrun⟩
  · rintro ⟨hold, hnew⟩
    constructor
    · intro r s'' hrun'
      rw [hrun] at hrun'
      cases hrun'
      exact hold
    · intro hnone r s'' hrun'
      rw [hrun] at hrun'
      cases hrun'
      exact hnew hnone

lemma touchRight_iff_of_written {d : EntryData × ℕ} (hw : WellFormed s.drive.toVolume)
    (hchain : s.drive.toVolume.Chain c cs) (hzero : 0 ∉ name) (hlen : name.length ≤ 8)
    (hid : (touchedSlot s.drive.toVolume cs name).2 < entriesPerSector)
    (hrun : (touch c name).run s = .ok (some d, s.touched name cs)) :
    TouchRight c cs name s ↔
      let p := touchedSlot s.drive.toVolume cs name
      let e := s.drive.toVolume.entryIn p
      DirEntry.isFree e ∨
        ((∃ q, s.drive.toVolume.HasName cs name q) ∧ (s.drive.toVolume.HasName cs name p →
          DirEntry.fileSize e = 0 ∧ DirEntry.firstClusterAddr e = 0)) ∨
        (∀ q, ¬s.drive.toVolume.HasName cs name q) ∧ DirEntry.isUnused e ∧
          ∃ k < 32, newEntry name 0 0 0 k ≠ e k := by
  set v := s.drive.toVolume with hv
  set p := touchedSlot v cs name with hp
  have hvolume : (s.touched name cs).drive.toVolume = v.setSlot p (newEntry name 0 0 0) := rfl
  have hmem : p.1 ∈ cs := hchain.last_mem
  have hvalid : Valid v p.1 := hchain.last_valid
  have hcs : ∀ c ∈ cs, Valid v c := hchain.2
  -- files in other slots do not change
  have hother : ∀ q, v.HasName cs name q → q ≠ p → SameFile cs v (v.setSlot p (newEntry name 0 0 0)) q :=
    fun q hq hne => sameFile_of_ne hw.toLayout hvalid hmem (hcs _ (mem_nameClusters hq).1) hne
  rw [touchRight_iff_of_run hrun, hvolume, ← hv, oneSlotChanged_iff hw.toLayout hcs hmem hid]
  have hsize : DirEntry.fileSize ((v.setSlot p (newEntry name 0 0 0)).entryIn p) = 0 :=
    (fileSize_congr fun _ hk => entryIn_setSlot hk).trans (newEntry_fileSize (by decide))
  have hfirst : DirEntry.firstClusterAddr ((v.setSlot p (newEntry name 0 0 0)).entryIn p) = 0 :=
    (firstClusterAddr_congr fun _ hk => entryIn_setSlot hk).trans (newEntry_firstClusterAddr (by decide))
  dsimp only
  by_cases hfree : DirEntry.isFree (v.entryIn p) = true
  · refine iff_of_true ⟨fun q hq => hother q hq ?_, fun _ => ⟨Or.inl hfree, 0, by decide, ?_⟩⟩ (Or.inl hfree)
    · rintro rfl
      rw [(mem_nameClusters hq).2.2] at hfree
      exact nomatch hfree
    · have hnew : DirEntry.isFree (newEntry name 0 0 0) = false := newEntry_not_free hzero hlen
      rw [DirEntry.isFree, decide_eq_false_iff_not] at hnew
      rw [DirEntry.isFree, decide_eq_true_eq] at hfree
      rwa [hfree]
  · by_cases hold : ∃ q, v.HasName cs name q
    · have hnew : ¬∀ q, ¬v.HasName cs name q := fun hnone => hold.elim hnone
      simp only [hfree, hold, hnew, Bool.false_eq_true, false_or, true_and, false_and, or_false,
        false_implies, and_true]
      constructor
      · intro hsame hp
        have := hsame p hp
        exact ⟨this.size.symm.trans hsize, this.first.symm.trans hfirst⟩
      · intro hempty q hq
        by_cases hqp : q = p
        · obtain ⟨hsize', hfirst'⟩ := hempty (hqp ▸ hq)
          rw [hqp]
          exact sameFile_setSlot hw.toLayout hvalid hmem (hsize.trans hsize'.symm) (hfirst.trans hfirst'.symm)
        · exact hother q hq hqp
    · have hnew : ∀ q, ¬v.HasName cs name q := fun q hq => hold ⟨q, hq⟩
      simp only [hfree, hold, Bool.false_eq_true, false_or, false_and]
      constructor
      · intro h
        exact ⟨hnew, h.2 hnew⟩
      · intro h
        exact ⟨fun q hq => absurd hq (hnew q), fun _ => h.2⟩

lemma touchRight_iff (hw : WellFormed s.drive.toVolume) (hchain : s.drive.toVolume.Chain c cs)
    (hzero : 0 ∉ name) : TouchRight c cs name s ↔ TouchesRight s.drive.toVolume cs name := by
  rw [TouchesRight]
  by_cases hname : name.head? = some slash
  · refine iff_of_true (touchRight_of_unchanged fun r s' hrun => ?_) (Or.inl hname)
    rw [touch_slash hname] at hrun
    cases hrun
    exact ⟨rfl, rfl⟩
  have hrun := touch_ok (s := s) hw hchain hname
  by_cases hfull : touchSlot name (s.drive.content (cs.getLastD 0)) = entriesPerSector
  · refine iff_of_true (touchRight_of_unchanged fun r s' hrun' => ?_) (Or.inr (Or.inl hfull))
    rw [hrun, if_pos hfull] at hrun'
    cases hrun'
    exact ⟨rfl, rfl⟩
  rw [if_neg hfull] at hrun
  by_cases hlen : 8 < name.length
  · refine iff_of_true (touchRight_of_unchanged fun r s' hrun' => ?_) (Or.inr (Or.inr (Or.inl hlen)))
    rw [hrun, if_pos hlen] at hrun'
    exact nomatch hrun'
  rw [if_neg hlen] at hrun
  have hid : (touchedSlot s.drive.toVolume cs name).2 < entriesPerSector :=
    lt_of_le_of_ne touchSlot_spec.1 hfull
  rw [touchRight_iff_of_written hw hchain hzero (by omega) hid hrun]
  simp only [hname, hlen, ne_of_lt hid, false_or]

end Written

/-- `touch` does what it should when it comes to nothing, or the slot it takes may be overwritten. -/
theorem touch_right_iff {s : Session} {c : ℕ} {cs : List ℕ} {name : Name} (hw : WellFormed s.drive.toVolume)
    (hchain : s.drive.toVolume.Chain c cs) (hzero : 0 ∉ name) :
    TouchRight c cs name s ↔ TouchesRight s.drive.toVolume cs name := touchRight_iff hw hchain hzero

/-- A new name is given to a slot behind the entries. -/
theorem touch_right_new : TouchRight 2 [2] [98] (oneEntry (newEntry [97] 0 3 5)).session := by
  refine (touch_right_iff (s := (oneEntry _).session) oneEntry_wellFormed
    (oneEntry_chain two_valid) (by decide)).mpr ?_
  show TouchesRight (oneEntry _) [2] [98]
  have hslot : touchedSlot (oneEntry (newEntry [97] 0 3 5)) [2] [98] = (2, 1) := by
    show (2, touchSlot [98] ((oneEntry _).content 2)) = (2, 1)
    rw [oneEntry_content]
    decide
  refine Or.inr (Or.inr (Or.inr (Or.inl ?_)))
  rw [hslot, Volume.entryIn, oneEntry_content]
  decide

/-- The entry of a file with this name is overwritten. -/
theorem touch_not_right_old : ¬TouchRight 2 [2] [97] (oneEntry (newEntry [97] 0 3 5)).session := by
  rw [touchRight_iff (s := (oneEntry _).session) oneEntry_wellFormed
    (oneEntry_chain two_valid) (by decide)]
  show ¬TouchesRight (oneEntry _) [2] [97]
  have hslot : touchedSlot (oneEntry (newEntry [97] 0 3 5)) [2] [97] = (2, 0) := by
    show (2, touchSlot [97] ((oneEntry _).content 2)) = (2, 0)
    rw [oneEntry_content]
    decide
  have hname : (oneEntry (newEntry [97] 0 3 5)).HasName [2] [97] (2, 0) :=
    (hasName_single oneEntry_content).mpr (by decide)
  have hfree : DirEntry.isFree ((oneEntry (newEntry [97] 0 3 5)).entryIn (2, 0)) = false := by
    rw [Volume.entryIn, oneEntry_content]
    decide
  have hsize : DirEntry.fileSize ((oneEntry (newEntry [97] 0 3 5)).entryIn (2, 0)) = 5 := by
    rw [Volume.entryIn, oneEntry_content]
    decide
  rw [TouchesRight]
  simp only [hslot, hfree, hsize]
  rintro (h | h | h | h | ⟨-, h⟩ | ⟨h, -⟩)
  · exact absurd h (by decide)
  · exact absurd h (by decide)
  · exact absurd h (by decide)
  · exact absurd h (by decide)
  · exact absurd (h hname).1 (by decide)
  · exact h _ hname

end FAT

end BrebOS
