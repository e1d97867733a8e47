import BrebOS.FileManagement.FAT.Names
import BrebOS.FileManagement.FAT.Volume

/-!
# Directories

What the loops over a directory come to on a volume that is well formed, and what is on the volume after
an entry has been written.
-/

namespace BrebOS

namespace FAT

open Attempt

/-! ## Writing to a cluster -/

/-- A volume with other content in a cluster. -/
def Volume.setContent (c : ℕ) (data : Sector) (v : Volume) : Volume :=
  { v with disk := { v.disk with
      sectors := Function.update v.disk.sectors (v.bs.firstSectorOfCluster c) data } }

section SetContent

variable {v : Volume} {c c' : ℕ} {cs : List ℕ} {data : Sector}

lemma Layout.setContent (h : Layout v) : Layout (v.setContent c data) where
  bytesPerSector := h.bytesPerSector
  sectorsPerCluster := h.sectorsPerCluster
  reserved := h.reserved
  tables := h.tables
  parts := h.parts
  disk := h.disk
  size := h.size
  table := h.table
  clusters := h.clusters

lemma WellFormed.setContent (h : WellFormed v) : WellFormed (v.setContent c data) where
  toLayout := h.toLayout.setContent
  reads := h.reads

lemma content_setContent : (v.setContent c data).content c = data := Function.update_self ..

lemma content_setContent_of_ne (h : Layout v) (hc : Valid v c) (hc' : Valid v c') (hne : c' ≠ c) :
    (v.setContent c data).content c' = v.content c' :=
  Function.update_of_ne (fun heq => hne (h.firstSectorOfCluster_inj hc' hc heq)) _ _

lemma tableEntry_setContent (h : Layout v) (hc : Valid v c) (hc' : Valid v c') :
    (v.setContent c data).tableEntry c' = v.tableEntry c' := by
  have hne : v.bs.fatSectorOf c' ≠ v.bs.firstSectorOfCluster c :=
    ne_of_lt (lt_of_lt_of_le (h.placed hc').fatSector (h.placed hc).behind)
  have hsame : (v.setContent c data).disk.sectors (v.bs.fatSectorOf c') =
      v.disk.sectors (v.bs.fatSectorOf c') := Function.update_of_ne hne _ _
  exact congrArg (fun s => leRead s (fatEntryOffsetOf c') 4 % 0x10000000) hsame

lemma Volume.Chain.setContent (h : Layout v) (hc : Valid v c) (hchain : v.Chain c' cs) :
    (v.setContent c data).Chain c' cs := by
  refine ⟨hchain.1.congr fun x hx => ?_, hchain.2⟩
  rw [Volume.next, Volume.next, tableEntry_setContent h hc (hchain.2 x hx)]

lemma Volume.Chain.u32_mul (h : v.Chain c cs) (hw : Layout v) : u32 (c * v.bs.sectorsPerCluster) = c := by
  obtain ⟨rest, rfl, hvalid, -⟩ := h.cons
  have hlt := hvalid.2
  have hfew := hw.clusters
  rw [hw.sectorsPerCluster, Nat.mul_one, u32_of_lt (by omega)]

lemma Volume.Chain.last_mem (h : v.Chain c cs) : cs.getLastD 0 ∈ cs := by
  obtain ⟨rest, rfl, -⟩ := h.cons
  rw [List.getLastD_cons, ← List.getLast_eq_getLastD (List.cons_ne_nil c rest)]
  exact List.getLast_mem _

lemma Volume.Chain.last_valid (h : v.Chain c cs) : Valid v (cs.getLastD 0) := h.2 _ h.last_mem

end SetContent

section Steps

variable {α : Type} {s t : Session} {r : Option α} {x : Act α}

lemma withCtx_run (h : x.run (s.setCtx {}) = .ok (r, t)) :
    (withCtx x).run s = .ok (r, t.setCtx s.ctx) := by
  show (x.run (s.setCtx {}) >>= fun p => Except.ok (p.1, p.2.setCtx s.ctx)) = _
  rw [h]
  rfl

lemma withCtx_stop {e : NoReturn} (h : x.run (s.setCtx {}) = .error e) :
    (withCtx x).run s = .error e := by
  show (x.run (s.setCtx {}) >>= fun p => Except.ok (p.1, p.2.setCtx s.ctx)) = _
  rw [h]
  rfl

/-- The disk after `write_data_sectors`. -/
def Session.written (lba : ℕ) (data : Sector) (isBuf : Bool) (s : Session) : Session :=
  (s.setDisk { s.drive.disk with sectors := Function.update s.drive.disk.sectors lba data }).setCtx
    { s.ctx with bufferUpdated := !isBuf }

lemma writeDataSectors_ok {lba : ℕ} {data : Sector} {isBuf : Bool} (hlba : lba < s.drive.disk.size)
    (hsize : s.drive.disk.size < 4294967296) :
    (writeDataSectors lba data isBuf).run s = .ok (some (), s.written lba data isBuf) := by
  unfold writeDataSectors
  rw [state_bind, Disk.write_ok hlba hsize]
  rfl

lemma dirEntryToDentry_file {e : DirEntry} (he : DirEntry.isDirectory e = false) :
    (dirEntryToDentry e).run s = .ok (some (⟨.file, DirEntry.firstClusterAddr e, DirEntry.fileSize e⟩,
      u32 (DirEntry.fileSize e + 511) / 512), s) := by
  rw [dirEntryToDentry, if_pos (by simp [he])]
  rfl

end Steps

/-! ## Looking up -/

/-- What `get_child_dir_entry_id` finds in one cluster, if it finds the name. -/
def lookIn (name : Name) (s : Sector) : Option ℕ :=
  if (findEntry name s entriesPerSector 0 false []).1 then
    some (findEntry name s entriesPerSector 0 false []).2
  else none

section Lookup

variable {v : Volume} {s : Session} {c : ℕ} {cs : List ℕ} {name : Name}

lemma findSome?_eq_stopAt {α : Type} {r : ℕ → Option α} : ∀ {cs : List ℕ}, cs ≠ [] →
    cs.findSome? r = r (stopAt r cs)
  | [], h => absurd rfl h
  | [c], _ => by
      rw [List.findSome?_cons, stopAt]
      cases h : r c <;> rfl
  | c :: c' :: cs, _ => by
      rw [List.findSome?_cons, stopAt]
      cases h : r c with
      | none => exact findSome?_eq_stopAt (List.cons_ne_nil _ _)
      | some a => exact h.symm

lemma stopAt_none {α : Type} : ∀ {cs : List ℕ}, stopAt (fun _ => (none : Option α)) cs = cs.getLastD 0
  | [] => rfl
  | [_] => rfl
  | _ :: c' :: cs => by
      rw [stopAt, if_neg (by simp), stopAt_none]
      rfl

/-- The state in which the lookup of a name stops. -/
def Session.lookedUp (name : Name) (cs : List ℕ) (s : Session) : Session :=
  let c := stopAt (fun c => lookIn name (s.drive.content c)) cs
  s.gotoEntry c (findEntry name (s.drive.content c) entriesPerSector 0 false []).2

/-- **A lookup** goes from cluster to cluster until one has the name. -/
lemma getChildDirEntryId_ok (hw : WellFormed s.drive.toVolume) (hchain : s.drive.toVolume.Chain c cs)
    (hs : s.Holds) (hname : name.head? ≠ some slash) :
    (getChildDirEntryId c name).run s =
      .ok (cs.findSome? fun c => lookIn name (s.drive.content c), s.lookedUp name cs) := by
  rw [getChildDirEntryId, if_neg hname, state_bind, hchain.u32_mul hw.toLayout]
  refine (bind_run (@alongChain_ok _ _ _ (fun c => lookIn name (s.drive.content c))
    (fun c => (findEntry name (s.drive.content c) entriesPerSector 0 false []).2) ?_ _ _ _ _ hchain
    (hchain.length_lt hw.toLayout).le rfl hs)).trans ?_
  · intro s' c hv hs hc
    have hcontent : s'.drive.content c = s.drive.content c := by rw [hv]
    rw [bind_run (changeActiveCluster_buf (hv ▸ hw) (hv ▸ hc) hs), state_bind, Session.goto_buf, hcontent]
    rfl
  · cases cs.findSome? fun c => lookIn name (s.drive.content c) <;> rfl

end Lookup

/-! ## Slots -/

/-- The slot that a loop over the entries of one cluster stops at. -/
def slotIn (skip : DirEntry → Bool) (s : Sector) : ℕ :=
  skipWhile (fun id => skip (entryAt s id)) entriesPerSector 0

section Slots

variable {v : Volume} {s : Session} {c : ℕ} {cs : List ℕ} {skip : DirEntry → Bool} {name : Name}

lemma findSlot_ok (hw : WellFormed s.drive.toVolume) (hchain : s.drive.toVolume.Chain c cs)
    (hs : s.Holds) :
    (findSlot skip c).run s = .ok (some (), s.gotoEntry (cs.getLastD 0)
      (slotIn skip (s.drive.content (cs.getLastD 0)))) := by
  have hlooks : LooksAt s.drive.toVolume (fun cluster => do
      changeActiveCluster cluster (some .buf)
      update fun s => s.setCtx { s.ctx with
        dirEntryId := skipWhile (fun id => skip (entryAt s.drive.buf id)) entriesPerSector s.ctx.dirEntryId }
      pure (none : Option Unit)) (fun _ => none)
      (fun c => slotIn skip (s.drive.content c)) := by
    intro s' c hv hs hc
    rw [bind_run (changeActiveCluster_buf (hv ▸ hw) (hv ▸ hc) hs), update_bind]
    have hcontent : s.drive.content c = s'.drive.content c := by rw [hv]
    beta_reduce
    rw [hcontent]
    rfl
  rw [findSlot, bind_run (alongChain_ok hlooks hchain (hchain.length_lt hw.toLayout).le rfl hs), stopAt_none]
  rfl

/-- An entry was written to a slot of a cluster, in `buf` and on the disk. -/
def Session.put (c id : ℕ) (e : DirEntry) (s : Session) : Session :=
  let data := setEntry id e (s.drive.content c)
  (((s.gotoEntry c id).setBuf data).written (s.drive.bs.firstSectorOfCluster c) data true)

lemma putEntry_ok (hw : Layout s.drive.toVolume) (hc : Valid s.drive.toVolume c) {id : ℕ} {e : DirEntry} :
    (putEntry e).run (s.gotoEntry c id) = .ok (some (), s.put c id e) := by
  unfold putEntry
  rw [update_bind, state_bind]
  exact writeDataSectors_ok (hw.placed hc).sector hw.size

/-- The slot that `touch` takes: a free one, or that of a short entry with the name. -/
def touchSlot (name : Name) (s : Sector) : ℕ :=
  slotIn (fun e => !DirEntry.isFree e && DirEntry.getName e ≠ name) s

/-- What `touch` leaves. -/
def Session.touched (name : Name) (cs : List ℕ) (s : Session) : Session :=
  let c := cs.getLastD 0
  (s.put c (touchSlot name (s.drive.content c)) (newEntry name 0 0 0)).setCtx s.ctx

lemma full_iff (hw : Layout s.drive.toVolume) (id : ℕ) :
    (s.gotoEntry c id).ctx.dirEntryId * entrySize =
      (s.gotoEntry c id).drive.bs.bytesPerSector * (s.gotoEntry c id).drive.bs.sectorsPerCluster ↔
        id = entriesPerSector := by
  show id * entrySize = s.drive.bs.bytesPerSector * s.drive.bs.sectorsPerCluster ↔ _
  rw [hw.bytesPerSector, hw.sectorsPerCluster, show 512 * 1 = entriesPerSector * entrySize from rfl]
  exact Nat.mul_left_inj (by decide)

lemma touch_slash {name : Name} (hname : name.head? = some slash) :
    (touch c name).run s = .ok (none, s) := by
  refine withCtx_run (t := s.setCtx {}) ?_
  rw [if_pos hname]
  rfl

/-- **A call of `touch`** takes a slot in the last cluster, if there is one. -/
lemma touch_ok (hw : WellFormed s.drive.toVolume) (hchain : s.drive.toVolume.Chain c cs) {name : Name}
    (hname : name.head? ≠ some slash) :
    (touch c name).run s =
      if touchSlot name (s.drive.content (cs.getLastD 0)) = entriesPerSector then
        .ok (none, (s.gotoEntry (cs.getLastD 0) entriesPerSector).setCtx s.ctx)
      else if 8 < name.length then .error (.fault tooLong)
      else .ok (some (⟨.file, 0, 0⟩, 0), s.touched name cs) := by
  set l := cs.getLastD 0 with hl
  set id := touchSlot name (s.drive.content l) with hid
  have hfound : (findSlot (fun e => !DirEntry.isFree e && DirEntry.getName e ≠ name) c).run (s.setCtx {}) =
      .ok (some (), s.gotoEntry l id) := findSlot_ok (s := s.setCtx {}) hw hchain (Session.holds_new s)
  have hfirst : u32 (c * (s.setCtx {}).drive.bs.sectorsPerCluster) = c := hchain.u32_mul hw.toLayout
  by_cases hfull : id = entriesPerSector
  · rw [if_pos hfull]
    refine withCtx_run (t := s.gotoEntry l entriesPerSector) ?_
    rw [if_neg hname, state_bind, hfirst, bind_run hfound, state_bind,
      if_pos ((full_iff hw.toLayout id).mpr hfull), hfull]
    rfl
  have hroom := mt (full_iff (s := s) (c := l) hw.toLayout id).mp hfull
  rw [if_neg hfull]
  by_cases hlen : 8 < name.length
  · rw [if_pos hlen]
    refine withCtx_stop ?_
    rw [if_neg hname, state_bind, hfirst, bind_run hfound, state_bind, if_neg hroom, if_pos hlen]
    rfl
  · rw [if_neg hlen]
    refine withCtx_run (t := s.put l id (newEntry name 0 0 0)) ?_
    rw [if_neg hname, state_bind, hfirst, bind_run hfound, state_bind, if_neg hroom, if_neg hlen]
    dsimp only
    rw [bind_run (putEntry_ok hw.toLayout hchain.last_valid),
      dirEntryToDentry_file (newEntry_isDirectory.trans (by decide)),
      newEntry_firstClusterAddr (by decide), newEntry_fileSize (by decide)]
    rfl

end Slots

end FAT

end BrebOS
