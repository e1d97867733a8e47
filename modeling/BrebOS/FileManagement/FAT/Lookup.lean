import BrebOS.FileManagement.FAT.Directories
import BrebOS.FileManagement.FAT.FreeClusters

/-!
# Lookups

The names that the entries of a directory have, and the entries that `get_child_dir_entry_id` takes for
those of a name.  A short entry has the name that the long entries in front of it spell, or else its own;
the lookup stops at the first entry that looks so from inside its cluster.
-/

namespace BrebOS

namespace FAT

open Attempt

/-! ## The names of a directory -/

/-- A slot of a directory: a cluster, and the index of an entry in it. -/
abbrev Slot := ℕ × ℕ

/-- A piece of a long name has all of `READONLY`, `HIDDEN`, `SYSTEM` and `VolumeID`. -/
def DirEntry.isPiece (e : DirEntry) : Bool := DirEntry.attrs e &&& lfn = lfn

/-- The entries of a cluster in front of the first free one, with their slots. -/
def usedOf (c : ℕ) (s : Sector) : List (Slot × DirEntry) :=
  ((List.range entriesPerSector).map fun i => ((c, i), entryAt s i)).takeWhile fun p => !DirEntry.isFree p.2

/-- The slots of the short entries among some with their names, and what the pieces at the end spell.
`pieces` is what the ones in front spell, if there are any. -/
def nameEntries : Option Name → List (Slot × DirEntry) → List (Slot × Name) × Option Name
  | pieces, [] => ([], pieces)
  | pieces, (p, e) :: es =>
      if DirEntry.isUnused e then nameEntries none es
      else if DirEntry.isPiece e then nameEntries (some (DirEntry.getLongName e ++ pieces.getD [])) es
      else
        let (named, rest) := nameEntries none es
        ((p, pieces.getD (DirEntry.getName e)) :: named, rest)

namespace Volume

variable (v : Volume)

/-- The short entries of the clusters of a directory.  A long name goes on in the next cluster when there
is no free slot between. -/
def nameClusters : Option Name → List ℕ → List (Slot × Name)
  | _, [] => []
  | pieces, c :: cs =>
      let used := usedOf c (v.content c)
      let (named, rest) := nameEntries pieces used
      named ++ nameClusters (if used.length = entriesPerSector then rest else none) cs

/-- A slot of a directory has a short entry that is not deleted, with a name. -/
def HasName (cs : List ℕ) (name : Name) (p : Slot) : Prop := (p, name) ∈ v.nameClusters none cs

end Volume

/-! ## What looks like a name -/

/-- What the driver takes for pieces of a long name, from the last short entry of the cluster to an index. -/
def piecesTo (s : Sector) : ℕ → Name
  | 0 => DirEntry.getLongName (entryAt s 0)
  | i + 1 => DirEntry.getLongName (entryAt s (i + 1)) ++
      if DirEntry.isLFN (entryAt s i) then piecesTo s i else []

/-- The pieces in front of an index. -/
def piecesBefore (s : Sector) : ℕ → Name
  | 0 => []
  | i + 1 => if DirEntry.isLFN (entryAt s i) then piecesTo s i else []

/-- The pieces in front of an index spell a name. -/
def spelled (name : Name) (s : Sector) : ℕ → Bool
  | 0 => false
  | i + 1 => DirEntry.isLFN (entryAt s i) && piecesTo s i = name

/-- The entry at an index looks like that of a name: there is no free one up to it, and it has the name
itself or comes after pieces that spell it. -/
def looksNamed (name : Name) (s : Sector) (i : ℕ) : Bool :=
  (List.range (i + 1)).all (fun j => !DirEntry.isFree (entryAt s j)) &&
    (spelled name s i || !DirEntry.isLFN (entryAt s i) && DirEntry.getName (entryAt s i) = name)

section Cluster

variable {name : Name} {s : Sector}

lemma findEntry_eq : ∀ {n i : ℕ}, (∀ j < i, DirEntry.isFree (entryAt s j) = false) →
    (let r := findEntry name s n i (spelled name s i) (piecesBefore s i)
      if r.1 then some r.2 else none) = (List.range' i n).find? (looksNamed name s)
  | 0, _, _ => rfl
  | n + 1, i, hused => by
      by_cases hfree : DirEntry.isFree (entryAt s i) = true
      · -- nothing from here on looks like a name
        have hnone : ∀ j ∈ List.range' i (n + 1), looksNamed name s j = false := by
          intro j hj
          have hij := (List.mem_range'_1.mp hj).1
          rw [looksNamed, Bool.and_eq_false_iff]
          refine Or.inl (List.all_eq_false.mpr ⟨i, List.mem_range.mpr (by omega), by simp [hfree]⟩)
        rw [findEntry, if_pos hfree, List.find?_eq_none.mpr fun j hj => by simp [hnone j hj]]
        rfl
      · have hall : (List.range (i + 1)).all (fun j => !DirEntry.isFree (entryAt s j)) = true := by
          rw [List.all_eq_true]
          intro j hj
          rcases Nat.lt_succ_iff_lt_or_eq.mp (List.mem_range.mp hj) with hj | rfl
          · simp [hused j hj]
          · simpa using hfree
        have hused' : ∀ j < i + 1, DirEntry.isFree (entryAt s j) = false := by
          intro j hj
          have := List.all_eq_true.mp hall j (List.mem_range.mpr hj)
          simpa using this
        have hlooks : looksNamed name s i = (spelled name s i ||
            !DirEntry.isLFN (entryAt s i) && DirEntry.getName (entryAt s i) = name) := by
          rw [looksNamed, hall, Bool.true_and]
        have ih := findEntry_eq (n := n) hused'
        rw [findEntry, if_neg hfree, List.range'_succ, List.find?_cons, hlooks]
        by_cases hspelled : spelled name s i = true
        · rw [if_pos hspelled, hspelled]
          rfl
        · rw [if_neg hspelled, Bool.eq_false_iff.mpr hspelled, Bool.false_or, ← ih]
          by_cases hlfn : DirEntry.isLFN (entryAt s i) = true
          · have hpieces : DirEntry.getLongName (entryAt s i) ++ piecesBefore s i = piecesTo s i := by
              cases i <;> simp [piecesBefore, piecesTo]
            have hspelled' : spelled name s (i + 1) = decide (piecesTo s i = name) := by simp [spelled, hlfn]
            have hbefore : piecesBefore s (i + 1) = piecesTo s i := if_pos hlfn
            simp [hlfn, hpieces, hspelled', hbefore]
          · by_cases hname : DirEntry.getName (entryAt s i) = name
            · simp [hlfn, hname]
            · simp [hlfn, hname, spelled, piecesBefore]

lemma lookIn_eq : lookIn name s = (List.range entriesPerSector).find? (looksNamed name s) := by
  rw [List.range_eq_range', ← findEntry_eq fun j hj => absurd hj (Nat.not_lt_zero j)]
  rfl

end Cluster

/-! ## Right lookups -/

/-- The slots of a directory, in order. -/
def slots (cs : List ℕ) : List Slot := cs.flatMap fun c => (List.range entriesPerSector).map fun i => (c, i)

namespace Volume

variable (v : Volume)

/-- The first slot that looks like that of a name. -/
def firstLooking (cs : List ℕ) (name : Name) : Option Slot :=
  (slots cs).find? fun p => looksNamed name (v.content p.1) p.2

end Volume

/-- A lookup returns the index of an entry of the name in the loaded cluster, or nothing exactly when there
is no such entry. -/
structure LookupRight (v : Volume) (cs : List ℕ) (name : Name) (r : Option ℕ) (s : Session) : Prop where
  loaded : ∀ id, r = some id → s.drive.buf = v.content s.ctx.activeCluster ∧
    v.HasName cs name (s.ctx.activeCluster, id)
  not_found : r = none ↔ ∀ p, ¬v.HasName cs name p

/-- `get_child_dir_entry_id` with a new `ctx` does what it should. -/
def GetChildRight (c : ℕ) (cs : List ℕ) (name : Name) (s : Session) : Prop :=
  ∃ r s', (getChildDirEntryId c name).run (s.setCtx {}) = .ok (r, s') ∧
    LookupRight s.drive.toVolume cs name r s'

/-- The first slot that looks like that of the name has it; and if there is none, no slot has it.  A name
that starts with a slash is not looked for. -/
def LooksRight (v : Volume) (cs : List ℕ) (name : Name) : Prop :=
  match if name.head? = some slash then none else v.firstLooking cs name with
  | some p => v.HasName cs name p
  | none => ∀ p, ¬v.HasName cs name p

section Right

variable {s : Session} {c : ℕ} {cs : List ℕ} {name : Name}

lemma stopAt_congr {α β : Type} {r : ℕ → Option α} {q : ℕ → Option β}
    (h : ∀ c, (r c).isSome = (q c).isSome) : ∀ {cs : List ℕ}, stopAt r cs = stopAt q cs
  | [] => rfl
  | [_] => rfl
  | c :: c' :: cs => by rw [stopAt, stopAt, h c, stopAt_congr h]

lemma firstLooking_findSome (v : Volume) : v.firstLooking cs name =
    cs.findSome? fun c => (lookIn name (v.content c)).map fun id => (c, id) := by
  rw [Volume.firstLooking, slots, List.find?_flatMap]
  congr 1
  funext c
  rw [List.find?_map, lookIn_eq]
  rfl

lemma firstLooking_eq (v : Volume) (hcs : cs ≠ []) : v.firstLooking cs name =
    (cs.findSome? fun c => lookIn name (v.content c)).map
      fun id => (stopAt (fun c => lookIn name (v.content c)) cs, id) := by
  rw [firstLooking_findSome, findSome?_eq_stopAt hcs, findSome?_eq_stopAt hcs,
    stopAt_congr (q := fun c => lookIn name (v.content c)) fun c => Option.isSome_map ..]

lemma lookupRight_iff {v : Volume} {found : Option ℕ} {s' : Session}
    (hbuf : s'.drive.buf = v.content s'.ctx.activeCluster) :
    LookupRight v cs name found s' ↔
      match found.map fun id => (s'.ctx.activeCluster, id) with
      | some p => v.HasName cs name p
      | none => ∀ p, ¬v.HasName cs name p := by
  cases found with
  | none => exact ⟨fun h => h.not_found.mp rfl, fun h => ⟨nofun, fun _ => h, fun _ => rfl⟩⟩
  | some id =>
    refine ⟨fun h => (h.loaded id rfl).2, fun h => ⟨?_, nofun, fun hnone => absurd h (hnone _)⟩⟩
    intro id' hid
    cases hid
    exact ⟨hbuf, h⟩

lemma getChildRight_iff (hw : WellFormed s.drive.toVolume) (hchain : s.drive.toVolume.Chain c cs) :
    GetChildRight c cs name s ↔ LooksRight s.drive.toVolume cs name := by
  obtain ⟨rest, hcs, -⟩ := hchain.cons
  by_cases hname : name.head? = some slash
  · have hrun : (getChildDirEntryId c name).run (s.setCtx {}) = .ok (none, s.setCtx {}) := by
      rw [getChildDirEntryId, if_pos hname]
      rfl
    rw [LooksRight, if_pos hname]
    constructor
    · rintro ⟨r, s', hrun', hright⟩
      rw [hrun] at hrun'
      cases hrun'
      exact hright.not_found.mp rfl
    · intro hnone
      exact ⟨none, s.setCtx {}, hrun, fun id hid => (by cases hid), fun _ => hnone, fun _ => rfl⟩
  · have hrun := getChildDirEntryId_ok (s := s.setCtx {}) hw hchain (Session.holds_new s) hname
    rw [LooksRight, if_neg hname, firstLooking_eq _ (by rw [hcs]; exact List.cons_ne_nil _ _)]
    have hiff : LookupRight s.drive.toVolume cs name (cs.findSome? fun c => lookIn name (s.drive.content c))
        ((s.setCtx {}).lookedUp name cs) ↔ _ := lookupRight_iff rfl
    constructor
    · rintro ⟨r, s', hrun', hright⟩
      rw [hrun] at hrun'
      cases hrun'
      exact hiff.mp hright
    · intro hlooks
      exact ⟨_, _, hrun, hiff.mpr hlooks⟩

lemma firstLooking_single {v : Volume} {data : Sector} (h : v.content c = data) :
    v.firstLooking [c] name = (lookIn name data).map fun id => (c, id) := by
  rw [firstLooking_eq v (List.cons_ne_nil c []), stopAt, List.findSome?_singleton, h]

lemma hasName_single {v : Volume} {data : Sector} {p : Slot} (h : v.content c = data) :
    v.HasName [c] name p ↔ (p, name) ∈ (nameEntries none (usedOf c data)).1 := by
  simp only [Volume.HasName, Volume.nameClusters, h, List.append_nil]

end Right

lemma plainVolume_wellFormed (b : UInt8) : WellFormed (plainVolume b) where
  bytesPerSector := rfl
  sectorsPerCluster := rfl
  reserved := show 0 < plainBoot.reservedSectorCount by decide
  tables := show 0 < plainBoot.tableCount by decide
  parts := show plainBoot.reservedSectorCount + plainBoot.tableCount * plainBoot.fatSize +
    plainBoot.rootDirSectors ≤ plainBoot.totalSectors by decide
  disk := le_rfl
  size := show 66581 < 4294967296 by decide
  table := show plainBoot.totalClusters + 2 ≤ 128 * plainBoot.fatSize by decide
  clusters := show plainBoot.totalClusters + 2 ≤ 0x0FFFFFF7 by decide
  reads := rfl

lemma plainVolume_tableEntry {c : ℕ} (hc : Valid (plainVolume 255) c) :
    (plainVolume 255).tableEntry c = clusterEoc := by
  have hfirst : (plainVolume 255).bs.firstDataSector = 1056 := by decide
  have hlt := ((plainVolume_wellFormed 255).placed hc).fatSector
  rw [hfirst] at hlt
  have hsector : (plainVolume 255).disk.sectors ((plainVolume 255).bs.fatSectorOf c) = fun _ => 255 :=
    funext fun _ => if_pos hlt
  rw [Volume.tableEntry, hsector]
  simp [leRead, clusterEoc]

lemma plainVolume_chain {c : ℕ} (hc : Valid (plainVolume 255) c) : (plainVolume 255).Chain c [c] := by
  refine ⟨⟨rfl, ?_⟩, ?_⟩
  · rw [linked_nil, Volume.next, plainVolume_tableEntry hc]
    rfl
  · intro x hx
    rwa [List.mem_singleton.mp hx]

/-- The root directory of such a volume, with an entry in it. -/
def oneEntry (e : DirEntry) : Volume := (plainVolume 255).setContent 2 (setEntry 0 e fun _ => 0)

/-- A call on a volume. -/
def Volume.session (v : Volume) : Session := { drive := { toVolume := v } }

section OneEntry

variable {e : DirEntry}

lemma two_valid : Valid (plainVolume 255) 2 := ⟨by decide, by decide⟩

lemma oneEntry_wellFormed : WellFormed (oneEntry e) := (plainVolume_wellFormed 255).setContent

lemma oneEntry_tableEntry {c : ℕ} (hc : Valid (plainVolume 255) c) :
    (oneEntry e).tableEntry c = clusterEoc := by
  rw [oneEntry, tableEntry_setContent (plainVolume_wellFormed 255).toLayout two_valid hc,
    plainVolume_tableEntry hc]

lemma oneEntry_chain {c : ℕ} (hc : Valid (plainVolume 255) c) : (oneEntry e).Chain c [c] :=
  (plainVolume_chain hc).setContent (plainVolume_wellFormed 255).toLayout two_valid

lemma oneEntry_content : (oneEntry e).content 2 = setEntry 0 e fun _ => 0 := content_setContent

end OneEntry

end FAT

end BrebOS
