import BrebOS.FileManagement.FAT
import BrebOS.Lib.Linked

/-!
# Volumes

What the driver takes for granted of a volume and its disk, and what the parts of a call then do:
`change_active_cluster` loads what is on the disk, as long as the buffers hold what `ctx` says, and a
loop along a chain meets the clusters of the chain.
-/

namespace BrebOS

namespace FAT

open Attempt

/-- A volume with one sector to a cluster, whose parts are where the boot sector says and on the disk, and
whose table has an entry for each cluster. -/
structure Layout (v : Volume) : Prop where
  bytesPerSector : v.bs.bytesPerSector = 512
  sectorsPerCluster : v.bs.sectorsPerCluster = 1
  reserved : 0 < v.bs.reservedSectorCount
  tables : 0 < v.bs.tableCount
  parts : v.bs.reservedSectorCount + v.bs.tableCount * v.bs.fatSize + v.bs.rootDirSectors ≤
    v.bs.totalSectors
  disk : v.bs.totalSectors ≤ v.disk.size
  size : v.disk.size < 4294967296
  table : v.bs.totalClusters + 2 ≤ 128 * v.bs.fatSize
  clusters : v.bs.totalClusters + 2 ≤ 0x0FFFFFF7

/-- Such a volume on a disk without errors. -/
structure WellFormed (v : Volume) : Prop extends Layout v where
  reads : v.disk.readErrors = fun _ => false

/-- A cluster of the volume. -/
def Valid (v : Volume) (c : ℕ) : Prop := 2 ≤ c ∧ c < v.bs.totalClusters + 2

namespace Volume

variable (v : Volume)

/-- The entry of a cluster in the table on the disk. -/
def tableEntry (c : ℕ) : ℕ :=
  leRead (v.disk.sectors (v.bs.fatSectorOf c)) (fatEntryOffsetOf c) 4 % 0x10000000

/-- The content of a cluster on the disk. -/
def content (c : ℕ) : Sector := v.disk.sectors (v.bs.firstSectorOfCluster c)

/-- The cluster after another one, if it is not the last. -/
def next (c : ℕ) : Option ℕ := if v.tableEntry c < clusterMinEoc then some (v.tableEntry c) else none

/-- The clusters of a chain, from the first one on. -/
def Chain (c : ℕ) (cs : List ℕ) : Prop := Linked v.next (some c) cs ∧ ∀ x ∈ cs, Valid v x

end Volume

section Geometry

variable {v : Volume} {c c' : ℕ}

lemma Layout.firstDataSector (h : Layout v) : v.bs.firstDataSector =
    v.bs.reservedSectorCount + v.bs.tableCount * v.bs.fatSize + v.bs.rootDirSectors := by
  have := h.parts
  have := h.disk
  have := h.size
  exact u32_of_lt (by omega)

lemma Layout.totalSectors (h : Layout v) :
    v.bs.firstDataSector + v.bs.totalClusters = v.bs.totalSectors := by
  have hfirst := h.firstDataSector
  have hparts := h.parts
  have hdisk := h.disk
  have hsize := h.size
  rw [BootSector.totalClusters, h.sectorsPerCluster, Nat.div_one, BootSector.dataSectors,
    u32Sub_of_le (by omega) (by omega)]
  omega

lemma Layout.table_le (h : Layout v) :
    v.bs.firstFatSector + v.bs.fatSize ≤ v.bs.firstDataSector := by
  have hmul : 1 * v.bs.fatSize ≤ v.bs.tableCount * v.bs.fatSize := Nat.mul_le_mul_right _ h.tables
  rw [h.firstDataSector, BootSector.firstFatSector]
  omega

lemma Layout.firstSectorOfCluster (h : Layout v) (hc : Valid v c) :
    v.bs.firstSectorOfCluster c = v.bs.firstDataSector + (c - 2) := by
  have htotal := h.totalSectors
  have hdisk := h.disk
  have hsize := h.size
  have hfew := h.clusters
  obtain ⟨hlow, hhigh⟩ := hc
  rw [BootSector.firstSectorOfCluster, h.sectorsPerCluster, Nat.mul_one,
    u32Sub_of_le hlow (by omega), u32_of_lt (by omega)]
  omega

lemma Layout.fatSectorOf (h : Layout v) (hc : c < 0x10000000) (hfat : c < 128 * v.bs.fatSize) :
    v.bs.fatSectorOf c = v.bs.firstFatSector + c / 128 := by
  have htable := h.table_le
  have htotal := h.totalSectors
  have hdisk := h.disk
  have hsize := h.size
  have hmul : c * 4 / sectorSize = c / 128 := by
    show c * 4 / 512 = c / 128
    omega
  rw [BootSector.fatSectorOf, u32_of_lt (show c * 4 < 4294967296 by omega), hmul, u32_of_lt]
  omega

lemma fatEntryOffsetOf_eq (hc : c < 0x10000000) : fatEntryOffsetOf c = 4 * (c % 128) := by
  rw [fatEntryOffsetOf, u32_of_lt (show c * 4 < 4294967296 by omega)]
  show c * 4 % 512 = 4 * (c % 128)
  omega

/-- A cluster of the volume and its entry are on the disk, the one behind the table and the other in it. -/
structure Placed (v : Volume) (c : ℕ) : Prop where
  sector : v.bs.firstSectorOfCluster c < v.disk.size
  behind : v.bs.firstDataSector ≤ v.bs.firstSectorOfCluster c
  fatSector : v.bs.fatSectorOf c < v.bs.firstDataSector
  fat_ne_zero : v.bs.fatSectorOf c ≠ 0
  ne_zero : c ≠ 0

lemma Layout.placed (h : Layout v) (hc : Valid v c) : Placed v c := by
  have htable := h.table_le
  have hentries := h.table
  have htotal := h.totalSectors
  have hdisk := h.disk
  have hsize := h.size
  have hfew := h.clusters
  have hreserved := h.reserved
  have hfat := h.fatSectorOf (c := c) (by have := hc.2; omega) (by have := hc.2; omega)
  have hsector := h.firstSectorOfCluster hc
  obtain ⟨hlow, hhigh⟩ := hc
  have hfirst : v.bs.firstFatSector = v.bs.reservedSectorCount := rfl
  constructor <;> omega

/-- The sectors of a cluster number and of its entry are on the disk. -/
def OnDisk (v : Volume) (c : ℕ) : Prop :=
  u32 (v.bs.firstSectorOfCluster c + 1) ≤ v.disk.size ∧ u32 (v.bs.fatSectorOf c + 1) ≤ v.disk.size

lemma Layout.onDisk (h : Layout v) (hc : Valid v c) : OnDisk v c := by
  have hp := h.placed hc
  have hsize := h.size
  have hsector := hp.sector
  have hfat := lt_of_lt_of_le hp.fatSector (le_trans hp.behind hp.sector.le)
  rw [OnDisk, u32_of_lt (by omega), u32_of_lt (by omega)]
  exact ⟨hsector, hfat⟩

lemma Layout.firstSectorOfCluster_inj (h : Layout v) (hc : Valid v c) (hc' : Valid v c')
    (heq : v.bs.firstSectorOfCluster c = v.bs.firstSectorOfCluster c') : c = c' := by
  rw [h.firstSectorOfCluster hc, h.firstSectorOfCluster hc'] at heq
  obtain ⟨hlow, -⟩ := hc
  obtain ⟨hlow', -⟩ := hc'
  omega

end Geometry

/-! ## Looking at clusters -/

lemma Disk.read_onDisk {d : Disk} {lba : ℕ} (hreads : d.readErrors = fun _ => false)
    (hlba : u32 (lba + 1) ≤ d.size) : d.read lba = (some (d.sectors lba), d) := by
  have hrest : { d with readErrors := fun n => d.readErrors (n + 1) } = d := by
    cases d
    simp only at hreads
    simp [hreads]
  rw [Disk.read, if_neg (by omega), hrest, if_neg (by simp [hreads])]

lemma Disk.read_offDisk {d : Disk} {lba : ℕ} (hlba : ¬u32 (lba + 1) ≤ d.size) : d.read lba = (none, d) :=
  if_pos (by omega)

lemma Disk.write_ok {d : Disk} {lba : ℕ} (hlba : lba < d.size) (hsize : d.size < 4294967296) (s : Sector) :
    d.write lba s = (true, { d with sectors := Function.update d.sectors lba s }) := by
  rw [Disk.write, u32_of_lt (by omega), if_neg (by omega)]

namespace Session

/-- The buffers hold what `ctx` says. -/
structure Holds (s : Session) : Prop where
  table : s.ctx.fatSector ≠ 0 → s.drive.table = s.drive.disk.sectors s.ctx.fatSector
  buf : s.ctx.activeCluster ≠ 0 → s.ctx.bufferUpdated = false →
    s.drive.buf = s.drive.content s.ctx.activeCluster ∧
      s.ctx.activeSector = s.drive.bs.firstSectorOfCluster s.ctx.activeCluster

/-- The entry of a cluster was looked up. -/
def lookAt (c : ℕ) (s : Session) : Session :=
  { s with
    drive := { s.drive with table := s.drive.disk.sectors (s.drive.bs.fatSectorOf c) }
    ctx := { s.ctx with
      fatSector := s.drive.bs.fatSectorOf c
      fatEntryOffset := fatEntryOffsetOf c
      tableValue := s.drive.tableEntry c
      dirEntryId := 0 } }

/-- A cluster was loaded to `buf`. -/
def goto (c : ℕ) (s : Session) : Session :=
  { s with
    drive := { s.drive with
      buf := s.drive.content c
      table := s.drive.disk.sectors (s.drive.bs.fatSectorOf c) }
    ctx := {
      activeCluster := c
      activeSector := s.drive.bs.firstSectorOfCluster c
      fatSector := s.drive.bs.fatSectorOf c
      fatEntryOffset := fatEntryOffsetOf c
      tableValue := s.drive.tableEntry c } }

/-- A cluster was loaded to `buf`, and the loop over its entries stopped at one. -/
def gotoEntry (c id : ℕ) (s : Session) : Session :=
  (s.goto c).setCtx { (s.goto c).ctx with dirEntryId := id }

@[simp] lemma goto_disk (c : ℕ) (s : Session) : (s.goto c).drive.disk = s.drive.disk := rfl

@[simp] lemma goto_bs (c : ℕ) (s : Session) : (s.goto c).drive.bs = s.drive.bs := rfl

@[simp] lemma goto_buf (c : ℕ) (s : Session) : (s.goto c).drive.buf = s.drive.content c := rfl

@[simp] lemma goto_user (c : ℕ) (s : Session) : (s.goto c).user = s.user := rfl

@[simp] lemma goto_inodeSize (c : ℕ) (s : Session) : (s.goto c).inodeSize = s.inodeSize := rfl

@[simp] lemma goto_goto (c c' : ℕ) (s : Session) : (s.goto c).goto c' = s.goto c' := rfl

lemma holds_new (s : Session) : Holds (s.setCtx {}) := ⟨fun h => absurd rfl h, fun h => absurd rfl h⟩

lemma holds_goto (c : ℕ) (s : Session) : Holds (s.goto c) := ⟨fun _ => rfl, fun _ _ => ⟨rfl, rfl⟩⟩

lemma holds_gotoEntry (c id : ℕ) (s : Session) : Holds (s.gotoEntry c id) :=
  ⟨fun _ => rfl, fun _ _ => ⟨rfl, rfl⟩⟩

end Session

section Loading

variable {s : Session} {c : ℕ}

lemma readSectors_run {lba : ℕ} : (readSectors lba).run s =
    .ok ((s.drive.disk.read lba).1, s.setDisk (s.drive.disk.read lba).2) := rfl

lemma readSectors_onDisk {lba : ℕ} (hreads : s.drive.disk.readErrors = fun _ => false)
    (hlba : u32 (lba + 1) ≤ s.drive.disk.size) :
    (readSectors lba).run s = .ok (some (s.drive.disk.sectors lba), s) := by
  rw [readSectors_run, Disk.read_onDisk hreads hlba]
  rfl

lemma readSectors_offDisk {lba : ℕ} (hlba : ¬u32 (lba + 1) ≤ s.drive.disk.size) :
    (readSectors lba).run s = .ok (none, s) := by
  rw [readSectors_run, Disk.read_offDisk hlba]
  rfl

lemma readTableEntry_ok (hreads : s.drive.disk.readErrors = fun _ => false)
    (hfat : u32 (s.drive.bs.fatSectorOf c + 1) ≤ s.drive.disk.size)
    (htable : s.drive.bs.fatSectorOf c = s.ctx.fatSector →
      s.drive.table = s.drive.disk.sectors s.ctx.fatSector) :
    (readTableEntry c).run s = .ok (some (), s.lookAt c) := by
  by_cases hsame : s.drive.bs.fatSectorOf c = s.ctx.fatSector
  · have hbuf := htable hsame
    simp only [readTableEntry, state_bind, update_bind, hsame, ne_eq, not_true_eq_false, if_false,
      update_run]
    simp only [Session.lookAt, Volume.tableEntry, hsame, ← hbuf]
    rfl
  · simp only [readTableEntry, state_bind, update_bind, hsame, ne_eq, not_false_eq_true, if_true]
    exact (bind_run (readSectors_onDisk (by exact hreads) (by exact hfat))).trans rfl

lemma readTableEntry_offDisk (hfat : ¬u32 (s.drive.bs.fatSectorOf c + 1) ≤ s.drive.disk.size)
    (hother : s.drive.bs.fatSectorOf c ≠ s.ctx.fatSector) :
    ∃ s', (readTableEntry c).run s = .ok (none, s') ∧ s'.drive.toVolume = s.drive.toVolume := by
  simp only [readTableEntry, state_bind, update_bind, hother, ne_eq, not_false_eq_true, if_true]
  exact ⟨_, bind_giveUp (readSectors_offDisk (by exact hfat)), rfl⟩

lemma changeActiveCluster_read (hreads : s.drive.disk.readErrors = fun _ => false)
    (hc : OnDisk s.drive.toVolume c) (hload : s.ctx.activeCluster ≠ c ∨ s.ctx.bufferUpdated)
    (htable : s.drive.bs.fatSectorOf c = s.ctx.fatSector →
      s.drive.table = s.drive.disk.sectors s.ctx.fatSector) :
    (changeActiveCluster c (some .buf)).run s = .ok (some (), s.goto c) := by
  unfold changeActiveCluster
  rw [state_bind]
  dsimp only
  rw [if_pos hload, update_bind]
  refine (bind_run (readSectors_onDisk ?_ ?_)).trans ?_
  · exact hreads
  · exact hc.1
  · unfold store
    rw [update_bind, update_bind]
    exact readTableEntry_ok hreads hc.2 htable

lemma changeActiveCluster_buf (hw : WellFormed s.drive.toVolume) (hc : Valid s.drive.toVolume c)
    (hs : s.Holds) : (changeActiveCluster c (some .buf)).run s = .ok (some (), s.goto c) := by
  have hp := hw.placed hc
  have htable : s.drive.bs.fatSectorOf c = s.ctx.fatSector →
      s.drive.table = s.drive.disk.sectors s.ctx.fatSector := fun heq => hs.table (heq ▸ hp.fat_ne_zero)
  by_cases hload : s.ctx.activeCluster ≠ c ∨ s.ctx.bufferUpdated
  · exact changeActiveCluster_read hw.reads (hw.onDisk hc) hload htable
  · -- the cluster is there already
    obtain ⟨rfl, hupdated⟩ : s.ctx.activeCluster = c ∧ s.ctx.bufferUpdated = false := by
      simpa using hload
    obtain ⟨hbuf, hsector⟩ := hs.buf hp.ne_zero hupdated
    unfold changeActiveCluster
    rw [state_bind]
    dsimp only
    rw [if_neg hload, readTableEntry_ok hw.reads (hw.onDisk hc).2 htable]
    simp only [Session.lookAt, Session.goto, ← hbuf, ← hsector, hupdated]

end Loading

/-! ## Chains -/

namespace Volume

variable {v : Volume} {c : ℕ} {cs : List ℕ}

lemma Chain.cons (h : v.Chain c cs) : ∃ rest, cs = c :: rest ∧ Valid v c ∧
    (rest = [] ∧ clusterMinEoc ≤ v.tableEntry c ∨
      v.tableEntry c < clusterMinEoc ∧ v.Chain (v.tableEntry c) rest) := by
  obtain ⟨hlinked, hvalid⟩ := h
  obtain ⟨rest, rfl, hrest⟩ := hlinked.eq_cons
  refine ⟨rest, rfl, hvalid c (by simp), ?_⟩
  by_cases hlast : v.tableEntry c < clusterMinEoc
  · rw [Volume.next, if_pos hlast] at hrest
    exact Or.inr ⟨hlast, hrest, fun x hx => hvalid x (by simp [hx])⟩
  · rw [Volume.next, if_neg hlast] at hrest
    exact Or.inl ⟨hrest.eq_nil, by omega⟩

lemma Chain.length_lt (hv : Layout v) (h : v.Chain c cs) : cs.length < chainFuel := by
  have hsub : cs.toFinset ⊆ Finset.range 0x0FFFFFF7 := by
    intro x hx
    have hx := h.2 x (List.mem_toFinset.mp hx)
    have := hv.clusters
    exact Finset.mem_range.mpr (by have := hx.2; omega)
  have hcard := Finset.card_le_card hsub
  rw [List.toFinset_card_of_nodup h.1.nodup, Finset.card_range] at hcard
  unfold chainFuel clusterMinEoc
  omega

end Volume

section Walking

variable {α : Type} {v : Volume} {s : Session} {c : ℕ} {cs : List ℕ}

/-- The body of a loop along a chain that loads the cluster and looks at its entries. -/
def LooksAt (v : Volume) (body : ℕ → Act (Option α)) (r : ℕ → Option α) (id : ℕ → ℕ) : Prop :=
  ∀ s c, s.drive.toVolume = v → s.Holds → Valid v c → (body c).run s = .ok (some (r c), s.gotoEntry c (id c))

/-- Where such a loop stops: at the first cluster with a result, or at the last one. -/
def stopAt (r : ℕ → Option α) : List ℕ → ℕ
  | [] => 0
  | [c] => c
  | c :: c' :: cs => if (r c).isSome then c else stopAt r (c' :: cs)

lemma alongChain_ok {body : ℕ → Act (Option α)} {r : ℕ → Option α} {id : ℕ → ℕ}
    (hbody : LooksAt v body r id) : ∀ {cs : List ℕ} {fuel c : ℕ} {s : Session}, v.Chain c cs →
      cs.length ≤ fuel → s.drive.toVolume = v → s.Holds →
      (alongChain body fuel c).run s =
        .ok (some (cs.findSome? r), s.gotoEntry (stopAt r cs) (id (stopAt r cs)))
  | cs, 0, c, s, hchain, hfuel, _, _ => by
      obtain ⟨rest, rfl, -⟩ := hchain.cons
      simp at hfuel
  | cs, fuel + 1, c, s, hchain, hfuel, hv, hs => by
      obtain ⟨rest, rfl, hvalid, hrest⟩ := hchain.cons
      rw [alongChain, bind_run (hbody s c hv hs hvalid), List.findSome?_cons]
      have hvalue : (s.gotoEntry c (id c)).ctx.tableValue = v.tableEntry c := by
        subst hv
        rfl
      rcases hr : r c with _ | a
      · simp only [state_bind, hvalue, ite_run]
        rcases hrest with ⟨rfl, hlast⟩ | ⟨hlt, hrest⟩
        · rw [if_neg (by omega)]
          rfl
        · rw [if_pos hlt, alongChain_ok hbody hrest (by simpa using hfuel) (by subst hv; rfl)
            (Session.holds_gotoEntry ..)]
          obtain ⟨rest', rfl, -⟩ := hrest.cons
          simp only [stopAt, hr]
          rfl
      · rcases rest with _ | ⟨c', rest⟩
        · rfl
        · simp only [stopAt, hr]
          rfl

end Walking

end FAT

end BrebOS
