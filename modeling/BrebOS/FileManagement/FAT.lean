import BrebOS.FileManagement.VFS.Paths
import BrebOS.Lib.Attempt
import BrebOS.Lib.Bytes

/-!
# The FAT32 driver

`file_management/FAT.cpp` over the sectors of an ATA disk.  A drive has two buffers of a sector each, one
for directories and data (`buf`) and one for the file allocation table (`FAT`); a call has a `ctx` that
says which cluster and which sector of the table it last looked at.  Sectors are bytes, and are read as
directory entries, as entries of the table or as data, as the driver does.

A call that returns null or `false` leaves what it did before.  A chain of clusters that comes back to
itself is followed for ever.
-/

namespace BrebOS

namespace FAT

/-! ## Sectors -/

/-- The bytes of a sector. -/
abbrev Sector := ℕ → UInt8

/-- `ATA_SECTOR_SIZE`. -/
def sectorSize : ℕ := 512

/-- The ATA disk: its sectors, how many there are, and which of the reads to come fail. -/
structure Disk where
  sectors : ℕ → Sector
  size : ℕ
  readErrors : ℕ → Bool := fun _ => false

namespace Disk

/-- `ATA::read_sectors` of one sector. -/
def read (lba : ℕ) (d : Disk) : Option Sector × Disk :=
  if d.size < u32 (lba + 1) then (none, d)
  else
    let rest := { d with readErrors := fun n => d.readErrors (n + 1) }
    if d.readErrors 0 then (none, rest) else (some (d.sectors lba), rest)

/-- `ATA::write_sectors` of one sector.  It does not look for errors of the disk. -/
def write (lba : ℕ) (s : Sector) (d : Disk) : Bool × Disk :=
  if d.size < u32 (lba + 1) then (false, d)
  else (true, { d with sectors := Function.update d.sectors lba s })

end Disk

/-! ## Directory entries -/

/-- The 32 bytes of a `DirEntry`, which are also those of a `LongDirEntry`. -/
abbrev DirEntry := ℕ → UInt8

/-- `sizeof(DirEntry)`. -/
def entrySize : ℕ := 32

/-- `entries[i]`. -/
def entryAt (s : Sector) (i : ℕ) : DirEntry := fun k => s (32 * i + k)

/-- `memcpy(&entries[i], &e, sizeof(DirEntry))`. -/
def setEntry (i : ℕ) (e : DirEntry) (s : Sector) : Sector := splice (32 * i) 32 e s

/-- `READONLY | HIDDEN | SYSTEM | VolumeID`. -/
def lfn : UInt8 := 0x0F

/-- `DIRECTORY`. -/
def directory : UInt8 := 0x10

/-- `NAME_PADDING_BYTE`. -/
def namePaddingByte : UInt8 := 0x20

namespace DirEntry

variable (e : DirEntry)

def attrs : UInt8 := e 11

def firstClusterHigh : ℕ := leRead e 20 2

def firstClusterLow : ℕ := leRead e 26 2

def fileSize : ℕ := leRead e 28 4

/-- `first_cluster_addr`. -/
def firstClusterAddr : ℕ := firstClusterHigh e * 65536 + firstClusterLow e

def isDirectory : Bool := attrs e &&& directory ≠ 0

/-- `is_free`. -/
def isFree : Bool := e 0 = 0

/-- `is_unused`: the entry was deleted. -/
def isUnused : Bool := e 0 = 0xE5

def isLFN : Bool := attrs e &&& lfn ≠ 0

def setFileSize (size : ℕ) : DirEntry := leWrite 28 4 size e

/-- `first_cluster_high` and `first_cluster_low`. -/
def setFirstCluster (cluster : ℕ) : DirEntry :=
  leWrite 26 2 (cluster % 65536) (leWrite 20 2 (cluster / 65536) e)

end DirEntry

/-- A letter of a name, in lower case. -/
def lowerByte (c : UInt8) : UInt8 := if 65 ≤ c ∧ c ≤ 90 then c + 32 else c

/-- The characters of a name up to the padding. -/
def unpadded (l : List UInt8) : List UInt8 := l.takeWhile (· ≠ namePaddingByte)

/-- `DirEntry::get_name`. -/
def DirEntry.getName (e : DirEntry) : Name :=
  let base := unpadded ((List.range 8).map e)
  let dot : List UInt8 := if !DirEntry.isDirectory e ∧ e 8 ≠ namePaddingByte then [46] else []
  let extension := unpadded ((List.range' 8 3).map e)
  cString ((base ++ dot ++ extension).map lowerByte)

/-- `utf16_to_utf8_cautionless_cast` of `n` characters at an index, as the string it holds. -/
def utf16ToUtf8 (e : DirEntry) (i n : ℕ) : Name := cString ((List.range n).map fun k => e (i + 2 * k))

/-- `LongDirEntry::get_uglily_converted_utf8_name`. -/
def DirEntry.getLongName (e : DirEntry) : Name :=
  let n1 := utf16ToUtf8 e 1 5
  let n2 := utf16ToUtf8 e 14 6
  let n3 := utf16ToUtf8 e 28 2
  if n1.length < 5 then n1 else if n2.length < 6 then n1 ++ n2 else n1 ++ n2 ++ n3

/-- The name of the entry, of whichever kind it is. -/
def DirEntry.entryName (e : DirEntry) : Name :=
  if DirEntry.isLFN e then DirEntry.getLongName e else DirEntry.getName e

/-- `for (; i < DIR_ENTRY_NAME_LEN && name[i] != '.'; i--)`: where the loop finds the dot, if there is one, and
the name field, filled from its end. -/
def extensionLoop (name : Name) : ℕ → (ℕ → UInt8) → Option ℕ × (ℕ → UInt8)
  | 0, field => (none, field)
  | i + 1, field =>
      if name[i]? = some 46 then (some i, field)
      else extensionLoop name i
        (Function.update field (10 - (name.length - 1 - i)) (name.getD i 0))

/-- The name field that `DirEntry::DirEntry` makes. -/
def nameField (name : Name) (attrs : UInt8) : ℕ → UInt8 :=
  -- the field is zeroed, and then ten of its bytes are padded
  let field : ℕ → UInt8 := fun k => if k < 10 then namePaddingByte else 0
  if attrs &&& directory ≠ 0 then splice 0 (name.length + 1) (fun k => name.getD k 0) field
  else
    match extensionLoop name name.length field with
    | (some i, field) => splice 0 i (fun k => name.getD k 0) field
    | (none, _) => splice 0 name.length (fun k => name.getD k 0) fun _ => namePaddingByte

/-- The error of `DirEntry::DirEntry`. -/
def tooLong : Fault := .irrecoverableError
  "DirEntry: file name too long, requires LFN support. Max supported length is 8"

/-- `DirEntry::DirEntry` of a name of at most 8 characters. -/
def newEntry (name : Name) (attrs : UInt8) (firstClusterAddr fileSize : ℕ) : DirEntry := fun k =>
  if k < 11 then nameField name attrs k
  else if k = 11 then attrs
  -- the times and dates are all -1
  else if k = 12 then 0
  else if k < 20 then 255
  else if k < 22 then leBytes (firstClusterAddr / 65536) (k - 20)
  else if k < 26 then 255
  else if k < 28 then leBytes (firstClusterAddr % 65536) (k - 26)
  else leBytes fileSize (k - 28)

/-! ## A drive -/

/-- `fat_BS_t` and `fat_extBS_32_t`: what the boot sector says about the volume. -/
structure BootSector where
  bytesPerSector : ℕ := 512
  sectorsPerCluster : ℕ := 1
  reservedSectorCount : ℕ
  tableCount : ℕ
  rootEntryCount : ℕ := 0
  totalSectors16 : ℕ := 0
  totalSectors32 : ℕ
  tableSize16 : ℕ := 0
  tableSize32 : ℕ
  rootCluster : ℕ

namespace BootSector

variable (bs : BootSector)

def totalSectors : ℕ := if bs.totalSectors16 = 0 then bs.totalSectors32 else bs.totalSectors16

def fatSize : ℕ := if bs.tableSize16 = 0 then bs.tableSize32 else bs.tableSize16

def rootDirSectors : ℕ := (bs.rootEntryCount * 32 + (bs.bytesPerSector - 1)) / bs.bytesPerSector

def firstDataSector : ℕ := u32 (bs.reservedSectorCount + bs.tableCount * bs.fatSize + bs.rootDirSectors)

def firstFatSector : ℕ := bs.reservedSectorCount

def dataSectors : ℕ := u32Sub bs.totalSectors bs.firstDataSector

def totalClusters : ℕ := bs.dataSectors / bs.sectorsPerCluster

/-- `FIRST_SECTOR_OF_CLUSTER`. -/
@[irreducible]
def firstSectorOfCluster (cluster : ℕ) : ℕ :=
  u32 (u32Sub cluster 2 * bs.sectorsPerCluster + bs.firstDataSector)

/-- The sector of the table with the entry of a cluster. -/
@[irreducible]
def fatSectorOf (cluster : ℕ) : ℕ := u32 (bs.firstFatSector + u32 (cluster * 4) / sectorSize)

end BootSector

/-- Where the entry of a cluster is in its sector of the table. -/
def fatEntryOffsetOf (cluster : ℕ) : ℕ := u32 (cluster * 4) % sectorSize

/-- `CLUSTER_EOC`. -/
def clusterEoc : ℕ := 0x0FFFFFFF

/-- `CLUSTER_MIN_EOC`. -/
def clusterMinEoc : ℕ := 0x0FFFFFF8

/-- A disk and what its boot sector says. -/
structure Volume where
  bs : BootSector
  disk : Disk

/-- `FAT_drive`: a volume, and the buffers `buf` and `FAT`. -/
structure Drive extends Volume where
  buf : Sector := fun _ => 0
  table : Sector := fun _ => 0

/-- `ctx`. -/
structure Ctx where
  activeCluster : ℕ := 0
  activeSector : ℕ := 0
  fatSector : ℕ := 0
  fatEntryOffset : ℕ := 0
  tableValue : ℕ := 0
  dirEntryId : ℕ := 0
  bufferUpdated : Bool := false
  deriving DecidableEq, Repr

/-- What a call works on: the drive, its `ctx`, the buffer of the caller, and the size in the inode of the
file. -/
structure Session where
  drive : Drive
  ctx : Ctx := {}
  user : List UInt8 := []
  inodeSize : ℕ := 0

/-- How a call can end without returning. -/
inductive NoReturn
  | fault (f : Fault)
  /-- A loop that does not end. -/
  | endless
  deriving DecidableEq, Repr

/-- A call, or a part of it; it gives up where the driver returns null or `false`. -/
abbrev Act (α : Type) := Attempt NoReturn Session α

namespace Session

def setCtx (ctx : Ctx) (s : Session) : Session := { s with ctx }

def setBuf (buf : Sector) (s : Session) : Session := { s with drive := { s.drive with buf } }

def setTable (table : Sector) (s : Session) : Session := { s with drive := { s.drive with table } }

def setDisk (disk : Disk) (s : Session) : Session := { s with drive := { s.drive with disk } }

end Session

open Attempt

/-- `ATA::read_sectors`; an error ends the call. -/
def readSectors (lba : ℕ) : Act Sector := ⟨fun s =>
  let (data, disk) := s.drive.disk.read lba
  .ok (data, s.setDisk disk)⟩

/-- Where the content of a cluster goes: into `buf`, or into the buffer of the caller from an index on. -/
inductive Target
  | buf
  | user (at_ : ℕ)

/-- What `ATA::read_sectors` does to the memory it is given. -/
def store (data : Sector) : Target → Act Unit
  | .buf => update (Session.setBuf data)
  | .user i => check fun s =>
      match pokes Fault.outOfBounds i ((List.range sectorSize).map data) s.user with
      | .ok user => .ok { s with user }
      | .error e => .error (.fault e)

/-- The part of `change_active_cluster` that looks at the table. -/
def readTableEntry (cluster : ℕ) : Act Unit := do
  let s ← state
  update fun s => s.setCtx { s.ctx with fatEntryOffset := fatEntryOffsetOf cluster }
  if s.drive.bs.fatSectorOf cluster ≠ s.ctx.fatSector then do
    update fun s => s.setCtx { s.ctx with fatSector := s.drive.bs.fatSectorOf cluster }
    let data ← readSectors (s.drive.bs.fatSectorOf cluster)
    update (Session.setTable data)
  update fun s => s.setCtx
    { s.ctx with
      tableValue := leRead s.drive.table s.ctx.fatEntryOffset 4 % 0x10000000, dirEntryId := 0 }

/-- `FAT_drive::change_active_cluster`, with or without a buffer. -/
def changeActiveCluster (cluster : ℕ) (buffer : Option Target) : Act Unit := do
  let s ← state
  match buffer with
  | none =>
    update fun s => s.setCtx
      { s.ctx with bufferUpdated := s.ctx.activeCluster ≠ cluster, activeCluster := cluster }
  | some target =>
    if s.ctx.activeCluster ≠ cluster ∨ s.ctx.bufferUpdated then do
      update fun s => s.setCtx
        { s.ctx with
          activeCluster := cluster, activeSector := s.drive.bs.firstSectorOfCluster cluster }
      let data ← readSectors (s.drive.bs.firstSectorOfCluster cluster)
      store data target
      update fun s => s.setCtx { s.ctx with bufferUpdated := false }
  readTableEntry cluster

/-- `FAT_drive::write_fat`. -/
def writeFat : Act Unit := ⟨fun s =>
  let (ok, disk) := s.drive.disk.write s.ctx.fatSector s.drive.table
  .ok (if ok then some () else none, s.setDisk disk)⟩

/-- `FAT_drive::write_data_sectors` of one sector, from `buf` or from another buffer. -/
def writeDataSectors (lba : ℕ) (data : Sector) (isBuf : Bool) : Act Unit := do
  let s ← state
  let (ok, disk) := s.drive.disk.write lba data
  update (Session.setDisk disk)
  if ok then update fun s => s.setCtx { s.ctx with bufferUpdated := !isBuf } else giveUp

/-- Set the entry of the active cluster, in the buffer and on the disk. -/
def setTableEntry (value : ℕ) : Act Unit := do
  update fun s => s.setTable (leWrite s.ctx.fatEntryOffset 4 value s.drive.table)
  update fun s => s.setCtx { s.ctx with tableValue := value }
  writeFat

/-- `do { … } while (curr_cluster < CLUSTER_MIN_EOC)`, until the body has a result.  There are fewer
clusters than that to be met before one comes again. -/
def alongChain {α : Type} (body : ℕ → Act (Option α)) : ℕ → ℕ → Act (Option α)
  | 0, _ => stop .endless
  | fuel + 1, cluster => do
      match ← body cluster with
      | some a => pure (some a)
      | none => do
        let s ← state
        if s.ctx.tableValue < clusterMinEoc then alongChain body fuel s.ctx.tableValue else pure none

/-- A bound for the length of a chain. -/
def chainFuel : ℕ := clusterMinEoc + 1

/-! ## Looking up a name -/

/-- `get_child_dir_entry_id` in the entries of a cluster: whether it finds the name, and where it stops.
`n` entries are left. -/
def findEntry (name : Name) (s : Sector) : ℕ → ℕ → Bool → Name → Bool × ℕ
  | 0, id, _, _ => (false, id)
  | n + 1, id, foundInLfn, wholeName =>
      let e := entryAt s id
      if DirEntry.isFree e then (false, id)
      -- the name matched before, in an entry that refers to this one
      else if foundInLfn then (true, id)
      else
        let isLfn := DirEntry.isLFN e
        let wholeName := if isLfn then DirEntry.getLongName e ++ wholeName else DirEntry.getName e
        let isMatch := wholeName = name
        if isMatch ∧ !isLfn then (true, id)
        else findEntry name s n (id + 1) (isMatch && isLfn) (if isLfn then wholeName else [])

/-- The number of entries in a sector. -/
def entriesPerSector : ℕ := sectorSize / entrySize

/-- `FAT_drive::get_child_dir_entry_id`; it gives up where the driver returns `ENTRY_NOT_FOUND`. -/
def getChildDirEntryId (parentLba : ℕ) (name : Name) : Act ℕ :=
  if name.head? = some slash then giveUp
  else do
    let s ← state
    let found ← alongChain (fun cluster => do
      changeActiveCluster cluster (some .buf)
      let s ← state
      let (found, id) := findEntry name s.drive.buf entriesPerSector 0 false []
      update fun s => s.setCtx { s.ctx with dirEntryId := id }
      pure (if found then some id else none)) chainFuel
        (u32 (parentLba * s.drive.bs.sectorsPerCluster))
    match found with
    | some id => pure id
    | none => giveUp

/-- A part of a call that has a `ctx` of its own. -/
def withCtx {α : Type} (x : Act α) : Act α := ⟨fun s => do
  let (r, s') ← x.run (s.setCtx {})
  .ok (r, s'.setCtx s.ctx)⟩

/-- `entries[id]`. -/
def entry (id : ℕ) : Act DirEntry := do
  let s ← state
  pure (entryAt s.drive.buf id)

/-- `FAT_drive::dir_entry_to_dentry`, with the number of blocks. -/
def dirEntryToDentry (e : DirEntry) : Act (EntryData × ℕ) :=
  if !DirEntry.isDirectory e then
    pure (⟨.file, DirEntry.firstClusterAddr e, DirEntry.fileSize e⟩, u32 (DirEntry.fileSize e + 511) / 512)
  else withCtx do
    let s ← state
    let blocks ← countBlocks chainFuel 0
      (u32 (DirEntry.firstClusterAddr e * s.drive.bs.sectorsPerCluster))
    pure (⟨.dir, DirEntry.firstClusterAddr e, DirEntry.fileSize e⟩, blocks)
where
  countBlocks : ℕ → ℕ → ℕ → Act ℕ
    | 0, _, _ => stop .endless
    | fuel + 1, blocks, cluster => do
        changeActiveCluster cluster none
        let s ← state
        if s.ctx.tableValue < clusterMinEoc then countBlocks fuel (blocks + 1) s.ctx.tableValue
        else pure (blocks + 1)

/-- `FAT_drive::get_child_dentry`. -/
def getChildDentry (parentLba : ℕ) (name : Name) : Act (EntryData × ℕ) := do
  let id ← withCtx (getChildDirEntryId parentLba name)
  let e ← entry id
  dirEntryToDentry e

/-- `FAT_drive::ls`: what is printed. -/
def ls (lba : ℕ) : Act (List (Name × EntryData)) := withCtx do
  let s ← state
  list chainFuel [] (u32 (lba * s.drive.bs.sectorsPerCluster))
where
  /-- The loop over the entries of a cluster, of which `n` are left. -/
  listCluster : ℕ → List (Name × EntryData) → Name → Act (List (Name × EntryData))
    | 0, shown, _ => pure shown
    | n + 1, shown, prevLfn => do
        let s ← state
        let e := entryAt s.drive.buf s.ctx.dirEntryId
        if DirEntry.isFree e then pure shown
        else do
          let (shown, prevLfn) ←
            if DirEntry.isLFN e then pure (shown, DirEntry.getLongName e ++ prevLfn)
            else do
              let name := if prevLfn ≠ [] then prevLfn else DirEntry.getName e
              let (dentry, _) ← orStop (.fault .outOfBounds) (dirEntryToDentry e)
              pure (shown ++ [(name, dentry)], [])
          update fun s => s.setCtx { s.ctx with dirEntryId := s.ctx.dirEntryId + 1 }
          listCluster n shown prevLfn
  /-- The loop over the clusters. -/
  list : ℕ → List (Name × EntryData) → ℕ → Act (List (Name × EntryData))
    | 0, _, _ => stop .endless
    | fuel + 1, shown, cluster => do
        changeActiveCluster cluster (some .buf)
        let shown ← listCluster entriesPerSector shown []
        let s ← state
        if s.ctx.tableValue < clusterMinEoc then list fuel shown s.ctx.tableValue else pure shown

/-! ## Creating files and directories -/

/-- The loops over the entries of a directory that `touch` and `mkdir` start with: over those that `skip`,
in each of its clusters.  The index is left in `ctx`. -/
def findSlot (skip : DirEntry → Bool) (parentCluster : ℕ) : Act Unit := do
  let _ ← alongChain (fun cluster => do
    changeActiveCluster cluster (some .buf)
    update fun s => s.setCtx { s.ctx with
      dirEntryId := skipWhile (fun id => skip (entryAt s.drive.buf id)) entriesPerSector s.ctx.dirEntryId }
    pure (none : Option Unit)) chainFuel parentCluster

/-- Write an entry to the slot that was found. -/
def putEntry (e : DirEntry) : Act Unit := do
  update fun s => s.setBuf (setEntry s.ctx.dirEntryId e s.drive.buf)
  let s ← state
  writeDataSectors s.ctx.activeSector s.drive.buf true

/-- `FAT_drive::touch`. -/
def touch (parentLba : ℕ) (entryName : Name) : Act (EntryData × ℕ) := withCtx do
  if entryName.head? = some slash then giveUp
  else do
    let s ← state
    findSlot (fun e => !DirEntry.isFree e && DirEntry.getName e ≠ entryName)
      (u32 (parentLba * s.drive.bs.sectorsPerCluster))
    let s ← state
    if s.ctx.dirEntryId * entrySize = s.drive.bs.bytesPerSector * s.drive.bs.sectorsPerCluster then giveUp
    else if 8 < entryName.length then stop (.fault tooLong)
    else do
      let e := newEntry entryName 0 0 0
      putEntry e
      dirEntryToDentry e

/-- The entries of a sector of the table, from the last `n` on, in `get_free_clusters`: whether there are
`wanted` free ones now, and which. -/
def freeInSector (wanted : ℕ) (isFirst : Bool) (base : ℕ) (s : Sector) : ℕ → List ℕ → Bool × List ℕ
  | 0, found => (false, found)
  | n + 1, found =>
      let j := 128 - (n + 1)
      if leRead s (4 * j) 4 = 0 ∧ ¬(isFirst ∧ j < 2) then
        let found := found ++ [u32 (base + j)]
        if found.length = wanted then (true, found) else freeInSector wanted isFirst base s n found
      else freeInSector wanted isFirst base s n found

/-- The loop of `get_free_clusters` over the last `n` sectors, which a read error ends: whether it finds
`wanted` free clusters, which ones it finds, and how many sectors it looks at. -/
def scanSectors (wanted : ℕ) : ℕ → ℕ → List ℕ → ℕ → Act (Bool × List ℕ × ℕ)
  | 0, _, found, looked => pure (false, found, looked)
  | n + 1, sector, found, looked => do
      let s ← state
      let (data, disk) := s.drive.disk.read sector
      update (Session.setDisk disk)
      match data with
      | none => pure (false, found, looked)
      | some data =>
        let first := s.drive.bs.firstFatSector
        match freeInSector wanted (sector = first) ((sector - first) * 128) data 128 found with
        | (true, found) => pure (true, found, looked + 1)
        | (false, found) => scanSectors wanted n (sector + 1) found (looked + 1)

/-- The search of `get_free_clusters`. -/
def scanFat (n : ℕ) : Act (Bool × List ℕ × ℕ) := do
  let s ← state
  let first := s.drive.bs.firstFatSector
  scanSectors n (s.drive.bs.totalSectors - first) first [] 0

/-- `FAT_drive::get_free_clusters`. -/
def getFreeClusters (n : ℕ) : Act (List ℕ) :=
  if n = 0 then pure [0]
  else do
    let (enough, clusters, _) ← scanFat n
    if enough then pure clusters else giveUp

/-- `FAT_drive::mkdir`. -/
def mkdir (parentLba : ℕ) (entryName : Name) : Act (EntryData × ℕ) := withCtx do
  if 12 - 3 ≤ entryName.length then giveUp
  else do
    let s ← state
    let parentCluster := u32 (parentLba * s.drive.bs.sectorsPerCluster)
    findSlot (fun e => !DirEntry.isFree e) parentCluster
    let s ← state
    if s.ctx.dirEntryId * entrySize = s.drive.bs.bytesPerSector * s.drive.bs.sectorsPerCluster then giveUp
    else do
      let freeClusters ← getFreeClusters 1
      let dirContentCluster := freeClusters.headD 0
      let e := newEntry entryName directory dirContentCluster 0
      putEntry e
      -- go to the new directory, and end its chain
      changeActiveCluster dirContentCluster (some .buf)
      let s ← state
      let dirContentSector := s.ctx.activeSector
      setTableEntry clusterEoc
      -- what the cluster holds stays, but for the first two entries
      let data ← readSectors dirContentSector
      update (Session.setBuf data)
      update fun s => s.setBuf
        (setEntry 1 (newEntry Name.dotDot directory parentCluster 0)
          (setEntry 0 (newEntry Name.dot directory dirContentCluster 0) s.drive.buf))
      let s ← state
      writeDataSectors dirContentSector s.drive.buf true
      dirEntryToDentry e

/-! ## Reading files -/

/-- The loop of `load_file_to_buf` that skips the clusters in front of the offset: the clusters skipped,
and the next one. -/
def skipClusters : ℕ → ℕ → ℕ → Act (ℕ × ℕ)
  | 0, co, cluster => pure (co, cluster)
  | n + 1, co, cluster =>
      if cluster < clusterMinEoc then do
        changeActiveCluster cluster none
        let s ← state
        skipClusters n (co + 1) s.ctx.tableValue
      else pure (co, cluster)

/-- `memcpy` from `buf` to the buffer of the caller. -/
def copyToUser (i from_ n : ℕ) : Act Unit := check fun s =>
  match pokes Fault.outOfBounds i ((List.range' from_ n).map s.drive.buf) s.user with
  | .ok user => .ok { s with user }
  | .error e => .error (.fault e)

/-- The loop of `load_file_to_buf` that loads what is left: how many bytes were loaded. -/
def loadRest (length : ℕ) : ℕ → ℕ → ℕ → Act ℕ
  | 0, _, _ => stop .endless
  | fuel + 1, loaded, cluster =>
      if loaded < length ∧ cluster < clusterMinEoc then do
        let rem := length - loaded
        if rem < sectorSize then do
          changeActiveCluster cluster (some .buf)
          copyToUser loaded 0 rem
        else changeActiveCluster cluster (some (.user loaded))
        let s ← state
        loadRest length fuel (loaded + if sectorSize < rem then sectorSize else rem) s.ctx.tableValue
      else pure loaded

/-- The part of `load_file_to_buf` behind the clusters in front of the offset. -/
def loadFrom (cluster clusterOffset length : ℕ) : Act ℕ := do
  -- a whole sector is read to where it belongs
  let loaded ←
    if clusterOffset = 0 ∧ sectorSize ≤ length then do
      changeActiveCluster cluster (some (.user 0))
      pure sectorSize
    else do
      changeActiveCluster cluster (some .buf)
      let n := min length (sectorSize - clusterOffset)
      copyToUser 0 clusterOffset n
      pure n
  let s ← state
  loadRest length (length + 1) loaded s.ctx.tableValue

/-- `FAT_drive::load_file_to_buf`: `loaded_bytes`, when it returns `true`. -/
def loadFileToBuf (parentLba : ℕ) (fileName : Name) (offset length : ℕ) : Act ℕ := withCtx do
  let id ← getChildDirEntryId parentLba fileName
  let e ← entry id
  if DirEntry.fileSize e < u32 (offset + length) then giveUp
  else do
    let nOffsetClusters := offset / sectorSize
    let (co, cluster) ← skipClusters nOffsetClusters 0 (DirEntry.firstClusterAddr e)
    if co < nOffsetClusters then giveUp
    else loadFrom cluster (offset - nOffsetClusters * sectorSize) length

/-! ## Resizing and writing files -/

/-- Follow the chain over `n` clusters. -/
def followChain : ℕ → ℕ → Act ℕ
  | 0, cluster => pure cluster
  | n + 1, cluster => do
      changeActiveCluster cluster (some .buf)
      let s ← state
      followChain n s.ctx.tableValue

/-- The third step of shrinking: the entries of `n` clusters are cleared. -/
def clearChain : ℕ → ℕ → Act Unit
  | 0, _ => pure ()
  | n + 1, cluster => do
      changeActiveCluster cluster (some .buf)
      let s ← state
      let next := leRead s.drive.table s.ctx.fatEntryOffset 4
      setTableEntry 0
      clearChain n next

/-- The second step of growing: clusters are hung on, one after the other.  The last one is returned. -/
def extendChain : List ℕ → ℕ → Act ℕ
  | [], cluster => pure cluster
  | c :: cs, cluster => do
      changeActiveCluster cluster (some .buf)
      setTableEntry c
      extendChain cs c

/-- Change an entry of the directory in `buf`, and write it to the disk. -/
def writeEntry (id : ℕ) (f : DirEntry → DirEntry) : Act Unit := do
  update fun s => s.setBuf (setEntry id (f (entryAt s.drive.buf id)) s.drive.buf)
  let s ← state
  writeDataSectors s.ctx.activeSector s.drive.buf true

/-- `FAT_drive::resize` when clusters are given back; the entry has its new size. -/
def shrink (id newSize currNum newNum : ℕ) : Act Unit := do
  let e ← entry id
  writeEntry id fun e => if newSize = 0 then DirEntry.setFirstCluster e 0 else e
  let cluster ← followChain newNum (DirEntry.firstClusterAddr e)
  changeActiveCluster cluster (some .buf)
  let s ← state
  let next := s.ctx.tableValue
  setTableEntry (if newSize = 0 then 0 else clusterEoc)
  clearChain (currNum - newNum - 1) next

/-- `FAT_drive::resize` when clusters are added. -/
def grow (id currNum newNum : ℕ) : Act Unit := do
  let freeClusters ← getFreeClusters (newNum - currNum)
  writeEntry id fun e =>
    if currNum = 0 then DirEntry.setFirstCluster e (freeClusters.headD 0) else e
  let e ← entry id
  let last ← followChain (currNum - 1) (DirEntry.firstClusterAddr e)
  let last ← extendChain (if currNum = 0 then freeClusters.tail else freeClusters) last
  changeActiveCluster last (some .buf)
  setTableEntry clusterEoc

/-- The number of sectors for a size. -/
def numDataSectors (size : ℕ) : ℕ := u32 (size + (sectorSize - 1)) / sectorSize

/-- `FAT_drive::resize` of the file with the inode of the call. -/
def resize (parentLba : ℕ) (name : Name) (newSize : ℕ) : Act Unit := withCtx do
  let id ← getChildDirEntryId parentLba name
  let s ← state
  let currNum := numDataSectors s.inodeSize
  let newNum := numDataSectors newSize
  update fun s =>
    s.setBuf (setEntry id (DirEntry.setFileSize (entryAt s.drive.buf id) newSize) s.drive.buf)
  if newNum < currNum then shrink id newSize currNum newNum
  else if currNum < newNum then grow id currNum newNum
  else writeEntry id fun e => e
  update fun s => { s with inodeSize := newSize }

/-- The loop of `write_buf_to_file`; `n` bounds the sectors left to write. -/
def writeClusters (data : ℕ → UInt8) (length : ℕ) : ℕ → ℕ → ℕ → Act Unit
  | 0, _, _ => stop .endless
  | fuel + 1, wrote, cluster =>
      if wrote < length ∧ cluster < clusterMinEoc then do
        changeActiveCluster cluster (some .buf)
        let rem := length - wrote
        if sectorSize ≤ rem then do
          let s ← state
          writeDataSectors s.ctx.activeSector (fun k => data (wrote + k)) false
        else do
          update fun s => s.setBuf (splice 0 rem (fun k => data (wrote + k)) s.drive.buf)
          let s ← state
          writeDataSectors s.ctx.activeSector s.drive.buf true
        let s ← state
        writeClusters data length fuel (wrote + if rem < sectorSize then rem else sectorSize)
          s.ctx.tableValue
      else pure ()

/-- `FAT_drive::write_buf_to_file` of a regular file. -/
def writeBufToFile (parentLba : ℕ) (name : Name) (data : ℕ → UInt8) (length : ℕ) : Act Unit := do
  let s ← state
  if s.inodeSize ≠ length then resize parentLba name length
  if length = 0 then pure ()
  else withCtx do
    let id ← getChildDirEntryId parentLba name
    let e ← entry id
    writeClusters data length (length + 1) 0 (DirEntry.firstClusterAddr e)

end FAT

end BrebOS
