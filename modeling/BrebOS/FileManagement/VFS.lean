import BrebOS.Core.Defs
import BrebOS.Lib.Loop

/-!
# The dentry cache

Dentries and the resolution of paths (`file_management/VFS.cpp`).  A dentry is an object that lives as
long as somebody refers to it: a slot of the cache, a dentry it is the parent of, an open file, or a
variable of a call that is under way.  The file systems are a parameter, as they are behind the
virtual methods of `FS`.

A path is the list of its components, as `strtok_r` yields them.
-/

namespace BrebOS

/-- `MAX_DENTRIES`. -/
def maxDentries : ℕ := 200

/-- A file name, without the terminating zero. -/
abbrev Name := List UInt8

namespace Name

def dot : Name := [46]

def dotDot : Name := [46, 46]

def mnt : Name := [109, 110, 116]

end Name

/-- `Inode::Type`. -/
inductive InodeType
  | file
  | dir
  deriving DecidableEq, Repr

/-- `Inode`.  The superblock is the number of its file system; a pure virtual node has none. -/
structure Inode where
  superblock : Option ℕ
  lba : ℕ
  type : InodeType
  size : ℕ
  deriving DecidableEq, Repr

/-- `Dentry`: the addresses of its inode and of its parent. -/
structure Dentry where
  inode : ℕ
  parent : Option ℕ
  name : Name
  deriving DecidableEq, Repr

/-- What a file system knows of an entry of a directory. -/
structure EntryData where
  type : InodeType
  lba : ℕ
  size : ℕ
  deriving DecidableEq, Repr

/-- The methods of `FS` that the cache uses, for each file system.  A directory is given by its `lba`. -/
structure FileSystems (D : Type) where
  getChildDentry : D → ℕ → ℕ → Name → Option EntryData
  touch : D → ℕ → ℕ → Name → Option EntryData × D
  mkdir : D → ℕ → ℕ → Name → Option EntryData × D
  /-- The directory and the name of the file, the size its inode has, and the new one. -/
  resize : D → ℕ → ℕ → Name → ℕ → ℕ → Bool × D

/-- The objects, the cache, and the dentries that open files and `PATH` refer to. -/
structure Vfs (D : Type) where
  disk : D
  inodes : ℕ → Inode
  dents : ℕ → Option Dentry
  /-- Objects are made at this address. -/
  next : ℕ
  slots : ℕ → Option ℕ
  lowestFreeDentry : ℕ
  held : List ℕ

namespace Vfs

variable {D : Type}

/-- The inode of a dentry; only used of a dentry that exists. -/
def inodeOf (s : Vfs D) (d : ℕ) : Inode :=
  match s.dents d with
  | some o => s.inodes o.inode
  | none => { superblock := none, lba := 0, type := .file, size := 0 }

def parentOf (s : Vfs D) (d : ℕ) : Option ℕ := (s.dents d).bind Dentry.parent

/-! ## References -/

/-- `use_count`: the references from slots, from dentries, from open files, and from variables. -/
def useCount (locals : List ℕ) (d : ℕ) (s : Vfs D) : ℕ :=
  {i ∈ Finset.range maxDentries | s.slots i = some d}.card +
    {x ∈ Finset.range s.next | s.parentOf x = some d}.card + s.held.count d + locals.count d

/-- A reference to a dentry is gone: without references it goes, and with it the one to its parent. -/
def collect (locals : List ℕ) : ℕ → ℕ → Vfs D → Vfs D
  | 0, _, s => s
  | fuel + 1, d, s =>
    match s.dents d with
    | none => s
    | some o =>
      if s.useCount locals d = 0 then
        let s := { s with dents := Function.update s.dents d none }
        match o.parent with
        | none => s
        | some p => collect locals fuel p s
      else s

/-- The end of a reference.  No chain of parents is longer than there are objects. -/
def release (locals : List ℕ) (d : ℕ) (s : Vfs D) : Vfs D := collect locals s.next d s

/-- A turn of `free_unused_dentry_cache_entries`. -/
def freeSlot (locals : List ℕ) (s : Vfs D) (i : ℕ) : Vfs D :=
  match s.slots i with
  | none => { s with lowestFreeDentry := min i s.lowestFreeDentry }
  | some d =>
    if s.useCount locals d = 1 then
      let s := { s with slots := Function.update s.slots i none }
      let s := s.release locals d
      { s with lowestFreeDentry := min s.lowestFreeDentry i }
    else s

/-- `VFS::free_unused_dentry_cache_entries`: all slots but those of the root and of `/mnt`. -/
def freeUnusedDentryCacheEntries (locals : List ℕ) (s : Vfs D) : Vfs D :=
  (List.range' 2 (maxDentries - 2)).foldl (freeSlot locals) s

/-- `VFS::cache_dentry`. -/
def cacheDentry (locals : List ℕ) (d : ℕ) (s : Vfs D) : Bool × Vfs D :=
  let s := if s.lowestFreeDentry = maxDentries then s.freeUnusedDentryCacheEntries (d :: locals) else s
  if s.lowestFreeDentry = maxDentries then (false, s)
  else
    let slots := Function.update s.slots s.lowestFreeDentry (some d)
    (true, { s with
      slots
      lowestFreeDentry := skipWhile (fun j => (slots j).isSome)
        (maxDentries - (s.lowestFreeDentry + 1)) (s.lowestFreeDentry + 1) })

/-- `VFS::get_cached_dentry`. -/
def getCachedDentry (parent : ℕ) (name : Name) (s : Vfs D) : Option ℕ :=
  (List.range maxDentries).findSome? fun i => do
    let d ← s.slots i
    let o ← s.dents d
    if o.name = name ∧ o.parent = some parent then some d else none

/-- A new dentry with a new inode. -/
def newDentry (fs parent : ℕ) (name : Name) (e : EntryData) (s : Vfs D) : ℕ × Vfs D :=
  (s.next, { s with
    inodes := Function.update s.inodes s.next
      { superblock := some fs, lba := e.lba, type := e.type, size := e.size }
    dents := Function.update s.dents s.next (some { inode := s.next, parent := some parent, name })
    next := s.next + 1 })

/-! ## Paths -/

/-- The loop of `browse_to` over cached dentries: where it stops, and what is left of the path. -/
def browseCached (s : Vfs D) : List Name → ℕ → ℕ × List Name
  | [], d => (d, [])
  | token :: rest, d =>
    match if token = Name.dot then some d
      else if token = Name.dotDot then s.parentOf d
      else s.getCachedDentry d token with
    | none => (d, token :: rest)
    | some d' => if (s.inodeOf d').type ≠ .dir then (d', rest) else browseCached s rest d'

/-- The panic of `browse_to`. -/
def tooMany : Fault := .irrecoverableError "Too many dentries"

/-- The loop of `browse_to` that asks the file system. -/
def browseManually (F : FileSystems D) (fs : ℕ) (printErrors : Bool) (locals : List ℕ) :
    List Name → ℕ → Vfs D → Except Fault (Option ℕ × Vfs D)
  | [], d, s => .ok (some d, s)
  | token :: rest, d, s =>
    if (s.inodeOf d).type ≠ .dir then .ok (none, s)
    else
      let next : Option (ℕ × Vfs D) :=
        if token = Name.dot then some (d, s)
        else if token = Name.dotDot then (s.parentOf d).map fun p => (p, s)
        else (F.getChildDentry s.disk fs (s.inodeOf d).lba token).map fun e =>
          s.newDentry fs d token e
      match next with
      | none => .ok (none, s)
      | some (d, s) =>
        match s.cacheDentry locals d with
        | (true, s) => browseManually F fs printErrors locals rest d s
        | (false, s) => if printErrors then .error tooMany else .ok (none, s.release locals d)

/-- `VFS::browse_to` from a dentry. -/
def browseTo (F : FileSystems D) (path : List Name) (start : ℕ) (printErrors : Bool) (locals : List ℕ)
    (s : Vfs D) : Except Fault (Option ℕ × Vfs D) :=
  let (d, rest) := s.browseCached path start
  match (s.inodeOf d).superblock with
  | none => .ok (none, s)
  | some fs =>
    if rest ≠ [] ∧ (s.inodeOf d).type ≠ .dir then .ok (none, s)
    else browseManually F fs printErrors locals rest d s

/-- The dentry of the root. -/
def rootDentry (s : Vfs D) : ℕ := (s.slots 0).getD 0

/-- `VFS::get_file_parent_dentry` of an absolute path. -/
def getFileParentDentry (F : FileSystems D) (dir : List Name) (fileName : Name) (printErrors : Bool)
    (s : Vfs D) : Except Fault (Option ℕ × Vfs D) :=
  if fileName = [] then .ok (none, s)
  else do
    let (parent, s) ← s.browseTo F dir s.rootDentry printErrors []
    match parent with
    | none => .ok (none, s)
    | some p => if (s.inodeOf p).type ≠ .dir then .ok (none, s) else .ok (some p, s)

/-- A dentry a file system made, put in the cache if there is room. -/
def addCreated (fs parent : ℕ) (name : Name) (r : Option EntryData × D) (s : Vfs D) :
    Option ℕ × Vfs D :=
  match r with
  | (none, disk) => (none, { s with disk })
  | (some e, disk) =>
    let (d, s) := { s with disk }.newDentry fs parent name e
    (some d, (s.cacheDentry [parent] d).2)

/-- `VFS::touch` of an absolute path.  The dentry is still referred to. -/
def touch (F : FileSystems D) (dir : List Name) (fileName : Name) (s : Vfs D) :
    Except Fault (Option ℕ × Vfs D) := do
  let (parent, s) ← s.getFileParentDentry F dir fileName true
  match parent with
  | none => .ok (none, s)
  | some p =>
    match (s.inodeOf p).superblock with
    | none => .error .outOfBounds
    | some fs => .ok (s.addCreated fs p fileName (F.touch s.disk fs (s.inodeOf p).lba fileName))

/-- `VFS::mkdir` of an absolute path. -/
def mkdir (F : FileSystems D) (dir : List Name) (dirName : Name) (s : Vfs D) :
    Except Fault (Option ℕ × Vfs D) := do
  let (parent, s) ← s.browseTo F dir s.rootDentry true []
  match parent with
  | none => .ok (none, s)
  | some p =>
    if (s.inodeOf p).type ≠ .dir then .ok (none, s)
    else
      match (s.inodeOf p).superblock with
      | none => .error .outOfBounds
      | some fs => .ok (s.addCreated fs p dirName (F.mkdir s.disk fs (s.inodeOf p).lba dirName))

/-- `VFS::resize`. -/
def resize (F : FileSystems D) (d newSize : ℕ) (s : Vfs D) : Except Fault (Bool × Vfs D) :=
  match s.dents d, (s.inodeOf d).superblock with
  | some o, some fs =>
    match o.parent with
    | none => .error .outOfBounds
    | some p =>
      let (ok, disk) := F.resize s.disk fs (s.inodeOf p).lba o.name (s.inodeOf d).size newSize
      let s := { s with disk }
      let inode := { s.inodes o.inode with size := newSize }
      .ok (ok, if ok then { s with inodes := Function.update s.inodes o.inode inode } else s)
  | _, _ => .error .outOfBounds

/-- `VFS::get_file_dentry` of an absolute path, as `open_file` calls it. -/
def getFileDentry (F : FileSystems D) (dir : List Name) (fileName : Name) (s : Vfs D) :
    Except Fault (Option ℕ × Vfs D) := do
  let (parent, s) ← s.getFileParentDentry F dir fileName false
  match parent with
  | none => .ok (none, s)
  | some p => s.browseTo F [fileName] p false [p]

/-- The dentry that `open_file` finds, or makes with `O_CREAT`. -/
def findOrTouch (F : FileSystems D) (dir : List Name) (fileName : Name) (creat : Bool) (s : Vfs D) :
    Except Fault (Option ℕ × Vfs D) := do
  let (found, s) ← s.getFileDentry F dir fileName
  match found with
  | some d => .ok (some d, s)
  | none => if creat then s.touch F dir fileName else .ok (none, s)

/-- `VFS::open_file` of an absolute path: the dentry that the file refers to. -/
def openFile (F : FileSystems D) (dir : List Name) (fileName : Name) (creat trunc : Bool) (s : Vfs D) :
    Except Fault (Option ℕ × Vfs D) := do
  let (dentry, s) ← s.findOrTouch F dir fileName creat
  match dentry with
  | none => .ok (none, s)
  | some d =>
    if (s.inodeOf d).type = .dir then .ok (none, s.release [] d)
    else if trunc then do
      let (_, s) ← { s with held := d :: s.held }.resize F d 0
      .ok (some d, s)
    else .ok (some d, { s with held := d :: s.held })

/-- An open file goes. -/
def closeFile (d : ℕ) (s : Vfs D) : Vfs D :=
  { s with held := s.held.erase d }.release [] d

/-- What a call returned is not referred to any more. -/
def drop (r : Option ℕ × Vfs D) : Vfs D :=
  match r with
  | (none, s) => s
  | (some d, s) => s.release [] d

/-! ## Runs -/

end Vfs

/-- The calls on the cache.  `close` and `resize` are of a dentry that an open file refers to. -/
inductive VfsOp
  | browseTo (path : List Name)
  | addToPath (path : List Name)
  | touch (dir : List Name) (fileName : Name)
  | mkdir (dir : List Name) (dirName : Name)
  | openFile (dir : List Name) (fileName : Name) (creat trunc : Bool)
  | closeFile (d : ℕ)
  | resize (d newSize : ℕ)
  | evict
  deriving DecidableEq, Repr

namespace Vfs

variable {D : Type}

def step (F : FileSystems D) (s : Vfs D) : VfsOp → Except Fault (Vfs D)
  | .browseTo path => (s.browseTo F path s.rootDentry true []).map drop
  | .addToPath path => do
      let (r, s) ← s.browseTo F path s.rootDentry true []
      match r with
      | none => .ok s
      | some d =>
        if (s.inodeOf d).type ≠ .dir then .ok (s.release [] d)
        else .ok { s with held := d :: s.held }
  | .touch dir fileName => (s.touch F dir fileName).map drop
  | .mkdir dir dirName => (s.mkdir F dir dirName).map drop
  | .openFile dir fileName creat trunc => (s.openFile F dir fileName creat trunc).map Prod.snd
  | .closeFile d => .ok (s.closeFile d)
  | .resize d newSize => (s.resize F d newSize).map Prod.snd
  | .evict => .ok (s.freeUnusedDentryCacheEntries [])

/-- The dentry that `mount` makes, for the file system `d - 2`: the first one was mounted as the root
before, and has its inode from there. -/
def mountDentry (d : ℕ) : Dentry :=
  { inode := if d = 2 then 0 else d, parent := some 1, name := [49 + UInt8.ofNat (d - 2)] }

/-- The state `VFS::init` makes: the root, `/mnt`, and the file systems mounted in it, which have
their roots at `roots`.  The first file system is also the one of the root. -/
def boot (disk : D) (roots : List ℕ) : Vfs D where
  disk
  inodes i :=
    if i = 1 then { superblock := none, lba := 0, type := .dir, size := 0 }
    else { superblock := some (i - 2), lba := roots.getD (i - 2) 0, type := .dir, size := 0 }
  dents d :=
    if d = 0 then some { inode := 0, parent := none, name := [47] }
    else if d = 1 then some { inode := 1, parent := some 0, name := Name.mnt }
    else if d < 2 + roots.length then some (mountDentry d)
    else none
  next := 2 + roots.length
  slots i := if i < 2 + roots.length then some i else none
  lowestFreeDentry := 2 + roots.length
  held := []

end Vfs

end BrebOS
