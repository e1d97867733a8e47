import BrebOS.FileManagement.FAT

/-!
# Open files

`File` of `file_management/FileInterface.cpp`.  What the dentry and the inode of the file hold is part of
it; the drive and the buffer of the caller are those of the session.

Some files are read when the kernel starts and served from memory.  What lies behind their data is memory
too, so `preload` has a byte for every index.
-/

namespace BrebOS

/-- `EIO`. -/
def eio : ℤ := 5

/-- A number stored in an `int`. -/
@[irreducible]
def toInt (x : ℤ) : ℤ := (x + 2147483648) % 4294967296 - 2147483648

/-- How much memory the kernel has addresses for. -/
def kernelMemory : ℕ := 4294967296 - kernelVirtualBase

/-- The error of the kernel's `realloc`. -/
def reallocFailed : Fault := .irrecoverableError "realloc failed"

/-- `SEEK_SET`. -/
def seekSet : ℤ := 0

/-- `SEEK_CUR`. -/
def seekCur : ℤ := 1

/-- `SEEK_END`. -/
def seekEnd : ℤ := 2

/-- `File`, with the name, the parent and the inode its dentry has. -/
structure File where
  name : Name
  parentLba : ℕ
  /-- `inode->size`. -/
  size : ℕ
  /-- Whether `inode->type` is `Inode::File`. -/
  regular : Bool := true
  offset : ℕ := 0
  /-- The memory from `data` on of its entry in `preloads_list`. -/
  preload : Option (ℕ → UInt8) := none
  /-- Whether `flags` has `O_APPEND`. -/
  append : Bool := false

namespace File

open FAT

/-- `File::read` of as many bytes as `buf` has. -/
def read (buf : List UInt8) (f : File) (s : Session) : Except NoReturn (ℤ × File × Session) :=
  let count := buf.length
  let l := min count (u32Sub f.size f.offset)
  if !f.regular then .ok (-einval, f, { s with user := buf })
  else match f.preload with
    | some data =>
        .ok (toInt count, { f with offset := u32 (f.offset + count) },
          { s with user := (List.range count).map fun j => data (f.offset + j) })
    | none => do
        let (loadedBytes, s) ← (loadFileToBuf f.parentLba f.name f.offset l).run { s with user := buf }
        match loadedBytes with
        | none => .ok (-eio, f, s)
        | some n => .ok (toInt n, { f with offset := u32 (f.offset + n) }, s)

/-- `FS::load_file_to_buf` of the whole file, into a new buffer. -/
def loadWhole (f : File) (s : Session) : Except NoReturn (Option (List UInt8) × Session) :=
  if f.size = 0 then .ok (some [], s)
  else do
    let (loadedBytes, s') ← (loadFileToBuf f.parentLba f.name 0 f.size).run
      { s with user := List.replicate f.size 0 }
    .ok (loadedBytes.map fun _ => s'.user, { s' with user := s.user })

/-- `realloc` of a buffer of the kernel, which has memory for it as long as it has addresses.  It does not say
where a block of no bytes is, which is written and freed all the same. -/
def reallocBuf (size : ℕ) (buf : List UInt8) : Except NoReturn (List UInt8) :=
  if size = 0 then .error (.fault .outOfBounds)
  else if kernelMemory < size then .error (.fault reallocFailed)
  else .ok (buf.take size ++ List.replicate (size - buf.length) 0)

/-- `memmove` of `n` bytes of a buffer. -/
def moveWithin (to_ from_ n : ℕ) (buf : List UInt8) : Except NoReturn (List UInt8) :=
  if buf.length < from_ + n then .error (.fault .outOfBounds)
  else pokes (.fault .outOfBounds) to_ ((buf.drop from_).take n) buf

/-- `File::write`. -/
def write (buf : List UInt8) (f : File) (s : Session) : Except NoReturn (ℤ × File × Session) :=
  let count := buf.length
  if !f.regular then .ok (-einval, f, s)
  else do
    let (file, s) ← f.loadWhole s
    match file with
    | none => .ok (-eio, f, s)
    | some file => do
        let newFileSize := u32 (f.size + count)
        let file ← reallocBuf newFileSize file
        let offset := if f.append then f.size else f.offset
        let file ← moveWithin (offset + count) offset (u32Sub f.size offset) file
        let file ← pokes (.fault .outOfBounds) offset buf file
        let (written, s) ← (writeBufToFile f.parentLba f.name (fun i => file.getD i 0) newFileSize).run
          { s with inodeSize := f.size }
        match written with
        | none => .ok (-eio, { f with offset, size := s.inodeSize }, s)
        | some () => .ok (toInt count, { f with offset := u32 (offset + count), size := s.inodeSize }, s)

/-- `ref` of `File::lseek`, whose parameter hides the offset of the file. -/
def seekRef (f : File) (offset whence : ℤ) : ℤ :=
  if whence = seekSet then 0 else if whence = seekCur then offset else toInt f.size

/-- `File::lseek`. -/
def lseek (offset whence : ℤ) (f : File) : ℤ × File :=
  if whence < 0 ∨ 2 < whence then (-einval, f)
  else
    let newOffset := toInt (f.seekRef offset whence + offset)
    if newOffset < 0 then (-einval, f)
    else if (f.size : ℤ) < newOffset then (-einval, f)
    else (newOffset, { f with offset := newOffset.toNat })

end File

/-- A call on an open file; a read has a buffer of as many bytes as it asks for. -/
inductive FileOp
  | read (buf : List UInt8)
  | lseek (offset : Int32) (whence : ℤ)
  deriving DecidableEq

/-- An open file and the drive it is on. -/
structure OpenFile where
  file : File
  session : FAT.Session

namespace OpenFile

/-- What a call returns. -/
def call (o : OpenFile) : FileOp → Except FAT.NoReturn (ℤ × OpenFile)
  | .read buf => do
      let (r, file, session) ← o.file.read buf o.session
      .ok (r, ⟨file, session⟩)
  | .lseek offset whence =>
      let (r, file) := o.file.lseek offset.toInt whence
      .ok (r, { o with file })

def step (o : OpenFile) (op : FileOp) : Except FAT.NoReturn OpenFile := (o.call op).map Prod.snd

end OpenFile

end BrebOS
