import KnitOS.Fs.Blocks

/-!
# Reading, writing and truncating a file by its inode number
-/

namespace KnitOS.Fs

open Lib.Program Storage

/-- An inode number that names an entry of the table other than entry 0. -/
def validIndex (index : Nat) : Bool :=
  decide (0 < index ∧ index < maxInodes)

/-- The permission bit for a caller: owner, group or others, for reading or
writing. -/
def permissionBit (fs : FsState) (inode : Inode) (wantWrite : Bool) : Nat :=
  if inode.uid = fs.kernel.uid then
    if wantWrite then 0o200 else 0o400
  else if inode.gid = fs.kernel.gid then
    if wantWrite then 0o020 else 0o040
  else
    if wantWrite then 0o002 else 0o004

def fsAccessOk (fs : FsState) (index : Nat) (wantWrite : Bool) : Bool :=
  let inode := fs.inodes index
  validIndex index && inode.occupied &&
    (fs.kernel.uid == 0 ||
      inode.mode &&& permissionBit fs inode wantWrite != 0)

/-- The part of a sector that one round of the read and write loops covers. -/
def chunkSize (position remaining : Nat) : Nat :=
  min (sectorSize - position % sectorSize) remaining

def sectorSlice (bytes : Sector) (offset count : Nat) : List UInt8 :=
  (List.range count).map fun position => sectorByte bytes (offset + position)

/-- One round of the read loop of `fs_index_read`: a sector that cannot be
mapped reads as zeros. -/
def readChunk (index position count : Nat) : FsProgram (List UInt8) := do
  let inode ← inodeAt index
  let mapped ← attempt (inodeMapSector inode (position / sectorSize))
  match mapped with
  | none => pure (List.replicate count 0)
  | some lba => do
      let bytes ← dRead lba
      pure (sectorSlice bytes (position % sectorSize) count)

/-- The read loop of `fs_index_read`; every round reads a byte, so as many
rounds as bytes are enough. -/
def readLoop (index : Nat) : Nat → Nat → Nat → FsProgram (List UInt8)
  | 0, _, _ => pure []
  | rounds + 1, position, remaining =>
    if remaining = 0 then
      pure []
    else do
      let count := chunkSize position remaining
      let chunk ← readChunk index position count
      let rest ← readLoop index rounds (position + count) (remaining - count)
      pure (chunk ++ rest)

/-- The access time of a file is updated when it is read. -/
def touchAccess (index : Nat) : FsProgram Unit := do
  let now ← fsNow
  modifyInode index fun inode => { inode with atime := now }

/-- `fs_index_read`; the bytes it stores in the buffer. -/
def fsIndexRead (index offset size : Nat) : FsProgram (List UInt8) := do
  let fs ← reads id
  require (validIndex index = true ∧ (fs.inodes index).occupied = true)
  require ((fs.inodes index).isSpecial = false)
  require (fsAccessOk fs index false = true)
  whenever ((fs.inodes index).isDirectory = false) (touchAccess index)
  let inode ← inodeAt index
  let capacity ← inodeByteCapacity inode
  let logical := min inode.sizeBytes capacity
  let count := min size (logical - offset)
  readLoop index count offset count

/-- Set the modification and change times of a file. -/
def touchModified (index : Nat) : FsProgram Unit := do
  let now ← fsNow
  modifyInode index fun inode => { inode with mtime := now, ctime := now }

/-- The sectors `fs_index_truncate` wants for a size. -/
def sectorsFor (size : Nat) : Nat :=
  if size = 0 then 0 else u32 (size + sectorSize - 1) / sectorSize

/-- Give a file as many sectors as its new size needs. -/
def resizeTo (index need current : Nat) : FsProgram Unit :=
  if current < need then inodeGrowSectors index need
  else if need < current then inodeShrinkTo index need
  else pure ()

def fsIndexTruncate (index newSize : Nat) : FsProgram Unit := do
  let fs ← reads id
  require (validIndex index = true ∧ (fs.inodes index).occupied = true)
  require (fsAccessOk fs index true = true)
  fsLoadBitmap
  let inode ← inodeAt index
  let current ← inodeSectorCount inode
  resizeTo index (sectorsFor newSize) current
  modifyInode index fun inode => { inode with sizeBytes := newSize }
  touchModified index
  fsPersistMeta

/-- A sector with some of its bytes replaced. -/
def patchSector (bytes : Sector) (offset : Nat) (chunk : List UInt8) : Sector :=
  fun position =>
    if offset ≤ position ∧ position < offset + chunk.length then
      chunk.getD (position - offset) 0
    else
      bytes position

/-- One round of the write loop of `fs_index_write`. -/
def writeChunk (index position : Nat) (chunk : List UInt8) : FsProgram Unit := do
  let inode ← inodeAt index
  let lba ← inodeMapSector inode (position / sectorSize)
  let bytes ← dRead lba
  dWrite lba (patchSector bytes (position % sectorSize) chunk)

def writeLoop (index : Nat) : Nat → Nat → List UInt8 → FsProgram Unit
  | 0, _, _ => pure ()
  | rounds + 1, position, data =>
    if data.isEmpty then
      pure ()
    else do
      let count := chunkSize position data.length
      writeChunk index position (data.take count)
      writeLoop index rounds (position + count) (data.drop count)

/-- The part of `fs_index_write` after the file was extended. -/
def storeBytes (index offset : Nat) (data : List UInt8) : FsProgram Nat :=
  if data.isEmpty then
    pure 0
  else do
    writeLoop index data.length offset data
    cacheSync
    touchModified index
    fsPersistMeta
    pure data.length

/-- `fs_index_write`; it returns the number of bytes written. -/
def fsIndexWrite (index offset : Nat) (data : List UInt8) : FsProgram Nat := do
  let fs ← reads id
  require (validIndex index = true ∧ (fs.inodes index).occupied = true)
  require ((fs.inodes index).isSpecial = false)
  require (fsAccessOk fs index true = true)
  let final := u32 (offset + data.length)
  require (offset ≤ final)
  whenever ((fs.inodes index).sizeBytes < final)
    (fsIndexTruncate index final)
  storeBytes index offset data

end KnitOS.Fs
