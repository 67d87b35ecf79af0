import KnitOS.Fs.Calls

/-!
# The consistency check and mounting
-/

namespace KnitOS.Fs

open Lib Lib.Program Storage

/-- What a check has found so far: the counters, the sectors in use and the
number of entries for every inode. -/
structure Tally where
  errors : Nat
  repaired : Nat
  mark : Nat → Bool
  links : Nat → Nat

namespace Tally

def noteError (tally : Tally) : Tally :=
  { tally with errors := tally.errors + 1 }

def noteRepair (tally : Tally) : Tally :=
  { tally with repaired := tally.repaired + 1 }

def markSector (tally : Tally) (sector : Nat) : Tally :=
  { tally with mark := Function.update tally.mark sector true }

def countLink (tally : Tally) (ino : Nat) : Tally :=
  { tally with
    links := Function.update tally.links ino (tally.links ino + 1) }

end Tally

/-- A sector in use whose bit is clear. -/
def checkBit (repair : Bool) (lba : Nat) (tally : Tally) : FsProgram Tally := do
  let fs ← reads id
  if fsBitmapTest fs lba then
    pure tally
  else if repair then do
    modify (fsBitmapSet lba true)
    pure tally.noteError.noteRepair
  else
    pure tally.noteError

def checkSector (repair : Bool) (index fileSector : Nat) (tally : Tally) : FsProgram Tally := do
  let inode ← inodeAt index
  let mapped ← attempt (inodeMapSector inode fileSector)
  let total ← reads fun fs => fs.boot.totalSectors
  match mapped with
  | none => pure tally.noteError
  | some lba =>
    if total ≤ lba then
      pure tally.noteError
    else
      let seen := if tally.mark lba then tally.noteError else tally
      checkBit repair lba (seen.markSector lba)

def checkSectors (repair : Bool) (index : Nat) : Nat → Nat → Tally → FsProgram Tally
  | _, 0, tally => pure tally
  | first, count + 1, tally => do
      let next ← checkSector repair index first tally
      checkSectors repair index (first + 1) count next

/-- The scan of a directory blob: entries for inodes that do not exist lose
their inode number.  The result is the blob, whether it changed, and the
counters. -/
def checkDirents (fs : FsState) (repair : Bool) :
    Nat → List UInt8 → Tally → List UInt8 × Bool × Tally
  | 0, blob, tally => (blob, false, tally)
  | rounds + 1, blob, tally =>
    match direntNext blob with
    | none => (blob, false, tally)
    | some entry =>
      let record := blob.take entry.size
      let rest := blob.drop entry.size
      if entry.ino = 0 then
        let checked := checkDirents fs repair rounds rest tally
        (record ++ checked.1, checked.2)
      else if entry.ino < maxInodes ∧
          (fs.inodes entry.ino).occupied = true then
        let checked :=
          checkDirents fs repair rounds rest (tally.countLink entry.ino)
        (record ++ checked.1, checked.2)
      else if repair then
        let checked :=
          checkDirents fs repair rounds rest tally.noteError.noteRepair
        (List.replicate 4 0 ++ record.drop 4 ++ checked.1, true,
          checked.2.2)
      else
        let checked :=
          checkDirents fs repair rounds rest tally.noteError
        (record ++ checked.1, checked.2)

/-- A directory must not be larger than its sectors. -/
def checkDirSize (repair : Bool) (index : Nat) (tally : Tally) : FsProgram Tally := do
  let inode ← inodeAt index
  let capacity ← inodeByteCapacity inode
  if capacity < inode.sizeBytes then
    if repair then do
      modifyInode index fun inode => { inode with sizeBytes := capacity }
      pure tally.noteError.noteRepair
    else
      pure tally.noteError
  else
    pure tally

/-- The entries of a directory; a directory that cannot be read is skipped. -/
def checkBlob (repair : Bool) (index size : Nat) (tally : Tally) : FsProgram Tally := do
  let blob ← attempt (readBlob index size)
  match blob with
  | none => pure tally
  | some blob => do
      let fs ← reads id
      let checked := checkDirents fs repair blob.length blob tally
      whenever (repair = true ∧ checked.2.1 = true) do
        let _ ← attempt (fsIndexWrite index 0 checked.1)
        pure ()
      pure checked.2.2

/-- The directory part of the first loop. -/
def checkDirectory (repair : Bool) (index : Nat) (tally : Tally) : FsProgram Tally := do
  let sized ← checkDirSize repair index tally
  let size ← dirLogicalSize index
  if size = 0 then pure sized else checkBlob repair index size sized

/-- The indirect block of a file is in use. -/
def markIndirect (fs : FsState) (inode : Inode) (tally : Tally) : Tally :=
  if inode.indirectLba ≠ 0 ∧ inode.indirectLba < fs.boot.totalSectors then
    tally.markSector inode.indirectLba
  else
    tally

/-- One round of the first loop. -/
def checkInode (repair : Bool) (index : Nat) (tally : Tally) : FsProgram Tally := do
  let inode ← inodeAt index
  if inode.occupied then do
    let sectors ← inodeSectorCount inode
    let walked ← checkSectors repair index 0 sectors tally
    let fs ← reads id
    let marked := markIndirect fs inode walked
    if inode.isDirectory then checkDirectory repair index marked
    else pure marked
  else
    pure tally

/-- An inode without entries is freed, and a wrong link count is put right. -/
def checkLinks (repair : Bool) (index : Nat) (tally : Tally) : FsProgram Tally := do
  let inode ← inodeAt index
  let expected := tally.links index % 65536
  if inode.occupied = false ∨ index = rootIno ∨
      (expected ≠ 0 ∧ inode.nlink = expected) then
    pure tally
  else if repair then
    if expected = 0 then do
      inodeClearExtents index
      modifyInode index fun _ => Inode.zero
      pure tally.noteError.noteRepair
    else do
      modifyInode index fun inode => { inode with nlink := expected }
      pure tally.noteError.noteRepair
  else
    pure tally.noteError

/-- Run one of the two loops over the inode table. -/
def forInodes (body : Nat → Tally → FsProgram Tally) : List Nat → Tally → FsProgram Tally
  | [], tally => pure tally
  | index :: rest, tally => do
      let next ← body index tally
      forInodes body rest next

/-- The last loop: a set bit of a sector that is not in use is cleared. -/
def rebuildBit (sector : Nat) (tally : Tally) : FsProgram Tally := do
  let fs ← reads id
  if tally.mark sector = false ∧ fsBitmapTest fs sector = true then do
    modify (fsBitmapSet sector false)
    pure tally.noteRepair
  else
    pure tally

/-- The repairs after the two loops. -/
def finishRepair (tally : Tally) : FsProgram Tally := do
  let boot ← reads FsState.boot
  let base := boot.allocBase
  let rebuilt ← forInodes rebuildBit
    (List.range' base (boot.totalSectors - base)) tally
  let _ ← attempt fsPersistMeta
  pure rebuilt

/-- The inode numbers the loops of the table visit. -/
def inodeNumbers : List Nat :=
  List.range' 1 (maxInodes - 1)

/-- `fs_fsck`; it returns the number of repairs or of errors. -/
def fsFsck (repair : Bool) : FsProgram Nat := do
  let fs ← reads id
  require (fs.initialized = true)
  malloc fs.boot.totalSectors
  let start : Tally :=
    { errors := 0
      repaired := 0
      mark := fun sector => decide (sector < fs.boot.allocBase)
      links := fun _ => 0 }
  let walked ← forInodes (checkInode repair) inodeNumbers start
  let linked ← forInodes (checkLinks repair) inodeNumbers walked
  if repair then do
    let finished ← finishRepair linked
    pure finished.repaired
  else
    pure linked.errors

def fsLayoutValid (boot : BootSector) : Bool :=
  let tableEnd := u32 (boot.inodeTableSector + boot.inodeSectors)
  let bitmapSecs := u32 (boot.freeBitmapSize + sectorSize - 1) / sectorSize
  let bitmapEnd := u32 (boot.freeBitmapSector + bitmapSecs)
  boot.magic == 0x4D4F5320 && boot.version == 3 &&
    boot.inodeTableSector != 0 && boot.freeBitmapSector != 0 &&
    decide (64 ≤ boot.totalSectors) &&
    boot.inodeSlots != 0 && decide (boot.inodeSlots ≤ maxInodes) &&
    boot.rootIno == rootIno &&
    decide (tableEnd < boot.totalSectors) &&
    decide (tableEnd ≤ boot.freeBitmapSector) &&
    decide (bitmapEnd ≤ boot.totalSectors) &&
    decide (bitmapEnd ≤ boot.dataStartSector) &&
    (boot.logSize == 0 ||
      boot.logStartSector != 0 &&
        decide (u32 (boot.logStartSector + boot.logSize) ≤
          boot.totalSectors))

def rootInode (now : Nat) : Inode :=
  { Inode.zero with
    flags := Inode.flagOccupied ||| Inode.flagDirectory
    mode := modeDir
    nlink := 1
    parent := rootIno
    atime := now
    mtime := now
    ctime := now }

/-- The inode table of a new file system: the root directory alone. -/
def formatInodes (old : Nat → Inode) (now index : Nat) : Inode :=
  if index = rootIno then
    rootInode now
  else if index < maxInodes then
    Inode.zero
  else
    old index

/-- The directories a new file system starts with: `/bin`, `/usr`, `/usr/bin`,
`/etc`, `/etc/network`, `/dev`, `/mnt`, `/home`, `/tmp`, `/www` and `/var`. -/
def standardDirs : List (List UInt8) :=
  [[47, 98, 105, 110],
    [47, 117, 115, 114],
    [47, 117, 115, 114, 47, 98, 105, 110],
    [47, 101, 116, 99],
    [47, 101, 116, 99, 47, 110, 101, 116, 119, 111, 114, 107],
    [47, 100, 101, 118],
    [47, 109, 110, 116],
    [47, 104, 111, 109, 101],
    [47, 116, 109, 112],
    [47, 119, 119, 119],
    [47, 118, 97, 114]]

/-- Create directories one after the other, whether they succeed or not. -/
def createAll : List (List UInt8) → FsProgram Unit
  | [] => pure ()
  | path :: rest => do
      let _ ← attempt (fsCreateDir path)
      createAll rest

/-- The new superblock, table and bitmap of `fs_init` in memory. -/
def formatTables : FsProgram Unit := do
  modify fun fs => { fs with boot := formatBoot fs.kernel.diskSizeSectors }
  let now ← fsNow
  modify fun fs => { fs with inodes := formatInodes fs.inodes now }
  let boot ← reads FsState.boot
  let bitmapSecs := (boot.freeBitmapSize + sectorSize - 1) / sectorSize
  modify fun fs => { fs with bitmapSectors := bitmapSecs, bitmap := none }
  malloc (u32 (bitmapSecs * sectorSize))
  modify fun fs => { fs with bitmap := some fun _ => false }
  modify (markBlocks 0 (boot.dataStartSector + 64))

/-- Write the new tables to the disk, past the cache. -/
def formatDisk : FsProgram Unit := do
  let fs ← reads id
  diskWriteN fs.boot.freeBitmapSector fs.bitmapSectors
    (bitmapSector (fs.bitmap.getD fun _ => false))
  diskWrite 0 fs.boot.encode
  diskWriteN fs.boot.inodeTableSector fs.boot.inodeSectors
    (tableSector fs.inodes)

/-- The branch of `fs_init` that makes a new file system. -/
def fsFormat : FsProgram Unit := do
  formatTables
  formatDisk
  modify fun fs => { fs with initialized := true }
  let _ ← request .invalidate
  let _ ← attempt fsLoadBitmap
  createAll standardDirs

/-- Read consecutive sectors past the cache. -/
def diskReadN (lba : Nat) : Nat → Nat → FsProgram (List Sector)
  | _, 0 => pure []
  | first, count + 1 => do
      let bytes ← diskRead (u32 (lba + first))
      let rest ← diskReadN lba (first + 1) count
      pure (bytes :: rest)

def loadInodes (old : Nat → Inode) (sectors : List Sector) (index : Nat) : Inode :=
  if inodeSize * index < sectorSize * sectors.length then
    Inode.decode
      (fun position =>
        if position < sectorSize * sectors.length then
          sectorByte (sectors.getD (position / sectorSize) fun _ => 0)
            (position % sectorSize)
        else
          bytesOf (old (position / inodeSize)).encode (position % inodeSize))
      (inodeSize * index)
  else
    old index

/-- A file must not be larger than its sectors. -/
def clampSize (index : Nat) : FsProgram Unit := do
  let inode ← inodeAt index
  if inode.occupied then do
    let capacity ← inodeByteCapacity inode
    whenever (capacity < inode.sizeBytes) <|
      modifyInode index fun inode => { inode with sizeBytes := capacity }
  else
    pure ()

def clampSizes : List Nat → FsProgram Unit
  | [] => pure ()
  | index :: rest => do
      clampSize index
      clampSizes rest

/-- The branch of `fs_init` that loads an existing file system. -/
def fsLoad : FsProgram Unit := do
  let boot ← reads FsState.boot
  let table ← diskReadN boot.inodeTableSector 0 boot.inodeSectors
  modify fun fs =>
    { fs with inodes := loadInodes fs.inodes table, initialized := true }
  fsLoadBitmap
  whenever (0 < boot.logNext) do
    let _ ← attempt fsRecover
    pure ()
  clampSizes inodeNumbers
  let _ ← attempt (fsFsck true)
  pure ()

/-- `fs_init`, once the disk is selected. -/
def fsInit : FsProgram Unit := do
  let fs ← reads id
  if fs.initialized then
    pure ()
  else do
    let _ ← request .init
    let superblock ← diskRead 0
    modify fun fs => { fs with boot := BootSector.decode superblock }
    if fsLayoutValid (BootSector.decode superblock) then fsLoad else fsFormat

end KnitOS.Fs
