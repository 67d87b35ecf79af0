import KnitOS.Fs.Directories

/-!
# The calls of the file system

Creating, deleting, linking and renaming files, extended attributes, the
consistency check, and mounting.
-/

namespace KnitOS.Fs

open Lib Lib.Program Storage

/-- `fs_alloc_inode`: the first entry of the table that is not occupied. -/
def fsAllocInode : FsProgram Nat := do
  let fs ← reads id
  match (List.range' 1 (maxInodes - 1)).find? fun index =>
      !(fs.inodes index).occupied with
  | some index => pure index
  | none => fail

def newInode (fs : FsState) (flags mode parent now : Nat) : Inode :=
  { Inode.zero with
    mode := mode
    flags := flags
    uid := fs.kernel.uid
    gid := fs.kernel.gid
    nlink := 1
    atime := now
    mtime := now
    ctime := now
    parent := parent }

/-- Fill a free entry of the table with a new inode. -/
def initInode (index flags mode parent : Nat) : FsProgram Unit := do
  let now ← fsNow
  let fs ← reads id
  modifyInode index fun _ => newInode fs flags mode parent now

def setFlags (index flags : Nat) : FsProgram Unit :=
  modifyInode index fun inode => { inode with flags := flags }

/-- Enter a new inode into a directory, or mark it as free again. -/
def enterNew (parent index : Nat) (name : List UInt8) : FsProgram Unit := do
  let entered ← attempt (dirAddEntry parent index name)
  match entered with
  | some () => pure ()
  | none => do
      setFlags index 0
      fail

def countInode : FsProgram Unit :=
  modifyBoot fun boot => { boot with inodeCount := u32 (boot.inodeCount + 1) }

abbrev modeFile : Nat := 0o644

abbrev modeDir : Nat := 0o755

abbrev modeLink : Nat := 0o777

/-- The path must not exist yet. -/
def requireAbsent (path : List UInt8) : FsProgram Unit := do
  let existing ← attempt (fsLookupIndex path false)
  require (existing.isNone = true)

/-- The parent directory and the last component of a path, where the caller
may write to the directory. -/
def writableParent (path : List UInt8) : FsProgram (Nat × List UInt8) := do
  let target ← fsParentAndName path
  let fs ← reads id
  require (fsAccessOk fs target.1 true = true)
  pure target

def fsCreateFile (path : List UInt8) (mode : Nat) : FsProgram Nat := do
  let fs ← reads id
  require (fs.initialized = true)
  requireAbsent path
  let target ← writableParent path
  let index ← fsAllocInode
  initInode index Inode.flagOccupied (if mode = 0 then modeFile else mode)
    target.1
  enterNew target.1 index target.2
  countInode
  fsPersistMeta
  pure index

/-- The inode a write goes to: an existing one, or a new file. -/
def writeTarget (path : List UInt8) : FsProgram Nat := do
  let existing ← attempt (fsLookupIndex path false)
  match existing with
  | some index => pure index
  | none => fsCreateFile path modeFile

def fsWrite (path : List UInt8) (data : List UInt8) : FsProgram Unit := do
  let fs ← reads id
  require (fs.initialized = true)
  fsLoadBitmap
  let index ← writeTarget path
  let inode ← inodeAt index
  require (inode.isDirectory = false)
  fsIndexTruncate index data.length
  if data.isEmpty then
    pure ()
  else do
    let written ← fsIndexWrite index 0 data
    require (written = data.length)

def fsTruncate (path : List UInt8) (newSize : Nat) : FsProgram Unit := do
  let index ← fsLookupIndex path true
  fsIndexTruncate index newSize

def touchChanged (index : Nat) : FsProgram Unit := do
  let now ← fsNow
  modifyInode index fun inode => { inode with ctime := now }

def releaseInode (index : Nat) : FsProgram Unit := do
  inodeClearExtents index
  let inode ← inodeAt index
  whenever (inode.xattrLba ≠ 0) (fsFreeBlocks inode.xattrLba 1)
  modifyInode index fun _ => Inode.zero
  modifyBoot fun boot => { boot with inodeCount := boot.inodeCount - 1 }

/-- Take one link off an inode; the last one frees it. -/
def dropLink (index : Nat) : FsProgram Unit := do
  let inode ← inodeAt index
  if 1 < inode.nlink then do
    modifyInode index fun inode => { inode with nlink := inode.nlink - 1 }
    touchChanged index
  else
    releaseInode index

/-- A directory can only be deleted when it is empty. -/
def requireDeletable (index : Nat) : FsProgram Unit := do
  let inode ← inodeAt index
  if inode.isDirectory then do
    let empty ← dirIsEmpty index
    require (empty = true)
  else
    pure ()

def fsDelete (path : List UInt8) : FsProgram Unit := do
  let fs ← reads id
  require (fs.initialized = true)
  let index ← fsLookupIndex path false
  require (index ≠ rootIno)
  let target ← writableParent path
  requireDeletable index
  dirRemoveEntry target.1 target.2
  dropLink index
  fsPersistMeta

def fsLink (oldPath newPath : List UInt8) : FsProgram Unit := do
  let fs ← reads id
  require (fs.initialized = true)
  let index ← fsLookupIndex oldPath false
  let inode ← inodeAt index
  require (inode.isDirectory = false)
  requireAbsent newPath
  let target ← writableParent newPath
  dirAddEntry target.1 index target.2
  modifyInode index fun inode =>
    { inode with nlink := (inode.nlink + 1) % 65536 }
  touchChanged index
  fsPersistMeta

def requireWritable (dir : Nat) : FsProgram Unit := do
  let fs ← reads id
  require (fsAccessOk fs dir true = true)

def fsRename (oldPath newPath : List UInt8) : FsProgram Unit := do
  let fs ← reads id
  require (fs.initialized = true)
  let index ← fsLookupIndex oldPath false
  requireAbsent newPath
  let source ← fsParentAndName oldPath
  let target ← fsParentAndName newPath
  requireWritable source.1
  requireWritable target.1
  dirAddEntry target.1 index target.2
  dirRemoveEntry source.1 source.2
  modifyInode index fun inode => { inode with parent := target.1 }
  touchChanged index
  fsPersistMeta

/-- The inline copy of a short link target, with its terminating zero. -/
def inlineTarget (old target : List UInt8) : List UInt8 :=
  (target ++ [0] ++ old.drop (target.length + 1)).take symlinkInlineSize

/-- Store the target of a new link, inline or in the file. -/
def storeTarget (index : Nat) (target : List UInt8) : FsProgram Unit :=
  if target.length < symlinkInlineSize then do
    modifyInode index fun inode =>
      { inode with
        symlinkInline := inlineTarget inode.symlinkInline target
        sizeBytes := target.length }
    fsPersistMeta
  else do
    fsIndexTruncate index target.length
    let written ← fsIndexWrite index 0 target
    require (written = target.length)

def fsSymlink (target linkPath : List UInt8) : FsProgram Unit := do
  requireAbsent linkPath
  let index ← fsCreateFile linkPath modeLink
  setFlags index (Inode.flagOccupied ||| Inode.flagSymlink)
  storeTarget index target

/-- A component of `fs_create_dir` that does not exist yet. -/
def makeDirectory (parent : Nat) (name : List UInt8) : FsProgram Nat := do
  let index ← fsAllocInode
  initInode index (Inode.flagOccupied ||| Inode.flagDirectory) modeDir parent
  let fs ← reads id
  if fsAccessOk fs parent true then do
    enterNew parent index name
    countInode
    fsPersistMeta
    pure index
  else do
    setFlags index 0
    fail

/-- One component of `fs_create_dir`: an existing directory or a new one. -/
def enterDirectory (parent : Nat) (name : List UInt8) : FsProgram Nat := do
  let existing ← attempt (dirFindName parent name)
  match existing with
  | none => makeDirectory parent name
  | some index => do
      let inode ← inodeAt index
      require (inode.isDirectory = true)
      pure index

/-- The component loop of `fs_create_dir`. -/
def createDirs : Nat → List UInt8 → Nat → FsProgram Unit
  | 0, _, _ => pure ()
  | rounds + 1, path, parent =>
    if path.isEmpty then
      pure ()
    else
      let name := path.takeWhile fun byte => byte != slash
      let rest := path.drop (name.length + 1)
      if name = [] then
        createDirs rounds rest parent
      else do
        let index ← enterDirectory parent name
        createDirs rounds rest index

def fsCreateDir (path : List UInt8) : FsProgram Unit := do
  let fs ← reads id
  require (fs.initialized = true)
  let components := dropSlash (truncatePath path)
  createDirs components.length components rootIno

/-- Change an inode that a path leads to, if the caller is allowed to. -/
def changeInode (path : List UInt8) (allowed : FsState → Inode → Bool)
    (update : Inode → Inode) : FsProgram Unit := do
  let index ← fsLookupIndex path false
  let fs ← reads id
  require (allowed fs (fs.inodes index) = true)
  modifyInode index update
  touchChanged index
  fsPersistMeta

/-- The caller is root or the owner of the file. -/
def ownsInode (fs : FsState) (inode : Inode) : Bool :=
  fs.kernel.uid == 0 || inode.uid == fs.kernel.uid

def fsChmod (path : List UInt8) (mode : Nat) : FsProgram Unit :=
  changeInode path ownsInode fun inode => { inode with mode := mode }

def fsChown (path : List UInt8) (uid gid : Nat) : FsProgram Unit :=
  changeInode path (fun fs _ => fs.kernel.uid == 0)
    fun inode => { inode with uid := uid, gid := gid }

def fsChgrp (path : List UInt8) (gid : Nat) : FsProgram Unit :=
  changeInode path ownsInode fun inode => { inode with gid := gid }

/-- The attribute sector of an inode, allocated and cleared if there is
none. -/
def xattrSector (index : Nat) : FsProgram Nat := do
  let inode ← inodeAt index
  if inode.xattrLba = 0 then do
    let sector ← fsAllocBlocks 1
    modifyInode index fun inode => { inode with xattrLba := sector }
    let _ ← attempt (dWrite sector fun _ => 0)
    pure sector
  else
    pure inode.xattrLba

def fsSetxattr (path name value : List UInt8) : FsProgram Unit := do
  let index ← fsLookupIndex path false
  let sector ← xattrSector index
  let _ ← dRead sector
  require (u32 (name.length + 1 + value.length + 1) < sectorSize)
  dWrite sector (sectorOf (bytesOf (name ++ 0 :: value)))
  fsPersistMeta

/-- `fs_getxattr`; the result is what was copied to the buffer. -/
def fsGetxattr (path name : List UInt8) (size : Nat) : FsProgram (List UInt8) := do
  let index ← fsLookupIndex path false
  let inode ← inodeAt index
  require (inode.xattrLba ≠ 0)
  let sector ← dRead inode.xattrLba
  require (u32 (name.length + 1) < sectorSize)
  require ((List.range name.length).map (sectorByte sector) = name ∧
    sectorByte sector name.length = 0)
  -- the value ends at a zero byte or with the sector
  let value := cString <|
    (List.range' (name.length + 1) (sectorSize - (name.length + 1))).map
      (sectorByte sector)
  pure (value.take size)

end KnitOS.Fs
