import KnitOS.Fs.Files
import KnitOS.Lib.Text

/-!
# Directories and path lookup

A directory is a file of records: the inode number, the length of the name,
the name, and padding to a multiple of four.  Paths are byte strings without
their terminating zero.
-/

namespace KnitOS.Fs

open Lib Lib.Program

abbrev rootIno : Nat := 1

abbrev filenameLen : Nat := 255

abbrev direntHdr : Nat := 5

def dirLogicalSize (dir : Nat) : FsProgram Nat :=
  if validIndex dir then do
    let inode ← inodeAt dir
    let capacity ← inodeByteCapacity inode
    pure (min (min inode.sizeBytes capacity) 65536)
  else
    pure 0

structure Dirent where
  ino : Nat
  name : List UInt8
deriving DecidableEq

/-- The size of a record, padded to a multiple of four. -/
def recordSize (nameLength : Nat) : Nat :=
  (direntHdr + nameLength + 3) / 4 * 4

def Dirent.size (entry : Dirent) : Nat :=
  recordSize entry.name.length

/-- `dirent_next` on the part of the blob from the current offset on. -/
def direntNext (blob : List UInt8) : Option Dirent :=
  match blob with
  | b0 :: b1 :: b2 :: b3 :: nameLength :: rest =>
    if recordSize nameLength.toNat ≤ blob.length then
      some ⟨wordOf b0 b1 b2 b3, rest.take nameLength.toNat⟩
    else
      none
  | _ => none

/-- The records of a blob, up to the first one that does not fit.  A record
is never empty, so as many rounds as bytes are enough. -/
def direntsOf : Nat → List UInt8 → List Dirent
  | 0, _ => []
  | rounds + 1, blob =>
    match direntNext blob with
    | some entry => entry :: direntsOf rounds (blob.drop entry.size)
    | none => []

/-- Whether the scanning loops stop at a record for this name. -/
def Dirent.isNamed (entry : Dirent) (name : List UInt8) : Bool :=
  entry.ino != 0 && entry.name == name

def readBlob (dir size : Nat) : FsProgram (List UInt8) := do
  malloc size
  fsIndexRead dir 0 size

/-- An inode number as an `int`: it must not be negative. -/
def asIndex (ino : Nat) : FsProgram Nat := do
  require (ino < 2147483648)
  pure ino

def dirFindName (dir : Nat) (name : List UInt8) : FsProgram Nat := do
  let inode ← inodeAt dir
  require (validIndex dir = true ∧ inode.isDirectory = true)
  let size ← dirLogicalSize dir
  require (size ≠ 0)
  let blob ← readBlob dir size
  match (direntsOf blob.length blob).find? fun entry => entry.isNamed name with
  | some entry => asIndex entry.ino
  | none => fail

def Dirent.encode (entry : Dirent) : List UInt8 :=
  wordBytes entry.ino ++ UInt8.ofNat entry.name.length :: entry.name ++
    List.replicate (entry.size - direntHdr - entry.name.length) 0

/-- The blob of a directory before a record is appended to it. -/
def oldBlob (dir old rec : Nat) : FsProgram (List UInt8) := do
  malloc (old + rec)
  if old = 0 then pure [] else fsIndexRead dir 0 old

def dirAddEntry (dir child : Nat) (name : List UInt8) : FsProgram Unit := do
  require (name.length ≠ 0 ∧ name.length ≤ filenameLen)
  let existing ← attempt (dirFindName dir name)
  require (existing.isNone = true)
  let entry : Dirent := ⟨child, name⟩
  let old ← dirLogicalSize dir
  let blob ← oldBlob dir old entry.size
  fsIndexTruncate dir (old + entry.size)
  let written ← fsIndexWrite dir 0 (blob ++ entry.encode)
  require (written = old + entry.size)

/-- The removal loop of `dir_remove_entry`: the blob without the first record
for the name. -/
def removeDirent (name : List UInt8) : Nat → List UInt8 → Option (List UInt8)
  | 0, _ => none
  | rounds + 1, blob =>
    match direntNext blob with
    | none => none
    | some entry =>
      if entry.isNamed name then
        some (blob.drop entry.size)
      else
        (removeDirent name rounds (blob.drop entry.size)).map fun rest =>
          blob.take entry.size ++ rest

def storeBlob (dir : Nat) (blob : List UInt8) : FsProgram Unit := do
  fsIndexTruncate dir blob.length
  if blob.isEmpty then
    pure ()
  else do
    let written ← fsIndexWrite dir 0 blob
    require (written = blob.length)

def dirRemoveEntry (dir : Nat) (name : List UInt8) : FsProgram Unit := do
  let size ← dirLogicalSize dir
  require (size ≠ 0)
  let blob ← readBlob dir size
  match removeDirent name blob.length blob with
  | some shorter => storeBlob dir shorter
  | none => fail

/-- `dir_is_empty`: a directory that cannot be read does not count as
empty. -/
def dirIsEmpty (dir : Nat) : FsProgram Bool := do
  let size ← dirLogicalSize dir
  if size = 0 then
    pure true
  else do
    let blob ← attempt (readBlob dir size)
    match blob with
    | none => pure false
    | some blob =>
      pure ((direntsOf blob.length blob).all fun entry => entry.ino == 0)

abbrev slash : UInt8 := 47

abbrev dot : UInt8 := 46

/-- The next path component of at most 254 bytes, and what follows it and the
slash after it. -/
def nextComponent (path : List UInt8) : List UInt8 × List UInt8 :=
  let name := (path.takeWhile fun byte => byte != slash).take (filenameLen - 1)
  let rest := path.drop name.length
  (name, if rest.head? = some slash then rest.tail else rest)

/-- The parent of a directory, for a path component of two dots. -/
def parentOf (dir : Nat) : FsProgram Nat := do
  let inode ← inodeAt dir
  pure (if inode.parent = 0 then rootIno else inode.parent)

/-- One lookup of the component loop: find a name and follow it if it is a
link; only a directory may be followed by more components. -/
def stepInto (follow : Nat → FsProgram Nat) (parent : Nat)
    (name : List UInt8) (more : Bool) : FsProgram Nat := do
  let found ← dirFindName parent name
  let index ← follow found
  let inode ← inodeAt index
  require (more = false ∨ inode.isDirectory = true)
  pure index

/-- The component loop of `fs_resolve_component`; every round consumes a byte
of the path, so as many rounds as bytes are enough. -/
def walk (follow : Nat → FsProgram Nat) : Nat → List UInt8 → Nat → Nat → FsProgram Nat
  | 0, _, _, last => pure last
  | rounds + 1, path, parent, last =>
    if path.isEmpty then
      pure last
    else
      let name := (nextComponent path).1
      let rest := (nextComponent path).2
      if name = [] ∨ name = [dot] then
        walk follow rounds rest parent last
      else if name = [dot, dot] then
        if parent = rootIno then
          walk follow rounds rest parent last
        else do
          let up ← parentOf parent
          walk follow rounds rest up up
      else do
        let index ← stepInto follow parent name (!rest.isEmpty)
        walk follow rounds rest (if rest.isEmpty then parent else index)
          index

/-- The target of a symbolic link, as `fs_follow_if_link` reads it: inline, or
from the file, where a short read leaves the end of the buffer as it was. -/
def linkTarget (index : Nat) : FsProgram (List UInt8) := do
  let inode ← inodeAt index
  require (inode.sizeBytes ≠ 0 ∧ inode.sizeBytes < filenameLen)
  if inode.sizeBytes < symlinkInlineSize ∧
      inode.symlinkInline.headD 0 ≠ 0 then
    pure (cString (inode.symlinkInline.take inode.sizeBytes))
  else do
    let stale ← staleBuffer inode.sizeBytes
    let bytes ← fsIndexRead index 0 inode.sizeBytes
    pure (cString (bytes ++ stale.drop bytes.length))

abbrev symlinkMax : Nat := 8

/-- The bytes of a path that fit the buffer of `fs_resolve_component`. -/
def truncatePath (path : List UInt8) : List UInt8 :=
  path.take 255

def dropSlash (path : List UInt8) : List UInt8 :=
  if path.head? = some slash then path.tail else path

/-- The component loop over a whole path. -/
def walkPath (follow : Nat → FsProgram Nat) (path : List UInt8) : FsProgram Nat := do
  require (path ≠ [])
  if path = [slash] then
    pure rootIno
  else do
    let components := dropSlash (truncatePath path)
    let last ← walk follow components.length components rootIno rootIno
    asIndex last

/-- `fs_follow_if_link`, given how to resolve the target of a link; at the
greatest depth there is no way to. -/
def followIfLink (isFollowing : Bool)
    (resolve : Option (List UInt8 → FsProgram Nat)) (index : Nat) : FsProgram Nat := do
  let inode ← inodeAt index
  if isFollowing && inode.isSymlink then
    match resolve with
    | none => fail
    | some resolve => do
        let target ← linkTarget index
        resolve target
  else
    pure index

/-- `fs_resolve_component` when `budget` more links may be followed. -/
def fsResolveComponent : Nat → Bool → List UInt8 → FsProgram Nat
  | 0, isFollowing, path => walkPath (followIfLink isFollowing none) path
  | budget + 1, isFollowing, path =>
    walkPath
      (followIfLink isFollowing (some (fsResolveComponent budget true)))
      path

def fsLookupIndex (path : List UInt8) (isFollowing : Bool) : FsProgram Nat := do
  let fs ← reads id
  require (fs.initialized = true)
  fsResolveComponent symlinkMax isFollowing path

/-- The directory part of a path and the last component. -/
def splitPath (path : List UInt8) : List UInt8 × List UInt8 :=
  let base :=
    (path.reverse.takeWhile fun byte => byte != slash).reverse
  (path.take (path.length - base.length - 1), base)

/-- The directory that a path without its last component names. -/
def parentDirectory (dir : List UInt8) : FsProgram Nat :=
  if dir = [] then
    pure rootIno
  else do
    require (dir.length < 256)
    let index ← fsLookupIndex dir true
    let inode ← inodeAt index
    require (inode.isDirectory = true)
    pure index

def fsParentAndName (path : List UInt8) : FsProgram (Nat × List UInt8) := do
  require (path.head? = some slash)
  let dir := (splitPath path).1
  let base := (splitPath path).2
  require (base ≠ [])
  let parent ← parentDirectory dir
  pure (parent, base.take (filenameLen - 1))

end KnitOS.Fs
