import KnitOS.Fs.Journal

/-!
# Sector allocation and extents

The bitmap has one bit per sector of the disk.  A file owns the sectors of its
four direct extents, of up to 64 extents in its indirect block, and the
indirect block itself.
-/

namespace KnitOS.Fs

open Lib.Program Storage

/-- `fs_bitmap_test`: sectors without a bit count as occupied. -/
def fsBitmapTest (fs : FsState) (sector : Nat) : Bool :=
  match fs.bitmap with
  | some bits =>
    if fs.boot.totalSectors ≤ sector then true else bits sector
  | none => true

def fsBitmapSet (sector : Nat) (isOccupied : Bool) (fs : FsState) : FsState :=
  match fs.bitmap with
  | some bits =>
    if fs.boot.totalSectors ≤ sector then fs
    else { fs with bitmap := some (Function.update bits sector isOccupied) }
  | none => fs

/-- The bits of one sector of the bitmap, read from the disk. -/
def loadBitmapSector (bits : Nat → Bool) (index : Nat) (bytes : Sector) : Nat → Bool :=
  fun sector =>
    if sector / 8 / sectorSize = index then
      (sectorByte bytes (sector / 8 % sectorSize)).toNat.testBit (sector % 8)
    else
      bits sector

def fsLoadBitmap : FsProgram Unit := do
  let fs ← reads id
  if fs.bitmap.isSome then
    pure ()
  else
    let sectors := u32 (fs.boot.freeBitmapSize + sectorSize - 1) / sectorSize
    modify fun fs => { fs with bitmapSectors := sectors }
    require (sectors ≠ 0)
    malloc (u32 (sectors * sectorSize))
    modify fun fs => { fs with bitmap := some fun _ => false }
    forRange
      (fun index => do
        let bytes ← dRead (u32 (fs.boot.freeBitmapSector + index))
        modify fun fs =>
          { fs with
            bitmap := fs.bitmap.map fun bits =>
              loadBitmapSector bits index bytes })
      0 sectors

def BootSector.allocBase (boot : BootSector) : Nat :=
  let logEnd := u32 (boot.logStartSector + boot.logSize)
  let base :=
    if 0 < boot.logSize ∧ boot.dataStartSector < logEnd then logEnd
    else boot.dataStartSector
  max base (u32 (boot.inodeTableSector + boot.inodeSectors))

/-- The search loop of `fs_alloc_blocks`: `run` free sectors end right before
`sector`, and `rounds` sectors are left to look at. -/
def findFreeRun (occupied : Nat → Bool) (count : Nat) : Nat → Nat → Nat → Option Nat
  | _, _, 0 => none
  | run, sector, rounds + 1 =>
    if occupied sector then
      findFreeRun occupied count 0 (sector + 1) rounds
    else if count ≤ run + 1 then
      some (sector + 1 - count)
    else
      findFreeRun occupied count (run + 1) (sector + 1) rounds

def markBlocks (start count : Nat) (fs : FsState) : FsState :=
  (List.range count).foldl
    (fun fs index => fsBitmapSet (u32 (start + index)) true fs) fs

def fsAllocBlocks (count : Nat) : FsProgram Nat := do
  let fs ← reads id
  require (fs.bitmap.isSome = true ∧ count ≠ 0)
  let base := fs.boot.allocBase
  match findFreeRun (fsBitmapTest fs) count 0 base
      (fs.boot.totalSectors - base) with
  | some start => do
      modify (markBlocks start count)
      pure start
  | none => fail

def freeBlocks (start count : Nat) (fs : FsState) : FsState :=
  (List.range count).foldl
    (fun fs index =>
      if fsBitmapTest fs (u32 (start + index)) then
        fsBitmapSet (u32 (start + index)) false fs
      else
        fs)
    fs

def fsFreeBlocks (start count : Nat) : FsProgram Unit :=
  modify (freeBlocks start count)

/-- The largest number of sectors an extent or a file may have. -/
def FsState.maxSectors (fs : FsState) : Nat :=
  if fs.boot.totalSectors = 0 then 1024 else fs.boot.totalSectors

def extentCountSane (limit count : Nat) : Nat :=
  if limit < count then 0 else count

/-- A counting loop of `inode_sector_count`; `none` is its early return. -/
def countExtents (limit : Nat) : Nat → List Extent → Option Nat
  | total, [] => some total
  | total, extent :: rest =>
    let count := extentCountSane limit extent.count
    if limit - count < total then none
    else countExtents limit (total + count) rest

/-- The extents in the indirect block of an inode; none if the block cannot be
read. -/
def readIndirect (inode : Inode) : FsProgram (List Extent) := do
  let block ← attempt (dRead inode.indirectLba)
  pure (block.elim [] decodeExtents)

def inodeSectorCount (inode : Inode) : FsProgram Nat := do
  let limit ← reads FsState.maxSectors
  match countExtents limit 0 inode.direct with
  | none => pure limit
  | some total =>
    if inode.indirectLba = 0 then
      pure total
    else do
      let indirect ← readIndirect inode
      pure ((countExtents limit total indirect).getD limit)

/-- The outcome of a mapping loop of `inode_map_sector`: the sector, or the
number of sectors still to skip. -/
inductive Mapped where
  | found (lba : Nat)
  | left (sectors : Nat)

/-- A mapping loop of `inode_map_sector`. -/
def mapExtents (limit : Nat) : Nat → List Extent → Mapped
  | left, [] => .left left
  | left, extent :: rest =>
    let count := extentCountSane limit extent.count
    if count ≠ 0 ∧ left < count then
      .found (u32 (extent.lba + left))
    else
      mapExtents limit (left - count) rest

/-- The bound check of `inode_map_sector`. -/
def checkedSector (lba : Nat) : FsProgram Nat := do
  let total ← reads fun fs => fs.boot.totalSectors
  require (total = 0 ∨ lba < total)
  pure lba

def inodeMapSector (inode : Inode) (fileSector : Nat) : FsProgram Nat := do
  let limit ← reads FsState.maxSectors
  match mapExtents limit fileSector inode.direct with
  | .found lba => checkedSector lba
  | .left left => do
      require (inode.indirectLba ≠ 0)
      let block ← dRead inode.indirectLba
      match mapExtents limit left (decodeExtents block) with
      | .found lba => checkedSector lba
      | .left _ => fail

def freeExtents : List Extent → FsProgram Unit
  | [] => pure ()
  | extent :: rest => do
      whenever (extent.count ≠ 0) (fsFreeBlocks extent.lba extent.count)
      freeExtents rest

/-- The indirect part of `inode_clear_extents`. -/
def clearIndirect (index indirectLba : Nat) : FsProgram Unit := do
  let block ← attempt (dRead indirectLba)
  freeExtents (block.elim [] decodeExtents)
  fsFreeBlocks indirectLba 1
  modifyInode index fun inode => { inode with indirectLba := 0 }

def inodeClearExtents (index : Nat) : FsProgram Unit := do
  let inode ← inodeAt index
  freeExtents inode.direct
  modifyInode index fun inode =>
    { inode with
      direct := Inode.noExtents
      direct_length := Inode.noExtents_length }
  whenever (inode.indirectLba ≠ 0) (clearIndirect index inode.indirectLba)

/-- An insertion loop of `inode_add_extent`: the first empty entry takes the
new extent, and the first entry that ends where it starts is extended. -/
def addToExtents (lba count : Nat) : List Extent → Option (List Extent)
  | [] => none
  | extent :: rest =>
    if extent.count = 0 then
      some (⟨lba, count⟩ :: rest)
    else if u32 (extent.lba + extent.count) = lba then
      some (⟨extent.lba, u32 (extent.count + count)⟩ :: rest)
    else
      (addToExtents lba count rest).map fun added => extent :: added

theorem addToExtents_length {lba count : Nat} {extents : List Extent} : ∀ {added : List Extent},
    addToExtents lba count extents = some added → added.length = extents.length := by
  induction extents with
  | nil =>
    intro added inserted
    simp [addToExtents] at inserted
  | cons extent rest ih =>
    intro added inserted
    rw [addToExtents] at inserted
    split at inserted
    · cases inserted
      rfl
    · split at inserted
      · cases inserted
        rfl
      · obtain ⟨restAdded, restInserted, addedEq⟩ := Option.map_eq_some_iff.mp inserted
        rw [← addedEq, List.length_cons, List.length_cons, ih restInserted]

/-- The inode with an extent added to its direct extents, if there is room. -/
def Inode.addDirect (inode : Inode) (lba count : Nat) : Option Inode :=
  match added : addToExtents lba count inode.direct with
  | some direct =>
    some
      { inode with
        direct := direct
        direct_length :=
          (addToExtents_length added).trans inode.direct_length }
  | none => none

/-- The indirect block of an inode for `inode_add_extent`, allocated if there
is none. -/
def indirectForAdd (index : Nat) : FsProgram (Nat × List Extent) := do
  let inode ← inodeAt index
  if inode.indirectLba = 0 then do
    let block ← fsAllocBlocks 1
    modifyInode index fun inode => { inode with indirectLba := block }
    pure (block, List.replicate indirectMax ⟨0, 0⟩)
  else do
    let bytes ← dRead inode.indirectLba
    pure (inode.indirectLba, decodeExtents bytes)

def inodeAddExtent (index lba count : Nat) : FsProgram Unit := do
  let inode ← inodeAt index
  match inode.addDirect lba count with
  | some added => modifyInode index fun _ => added
  | none => do
      let indirect ← indirectForAdd index
      match addToExtents lba count indirect.2 with
      | some added => dWrite indirect.1 (encodeExtents added)
      | none => fail

/-- The inner loop of `inode_grow_sectors`: the longest run of at most `want`
sectors, as its start and its length. -/
def allocUpTo : Nat → FsProgram (Nat × Nat)
  | 0 => fail
  | want + 1 => do
      let start ← attempt (fsAllocBlocks (want + 1))
      match start with
      | some start => pure (start, want + 1)
      | none => allocUpTo want

/-- Attach a fresh run to an inode, or give it back. -/
def attachRun (index start count : Nat) : FsProgram Unit := do
  let added ← attempt (inodeAddExtent index start count)
  match added with
  | some () => pure ()
  | none => do
      fsFreeBlocks start count
      fail

/-- One round of `inode_grow_sectors`: the number of sectors it added. -/
def growRound (index want : Nat) : FsProgram Nat := do
  let run ← allocUpTo want
  attachRun index run.1 run.2
  pure run.2

/-- The outer loop of `inode_grow_sectors`; every round adds a sector, so
`needSecs` rounds are enough. -/
def growLoop (index needSecs : Nat) : Nat → Nat → FsProgram Unit
  | 0, _ => pure ()
  | rounds + 1, current =>
    if current < needSecs then do
      let got ← growRound index (min (needSecs - current) 8)
      growLoop index needSecs rounds (current + got)
    else
      pure ()

def inodeGrowSectors (index needSecs : Nat) : FsProgram Unit := do
  let inode ← inodeAt index
  let current ← inodeSectorCount inode
  growLoop index needSecs needSecs current

def readSectors (index : Nat) : Nat → Nat → FsProgram (List Sector)
  | _, 0 => pure []
  | first, count + 1 => do
      let inode ← inodeAt index
      let lba ← inodeMapSector inode first
      let bytes ← dRead lba
      let rest ← readSectors index (first + 1) count
      pure (bytes :: rest)

def writeSectors (index : Nat) : Nat → List Sector → FsProgram Unit
  | _, [] => pure ()
  | first, bytes :: rest => do
      let inode ← inodeAt index
      let lba ← inodeMapSector inode first
      dWrite lba bytes
      writeSectors index (first + 1) rest

/-- The kept data of `inode_shrink_to` goes to one run of sectors. -/
def placeContiguous (index start : Nat) (kept : List Sector) : FsProgram Unit := do
  let written ← attempt
    (dWriteN start kept.length fun position => kept.getD position fun _ => 0)
  match written with
  | some () => attachRun index start kept.length
  | none => do
      fsFreeBlocks start kept.length
      fail

/-- The kept data of `inode_shrink_to` goes to fragments. -/
def placeFragmented (index : Nat) (kept : List Sector) : FsProgram Unit := do
  inodeGrowSectors index kept.length
  writeSectors index 0 kept

/-- Where `inode_shrink_to` puts the kept data. -/
def placeKept (index : Nat) (kept : List Sector) : Option Nat → FsProgram Unit
  | some start => placeContiguous index start kept
  | none => placeFragmented index kept

def inodeShrinkTo (index needSecs : Nat) : FsProgram Unit := do
  let inode ← inodeAt index
  let oldSecs ← inodeSectorCount inode
  if oldSecs ≤ needSecs then
    pure ()
  else if needSecs = 0 then
    inodeClearExtents index
  else do
    malloc (u32 (needSecs * sectorSize))
    let kept ← readSectors index 0 needSecs
    inodeClearExtents index
    let start ← attempt (fsAllocBlocks needSecs)
    placeKept index kept start
    cacheSync

def inodeByteCapacity (inode : Inode) : FsProgram Nat := do
  let sectors ← inodeSectorCount inode
  pure (if 0xFFFFFFFF / sectorSize < sectors then 0xFFFFFFFF
    else sectors * sectorSize)

end KnitOS.Fs
