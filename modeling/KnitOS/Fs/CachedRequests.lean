import KnitOS.Fs.Flat
import KnitOS.Lib.Requests

/-!
# Calls that never bypass the cache

Once the tables are loaded, `fs_fsck`, `fs_create_dir` and everything they call
read and write sectors through the cache only.  A flat disk that runs keeps
running then.
-/

namespace KnitOS.Fs

open Lib Lib.Program Storage

/-- The requests that go through the cache. -/
def DiskRequest.Cached : DiskRequest → Prop
  | .read _ | .write _ _ | .sync => True
  | _ => False

/-- All requests of a program go through the cache. -/
abbrev UsesCache {α : Type} (program : FsProgram α) : Prop := Confined DiskRequest.Cached program

theorem flatDevice_running (message : DiskRequest) (flat : FlatDisk)
    (cached : message.Cached) (running : ∃ disk, flat = .running disk) :
    ∃ disk, (flatDevice message flat).2 = .running disk := by
  obtain ⟨disk, rfl⟩ := running
  cases message with
  | read lba => exact ⟨_, rfl⟩
  | write lba bytes => exact ⟨_, rfl⟩
  | sync => exact ⟨_, rfl⟩
  | init => exact cached.elim
  | invalidate => exact cached.elim
  | rawRead lba => exact cached.elim
  | rawWrite lba bytes => exact cached.elim

-- an instance for a long sequence of steps is a large term
set_option synthInstance.maxSize 20000

instance confined_request_read (lba : Nat) : UsesCache (request (.read lba)) :=
  confined_request trivial

instance confined_request_write (lba : Nat) (bytes : Sector) :
    UsesCache (request (.write lba bytes)) :=
  confined_request trivial

instance confined_request_sync : UsesCache (request .sync) :=
  confined_request trivial

instance confined_expect (response : Option Sector) : UsesCache (expect response) := by
  cases response with
  | none =>
    exact confined_fail
  | some bytes =>
    exact confined_pure bytes

instance confined_dRead (lba : Nat) : UsesCache (dRead lba) := by
  unfold dRead
  infer_instance

instance confined_dWrite (lba : Nat) (bytes : Sector) : UsesCache (dWrite lba bytes) := by
  unfold dWrite
  infer_instance

instance confined_cacheSync : UsesCache cacheSync := by
  unfold cacheSync
  infer_instance

instance confined_dWriteN (lba count : Nat) (bytes : Nat → Sector) :
    UsesCache (dWriteN lba count bytes) := by
  unfold dWriteN
  infer_instance

instance confined_fsNow : UsesCache fsNow := by
  unfold fsNow
  infer_instance

instance confined_malloc (size : Nat) : UsesCache (malloc size) := by
  unfold malloc
  infer_instance

instance confined_inodeAt (index : Nat) : UsesCache (inodeAt index) := by
  unfold inodeAt
  infer_instance

instance confined_modifyInode (index : Nat) (update : Inode → Inode) :
    UsesCache (modifyInode index update) := by
  unfold modifyInode
  infer_instance

instance confined_writeBoot : UsesCache writeBoot := by
  unfold writeBoot
  infer_instance

instance confined_announceLog (logNext : Nat) : UsesCache (announceLog logNext) := by
  unfold announceLog modifyBoot
  infer_instance

instance confined_dWriteAll (writes : List (Nat × Sector)) : UsesCache (dWriteAll writes) := by
  induction writes with
  | nil =>
    exact confined_pure ()
  | cons write rest ih =>
    unfold dWriteAll
    infer_instance

instance confined_fsJournalCommit (homes : List (Nat × Sector)) :
    UsesCache (fsJournalCommit homes) := by
  unfold fsJournalCommit
  infer_instance

instance confined_writeBitmapTail : UsesCache writeBitmapTail := by
  unfold writeBitmapTail
  refine Confined.bind inferInstance fun fs => ?_
  split <;> infer_instance

instance confined_fsPersistMeta : UsesCache fsPersistMeta := by
  unfold fsPersistMeta
  infer_instance

instance confined_fsLoadBitmap : UsesCache fsLoadBitmap := by
  unfold fsLoadBitmap
  infer_instance

instance confined_fsAllocBlocks (count : Nat) : UsesCache (fsAllocBlocks count) := by
  unfold fsAllocBlocks
  refine Confined.bind inferInstance fun fs =>
    Confined.bind inferInstance fun _ => ?_
  dsimp only
  split <;> infer_instance

instance confined_fsFreeBlocks (start count : Nat) : UsesCache (fsFreeBlocks start count) := by
  unfold fsFreeBlocks
  infer_instance

instance confined_readIndirect (inode : Inode) : UsesCache (readIndirect inode) := by
  unfold readIndirect
  infer_instance

instance confined_inodeSectorCount (inode : Inode) : UsesCache (inodeSectorCount inode) := by
  unfold inodeSectorCount
  refine Confined.bind inferInstance fun limit => ?_
  split <;> infer_instance

instance confined_checkedSector (lba : Nat) : UsesCache (checkedSector lba) := by
  unfold checkedSector
  infer_instance

instance confined_inodeMapSector (inode : Inode) (fileSector : Nat) :
    UsesCache (inodeMapSector inode fileSector) := by
  unfold inodeMapSector
  refine Confined.bind inferInstance fun limit => ?_
  split
  · infer_instance
  · refine Confined.bind inferInstance fun _ =>
      Confined.bind inferInstance fun block => ?_
    split <;> infer_instance

instance confined_freeExtents (extents : List Extent) : UsesCache (freeExtents extents) := by
  induction extents with
  | nil =>
    exact confined_pure ()
  | cons extent rest ih =>
    unfold freeExtents
    infer_instance

instance confined_clearIndirect (index indirectLba : Nat) :
    UsesCache (clearIndirect index indirectLba) := by
  unfold clearIndirect
  infer_instance

instance confined_inodeClearExtents (index : Nat) : UsesCache (inodeClearExtents index) := by
  unfold inodeClearExtents
  infer_instance

instance confined_indirectForAdd (index : Nat) : UsesCache (indirectForAdd index) := by
  unfold indirectForAdd
  infer_instance

instance confined_inodeAddExtent (index lba count : Nat) :
    UsesCache (inodeAddExtent index lba count) := by
  unfold inodeAddExtent
  refine Confined.bind inferInstance fun inode => ?_
  split
  · infer_instance
  · refine Confined.bind inferInstance fun indirect => ?_
    split <;> infer_instance

instance confined_allocUpTo (want : Nat) : UsesCache (allocUpTo want) := by
  induction want with
  | zero =>
    exact confined_fail
  | succ want ih =>
    unfold allocUpTo
    refine Confined.bind inferInstance fun start => ?_
    split
    · infer_instance
    · exact ih

instance confined_attachRun (index start count : Nat) :
    UsesCache (attachRun index start count) := by
  unfold attachRun
  refine Confined.bind inferInstance fun added => ?_
  split <;> infer_instance

instance confined_growRound (index want : Nat) : UsesCache (growRound index want) := by
  unfold growRound
  infer_instance

instance confined_growLoop (index needSecs rounds current : Nat) :
    UsesCache (growLoop index needSecs rounds current) := by
  induction rounds generalizing current with
  | zero =>
    exact confined_pure ()
  | succ rounds ih =>
    unfold growLoop
    infer_instance

instance confined_inodeGrowSectors (index needSecs : Nat) :
    UsesCache (inodeGrowSectors index needSecs) := by
  unfold inodeGrowSectors
  infer_instance

instance confined_readSectors (index first count : Nat) :
    UsesCache (readSectors index first count) := by
  induction count generalizing first with
  | zero =>
    exact confined_pure []
  | succ count ih =>
    unfold readSectors
    infer_instance

instance confined_writeSectors (index first : Nat) (sectors : List Sector) :
    UsesCache (writeSectors index first sectors) := by
  induction sectors generalizing first with
  | nil =>
    exact confined_pure ()
  | cons bytes rest ih =>
    unfold writeSectors
    infer_instance

instance confined_placeKept (index : Nat) (kept : List Sector) (start : Option Nat) :
    UsesCache (placeKept index kept start) := by
  cases start with
  | none =>
    unfold placeKept placeFragmented
    infer_instance
  | some start =>
    unfold placeKept placeContiguous
    refine Confined.bind inferInstance fun written => ?_
    split <;> infer_instance

instance confined_inodeShrinkTo (index needSecs : Nat) :
    UsesCache (inodeShrinkTo index needSecs) := by
  unfold inodeShrinkTo
  infer_instance

instance confined_inodeByteCapacity (inode : Inode) : UsesCache (inodeByteCapacity inode) := by
  unfold inodeByteCapacity
  infer_instance

instance confined_readChunk (index position count : Nat) :
    UsesCache (readChunk index position count) := by
  unfold readChunk
  refine Confined.bind inferInstance fun inode =>
    Confined.bind inferInstance fun mapped => ?_
  split <;> infer_instance

instance confined_readLoop (index rounds position remaining : Nat) : UsesCache
      (readLoop index rounds position remaining) := by
  induction rounds generalizing position remaining with
  | zero =>
    exact confined_pure []
  | succ rounds ih =>
    unfold readLoop
    infer_instance

instance confined_fsIndexRead (index offset size : Nat) :
    UsesCache (fsIndexRead index offset size) := by
  unfold fsIndexRead touchAccess
  infer_instance

instance confined_touchModified (index : Nat) : UsesCache (touchModified index) := by
  unfold touchModified
  infer_instance

instance confined_resizeTo (index need current : Nat) :
    UsesCache (resizeTo index need current) := by
  unfold resizeTo
  infer_instance

instance confined_fsIndexTruncate (index newSize : Nat) :
    UsesCache (fsIndexTruncate index newSize) := by
  unfold fsIndexTruncate
  infer_instance

instance confined_writeChunk (index position : Nat) (chunk : List UInt8) :
    UsesCache (writeChunk index position chunk) := by
  unfold writeChunk
  infer_instance

instance confined_writeLoop (index rounds position : Nat) (data : List UInt8) :
    UsesCache (writeLoop index rounds position data) := by
  induction rounds generalizing position data with
  | zero =>
    exact confined_pure ()
  | succ rounds ih =>
    unfold writeLoop
    infer_instance

instance confined_storeBytes (index offset : Nat) (data : List UInt8) :
    UsesCache (storeBytes index offset data) := by
  unfold storeBytes
  infer_instance

instance confined_fsIndexWrite (index offset : Nat) (data : List UInt8) :
    UsesCache (fsIndexWrite index offset data) := by
  unfold fsIndexWrite
  infer_instance

instance confined_dirLogicalSize (dir : Nat) : UsesCache (dirLogicalSize dir) := by
  unfold dirLogicalSize
  infer_instance

instance confined_readBlob (dir size : Nat) : UsesCache (readBlob dir size) := by
  unfold readBlob
  infer_instance

instance confined_checkBit (repair : Bool) (lba : Nat) (tally : Tally) :
    UsesCache (checkBit repair lba tally) := by
  unfold checkBit
  infer_instance

instance confined_checkSector (repair : Bool) (index fileSector : Nat) (tally : Tally) :
    UsesCache (checkSector repair index fileSector tally) := by
  unfold checkSector
  refine Confined.bind inferInstance fun inode =>
    Confined.bind inferInstance fun mapped =>
      Confined.bind inferInstance fun total => ?_
  split <;> infer_instance

instance confined_checkSectors (repair : Bool) (index first count : Nat) (tally : Tally) :
    UsesCache (checkSectors repair index first count tally) := by
  induction count generalizing first tally with
  | zero =>
    exact confined_pure tally
  | succ count ih =>
    unfold checkSectors
    infer_instance

instance confined_checkDirectory (repair : Bool) (index : Nat) (tally : Tally) :
    UsesCache (checkDirectory repair index tally) := by
  have blob : ∀ size tally,
      UsesCache (checkBlob repair index size tally) := by
    intro size tally
    unfold checkBlob
    refine Confined.bind inferInstance fun blob => ?_
    split <;> infer_instance
  unfold checkDirectory checkDirSize
  infer_instance

instance confined_checkInode (repair : Bool) (index : Nat) (tally : Tally) :
    UsesCache (checkInode repair index tally) := by
  unfold checkInode
  infer_instance

instance confined_checkLinks (repair : Bool) (index : Nat) (tally : Tally) :
    UsesCache (checkLinks repair index tally) := by
  unfold checkLinks
  infer_instance

instance confined_rebuildBit (sector : Nat) (tally : Tally) :
    UsesCache (rebuildBit sector tally) := by
  unfold rebuildBit
  infer_instance

instance confined_forInodes (body : Nat → Tally → FsProgram Tally)
    [∀ index tally, UsesCache (body index tally)] (indices : List Nat) (tally : Tally) :
    UsesCache (forInodes body indices tally) := by
  induction indices generalizing tally with
  | nil =>
    exact confined_pure tally
  | cons index rest ih =>
    unfold forInodes
    infer_instance

instance confined_fsFsck (repair : Bool) : UsesCache (fsFsck repair) := by
  unfold fsFsck finishRepair
  infer_instance

end KnitOS.Fs
