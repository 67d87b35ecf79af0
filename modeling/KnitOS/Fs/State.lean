import KnitOS.Fs.Layout
import KnitOS.Lib.Program
import KnitOS.Storage.Cache

/-!
# The variables of the file system and the device below it

The file system keeps the superblock, the inode table and the bitmap in
memory and reaches the disk through the sector cache.  Its functions are
programs over these variables; the cache is one device that can answer them.
-/

namespace KnitOS.Fs

open Lib Lib.Program Storage

/-- What the file system asks of the storage layer. -/
inductive DiskRequest where
  | read (lba : Nat)
  | write (lba : Nat) (bytes : Sector)
  | sync
  | init
  | invalidate
  | rawRead (lba : Nat)
  | rawWrite (lba : Nat) (bytes : Sector)

/-- What the rest of the kernel supplies: the caller's identity, the clock,
the allocator, the size of the disk and the bytes an uninitialised buffer
happens to hold.  Clock, allocator and buffers are read off schedules indexed
by the number of times they were asked. -/
structure Kernel where
  uid : Nat
  gid : Nat
  diskSizeSectors : Nat
  clock : Nat → Nat
  heap : Nat → Nat → Bool
  stale : Nat → Nat → UInt8
  asked : Nat

/-- The static variables of the file system.  The bitmap is the array
behind the pointer `bitmap`, as bits; entries of `inodes` from `maxInodes` on
stand for the memory behind the table. -/
structure FsState where
  boot : BootSector
  inodes : Nat → Inode
  initialized : Bool
  bitmap : Option (Nat → Bool)
  bitmapSectors : Nat
  kernel : Kernel

/-- A function of the file system.  The response `none` is a transfer that
failed. -/
abbrev FsProgram (α : Type) : Type :=
  Program FsState DiskRequest (Option Sector) α

def cachedDevice : Device CachedDisk DiskRequest (Option Sector)
  | .read lba, dev => (fsCacheReadSector lba).run dev
  | .write lba bytes, dev =>
    acknowledge ((fsCacheWriteSector lba bytes).run dev)
  | .sync, dev => acknowledge (fsCacheSync.run dev)
  | .init, dev => acknowledge (fsCacheInit.run dev)
  | .invalidate, dev => acknowledge (fsCacheInvalidateAll.run dev)
  | .rawRead lba, dev => (rawReadSector lba).run dev
  | .rawWrite lba bytes, dev => acknowledge ((rawWriteSector lba bytes).run dev)
where
  acknowledge (result : Option Unit × CachedDisk) :
      Option Sector × CachedDisk :=
    (result.1.map fun _ _ => 0, result.2)

/-- The bytes of a transfer that must succeed. -/
def expect : Option Sector → FsProgram Sector
  | some bytes => pure bytes
  | none => fail

def dRead (lba : Nat) : FsProgram Sector := do
  let response ← request (.read lba)
  expect response

def dWrite (lba : Nat) (bytes : Sector) : FsProgram Unit := do
  let response ← request (.write lba bytes)
  let _ ← expect response
  pure ()

def cacheSync : FsProgram Unit := do
  let response ← request .sync
  let _ ← expect response
  pure ()

def diskRead (lba : Nat) : FsProgram Sector := do
  let response ← request (.rawRead lba)
  expect response

def diskWrite (lba : Nat) (bytes : Sector) : FsProgram Unit := do
  let response ← request (.rawWrite lba bytes)
  let _ ← expect response
  pure ()

/-- `d_write_n`: consecutive sectors, the first failure ends the loop. -/
def dWriteN (lba count : Nat) (bytes : Nat → Sector) : FsProgram Unit :=
  forRange (fun index => dWrite (u32 (lba + index)) (bytes index)) 0 count

def diskWriteN (lba count : Nat) (bytes : Nat → Sector) : FsProgram Unit :=
  forRange (fun index => diskWrite (u32 (lba + index)) (bytes index)) 0 count

def fsNow : FsProgram Nat := do
  let now ← reads fun fs => fs.kernel.clock fs.kernel.asked
  modify fun fs =>
    { fs with kernel := { fs.kernel with asked := fs.kernel.asked + 1 } }
  pure (u32 now)

abbrev heapSize : Nat := 524288

/-- `malloc`, which refuses empty blocks and blocks larger than the heap. -/
def malloc (size : Nat) : FsProgram Unit := do
  let granted ← reads fun fs => fs.kernel.heap fs.kernel.asked size
  modify fun fs =>
    { fs with kernel := { fs.kernel with asked := fs.kernel.asked + 1 } }
  require (0 < size ∧ size ≤ heapSize ∧ granted = true)

/-- The contents of a buffer on the stack before anything is written to it. -/
def staleBuffer (size : Nat) : FsProgram (List UInt8) := do
  let bytes ← reads fun fs => fs.kernel.stale fs.kernel.asked
  modify fun fs =>
    { fs with kernel := { fs.kernel with asked := fs.kernel.asked + 1 } }
  pure ((List.range size).map bytes)

def modifyBoot (update : BootSector → BootSector) : FsProgram Unit :=
  modify fun fs => { fs with boot := update fs.boot }

def inodeAt (index : Nat) : FsProgram Inode :=
  reads fun fs => fs.inodes index

def FsState.setInode (fs : FsState) (index : Nat) (inode : Inode) : FsState :=
  { fs with inodes := Function.update fs.inodes index inode }

def modifyInode (index : Nat) (update : Inode → Inode) : FsProgram Unit :=
  modify fun fs => fs.setInode index (update (fs.inodes index))

def BootSector.inodeSectors (boot : BootSector) : Nat :=
  let slots := if boot.inodeSlots = 0 then maxInodes else boot.inodeSlots
  (min slots maxInodes * inodeSize + sectorSize - 1) / sectorSize

/-- The superblock `fs_init` makes for a new file system. -/
def formatBoot (diskSectors : Nat) : BootSector :=
  let total := if diskSectors = 0 then 1024 else diskSectors
  let tableSectors := (maxInodes * inodeSize + sectorSize - 1) / sectorSize
  let bitmapSize := u32 (total + 7) / 8
  let bitmapSecs := (bitmapSize + sectorSize - 1) / sectorSize
  let dataStart := 1 + tableSectors + bitmapSecs
  { magic := 0x4D4F5320
    version := 3
    totalSectors := total
    inodeTableSector := 1
    dataStartSector := dataStart
    inodeCount := 1
    freeBitmapSector := 1 + tableSectors
    freeBitmapSize := bitmapSize
    logStartSector := dataStart
    logSize := 64
    logNext := 0
    logMagic := 0x4C4F4700
    inodeSlots := maxInodes
    rootIno := 1
    quotaSoftBlocks := 0
    reserved := List.replicate 452 0 }

def writeBoot : FsProgram Unit := do
  let boot ← reads FsState.boot
  dWrite 0 boot.encode

end KnitOS.Fs
