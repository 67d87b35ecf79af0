import KnitOS.Storage.Disk
import Mathlib.Algebra.Ring.Nat
import Mathlib.Data.List.FinRange

/-!
# The write-back sector cache

The file system reaches the disk through 256 cache slots.  A slot is chosen
for a new sector by `slotEvict`: an unused slot if there is one, and otherwise
the slot with the smallest stamp, which is written back first when dirty.
-/

namespace KnitOS.Storage

open Lib Lib.Command

abbrev cacheSlots : Nat := 256

instance cacheSlots_neZero : NeZero cacheSlots := ⟨by decide⟩

structure CacheSlot where
  used : Bool
  dirty : Bool
  lba : Nat
  stamp : Nat
  data : Sector

/-- The static variables of the cache. -/
structure FsCache where
  slots : Fin cacheSlots → CacheSlot
  clock : Nat
  hits : Nat
  misses : Nat
  ready : Bool

/-- The cache together with the disk below it. -/
structure CachedDisk where
  cache : FsCache
  disk : Disk

def fsCacheInit : Command CachedDisk Unit :=
  modify fun state =>
    { state with
      cache :=
        { slots := fun _ => ⟨false, false, 0, 0, fun _ => 0⟩
          clock := 1
          hits := 0
          misses := 0
          ready := true } }

def fsCacheInvalidateAll : Command CachedDisk Unit :=
  modify fun state =>
    { state with
      cache :=
        { state.cache with
          slots := fun index =>
            { state.cache.slots index with used := false, dirty := false } } }

namespace FsCache

/-- `slot_find`: the first used slot that holds the sector. -/
def slotFind (cache : FsCache) (lba : Nat) : Option (Fin cacheSlots) :=
  (List.finRange cacheSlots).find? fun index =>
    (cache.slots index).used && (cache.slots index).lba == lba

/-- The early return of `slot_evict`: the first unused slot. -/
def firstUnused (cache : FsCache) : Option (Fin cacheSlots) :=
  (List.finRange cacheSlots).find? fun index =>
    !(cache.slots index).used

/-- The second loop of `slot_evict`: the first slot of smallest stamp.  The
clean slot that its first loop selects is overwritten before this loop and
has no effect. -/
def oldestSlot (cache : FsCache) : Fin cacheSlots :=
  (List.finRange cacheSlots).tail.foldl
    (fun best index =>
      if (cache.slots index).stamp < (cache.slots best).stamp then
        index
      else
        best)
    0

def setSlot (cache : FsCache) (index : Fin cacheSlots) (slot : CacheSlot) : FsCache :=
  { cache with slots := Function.update cache.slots index slot }

def nextStamp (cache : FsCache) : Nat :=
  u32 (cache.clock + 1)

def stampSlot (cache : FsCache) (index : Fin cacheSlots) (slot : CacheSlot) : FsCache :=
  { cache.setSlot index { slot with stamp := cache.nextStamp } with
    clock := cache.nextStamp }

end FsCache

namespace CachedDisk

def setSlot (state : CachedDisk) (index : Fin cacheSlots) (slot : CacheSlot) : CachedDisk :=
  { state with cache := state.cache.setSlot index slot }

def stampSlot (state : CachedDisk) (index : Fin cacheSlots) (slot : CacheSlot) : CachedDisk :=
  { state with cache := state.cache.stampSlot index slot }

end CachedDisk

/-- Write the bytes of a slot to its sector; the slot becomes clean when the
transfer succeeds. -/
def slotWriteBack (index : Fin cacheSlots) : Command CachedDisk Unit :=
  ⟨fun state =>
    let slot := state.cache.slots index
    match state.disk.diskWriteSector slot.lba slot.data with
    | (true, disk) =>
      (some (),
        { state with
          cache := state.cache.setSlot index { slot with dirty := false }
          disk := disk })
    | (false, disk) => (none, { state with disk := disk })⟩

def slotEvict : Command CachedDisk (Fin cacheSlots) := do
  let cache ← reads CachedDisk.cache
  match cache.firstUnused with
  | some index => pure index
  | none =>
    let best := cache.oldestSlot
    whenever (cache.slots best).dirty (slotWriteBack best)
    pure best

/-- The loop of `fs_cache_sync` over the remaining slots. -/
def syncSlots : List (Fin cacheSlots) → Command CachedDisk Unit
  | [] => pure ()
  | index :: rest => do
      let slot ← reads fun state => state.cache.slots index
      whenever (slot.used && slot.dirty) (slotWriteBack index)
      syncSlots rest

def fsCacheSync : Command CachedDisk Unit := do
  let ready ← reads fun state => state.cache.ready
  if ready then
    syncSlots (List.finRange cacheSlots)
  else
    pure ()

/-- `disk_read_sector` into a buffer of the caller. -/
def rawReadSector (lba : Nat) : Command CachedDisk Sector :=
  ⟨fun state =>
    match state.disk.diskReadSector lba with
    | (.ok bytes, disk) => (some bytes, { state with disk := disk })
    | (.error _, disk) => (none, { state with disk := disk })⟩

def rawWriteSector (lba : Nat) (bytes : Sector) : Command CachedDisk Unit :=
  ⟨fun state =>
    match state.disk.diskWriteSector lba bytes with
    | (true, disk) => (some (), { state with disk := disk })
    | (false, disk) => (none, { state with disk := disk })⟩

/-- The miss path of `fs_cache_read_sector` once a slot is chosen: the
transfer goes straight into the slot's own buffer, so that a failing one
leaves its bytes there. -/
def slotFill (index : Fin cacheSlots) (lba : Nat) : Command CachedDisk Sector :=
  ⟨fun state =>
    let slot := state.cache.slots index
    match state.disk.diskReadSector lba with
    | (.ok bytes, disk) =>
      (some bytes,
        ({ state with disk := disk }).stampSlot index
          { slot with used := true, dirty := false, lba := lba, data := bytes })
    | (.error garbage, disk) =>
      (none,
        ({ state with disk := disk }).setSlot index
          { slot with data := garbage })⟩

def fsCacheReadSector (lba : Nat) : Command CachedDisk Sector := do
  let cache ← reads CachedDisk.cache
  if cache.ready then
    match cache.slotFind lba with
    | some index => do
        modify fun state =>
          { state with cache := { state.cache with hits := u32 (state.cache.hits + 1) } }
        modify fun state => state.stampSlot index (cache.slots index)
        pure (cache.slots index).data
    | none => do
        modify fun state =>
          { state with
            cache := { state.cache with misses := u32 (state.cache.misses + 1) } }
        let index ← slotEvict
        slotFill index lba
  else
    rawReadSector lba

/-- The slot `fs_cache_write_sector` writes to. -/
def slotForWrite (lba : Nat) : Command CachedDisk (Fin cacheSlots) := do
  let cache ← reads CachedDisk.cache
  match cache.slotFind lba with
  | some index => pure index
  | none => slotEvict

def fsCacheWriteSector (lba : Nat) (bytes : Sector) : Command CachedDisk Unit := do
  let ready ← reads fun state => state.cache.ready
  if ready then
    let index ← slotForWrite lba
    modify fun state =>
      state.stampSlot index
        { state.cache.slots index with
          used := true, dirty := true, lba := lba, data := bytes }
  else
    rawWriteSector lba bytes

end KnitOS.Storage
