import KnitOS.Fs.Mount
import KnitOS.Storage.Coherence

/-!
# The disk as a plain array of sectors

`flatDevice` is what the cache and the disk below it act as when no transfer
fails.  It is `fresh` until the first cached request; only then are requests
past the cache known to agree with it.
-/

namespace KnitOS.Fs

open Lib Lib.Program Storage Function

/-- The array of sectors below the file system.  A `broken` array no longer
stands for the cached disk. -/
inductive FlatDisk where
  | fresh (sectors : Nat → Sector)
  | running (sectors : Nat → Sector)
  | broken

def flatDevice : Device FlatDisk DiskRequest (Option Sector)
  | .read lba, .fresh sectors => (some (sectors lba), .running sectors)
  | .read lba, .running sectors => (some (sectors lba), .running sectors)
  | .write lba bytes, .fresh sectors =>
    (some fun _ => 0, .running (update sectors lba bytes))
  | .write lba bytes, .running sectors =>
    (some fun _ => 0, .running (update sectors lba bytes))
  | .sync, .fresh sectors => (some fun _ => 0, .fresh sectors)
  | .sync, .running sectors => (some fun _ => 0, .running sectors)
  | .init, .fresh sectors => (some fun _ => 0, .fresh sectors)
  | .invalidate, .fresh sectors => (some fun _ => 0, .running sectors)
  | .rawRead lba, .fresh sectors => (some (sectors lba), .fresh sectors)
  | .rawWrite lba bytes, .fresh sectors =>
    (some fun _ => 0, .fresh (update sectors lba bytes))
  | _, _ => (none, .broken)

/-- How the array stands for the cached disk. -/
def FlatDisk.StandsFor (flat : FlatDisk) (dev : CachedDisk) : Prop :=
  match flat with
  | .fresh sectors => dev.Fresh ∧ dev.disk.sectors = sectors
  | .running sectors => dev.Sound ∧ dev.view = sectors
  | .broken => True

theorem FlatDisk.StandsFor.running_of_fresh {sectors : Nat → Sector}
    {dev : CachedDisk} (stands : (FlatDisk.fresh sectors).StandsFor dev) :
    (FlatDisk.running sectors).StandsFor dev := by
  obtain ⟨fresh, same⟩ := stands
  obtain ⟨sound, viewed⟩ := fresh.sound
  exact ⟨sound, viewed.trans same⟩

section

variable {sectors : Nat → Sector} {dev : CachedDisk}

theorem cachedDevice_read (stands : (FlatDisk.running sectors).StandsFor dev) (lba : Nat) :
    (cachedDevice (.read lba) dev).1 = some (sectors lba) ∧ (FlatDisk.running sectors).StandsFor
        (cachedDevice (.read lba) dev).2 := by
  obtain ⟨sound, viewed⟩ := stands
  obtain ⟨reached, returned, reachedSound, reachedView⟩ :=
    CachedDisk.fsCacheReadSector_spec sound lba
  have answered : cachedDevice (.read lba) dev = (some (dev.view lba), reached) := returned
  rw [answered]
  exact ⟨by rw [viewed], reachedSound, reachedView.trans viewed⟩

theorem cachedDevice_write (stands : (FlatDisk.running sectors).StandsFor dev) (lba : Nat)
    (bytes : Sector) : (cachedDevice (.write lba bytes) dev).1 = (some fun _ => 0) ∧
      (FlatDisk.running (update sectors lba bytes)).StandsFor
        (cachedDevice (.write lba bytes) dev).2 := by
  obtain ⟨sound, viewed⟩ := stands
  obtain ⟨reached, returned, reachedSound, reachedView⟩ :=
    CachedDisk.fsCacheWriteSector_spec sound lba bytes
  have answered : cachedDevice (.write lba bytes) dev = (some fun _ => 0, reached) := by
    simp [cachedDevice, cachedDevice.acknowledge, returned]
  rw [answered]
  exact ⟨rfl, reachedSound, by rw [reachedView, viewed]⟩

theorem cachedDevice_sync (stands : (FlatDisk.running sectors).StandsFor dev) :
    (cachedDevice .sync dev).1 = (some fun _ => 0) ∧
      (FlatDisk.running sectors).StandsFor (cachedDevice .sync dev).2 := by
  obtain ⟨sound, viewed⟩ := stands
  obtain ⟨reached, returned, reachedSound, reachedView, _⟩ := CachedDisk.fsCacheSync_spec sound
  have answered : cachedDevice .sync dev = (some fun _ => 0, reached) := by
    simp [cachedDevice, cachedDevice.acknowledge, returned]
  rw [answered]
  exact ⟨rfl, reachedSound, reachedView.trans viewed⟩

variable (stands : (FlatDisk.fresh sectors).StandsFor dev)

include stands

theorem cachedDevice_fresh_sync : (cachedDevice .sync dev).1 = (some fun _ => 0) ∧
    (FlatDisk.fresh sectors).StandsFor (cachedDevice .sync dev).2 := by
  obtain ⟨fresh, same⟩ := stands
  have skipped : ∀ indices, (syncSlots indices).run dev = (some (), dev) := by
    intro indices
    induction indices with
    | nil => rfl
    | cons index rest ih =>
      rw [syncSlots, Command.run_reads_bind, fresh.unused index]
      exact ih
  have returned : fsCacheSync.run dev = (some (), dev) := by
    rw [fsCacheSync, Command.run_reads_bind]
    split
    · exact skipped _
    · rfl
  have answered : cachedDevice .sync dev = (some fun _ => 0, dev) := by
    simp [cachedDevice, cachedDevice.acknowledge, returned]
  rw [answered]
  exact ⟨rfl, fresh, same⟩

theorem cachedDevice_fresh_invalidate : (cachedDevice .invalidate dev).1 = (some fun _ => 0) ∧
    (FlatDisk.running sectors).StandsFor (cachedDevice .invalidate dev).2 := by
  have freshAfter : (FlatDisk.fresh sectors).StandsFor (cachedDevice .invalidate dev).2 :=
    ⟨⟨stands.1.healthy, fun _ => rfl⟩, stands.2⟩
  exact ⟨rfl, freshAfter.running_of_fresh⟩

theorem cachedDevice_fresh_rawRead (lba : Nat) :
    (cachedDevice (.rawRead lba) dev).1 = some (sectors lba) ∧ (FlatDisk.fresh sectors).StandsFor
        (cachedDevice (.rawRead lba) dev).2 := by
  obtain ⟨fresh, same⟩ := stands
  have answered : cachedDevice (.rawRead lba) dev =
        (some (dev.disk.sectors lba), { dev with disk := dev.disk.tick }) := by
    simp [cachedDevice, rawReadSector, Disk.diskReadSector_of_healthy fresh.healthy]
  rw [answered]
  exact ⟨by rw [same], ⟨fresh.healthy.tick, fresh.unused⟩, same⟩

theorem cachedDevice_fresh_rawWrite (lba : Nat) (bytes : Sector) :
    (cachedDevice (.rawWrite lba bytes) dev).1 = (some fun _ => 0) ∧
      (FlatDisk.fresh (update sectors lba bytes)).StandsFor
        (cachedDevice (.rawWrite lba bytes) dev).2 := by
  obtain ⟨fresh, same⟩ := stands
  have answered : cachedDevice (.rawWrite lba bytes) dev =
        (some fun _ => 0, { dev with disk := dev.disk.put lba bytes }) := by
    simp [cachedDevice, cachedDevice.acknowledge, rawWriteSector,
      Disk.diskWriteSector_of_healthy fresh.healthy]
  rw [answered]
  refine ⟨rfl, ⟨fresh.healthy.put lba bytes, fresh.unused⟩, ?_⟩
  change update dev.disk.sectors lba bytes = _
  rw [same]

end

theorem flat_simulates : Simulates cachedDevice flatDevice (fun flat => flat ≠ .broken)
    (fun dev flat => flat.StandsFor dev) := by
  constructor
  · intro message flat valid broken
    rw [broken] at valid
    cases message <;> exact valid rfl
  · intro message dev flat stands valid
    cases flat with
    | broken => cases message <;> exact absurd rfl valid
    | fresh sectors =>
      cases message with
      | read lba => exact cachedDevice_read stands.running_of_fresh lba
      | write lba bytes =>
        exact cachedDevice_write stands.running_of_fresh lba bytes
      | sync => exact cachedDevice_fresh_sync stands
      | init => exact ⟨rfl, ⟨stands.1.healthy, fun _ => rfl⟩, stands.2⟩
      | invalidate => exact cachedDevice_fresh_invalidate stands
      | rawRead lba => exact cachedDevice_fresh_rawRead stands lba
      | rawWrite lba bytes =>
        exact cachedDevice_fresh_rawWrite stands lba bytes
    | running sectors =>
      cases message with
      | read lba => exact cachedDevice_read stands lba
      | write lba bytes => exact cachedDevice_write stands lba bytes
      | sync => exact cachedDevice_sync stands
      | init => exact absurd rfl valid
      | invalidate => exact absurd rfl valid
      | rawRead lba => exact absurd rfl valid
      | rawWrite lba bytes => exact absurd rfl valid

namespace FsState

variable (fs : FsState) (index : Nat) (inode : Inode)

@[simp]
theorem setInode_self : (fs.setInode index inode).inodes index = inode := by
  simp [setInode]

theorem setInode_other {other : Nat} (different : other ≠ index) :
    (fs.setInode index inode).inodes other = fs.inodes other := by
  simp [setInode, different]

@[simp]
theorem setInode_boot : (fs.setInode index inode).boot = fs.boot := rfl

@[simp]
theorem setInode_bitmap : (fs.setInode index inode).bitmap = fs.bitmap := rfl

@[simp]
theorem setInode_kernel : (fs.setInode index inode).kernel = fs.kernel := rfl

@[simp]
theorem setInode_setInode (later : Inode) : (fs.setInode index inode).setInode index later =
    fs.setInode index later := by
  simp [setInode]

@[simp]
theorem setInode_eq_self : fs.setInode index (fs.inodes index) = fs := by
  simp [setInode]

end FsState

section

variable {α δ : Type} (device : Device δ DiskRequest (Option Sector))
  (fs : FsState) (dev : δ)

@[simp]
theorem run_inodeAt_bind (index : Nat) (next : Inode → FsProgram α) :
    (inodeAt index >>= next).run device fs dev = (next (fs.inodes index)).run device fs dev := rfl

@[simp]
theorem run_modifyInode_bind (index : Nat) (update : Inode → Inode) (next : Unit → FsProgram α) :
    (modifyInode index update >>= next).run device fs dev =
      (next ()).run device (fs.setInode index (update (fs.inodes index))) dev := rfl

@[simp]
theorem run_modifyInode (index : Nat) (update : Inode → Inode) :
    (modifyInode index update).run device fs dev =
      (some (), fs.setInode index (update (fs.inodes index)), dev) := rfl

@[simp]
theorem run_modifyBoot_bind (update : BootSector → BootSector) (next : Unit → FsProgram α) :
    (modifyBoot update >>= next).run device fs dev =
      (next ()).run device { fs with boot := update fs.boot } dev := rfl

/-- The state after the clock, the heap or the stack was asked. -/
def FsState.ask (fs : FsState) : FsState :=
  { fs with kernel := { fs.kernel with asked := fs.kernel.asked + 1 } }

@[simp]
theorem run_fsNow_bind (next : Nat → FsProgram α) : (fsNow >>= next).run device fs dev =
      (next (u32 (fs.kernel.clock fs.kernel.asked))).run device fs.ask dev := rfl

def FsState.grants (fs : FsState) (size : Nat) : Prop :=
  0 < size ∧ size ≤ heapSize ∧ fs.kernel.heap fs.kernel.asked size = true

theorem run_malloc_of_grants {fs : FsState} {size : Nat} (granted : fs.grants size) :
    (malloc size).run device fs dev = (some (), fs.ask, dev) := by
  unfold malloc
  rw [run_reads_bind, run_modify_bind]
  unfold FsState.grants at granted
  rw [require_of granted]
  rfl

theorem run_malloc_of_not_grants {fs : FsState} {size : Nat} (refused : ¬ fs.grants size) :
    (malloc size).run device fs dev = (none, fs.ask, dev) := by
  unfold malloc
  rw [run_reads_bind, run_modify_bind]
  unfold FsState.grants at refused
  rw [require_of_not refused]
  rfl

variable (disk : Nat → Sector)

@[simp]
theorem run_dRead_bind (lba : Nat) (next : Sector → FsProgram α) :
    (dRead lba >>= next).run flatDevice fs (.running disk) =
      (next (disk lba)).run flatDevice fs (.running disk) := rfl

@[simp]
theorem run_dRead (lba : Nat) : (dRead lba).run flatDevice fs (.running disk) =
      (some (disk lba), fs, .running disk) := rfl

@[simp]
theorem run_dWrite_bind (lba : Nat) (bytes : Sector) (next : Unit → FsProgram α) :
    (dWrite lba bytes >>= next).run flatDevice fs (.running disk) = (next ()).run flatDevice fs
        (.running (update disk lba bytes)) := rfl

@[simp]
theorem run_dWrite (lba : Nat) (bytes : Sector) :
    (dWrite lba bytes).run flatDevice fs (.running disk) =
      (some (), fs, .running (update disk lba bytes)) := rfl

@[simp]
theorem run_cacheSync_bind (next : Unit → FsProgram α) :
    (cacheSync >>= next).run flatDevice fs (.running disk) =
      (next ()).run flatDevice fs (.running disk) := rfl

@[simp]
theorem run_cacheSync : cacheSync.run flatDevice fs (.running disk) =
      (some (), fs, .running disk) := rfl

end

end KnitOS.Fs
