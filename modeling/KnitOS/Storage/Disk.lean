import KnitOS.Lib.Command

/-!
# Sectors and the disk below the cache

Every transfer of a sector may fail, as a schedule of faults indexed by the
number of transfers says.  A failing one leaves arbitrary bytes behind, in the
buffer when reading and in the sector when writing.
-/

namespace KnitOS.Storage

abbrev sectorSize : Nat := 512

abbrev Sector : Type := Fin sectorSize → UInt8

/-- Unsigned 32-bit wrap-around. -/
def u32 (value : Nat) : Nat :=
  value % 4294967296

theorem u32_of_lt {value : Nat} (bound : value < 4294967296) : u32 value = value :=
  Nat.mod_eq_of_lt bound

theorem u32_lt (value : Nat) : u32 value < 4294967296 := Nat.mod_lt _ (by decide)

/-- A disk: its sectors, the fault schedule, the number of transfers made so
far, and the history of sector writes, oldest first. -/
structure Disk where
  sectors : Nat → Sector
  faults : Nat → Option Sector
  transfers : Nat
  history : List (Nat × Sector)

namespace Disk

/-- No transfer of this disk fails from now on. -/
def Healthy (disk : Disk) : Prop :=
  ∀ transfer, disk.transfers ≤ transfer → disk.faults transfer = none

/-- Put bytes into a sector and record the write. -/
def put (lba : Nat) (bytes : Sector) (disk : Disk) : Disk :=
  { disk with
    sectors := Function.update disk.sectors lba bytes
    transfers := disk.transfers + 1
    history := disk.history ++ [(lba, bytes)] }

def tick (disk : Disk) : Disk :=
  { disk with transfers := disk.transfers + 1 }

/-- `disk_read_sector`: the bytes read, or the bytes a failing transfer left
in the destination buffer. -/
def diskReadSector (lba : Nat) (disk : Disk) : Except Sector Sector × Disk :=
  match disk.faults disk.transfers with
  | none => (.ok (disk.sectors lba), disk.tick)
  | some garbage => (.error garbage, disk.tick)

/-- `disk_write_sector`: `false` when the transfer fails. -/
def diskWriteSector (lba : Nat) (bytes : Sector) (disk : Disk) : Bool × Disk :=
  match disk.faults disk.transfers with
  | none => (true, disk.put lba bytes)
  | some garbage => (false, disk.put lba garbage)

theorem Healthy.tick {disk : Disk} (healthy : disk.Healthy) : disk.tick.Healthy := by
  intro transfer later
  exact healthy transfer (Nat.le_of_succ_le later)

theorem Healthy.put {disk : Disk} (healthy : disk.Healthy) (lba : Nat) (bytes : Sector) :
    (disk.put lba bytes).Healthy := by
  intro transfer later
  exact healthy transfer (Nat.le_of_succ_le later)

theorem diskReadSector_of_healthy {disk : Disk} (healthy : disk.Healthy) (lba : Nat) :
    disk.diskReadSector lba = (.ok (disk.sectors lba), disk.tick) := by
  simp [diskReadSector, healthy disk.transfers (Nat.le_refl _)]

theorem diskWriteSector_of_healthy {disk : Disk}
    (healthy : disk.Healthy) (lba : Nat) (bytes : Sector) :
    disk.diskWriteSector lba bytes = (true, disk.put lba bytes) := by
  simp [diskWriteSector, healthy disk.transfers (Nat.le_refl _)]

end Disk

end KnitOS.Storage
