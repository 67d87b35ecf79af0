import KnitOS.Fs.Recovery

/-!
# The superblock

`fs_layout_valid` adds sector numbers as 32-bit words, and it compares neither
the log with the tables nor the size of the bitmap with that of the disk.
-/

namespace KnitOS.Fs

open Lib Lib.Program Storage Function

/-- Consecutive sectors of a disk. -/
structure Area where
  start : Nat
  size : Nat
deriving DecidableEq

namespace Area

def Holds (area : Area) (sector : Nat) : Prop :=
  area.start ≤ sector ∧ sector < area.start + area.size

/-- No sector lies in both areas. -/
def Apart (first second : Area) : Prop :=
  ∀ sector, first.Holds sector → ¬ second.Holds sector

/-- All sectors of the area lie below a limit. -/
def Within (area : Area) (limit : Nat) : Prop :=
  ∀ sector, area.Holds sector → sector < limit

variable {first second : Area}

theorem apart_iff : first.Apart second ↔ first.size = 0 ∨ second.size = 0 ∨
    first.start + first.size ≤ second.start ∨ second.start + second.size ≤ first.start := by
  constructor
  · intro apart
    -- the greater of the two first sectors would lie in both areas
    have notBoth := apart (max first.start second.start)
    simp only [Holds] at notBoth
    omega
  · intro separated sector heldFirst heldSecond
    unfold Holds at heldFirst heldSecond
    omega

theorem within_iff {limit : Nat} :
    first.Within limit ↔ first.size = 0 ∨ first.start + first.size ≤ limit := by
  constructor
  · intro within
    have last := within (first.start + first.size - 1)
    simp only [Holds] at last
    omega
  · intro below sector held
    unfold Holds at held
    omega

end Area

namespace BootSector

def bootArea : Area :=
  ⟨0, 1⟩

def tableArea (boot : BootSector) : Area :=
  ⟨boot.inodeTableSector, boot.inodeSectors⟩

def bitmapArea (boot : BootSector) : Area :=
  ⟨boot.freeBitmapSector, (boot.freeBitmapSize + sectorSize - 1) / sectorSize⟩

def logArea (boot : BootSector) : Area :=
  ⟨boot.logStartSector, boot.logSize⟩

def areas (boot : BootSector) : List Area :=
  [bootArea, boot.tableArea, boot.bitmapArea, boot.logArea]

/-- The areas are apart and inside the file system, and the bitmap has a bit
for each sector: the byte of a bit is one that `fs_load_bitmap` loads. -/
structure Sound (boot : BootSector) : Prop where
  apart : boot.areas.Pairwise Area.Apart
  inside : ∀ area ∈ boot.areas, area.Within boot.totalSectors
  bits : boot.totalSectors ≤ 8 * boot.freeBitmapSize
  indexed : ∀ sector, sector < boot.totalSectors → sector / 8 < boot.bitmapSectors * sectorSize

/-- What `fs_layout_valid` leaves unchecked: no sum of it overflows, a log
lies before, between or behind the tables, and the bitmap is large enough. -/
structure Unwrapped (boot : BootSector) : Prop where
  tableEnd : boot.inodeTableSector + boot.inodeSectors < 4294967296
  bitmapSize : boot.freeBitmapSize + sectorSize - 1 < 4294967296
  bitmapEnd : boot.freeBitmapSector +
    (boot.freeBitmapSize + sectorSize - 1) / sectorSize < 4294967296
  logEnd : boot.logStartSector + boot.logSize < 4294967296
  log : boot.logSize = 0 ∨ boot.logStartSector + boot.logSize ≤ boot.inodeTableSector ∨
    boot.inodeTableSector + boot.inodeSectors ≤ boot.logStartSector ∧
      boot.logStartSector + boot.logSize ≤ boot.freeBitmapSector ∨ boot.freeBitmapSector +
      (boot.freeBitmapSize + sectorSize - 1) / sectorSize ≤ boot.logStartSector
  bits : boot.totalSectors ≤ 8 * boot.freeBitmapSize

/-- What `fs_layout_valid` compares. -/
structure Checked (boot : BootSector) : Prop where
  magic : boot.magic = 0x4D4F5320
  version : boot.version = 3
  table : boot.inodeTableSector ≠ 0
  bitmap : boot.freeBitmapSector ≠ 0
  total : 64 ≤ boot.totalSectors
  slots : boot.inodeSlots ≠ 0
  slotsFit : boot.inodeSlots ≤ maxInodes
  root : boot.rootIno = Fs.rootIno
  tableEnd : u32 (boot.inodeTableSector + boot.inodeSectors) < boot.totalSectors
  tableFirst : u32 (boot.inodeTableSector + boot.inodeSectors) ≤ boot.freeBitmapSector
  bitmapEnd : u32 (boot.freeBitmapSector + boot.bitmapSectors) ≤ boot.totalSectors
  bitmapFirst : u32 (boot.freeBitmapSector + boot.bitmapSectors) ≤ boot.dataStartSector
  log : boot.logSize = 0 ∨ boot.logStartSector ≠ 0 ∧
    u32 (boot.logStartSector + boot.logSize) ≤ boot.totalSectors

theorem fsLayoutValid_iff_checked (boot : BootSector) :
    fsLayoutValid boot = true ↔ boot.Checked := by
  simp only [fsLayoutValid, Bool.and_eq_true, Bool.or_eq_true, beq_iff_eq,
    bne_iff_ne, decide_eq_true_eq]
  constructor
  · rintro ⟨⟨⟨⟨⟨⟨⟨⟨⟨⟨⟨⟨magic, version⟩, table⟩, bitmap⟩, total⟩, slots⟩,
      slotsFit⟩, root⟩, tableEnd⟩, tableFirst⟩, bitmapEnd⟩, bitmapFirst⟩, log⟩
    exact ⟨magic, version, table, bitmap, total, slots, slotsFit, root,
      tableEnd, tableFirst, bitmapEnd, bitmapFirst, log⟩
  · rintro ⟨magic, version, table, bitmap, total, slots, slotsFit, root,
      tableEnd, tableFirst, bitmapEnd, bitmapFirst, log⟩
    exact ⟨⟨⟨⟨⟨⟨⟨⟨⟨⟨⟨⟨magic, version⟩, table⟩, bitmap⟩, total⟩, slots⟩,
      slotsFit⟩, root⟩, tableEnd⟩, tableFirst⟩, bitmapEnd⟩, bitmapFirst⟩, log⟩

theorem inodeSectors_pos {boot : BootSector} (slots : boot.inodeSlots ≠ 0) :
    0 < boot.inodeSectors := by
  unfold inodeSectors
  simp only [if_neg slots]
  change 0 < (min boot.inodeSlots 1024 * 136 + 512 - 1) / 512
  omega

theorem pairwise_areas_iff (boot : BootSector) : boot.areas.Pairwise Area.Apart ↔
    (bootArea.Apart boot.tableArea ∧ bootArea.Apart boot.bitmapArea ∧
      bootArea.Apart boot.logArea) ∧ (boot.tableArea.Apart boot.bitmapArea ∧
      boot.tableArea.Apart boot.logArea) ∧ boot.bitmapArea.Apart boot.logArea := by
  simp [areas]

theorem forall_areas_iff (boot : BootSector) (limit : Nat) :
    (∀ area ∈ boot.areas, area.Within limit) ↔ bootArea.Within limit ∧ boot.tableArea.Within limit ∧
        boot.bitmapArea.Within limit ∧ boot.logArea.Within limit := by
  simp [areas]

section

variable {boot : BootSector} (checked : boot.Checked)
  (total : boot.totalSectors < 4294967296)

include checked

theorem Unwrapped.sound (unwrapped : boot.Unwrapped) : boot.Sound := by
  have tableEnd := checked.tableEnd
  have tableFirst := checked.tableFirst
  have bitmapEnd := checked.bitmapEnd
  have logChecked := checked.log
  have table := checked.table
  obtain ⟨tableSmall, sizeSmall, bitmapSmall, logSmall, log, bits⟩ := unwrapped
  have bitmapSectors : boot.bitmapSectors =
      (boot.freeBitmapSize + sectorSize - 1) / sectorSize := by
    unfold BootSector.bitmapSectors
    rw [u32_of_lt sizeSmall]
  rw [u32_of_lt tableSmall] at tableEnd tableFirst
  rw [bitmapSectors, u32_of_lt bitmapSmall] at bitmapEnd
  rw [u32_of_lt logSmall] at logChecked
  refine ⟨(pairwise_areas_iff boot).mpr ⟨⟨?_, ?_, ?_⟩, ⟨?_, ?_⟩, ?_⟩,
    (forall_areas_iff boot _).mpr ⟨?_, ?_, ?_, ?_⟩, bits, ?_⟩
  · rw [Area.apart_iff]
    simp only [bootArea, tableArea]
    omega
  · rw [Area.apart_iff]
    simp only [bootArea, bitmapArea]
    omega
  · rw [Area.apart_iff]
    simp only [bootArea, logArea]
    omega
  · rw [Area.apart_iff]
    exact .inr (.inr (.inl tableFirst))
  · rw [Area.apart_iff]
    simp only [tableArea, logArea]
    omega
  · rw [Area.apart_iff]
    simp only [bitmapArea, logArea]
    omega
  · rw [Area.within_iff]
    simp only [bootArea]
    omega
  · rw [Area.within_iff]
    exact .inr tableEnd.le
  · rw [Area.within_iff]
    exact .inr bitmapEnd
  · rw [Area.within_iff]
    simp only [logArea]
    omega
  · intro sector below
    rw [bitmapSectors]
    change sector / 8 < (boot.freeBitmapSize + 512 - 1) / 512 * 512
    omega

include total

theorem Sound.unwrapped (logStart : boot.logStartSector < 4294967296)
    (bitmapSmall : boot.freeBitmapSize < 4294967296) (sound : boot.Sound) : boot.Unwrapped := by
  have tablePositive := inodeSectors_pos checked.slots
  have totalAtLeast := checked.total
  obtain ⟨_, ⟨_, tableLog⟩, bitmapLog⟩ := (pairwise_areas_iff boot).mp sound.apart
  obtain ⟨_, tableInside, bitmapInside, logInside⟩ := (forall_areas_iff boot _).mp sound.inside
  have bits := sound.bits
  have bitmapPositive : 0 < (boot.freeBitmapSize + sectorSize - 1) / sectorSize := by
    change 0 < (boot.freeBitmapSize + 512 - 1) / 512
    omega
  rw [Area.within_iff] at tableInside bitmapInside logInside
  rw [Area.apart_iff] at tableLog bitmapLog
  simp only [tableArea, bitmapArea, logArea]
    at tableInside bitmapInside logInside tableLog bitmapLog
  have sizeFits : boot.freeBitmapSize + sectorSize - 1 < 4294967296 := by
    -- otherwise the bitmap that is loaded has no byte at all
    by_contra overflows
    have first := sound.indexed 0 (by omega)
    unfold bitmapSectors at first
    change 0 / 8 < u32 (boot.freeBitmapSize + 512 - 1) / 512 * 512 at first
    change ¬ boot.freeBitmapSize + 512 - 1 < 4294967296 at overflows
    unfold u32 at first
    omega
  exact ⟨by omega, sizeFits, by omega, by omega, by omega, bits⟩

end

end BootSector

/-- A superblock that passes `fs_layout_valid` has a sound layout exactly if
it also passes the checks that are missing. -/
theorem fsLayoutValid_sound_iff (superblock : Sector)
    (valid : fsLayoutValid (BootSector.decode superblock) = true) :
    (BootSector.decode superblock).Sound ↔ (BootSector.decode superblock).Unwrapped := by
  have checked := (BootSector.fsLayoutValid_iff_checked _).mp valid
  constructor
  · intro sound
    exact sound.unwrapped checked (wordOf_lt _ _ _ _) (wordOf_lt _ _ _ _) (wordOf_lt _ _ _ _)
  · intro unwrapped
    exact unwrapped.sound checked

theorem fsLayoutValid_sound_newDisk : (BootSector.decode (formatBoot 4096).encode).Sound := by
  have decoded : BootSector.decode (formatBoot 4096).encode = formatBoot 4096 :=
    BootSector.decode_encode (by decide) List.length_replicate
  have valid : fsLayoutValid (formatBoot 4096) = true := by decide
  rw [← decoded] at valid
  apply (fsLayoutValid_sound_iff _ valid).mpr
  rw [decoded]
  exact ⟨by decide, by decide, by decide, by decide, by decide, by decide⟩

/-- A disk of 100000 sectors with one byte of bitmap. -/
def shortBitmap : BootSector :=
  { formatBoot 100000 with freeBitmapSize := 1 }

theorem decode_encode_shortBitmap : BootSector.decode shortBitmap.encode = shortBitmap :=
  BootSector.decode_encode (by decide) List.length_replicate

/-- The check accepts a bitmap of one byte: the bit of the last sector lies
behind the sector of it that is loaded. -/
theorem fsLayoutValid_accepts_shortBitmap :
    fsLayoutValid (BootSector.decode shortBitmap.encode) = true ∧
      ¬ (BootSector.decode shortBitmap.encode).Sound := by
  rw [decode_encode_shortBitmap]
  refine ⟨by decide, ?_⟩
  intro sound
  have last := sound.indexed 99999 (by decide)
  exact absurd last (by decide)

end KnitOS.Fs
