import KnitOS.Fs.Intact

/-!
# A new file system

`fs_init` formats a disk without a valid superblock: it writes the tables past
the cache and then creates the standard directories.  `FsState.newFormat` is
the state between the two.  There only the root is occupied and every data
sector is free.
-/

namespace KnitOS.Fs

open Lib Lib.Program Storage

section

variable (start count : Nat) (fs : FsState)

theorem markBlocks_succ : markBlocks start (count + 1) fs =
    fsBitmapSet (u32 (start + count)) true (markBlocks start count fs) := by
  simp [markBlocks, List.range_succ, List.foldl_append]

theorem exists_fsBitmapSet (sector : Nat) (isOccupied : Bool) :
    ∃ bits, fsBitmapSet sector isOccupied fs = { fs with bitmap := bits } ∧
      bits.isSome = fs.bitmap.isSome := by
  cases fs with
  | mk boot inodes initialized bitmap bitmapSectors kernel =>
    cases bitmap with
    | none => exact ⟨none, rfl, rfl⟩
    | some bits =>
      by_cases outside : boot.totalSectors ≤ sector
      · exact ⟨some bits, if_pos outside, rfl⟩
      · exact ⟨_, if_neg outside, rfl⟩

theorem exists_markBlocks : ∃ bits, markBlocks start count fs = { fs with bitmap := bits } ∧
      bits.isSome = fs.bitmap.isSome := by
  induction count with
  | zero => exact ⟨fs.bitmap, rfl, rfl⟩
  | succ count ih =>
    obtain ⟨before, beforeEq, beforeSome⟩ := ih
    obtain ⟨bits, bitsEq, bitsSome⟩ :=
      exists_fsBitmapSet (markBlocks start count fs) (u32 (start + count)) true
    refine ⟨bits, ?_, ?_⟩
    · rw [markBlocks_succ, bitsEq, beforeEq]
    · rw [bitsSome, beforeEq]
      exact beforeSome

theorem fsBitmapTest_fsBitmapSet_other {sector other : Nat}
    (different : other ≠ sector) (isOccupied : Bool) :
    fsBitmapTest (fsBitmapSet sector isOccupied fs) other = fsBitmapTest fs other := by
  cases fs with
  | mk boot inodes initialized bitmap bitmapSectors kernel =>
    cases bitmap with
    | none => rfl
    | some bits =>
      by_cases outside : boot.totalSectors ≤ sector
      · simp [fsBitmapSet, outside]
      · simp [fsBitmapSet, outside, fsBitmapTest, different]

theorem fsBitmapTest_markBlocks_above {sector : Nat}
    (above : start + count ≤ sector) (small : start + count ≤ 4294967296) :
    fsBitmapTest (markBlocks start count fs) sector = fsBitmapTest fs sector := by
  induction count with
  | zero => rfl
  | succ count ih =>
    rw [markBlocks_succ, fsBitmapTest_fsBitmapSet_other]
    · exact ih (by omega) (by omega)
    · rw [u32_of_lt (by omega)]
      omega

end

/-- The number of sectors of the bitmap of a new file system. -/
def FsState.newBitmapSectors (fs : FsState) : Nat :=
  ((formatBoot fs.kernel.diskSizeSectors).freeBitmapSize + sectorSize - 1) /
    sectorSize

/-- The heap has room for the bitmap of a new file system. -/
def FsState.GrantsBitmap (fs : FsState) : Prop :=
  fs.ask.grants (u32 (fs.newBitmapSectors * sectorSize))

/-- The variables after the tables of a new file system were made. -/
def FsState.newTables (fs : FsState) : FsState :=
  let boot := formatBoot fs.kernel.diskSizeSectors
  markBlocks 0 (boot.dataStartSector + 64)
    { boot := boot
      inodes := formatInodes fs.inodes
        (u32 (fs.kernel.clock fs.kernel.asked))
      initialized := fs.initialized
      bitmap := some fun _ => false
      bitmapSectors := fs.newBitmapSectors
      kernel := fs.ask.ask.kernel }

/-- The variables before the standard directories are created. -/
def FsState.newFormat (fs : FsState) : FsState :=
  { fs.newTables with initialized := true }

/-- The variables when the bitmap is requested from the heap. -/
def FsState.newInodes (fs : FsState) : FsState :=
  { boot := formatBoot fs.kernel.diskSizeSectors
    inodes := formatInodes fs.inodes (u32 (fs.kernel.clock fs.kernel.asked))
    initialized := fs.initialized
    bitmap := none
    bitmapSectors := fs.newBitmapSectors
    kernel := fs.ask.kernel }

theorem run_formatTables_eq {δ : Type}
    (device : Device δ DiskRequest (Option Sector)) (fs : FsState) (dev : δ) :
    formatTables.run device fs dev = (do
        malloc (u32 (fs.newBitmapSectors * sectorSize))
        modify fun fs => { fs with bitmap := some fun _ => false }
        modify (markBlocks 0 ((formatBoot fs.kernel.diskSizeSectors).dataStartSector + 64)) :
          FsProgram Unit).run device fs.newInodes dev := rfl

theorem run_formatTables {δ : Type} (device : Device δ DiskRequest (Option Sector)) {fs : FsState}
    (granted : fs.GrantsBitmap) (dev : δ) :
    formatTables.run device fs dev = (some (), fs.newTables, dev) := by
  have grantedThere : fs.newInodes.grants (u32 (fs.newBitmapSectors * sectorSize)) := granted
  rw [run_formatTables_eq, run_bind_of_some (run_malloc_of_grants _ _ grantedThere)]
  rfl

theorem run_formatTables_refused {δ : Type}
    (device : Device δ DiskRequest (Option Sector)) {fs : FsState}
    (refused : ¬ fs.GrantsBitmap) (dev : δ) :
    formatTables.run device fs dev = (none, fs.newInodes.ask, dev) := by
  have refusedThere : ¬ fs.newInodes.grants (u32 (fs.newBitmapSectors * sectorSize)) := refused
  rw [run_formatTables_eq]
  exact run_bind_of_none (run_malloc_of_not_grants _ _ refusedThere)

theorem formatInodes_root (old : Nat → Inode) (now : Nat) :
    formatInodes old now rootIno = rootInode now := if_pos rfl

/-- A file system with nothing but an empty root directory. -/
structure NewFormat (fs : FsState) : Prop where
  formatted : Formatted fs
  root : ∃ now, fs.inodes rootIno = rootInode now
  others : ∀ index, index < maxInodes → index ≠ rootIno → fs.inodes index = Inode.zero
  free : ∀ sector, fs.base ≤ sector → sector < fs.boot.totalSectors → fsBitmapTest fs sector = false

section

variable {fs : FsState} (small : fs.kernel.diskSizeSectors < 4294967296)
  (granted : fs.GrantsBitmap)

theorem newFormat_eq (fs : FsState) : ∃ bits, fs.newFormat =
      { boot := formatBoot fs.kernel.diskSizeSectors
        inodes := formatInodes fs.inodes
          (u32 (fs.kernel.clock fs.kernel.asked))
        initialized := true
        bitmap := some bits
        bitmapSectors := fs.newBitmapSectors
        kernel := fs.ask.ask.kernel } := by
  obtain ⟨bits, bitsEq, bitsSome⟩ := exists_markBlocks 0
      ((formatBoot fs.kernel.diskSizeSectors).dataStartSector + 64)
      { boot := formatBoot fs.kernel.diskSizeSectors
        inodes := formatInodes fs.inodes
          (u32 (fs.kernel.clock fs.kernel.asked))
        initialized := fs.initialized
        bitmap := some fun _ => false
        bitmapSectors := fs.newBitmapSectors
        kernel := fs.ask.ask.kernel }
  obtain ⟨map, mapEq⟩ := Option.isSome_iff_exists.mp bitsSome
  refine ⟨map, ?_⟩
  unfold FsState.newFormat FsState.newTables
  dsimp only
  rw [bitsEq, mapEq]

include small granted

theorem formatBoot_bounded : 0 < (formatBoot fs.kernel.diskSizeSectors).totalSectors ∧
    (formatBoot fs.kernel.diskSizeSectors).totalSectors ≤ 4194304 := by
  obtain ⟨nonempty, fits, _⟩ := granted
  unfold FsState.newBitmapSectors at nonempty fits
  simp only [formatBoot] at nonempty fits ⊢
  change 0 < u32 ((_ + 512 - 1) / 512 * 512) at nonempty
  change u32 ((_ + 512 - 1) / 512 * 512) ≤ 524288 at fits
  unfold u32 at nonempty fits
  by_cases zero : fs.kernel.diskSizeSectors = 0
  · rw [if_pos zero]
    omega
  · rw [if_neg zero] at nonempty fits ⊢
    omega

theorem newFormat_formatted : Formatted fs.newFormat := by
  obtain ⟨positive, bounded⟩ := formatBoot_bounded small granted
  obtain ⟨bits, newEq⟩ := newFormat_eq fs
  rw [newEq]
  refine ⟨?_, positive, bounded, rfl, rfl, rfl⟩
  have nonzero : (formatBoot fs.kernel.diskSizeSectors).totalSectors ≠ 0 := by
    omega
  have total : (formatBoot fs.kernel.diskSizeSectors).totalSectors =
    if fs.kernel.diskSizeSectors = 0 then 1024
    else fs.kernel.diskSizeSectors := rfl
  change formatBoot fs.kernel.diskSizeSectors = BootSector.withInodeCount
    (formatBoot (formatBoot fs.kernel.diskSizeSectors).totalSectors) 1
  rw [total] at nonzero ⊢
  by_cases zero : fs.kernel.diskSizeSectors = 0
  · rw [zero]
    rfl
  · rw [if_neg zero]
    rfl

theorem newFormat_new : NewFormat fs.newFormat := by
  have formatted := newFormat_formatted small granted
  obtain ⟨bits, newEq⟩ := newFormat_eq fs
  refine ⟨formatted, ?_, ?_, ?_⟩
  · rw [newEq]
    exact ⟨_, formatInodes_root fs.inodes _⟩
  · intro index inTable notRoot
    rw [newEq]
    exact (if_neg notRoot).trans (if_pos inTable)
  · intro sector above below
    have bounds := formatted.bitmapSectors_bounds
    have dataStart := formatted.dataStartSector
    rw [formatted.base_eq] at above
    have sameStart : fs.newFormat.boot.dataStartSector =
        (formatBoot fs.kernel.diskSizeSectors).dataStartSector := by
      rw [newEq]
    have sameTotal : fs.newFormat.boot.totalSectors =
        (formatBoot fs.kernel.diskSizeSectors).totalSectors := by
      rw [newEq]
    rw [sameStart] at dataStart
    have marked : fsBitmapTest fs.newFormat sector = fsBitmapTest fs.newTables sector := rfl
    rw [marked]
    unfold FsState.newTables
    dsimp only
    rw [fsBitmapTest_markBlocks_above _ _ _ (by omega) (by omega)]
    exact if_neg (by rw [← sameTotal]; omega)

end

theorem rootInode_occupied (now : Nat) : (rootInode now).occupied = true :=
  bne_iff_ne.mpr (by decide :
    (Inode.flagOccupied ||| Inode.flagDirectory) &&& Inode.flagOccupied ≠ 0)

theorem rootInode_isDirectory (now : Nat) : (rootInode now).isDirectory = true :=
  bne_iff_ne.mpr (by decide :
    (Inode.flagOccupied ||| Inode.flagDirectory) &&& Inode.flagDirectory ≠ 0)

namespace NewFormat

variable {fs : FsState} (new : NewFormat fs)

include new

theorem blank {index : Nat} (inTable : index < maxInodes) : (fs.inodes index).Blank := by
  by_cases isRoot : index = rootIno
  · obtain ⟨now, rootEq⟩ := new.root
    rw [isRoot, rootEq]
    exact ⟨rfl, rfl, rfl⟩
  · rw [new.others index inTable isRoot]
    exact ⟨rfl, rfl, rfl⟩

theorem consistent (disk : Nat → Sector) : Consistent fs disk [] := by
  have nothing : ∀ owner, claims fs disk [] owner = [] := by
    intro owner
    unfold claims
    by_cases inTable : owner < maxInodes
    · rw [if_pos inTable]
      exact (new.blank inTable).ownedSectors disk
    · rw [if_neg inTable]
      split
      · rfl
      · rfl
  refine ⟨new.formatted, ⟨⟨?_, ?_⟩, ?_⟩, ?_⟩
  · intro owner
    rw [nothing owner]
    exact List.nodup_nil
  · intro first second _ sector member
    rw [nothing first] at member
    cases member
  · intro owner sector member
    rw [nothing owner] at member
    cases member
  · intro index inTable
    exact (new.blank inTable).packed disk

theorem intact (disk : Nat → Sector) : Intact fs disk := by
  obtain ⟨now, rootEq⟩ := new.root
  refine ⟨new.consistent disk, ?_, ?_, ?_⟩
  · intro index inTable notOccupied
    have blank := new.blank inTable
    refine ⟨?_, blank.dataSectors disk, blank.indirectLba⟩
    by_cases isRoot : index = rootIno
    · rw [isRoot, rootEq, rootInode_occupied] at notOccupied
      cases notOccupied
    · rw [new.others index inTable isRoot]
      rfl
  · rw [new.others 0 (by decide) (by decide)]
    rfl
  · rw [rootEq]
    exact rootInode_isDirectory now

end NewFormat

@[simp]
theorem run_diskWrite_bind {α : Type} (fs : FsState)
    (sectors : Nat → Sector) (lba : Nat) (bytes : Sector) (next : Unit → FsProgram α) :
    (diskWrite lba bytes >>= next).run flatDevice fs (.fresh sectors) = (next ()).run flatDevice fs
        (.fresh (Function.update sectors lba bytes)) := rfl

theorem run_diskWrites (fs : FsState) (lba : Nat) {bound : Nat}
    (bytes : Nat → Sector) (small : bound ≤ 4294967296) :
    ∀ (count first : Nat) (sectors : Nat → Sector), lba + first + count ≤ bound → ∃ sectors',
          (forRange (fun index => diskWrite (u32 (lba + index)) (bytes index)) first
              count).run flatDevice fs (.fresh sectors) = (some (), fs, .fresh sectors') ∧
          ∀ sector, bound ≤ sector → sectors' sector = sectors sector := by
  intro count
  induction count with
  | zero =>
    intro first sectors _
    exact ⟨sectors, rfl, fun _ _ => rfl⟩
  | succ count ih =>
    intro first sectors inside
    obtain ⟨sectors', ran, same⟩ := ih (first + 1)
      (Function.update sectors (u32 (lba + first)) (bytes first)) (by omega)
    refine ⟨sectors', ?_, ?_⟩
    · rw [forRange, run_diskWrite_bind]
      exact ran
    · intro sector above
      rw [same sector above, Function.update_of_ne]
      rw [u32_of_lt (by omega)]
      omega

theorem run_formatDisk {fs : FsState} (formatted : Formatted { fs with initialized := true })
    (sectors : Nat → Sector) : ∃ sectors', formatDisk.run flatDevice fs (.fresh sectors) =
        (some (), fs, .fresh sectors') ∧
      SameData { fs with initialized := true } sectors sectors' := by
  have table : fs.boot.inodeTableSector = 1 := formatted.inodeTableSector
  have tableSectors : fs.boot.inodeSectors = 272 := formatted.inodeSectors
  have bitmapStart : fs.boot.freeBitmapSector = 273 := formatted.freeBitmapSector
  have bounds : 1 ≤ fs.bitmapSectors ∧ fs.bitmapSectors ≤ 1024 := formatted.bitmapSectors_bounds
  have base := formatted.base_eq
  change _ = 337 + fs.bitmapSectors at base
  have small : 337 + fs.bitmapSectors ≤ 4294967296 := by omega
  obtain ⟨first, ranFirst, sameFirst⟩ := run_diskWrites fs fs.boot.freeBitmapSector
      (bitmapSector (fs.bitmap.getD fun _ => false)) small fs.bitmapSectors 0 sectors (by omega)
  obtain ⟨last, ranLast, sameLast⟩ :=
    run_diskWrites fs fs.boot.inodeTableSector (tableSector fs.inodes) small
      fs.boot.inodeSectors 0 (Function.update first 0 fs.boot.encode) (by omega)
  refine ⟨last, ?_, ?_⟩
  · unfold formatDisk
    rw [run_reads_bind]
    refine (run_bind_of_some ranFirst).trans ?_
    rw [run_diskWrite_bind]
    exact ranLast
  · intro sector above
    rw [base] at above
    rw [sameLast sector above, Function.update_of_ne (by omega), sameFirst sector above]

section

variable {fs : FsState} {sectors : Nat → Sector}
  (unmounted : fs.initialized = false)
  (invalid : fsLayoutValid (BootSector.decode (sectors 0)) = false)

include unmounted invalid

theorem run_fsInit_eq : fsInit.run flatDevice fs (.fresh sectors) = fsFormat.run flatDevice
    { fs with boot := BootSector.decode (sectors 0) } (.fresh sectors) := by
  have notMounted : ¬ fs.initialized = true := by simp [unmounted]
  have notValid : ¬ fsLayoutValid (BootSector.decode (sectors 0)) = true := by
    simp [invalid]
  unfold fsInit
  rw [run_reads_bind, id_eq, if_neg notMounted]
  change Program.run flatDevice (if fsLayoutValid (BootSector.decode (sectors 0)) then fsLoad
    else fsFormat) _ _ = _
  rw [if_neg notValid]
  rfl

theorem run_fsInit_refused (refused : ¬ fs.GrantsBitmap) :
    ∃ fs', fsInit.run flatDevice fs (.fresh sectors) = (none, fs', .fresh sectors) := by
  rw [run_fsInit_eq unmounted invalid]
  exact ⟨_, run_bind_of_none (run_formatTables_refused flatDevice refused (.fresh sectors))⟩

/-- Formatting succeeds when the heap has room for the bitmap, and what is
left is to create the standard directories. -/
theorem run_fsInit_granted (small : fs.kernel.diskSizeSectors < 4294967296)
    (granted : fs.GrantsBitmap) : ∃ disk, fsInit.run flatDevice fs (.fresh sectors) =
        (createAll standardDirs).run flatDevice fs.newFormat (.running disk) ∧
      SameData fs.newFormat sectors disk := by
  have formatted := newFormat_formatted small granted
  obtain ⟨disk, ranDisk, sameData⟩ := run_formatDisk (formatted : Formatted
    { fs.newTables with initialized := true }) sectors
  refine ⟨disk, ?_, sameData⟩
  rw [run_fsInit_eq unmounted invalid]
  unfold fsFormat
  refine (run_bind_of_some (run_formatTables flatDevice granted _)).trans ?_
  refine (run_bind_of_some ranDisk).trans ?_
  rw [run_modify_bind, run_request_bind]
  change Program.run flatDevice (attempt fsLoadBitmap >>= _) fs.newFormat (.running disk) = _
  rw [run_attempt_bind, formatted.run_fsLoadBitmap]

end

end KnitOS.Fs
