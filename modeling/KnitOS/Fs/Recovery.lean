import KnitOS.Fs.CachedRequests
import KnitOS.Fs.Machine

/-!
# Mounting after a crash

When the log holds a transaction, `fs_init` loads the tables, replays the log,
and goes on with the tables it loaded before.  This agrees with replaying first
exactly if the transaction leaves the tables alone.
-/

namespace KnitOS.Fs

open Lib.Program Storage

/-- The copying loop of `fs_recover`. -/
def copyLogged (logStart : Nat) (header : TxnHeader) : Nat → Nat → (Nat → Sector) → Nat → Sector
  | _, 0, disk => disk
  | index, count + 1, disk =>
    copyLogged logStart header (index + 1) count
      (Function.update disk (header.lba.getD index 0)
        (disk (u32 (logStart + 1 + index))))

def BootSector.emptied (boot : BootSector) : BootSector :=
  { boot with logNext := 0 }

def superblock (disk : Nat → Sector) : BootSector :=
  BootSector.decode (disk 0)

/-- The image after every logged sector was copied to its home and the log
was emptied. -/
def recoveredImage (disk : Nat → Sector) : Nat → Sector :=
  let boot := superblock disk
  let header := TxnHeader.decode (disk boot.logStartSector)
  Function.update
    (copyLogged boot.logStartSector header 0 header.nsec disk) 0
    boot.emptied.encode

/-- The image has a valid superblock and a transaction in the log. -/
structure HoldsTransaction (disk : Nat → Sector) : Prop where
  layout : fsLayoutValid (superblock disk) = true
  log : (superblock disk).logSize ≠ 0
  pending : (superblock disk).logNext ≠ 0
  header : headerAccepted (disk (superblock disk).logStartSector) = true

def tableOf (boot : BootSector) (disk : Nat → Sector) : List Sector :=
  (List.range' 0 boot.inodeSectors).map fun index =>
    disk (u32 (boot.inodeTableSector + index))

def BootSector.bitmapSectors (boot : BootSector) : Nat :=
  u32 (boot.freeBitmapSize + sectorSize - 1) / sectorSize

/-- The bits in the first sectors of the bitmap. -/
def bitsOf (boot : BootSector) (disk : Nat → Sector) (count sector : Nat) : Bool :=
  if sector / 8 / sectorSize < count then
    (sectorByte (disk (u32 (boot.freeBitmapSector + sector / 8 / sectorSize)))
      (sector / 8 % sectorSize)).toNat.testBit (sector % 8)
  else
    false

section

variable (fs : FsState) (disk : Nat → Sector)

theorem run_diskReadN (lba first count : Nat) :
    (diskReadN lba first count).run flatDevice fs (.fresh disk) =
      (some ((List.range' first count).map fun index =>
        disk (u32 (lba + index))), fs, .fresh disk) := by
  induction count generalizing first with
  | zero => rfl
  | succ count ih =>
    have read : (diskRead (u32 (lba + first))).run flatDevice fs
      (.fresh disk) = (some (disk (u32 (lba + first))), fs, .fresh disk) := rfl
    rw [diskReadN, run_bind_of_some read, run_bind_of_some (ih (first + 1)), List.range'_succ]
    rfl

theorem bitsOf_succ (boot : BootSector) (count : Nat) : bitsOf boot disk (count + 1) =
    loadBitmapSector (bitsOf boot disk count) count
      (disk (u32 (boot.freeBitmapSector + count))) := by
  funext sector
  unfold bitsOf loadBitmapSector
  dsimp only
  by_cases here : sector / 8 / sectorSize = count
  · rw [if_pos (by omega), if_pos here, here]
  · rw [if_neg here]
    by_cases before : sector / 8 / sectorSize < count
    · rw [if_pos (by omega), if_pos before]
    · rw [if_neg (by omega), if_neg before]

/-- One round of the loop of `fs_load_bitmap`. -/
def loadRound (boot : BootSector) (index : Nat) : FsProgram Unit := do
  let bytes ← dRead (u32 (boot.freeBitmapSector + index))
  modify fun fs =>
    { fs with
      bitmap := fs.bitmap.map fun bits => loadBitmapSector bits index bytes }

theorem run_loadRounds (boot : BootSector) (first count : Nat) :
    (forRange (loadRound boot) first count).run flatDevice
        { fs with bitmap := some (bitsOf boot disk first) } (.running disk) =
      (some (), { fs with bitmap := some (bitsOf boot disk (first + count)) }, .running disk) := by
  induction count generalizing first with
  | zero => rfl
  | succ count ih =>
    have round : (loadRound boot first).run flatDevice
        { fs with bitmap := some (bitsOf boot disk first) } (.running disk) = (some (),
          { fs with bitmap := some (bitsOf boot disk (first + 1)) }, .running disk) := by
      rw [bitsOf_succ]
      rfl
    rw [forRange, run_bind_of_some round, ih (first + 1)]
    congr 5
    omega

theorem run_loadRounds_fresh (boot : BootSector) {count : Nat} (some_ : count ≠ 0) :
    (forRange (loadRound boot) 0 count).run flatDevice
        { fs with bitmap := some fun _ => false } (.fresh disk) =
      (some (), { fs with bitmap := some (bitsOf boot disk count) }, .running disk) := by
  obtain ⟨rest, rfl⟩ := Nat.exists_eq_succ_of_ne_zero some_
  have none_ : bitsOf boot disk 0 = fun _ => false := by
    funext sector
    exact if_neg (Nat.not_lt_zero _)
  have round : (loadRound boot 0).run flatDevice
      { fs with bitmap := some fun _ => false } (.fresh disk) =
      (some (), { fs with bitmap := some (bitsOf boot disk 1) }, .running disk) := by
    rw [bitsOf_succ, none_]
    rfl
  rw [forRange, run_bind_of_some round, run_loadRounds]
  congr 5
  omega

end

/-- The tables in memory after they were loaded from an image. -/
def FsState.loadedFrom (fs : FsState) (boot : BootSector) (disk : Nat → Sector) : FsState :=
  { fs.ask with
    boot := boot
    inodes := loadInodes fs.inodes (tableOf boot disk)
    initialized := true
    bitmapSectors := boot.bitmapSectors
    bitmap := some (bitsOf boot disk boot.bitmapSectors) }

/-- Whether the allocator grants the bitmap. -/
def FsState.LoadsBitmap (fs : FsState) (boot : BootSector) : Prop :=
  boot.bitmapSectors ≠ 0 ∧ fs.grants (u32 (boot.bitmapSectors * sectorSize))

/-- `fs_load_bitmap` when there is no bitmap in memory. -/
def readBitmap (boot : BootSector) : FsProgram Unit := do
  modify fun fs => { fs with bitmapSectors := boot.bitmapSectors }
  require (boot.bitmapSectors ≠ 0)
  malloc (u32 (boot.bitmapSectors * sectorSize))
  modify fun fs => { fs with bitmap := some fun _ => false }
  forRange (loadRound boot) 0 boot.bitmapSectors

section

variable {fs : FsState} (unloaded : fs.bitmap = none)

include unloaded

theorem run_fsLoadBitmap_unloaded (flat : FlatDisk) : fsLoadBitmap.run flatDevice fs flat =
    (readBitmap fs.boot).run flatDevice fs flat := by
  have none_ : ¬ fs.bitmap.isSome = true := by
    rw [unloaded]
    exact Bool.false_ne_true
  rw [fsLoadBitmap, run_reads_bind, id_eq, if_neg none_]
  rfl

theorem run_fsLoadBitmap_fresh (loads : fs.LoadsBitmap fs.boot) (disk : Nat → Sector) :
    fsLoadBitmap.run flatDevice fs (.fresh disk) = (some (),
        { fs.ask with
          bitmapSectors := fs.boot.bitmapSectors
          bitmap := some (bitsOf fs.boot disk fs.boot.bitmapSectors) },
        .running disk) := by
  have granted : FsState.grants { fs with bitmapSectors := fs.boot.bitmapSectors }
      (u32 (fs.boot.bitmapSectors * sectorSize)) := loads.2
  rw [run_fsLoadBitmap_unloaded unloaded, readBitmap, run_modify_bind,
    require_of loads.1, run_pure_bind,
    run_bind_of_some (run_malloc_of_grants _ _ granted), run_modify_bind]
  exact run_loadRounds_fresh _ disk fs.boot loads.1

theorem run_fsLoadBitmap_refused (refused : ¬ fs.LoadsBitmap fs.boot) (flat : FlatDisk) :
    ∃ fs', fsLoadBitmap.run flatDevice fs flat = (none, fs', flat) := by
  rw [run_fsLoadBitmap_unloaded unloaded, readBitmap, run_modify_bind]
  by_cases some_ : fs.boot.bitmapSectors ≠ 0
  · have notGranted : ¬ FsState.grants { fs with bitmapSectors := fs.boot.bitmapSectors }
      (u32 (fs.boot.bitmapSectors * sectorSize)) := fun granted => refused ⟨some_, granted⟩
    rw [require_of some_, run_pure_bind, run_bind_of_none (run_malloc_of_not_grants _ _ notGranted)]
    exact ⟨_, rfl⟩
  · rw [require_of_not some_]
    exact ⟨_, rfl⟩

end

/-- One round of the copying loop. -/
def replayRound (logStart : Nat) (header : TxnHeader) (index : Nat) : FsProgram Unit := do
  let logged ← attempt (dRead (u32 (logStart + 1 + index)))
  match logged with
  | none => pure ()
  | some bytes => do
      let _ ← attempt (dWrite (header.lba.getD index 0) bytes)
      pure ()

theorem run_replayRounds (fs : FsState) (logStart : Nat) (header : TxnHeader)
    (first count : Nat) (disk : Nat → Sector) :
    (forRange (replayRound logStart header) first count).run flatDevice fs (.running disk) =
      (some (), fs, .running (copyLogged logStart header first count disk)) := by
  induction count generalizing first disk with
  | zero => rfl
  | succ count ih =>
    rw [copyLogged, ← ih]
    rfl

theorem run_replayLog (fs : FsState) (logStart : Nat) (header : TxnHeader) (disk : Nat → Sector) :
    (replayLog logStart header).run flatDevice fs (.running disk) = (some (), fs,
        .running (copyLogged logStart header 0 header.nsec disk)) :=
  run_replayRounds fs logStart header 0 header.nsec disk

theorem run_fsRecover {fs : FsState} {disk : Nat → Sector}
    (boot : fs.boot = superblock disk) (holds : HoldsTransaction disk) :
    fsRecover.run flatDevice fs (.running disk) = (some (), { fs with boot := fs.boot.emptied },
        .running (recoveredImage disk)) := by
  have pending : ¬ (fs.boot.logSize = 0 ∨ fs.boot.logNext = 0) := by
    rw [boot]
    rintro (noLog | empty)
    · exact holds.log noLog
    · exact holds.pending empty
  have accepted : headerAccepted (disk fs.boot.logStartSector) = true := by
    rw [boot]
    exact holds.header
  rw [fsRecover, run_reads_bind, if_neg pending, run_dRead_bind,
    if_pos accepted, run_bind_of_some (run_replayLog fs _ _ disk)]
  unfold recoveredImage
  rw [← boot]
  rfl

/-- The sectors `inode_sector_count` counts on a disk. -/
def Inode.countedSectors (inode : Inode) (limit : Nat) (disk : Nat → Sector) : Nat :=
  match countExtents limit 0 inode.direct with
  | none => limit
  | some total =>
    if inode.indirectLba = 0 then
      total
    else
      (countExtents limit total
        (decodeExtents (disk inode.indirectLba))).getD limit

/-- The capacity `inode_byte_capacity` finds on a disk. -/
def Inode.byteCapacity (inode : Inode) (limit : Nat) (disk : Nat → Sector) : Nat :=
  if 0xFFFFFFFF / sectorSize < inode.countedSectors limit disk then
    0xFFFFFFFF
  else
    inode.countedSectors limit disk * sectorSize

/-- An inode whose size is not larger than its sectors. -/
def Inode.clamped (inode : Inode) (limit : Nat) (disk : Nat → Sector) : Inode :=
  if inode.occupied then
    { inode with
      sizeBytes := min inode.sizeBytes (inode.byteCapacity limit disk) }
  else
    inode

/-- The table with the sizes of some inodes clamped. -/
def FsState.clampedOn (fs : FsState) (disk : Nat → Sector) (indices : List Nat) : FsState :=
  { fs with
    inodes := fun index =>
      if index ∈ indices then
        (fs.inodes index).clamped fs.maxSectors disk
      else
        fs.inodes index }

section

variable (fs : FsState) (disk : Nat → Sector)

theorem run_inodeByteCapacity_flat (inode : Inode) :
    (inodeByteCapacity inode).run flatDevice fs (.running disk) =
      (some (inode.byteCapacity fs.maxSectors disk), fs, .running disk) := by
  have counted : (inodeSectorCount inode).run flatDevice fs (.running disk) =
      (some (inode.countedSectors fs.maxSectors disk), fs, .running disk) := by
    rw [inodeSectorCount, run_reads_bind]
    unfold Inode.countedSectors
    cases countExtents fs.maxSectors 0 inode.direct with
    | none => rfl
    | some total =>
      dsimp only
      by_cases absent : inode.indirectLba = 0
      · rw [if_pos absent, if_pos absent]
        rfl
      · rw [if_neg absent, if_neg absent]
        rfl
  rw [inodeByteCapacity, run_bind_of_some counted]
  rfl

theorem run_clampSize (index : Nat) : (clampSize index).run flatDevice fs (.running disk) =
    (some (), fs.setInode index ((fs.inodes index).clamped fs.maxSectors disk), .running disk) := by
  rw [clampSize, run_inodeAt_bind]
  unfold Inode.clamped
  by_cases occupied : (fs.inodes index).occupied = true
  · rw [if_pos occupied, if_pos occupied, run_bind_of_some (run_inodeByteCapacity_flat fs disk _)]
    unfold whenever
    by_cases large : (fs.inodes index).byteCapacity fs.maxSectors disk < (fs.inodes index).sizeBytes
    · rw [if_pos large, run_modifyInode, Nat.min_eq_right (by omega)]
    · have fits : { fs.inodes index with
          sizeBytes := min (fs.inodes index).sizeBytes
            ((fs.inodes index).byteCapacity fs.maxSectors disk) } =
          fs.inodes index := by
        rw [Nat.min_eq_left (by omega)]
      rw [if_neg large, fits, FsState.setInode_eq_self]
      rfl
  · rw [if_neg occupied, if_neg occupied, FsState.setInode_eq_self]
    rfl

theorem run_clampSizes {indices : List Nat} (nodup : indices.Nodup) :
    (clampSizes indices).run flatDevice fs (.running disk) =
      (some (), fs.clampedOn disk indices, .running disk) := by
  induction indices generalizing fs with
  | nil => rfl
  | cons index rest ih =>
    obtain ⟨notInRest, restNodup⟩ := List.nodup_cons.mp nodup
    rw [clampSizes, run_bind_of_some (run_clampSize fs disk index), ih _ restNodup]
    have same : (fs.setInode index ((fs.inodes index).clamped fs.maxSectors disk)).clampedOn disk
        rest = fs.clampedOn disk (index :: rest) := by
      unfold FsState.clampedOn
      congr 1
      funext other
      by_cases isIndex : other = index
      · rw [isIndex, if_neg notInRest, FsState.setInode_self, if_pos List.mem_cons_self]
      · rw [FsState.setInode_other _ _ _ isIndex]
        simp only [List.mem_cons, isIndex, false_or]
        rfl
    rw [same]

end

theorem length_flatMap_wordBytes (words : List Nat) :
    (words.flatMap wordBytes).length = 4 * words.length := by
  induction words with
  | nil => rfl
  | cons word rest ih =>
    rw [List.flatMap_cons, List.length_append, ih, List.length_cons]
    have four : (wordBytes word).length = 4 := rfl
    omega

theorem BootSector.decode_encode {boot : BootSector}
    (small : ∀ word ∈ boot.words, word < 4294967296) (full : boot.reserved.length = 452) :
    BootSector.decode boot.encode = boot := by
  have word : ∀ index, index < 15 → wordAt (sectorByte boot.encode) (4 * index) =
        boot.words.getD index 0 := by
    intro index inside
    have inWords : index < boot.words.length := inside
    have short : boot.words.length ≤ 128 := by
      change 15 ≤ 128
      decide
    have read := wordAt_sectorOf boot.words boot.reserved inWords short
    rw [u32_of_lt] at read
    · exact read
    · rw [List.getD_eq_getElem _ _ inWords]
      exact small _ (List.getElem_mem inWords)
  have reserved : ((List.range 452).map fun offset =>
      sectorByte boot.encode (60 + offset)) = boot.reserved := by
    apply List.ext_getElem
    · rw [List.length_map, List.length_range, full]
    intro offset inside inReserved
    rw [List.length_map, List.length_range] at inside
    have inSector : 60 + offset < sectorSize := by
      change 60 + offset < 512
      omega
    have words : (boot.words.flatMap wordBytes).length = 60 := length_flatMap_wordBytes boot.words
    rw [List.getElem_map, List.getElem_range, BootSector.encode, sectorByte_sectorOf _ inSector]
    unfold bytesOf
    rw [List.getD_append_right _ _ _ _ (by omega), words,
      Nat.add_sub_cancel_left, List.getD_eq_getElem _ _ inReserved]
  unfold BootSector.decode
  simp only [word 0 (by decide), word 1 (by decide), word 2 (by decide),
    word 3 (by decide), word 4 (by decide), word 5 (by decide),
    word 6 (by decide), word 7 (by decide), word 8 (by decide),
    word 9 (by decide), word 10 (by decide), word 11 (by decide),
    word 12 (by decide), word 13 (by decide), word 14 (by decide), reserved]
  rfl

theorem superblock_recoveredImage (disk : Nat → Sector) :
    superblock (recoveredImage disk) = (superblock disk).emptied := by
  have written : recoveredImage disk 0 = (superblock disk).emptied.encode := by
    unfold recoveredImage
    exact Function.update_self _ _ _
  unfold superblock
  rw [written]
  apply BootSector.decode_encode
  · intro word member
    simp only [BootSector.words, BootSector.emptied, superblock,
      BootSector.decode, List.mem_cons, List.not_mem_nil, or_false] at member
    rcases member with rfl | rfl | rfl | rfl | rfl | rfl | rfl | rfl | rfl |
      rfl | rfl | rfl | rfl | rfl | rfl
    all_goals first
      | exact wordOf_lt _ _ _ _
      | decide
  · unfold BootSector.emptied superblock BootSector.decode
    rw [List.length_map, List.length_range]

theorem fsLayoutValid_emptied (boot : BootSector) :
    fsLayoutValid boot.emptied = fsLayoutValid boot := rfl

/-- What `fs_init` does once the tables are loaded and the log is empty. -/
def finishMount : FsProgram Unit := do
  clampSizes inodeNumbers
  let _ ← attempt (fsFsck true)
  pure ()

section

variable {fs : FsState} {disk : Nat → Sector}
  (unmounted : fs.initialized = false) (unloaded : fs.bitmap = none)
  (layout : fsLayoutValid (superblock disk) = true)

include unmounted layout

theorem run_fsInit_existing : fsInit.run flatDevice fs (.fresh disk) = (fsLoadBitmap >>= fun _ =>
        whenever (0 < (superblock disk).logNext)
          (do let _ ← attempt fsRecover; pure ()) >>= fun _ =>
          finishMount).run flatDevice
        { fs with
          boot := superblock disk
          inodes := loadInodes fs.inodes (tableOf (superblock disk) disk)
          initialized := true }
        (.fresh disk) := by
  have loads : fsInit.run flatDevice fs (.fresh disk) =
      fsLoad.run flatDevice { fs with boot := superblock disk } (.fresh disk) := by
    rw [fsInit, run_reads_bind, id_eq, if_neg (by rw [unmounted]; exact Bool.false_ne_true)]
    change (if fsLayoutValid (superblock disk) then fsLoad
      else fsFormat).run flatDevice { fs with boot := superblock disk } (.fresh disk) = _
    rw [if_pos layout]
  rw [loads, fsLoad, run_reads_bind, run_bind_of_some (run_diskReadN _ disk _ _ _), run_modify_bind]
  rfl

include unloaded

theorem run_fsInit_loaded (loads : fs.LoadsBitmap (superblock disk)) :
    fsInit.run flatDevice fs (.fresh disk) = (whenever (0 < (superblock disk).logNext)
          (do let _ ← attempt fsRecover; pure ()) >>= fun _ =>
          finishMount).run flatDevice
        (fs.loadedFrom (superblock disk) disk) (.running disk) := by
  rw [run_fsInit_existing unmounted layout]
  have loaded := @run_fsLoadBitmap_fresh
    { fs with
      boot := superblock disk
      inodes := loadInodes fs.inodes (tableOf (superblock disk) disk)
      initialized := true } unloaded loads disk
  rw [run_bind_of_some loaded]
  rfl

theorem run_fsInit_unloadable (refused : ¬ fs.LoadsBitmap (superblock disk)) :
    ∃ fs', fsInit.run flatDevice fs (.fresh disk) = (none, fs', .fresh disk) := by
  rw [run_fsInit_existing unmounted layout]
  obtain ⟨fs', failed⟩ := @run_fsLoadBitmap_refused
    { fs with
      boot := superblock disk
      inodes := loadInodes fs.inodes (tableOf (superblock disk) disk)
      initialized := true } unloaded refused (.fresh disk)
  exact ⟨fs', run_bind_of_none failed⟩

theorem run_fsInit_clean (loads : fs.LoadsBitmap (superblock disk))
    (empty : (superblock disk).logNext = 0) : fsInit.run flatDevice fs (.fresh disk) =
      finishMount.run flatDevice (fs.loadedFrom (superblock disk) disk) (.running disk) := by
  rw [run_fsInit_loaded unmounted unloaded layout loads, empty]
  rfl

omit layout in
theorem run_fsInit_replayed (loads : fs.LoadsBitmap (superblock disk))
    (holds : HoldsTransaction disk) : fsInit.run flatDevice fs (.fresh disk) =
      finishMount.run flatDevice (fs.loadedFrom (superblock disk).emptied disk)
        (.running (recoveredImage disk)) := by
  have positive : 0 < (superblock disk).logNext := Nat.pos_of_ne_zero holds.pending
  have recovered := @run_fsRecover (fs.loadedFrom (superblock disk) disk) disk rfl holds
  rw [run_fsInit_loaded unmounted unloaded holds.layout loads]
  unfold whenever
  rw [if_pos positive, run_bind_assoc, run_attempt_bind, recovered]
  rfl

omit layout in
theorem run_fsInit_recovered (loads : fs.LoadsBitmap (superblock disk))
    (holds : HoldsTransaction disk) : fsInit.run flatDevice fs (.fresh (recoveredImage disk)) =
      finishMount.run flatDevice (fs.loadedFrom (superblock disk).emptied (recoveredImage disk))
        (.running (recoveredImage disk)) := by
  have same := superblock_recoveredImage disk
  have validAfter : fsLayoutValid (superblock (recoveredImage disk)) = true := by
    rw [same, fsLayoutValid_emptied]
    exact holds.layout
  have loadsAfter : fs.LoadsBitmap (superblock (recoveredImage disk)) := by
    rw [same]
    exact loads
  rw [run_fsInit_clean unmounted unloaded validAfter loadsAfter (by rw [same]; rfl), same]

end

instance confined_finishMount : UsesCache finishMount := by
  have size : ∀ index,
      UsesCache (clampSize index) := by
    intro index
    unfold clampSize
    infer_instance
  have sizes : ∀ indices,
      UsesCache (clampSizes indices) := by
    intro indices
    induction indices with
    | nil =>
      exact confined_pure ()
    | cons index rest ih =>
      unfold clampSizes
      infer_instance
  unfold finishMount
  infer_instance

/-- A kernel that has not mounted anything yet, with a disk image and the
contents of the memory the inode table is loaded to. -/
structure Booting (old : Nat → Inode) (disk : Nat → Sector)
    (machine : Machine CachedDisk) : Prop where
  fresh : machine.dev.Fresh
  image : machine.dev.disk.sectors = disk
  unmounted : machine.fs.initialized = false
  unloaded : machine.fs.bitmap = none
  table : machine.fs.inodes = old

/-- The same machine with another disk image. -/
def Machine.withImage (machine : Machine CachedDisk) (disk : Nat → Sector) : Machine CachedDisk :=
  { machine with
    dev :=
      { machine.dev with
        disk := { machine.dev.disk with sectors := disk } } }

variable {disk : Nat → Sector}

theorem Booting.withImage {old : Nat → Inode}
    {machine : Machine CachedDisk} (booting : Booting old disk machine)
    (image : Nat → Sector) : Booting old image (machine.withImage image) :=
  ⟨⟨booting.fresh.healthy, booting.fresh.unused⟩, rfl, booting.unmounted,
    booting.unloaded, booting.table⟩

/-- The inode table and the bitmap are the same, in memory and on the disk as
the cache shows it. -/
structure SameTables (first second : Machine CachedDisk) : Prop where
  inodes : ∀ index, index < maxInodes → first.fs.inodes index = second.fs.inodes index
  bitmap : first.fs.bitmap = second.fs.bitmap
  tableSectors : ∀ index, index < first.fs.boot.inodeSectors →
    first.dev.view (u32 (first.fs.boot.inodeTableSector + index)) =
      second.dev.view (u32 (first.fs.boot.inodeTableSector + index))
  bitmapSectors : ∀ index, index < first.fs.boot.bitmapSectors →
    first.dev.view (u32 (first.fs.boot.freeBitmapSector + index)) =
      second.dev.view (u32 (first.fs.boot.freeBitmapSector + index))

/-- Whatever the clock and the allocator do, a successful `fs_init` leaves the
tables it would leave if the log had been replayed first. -/
def RecoversFirst (old : Nat → Inode) (disk : Nat → Sector) : Prop :=
  ∀ machine, Booting old disk machine →
    machine.result cachedDevice fsInit = some () →
      SameTables (machine.exec cachedDevice fsInit)
        ((machine.withImage (recoveredImage disk)).exec cachedDevice fsInit)

/-- The bitmap is one that the heap has room for. -/
def BootSector.BitmapFits (boot : BootSector) : Prop :=
  boot.bitmapSectors ≠ 0 ∧ 0 < u32 (boot.bitmapSectors * sectorSize) ∧
    u32 (boot.bitmapSectors * sectorSize) ≤ heapSize

/-- The tables in their home sectors are those in the log, apart from sizes
beyond the capacity of a file. -/
structure TablesInPlace (old : Nat → Inode) (disk : Nat → Sector) : Prop where
  zeroth : loadInodes old (tableOf (superblock disk) disk) 0 =
    loadInodes old (tableOf (superblock disk) (recoveredImage disk)) 0
  inodes : ∀ index, index ∈ inodeNumbers →
    (loadInodes old (tableOf (superblock disk) disk) index).clamped
        (superblock disk).totalSectors (recoveredImage disk) =
      (loadInodes old (tableOf (superblock disk) (recoveredImage disk))
        index).clamped (superblock disk).totalSectors (recoveredImage disk)
  bitmap : bitsOf (superblock disk) disk (superblock disk).bitmapSectors =
    bitsOf (superblock disk) (recoveredImage disk) (superblock disk).bitmapSectors

section

variable {old : Nat → Inode} {disk : Nat → Sector}
  {machine : Machine CachedDisk} (booting : Booting old disk machine)

include booting

theorem Booting.exec_eq {outcome : Option Unit} {fs' : FsState}
    {disk' : Nat → Sector} (ran : fsInit.run flatDevice machine.fs (.fresh disk) =
      (outcome, fs', .running disk')) : machine.result cachedDevice fsInit = outcome ∧
      (machine.exec cachedDevice fsInit).fs = fs' ∧
      (machine.exec cachedDevice fsInit).dev.view = disk' := by
  have stands : (FlatDisk.fresh disk).StandsFor machine.dev := ⟨booting.fresh, booting.image⟩
  obtain ⟨sameOutcome, sameState, standsAfter⟩ := run_of_flat stands ran FlatDisk.noConfusion
  exact ⟨sameOutcome, sameState, standsAfter.2⟩

theorem Booting.loadsBitmap (layout : fsLayoutValid (superblock disk) = true)
    (returned : machine.result cachedDevice fsInit = some ()) :
    machine.fs.LoadsBitmap (superblock disk) := by
  by_contra refused
  obtain ⟨fs', ran⟩ := run_fsInit_unloadable booting.unmounted booting.unloaded layout refused
  have stands : (FlatDisk.fresh disk).StandsFor machine.dev := ⟨booting.fresh, booting.image⟩
  obtain ⟨failed, _⟩ := run_of_flat stands ran FlatDisk.noConfusion
  unfold Machine.result at returned
  rw [failed] at returned
  cases returned

end

theorem totalSectors_ne_zero {boot : BootSector}
    (layout : fsLayoutValid boot = true) : boot.totalSectors ≠ 0 := by
  unfold fsLayoutValid at layout
  simp only [Bool.and_eq_true, decide_eq_true_eq] at layout
  omega

theorem loadInodes_behind (old : Nat → Inode) (boot : BootSector)
    (disk : Nat → Sector) {index : Nat} (behind : maxInodes ≤ index) :
    loadInodes old (tableOf boot disk) index = old index := by
  have sectors : boot.inodeSectors ≤ 272 := by
    unfold BootSector.inodeSectors
    dsimp only
    change (min _ 1024 * 136 + 512 - 1) / 512 ≤ 272
    omega
  unfold loadInodes
  apply if_neg
  unfold tableOf
  rw [List.length_map, List.length_range']
  change 1024 ≤ index at behind
  change ¬ 136 * index < 512 * boot.inodeSectors
  omega

attribute [ext] FsState

section

variable {old : Nat → Inode} {disk : Nat → Sector}
  (holds : HoldsTransaction disk)

include holds

/-- With the tables in place, nothing is left of the order of loading and
replaying once the sizes are clamped. -/
theorem TablesInPlace.clamped_eq (inPlace : TablesInPlace old disk)
    {fs : FsState} (table : fs.inodes = old) :
    (fs.loadedFrom (superblock disk).emptied disk).clampedOn (recoveredImage disk) inodeNumbers =
      (fs.loadedFrom (superblock disk).emptied
        (recoveredImage disk)).clampedOn (recoveredImage disk) inodeNumbers := by
  have limit : ∀ image, (fs.loadedFrom (superblock disk).emptied
      image).maxSectors = (superblock disk).totalSectors := by
    intro image
    exact if_neg (totalSectors_ne_zero holds.layout)
  have inodes : ∀ index, ((fs.loadedFrom (superblock disk).emptied disk).clampedOn
          (recoveredImage disk) inodeNumbers).inodes index =
        ((fs.loadedFrom (superblock disk).emptied
          (recoveredImage disk)).clampedOn (recoveredImage disk) inodeNumbers).inodes index := by
    intro index
    unfold FsState.clampedOn
    dsimp only
    rw [limit, limit]
    unfold FsState.loadedFrom
    dsimp only
    rw [table]
    by_cases inTable : index ∈ inodeNumbers
    · rw [if_pos inTable, if_pos inTable]
      exact inPlace.inodes index inTable
    · rw [if_neg inTable, if_neg inTable]
      rw [mem_inodeNumbers] at inTable
      by_cases zero : index = 0
      · rw [zero]
        exact inPlace.zeroth
      · rw [loadInodes_behind old _ _ (by omega), loadInodes_behind old _ _ (by omega)]
  exact FsState.ext rfl (funext inodes) rfl (congrArg some inPlace.bitmap) rfl rfl

theorem TablesInPlace.recoversFirst
    (inPlace : (superblock disk).BitmapFits → TablesInPlace old disk) : RecoversFirst old disk := by
  intro machine booting returned
  have loads := booting.loadsBitmap holds.layout returned
  have tables := inPlace ⟨loads.1, loads.2.1, loads.2.2.1⟩
  have replayed := run_fsInit_replayed booting.unmounted booting.unloaded loads holds
  have recovered := run_fsInit_recovered booting.unmounted booting.unloaded loads holds
  have nodup : inodeNumbers.Nodup := List.nodup_range'
  have sameRun : fsInit.run flatDevice machine.fs (.fresh (recoveredImage disk)) =
      fsInit.run flatDevice machine.fs (.fresh disk) := by
    rw [replayed, recovered, finishMount, run_bind_of_some (run_clampSizes _ _ nodup),
      run_bind_of_some (run_clampSizes _ _ nodup), tables.clamped_eq holds booting.table]
  obtain ⟨after, running⟩ := run_keeps flatDevice_running finishMount
    (machine.fs.loadedFrom (superblock disk).emptied disk) ⟨recoveredImage disk, rfl⟩
  rw [← replayed] at running
  obtain ⟨_, state, view⟩ := booting.exec_eq (Prod.ext rfl (Prod.ext rfl running))
  obtain ⟨_, stateAfter, viewAfter⟩ := (booting.withImage (recoveredImage disk)).exec_eq
    (sameRun.trans (Prod.ext rfl (Prod.ext rfl running)))
  have sameState := state.trans stateAfter.symm
  have sameView := view.trans viewAfter.symm
  exact ⟨fun index _ => by rw [sameState], by rw [sameState],
    fun index _ => by rw [sameView], fun index _ => by rw [sameView]⟩

/-- The allocator grants the bitmap and nothing else. -/
def bitmapOnly (asked _size : Nat) : Bool :=
  decide (asked = 0)

/-- A kernel that starts on a disk image with little memory. -/
def scarceMachine (old : Nat → Inode) (disk : Nat → Sector) : Machine CachedDisk :=
  Machine.withImage
    { blankMachine bitmapOnly with
      fs := { (blankMachine bitmapOnly).fs with inodes := old } } disk

omit holds in
theorem scarceMachine_booting : Booting old disk (scarceMachine old disk) :=
  ⟨⟨blankCachedDisk_fresh.healthy, blankCachedDisk_fresh.unused⟩, rfl, rfl, rfl, rfl⟩

omit holds in
theorem run_finishMount_refused {fs : FsState} (initialized : fs.initialized = true)
    (refused : ¬ fs.grants fs.boot.totalSectors) : finishMount.run flatDevice fs (.running disk) =
      (some (), (fs.clampedOn disk inodeNumbers).ask, .running disk) := by
  have nodup : inodeNumbers.Nodup := List.nodup_range'
  have refusedAfter : ¬ (fs.clampedOn disk inodeNumbers).grants fs.boot.totalSectors := refused
  have failed : (fsFsck true).run flatDevice (fs.clampedOn disk inodeNumbers) (.running disk) =
      (none, (fs.clampedOn disk inodeNumbers).ask, .running disk) := by
    have isInitialized : (fs.clampedOn disk inodeNumbers).initialized = true := initialized
    rw [fsFsck, run_reads_bind, id_eq, require_of isInitialized, run_pure_bind]
    exact run_bind_of_none (run_malloc_of_not_grants _ _ refusedAfter)
  rw [finishMount, run_bind_of_some (run_clampSizes fs disk nodup), run_attempt_bind, failed]
  rfl

theorem RecoversFirst.inPlace (recovers : RecoversFirst old disk)
    (fits : (superblock disk).BitmapFits) : TablesInPlace old disk := by
  have booting := @scarceMachine_booting old disk
  have loads : (scarceMachine old disk).fs.LoadsBitmap (superblock disk) :=
    ⟨fits.1, fits.2.1, fits.2.2, rfl⟩
  have limit : ∀ image, ((scarceMachine old disk).fs.loadedFrom
      (superblock disk).emptied image).maxSectors = (superblock disk).totalSectors :=
    fun image => if_neg (totalSectors_ne_zero holds.layout)
  have refused : ∀ image, ¬ ((scarceMachine old disk).fs.loadedFrom
      (superblock disk).emptied image).grants (superblock disk).totalSectors := by
    rintro image ⟨_, _, granted⟩
    cases granted
  have replayed := run_fsInit_replayed booting.unmounted booting.unloaded loads holds
  have recovered := run_fsInit_recovered booting.unmounted booting.unloaded loads holds
  rw [run_finishMount_refused rfl (refused _)] at replayed recovered
  obtain ⟨returned, state, _⟩ := booting.exec_eq replayed
  obtain ⟨_, stateAfter, _⟩ := (booting.withImage (recoveredImage disk)).exec_eq recovered
  have same := recovers _ booting returned
  have inodes := same.inodes
  have bitmap := same.bitmap
  rw [state, stateAfter] at inodes bitmap
  refine ⟨?_, ?_, Option.some.inj bitmap⟩
  · have zeroth := inodes 0 (by decide)
    have notListed : ¬ 0 ∈ inodeNumbers := by
      rw [mem_inodeNumbers]
      omega
    unfold FsState.clampedOn FsState.ask at zeroth
    dsimp only at zeroth
    rw [if_neg notListed, if_neg notListed] at zeroth
    exact zeroth
  · intro index listed
    have one := inodes index (mem_inodeNumbers.mp listed).2
    unfold FsState.clampedOn FsState.ask at one
    dsimp only at one
    rw [if_pos listed, if_pos listed, limit, limit] at one
    exact one

end

/-- `fs_init` leaves the tables it should leave, for every clock and every
allocator, exactly if the bitmap cannot be loaded at all or the transaction in
the log does not change the tables. -/
theorem fsInit_recoversFirst_iff {disk : Nat → Sector}
    (holds : HoldsTransaction disk) (old : Nat → Inode) : RecoversFirst old disk ↔
      ((superblock disk).BitmapFits → TablesInPlace old disk) := by
  constructor
  · intro recovers fits
    exact recovers.inPlace holds fits
  · intro inPlace
    exact TablesInPlace.recoversFirst holds inPlace

theorem copyLogged_of_unlogged {logStart lba : Nat} {header : TxnHeader} (count : Nat) :
    ∀ (first : Nat) (disk : Nat → Sector),
      (∀ index, index < first + count → header.lba.getD index 0 ≠ lba) →
        copyLogged logStart header first count disk lba = disk lba := by
  induction count with
  | zero =>
    intro first disk _
    rfl
  | succ count ih =>
    intro first disk unlogged
    have elsewhere : lba ≠ header.lba.getD first 0 := (unlogged first (by omega)).symm
    rw [copyLogged, ih _ _ fun index inside =>
      unlogged index (by omega), Function.update_of_ne elsewhere]

theorem recoveredImage_of_unlogged {lba : Nat} (notBoot : lba ≠ 0)
    (unlogged : ∀ index, index < (TxnHeader.decode (disk (superblock disk).logStartSector)).nsec →
      (TxnHeader.decode (disk (superblock disk).logStartSector)).lba.getD index 0 ≠ lba) :
    recoveredImage disk lba = disk lba := by
  unfold recoveredImage
  rw [Function.update_of_ne notBoot]
  apply copyLogged_of_unlogged
  intro index inside
  exact unlogged index (by omega)

theorem tablesInPlace_of_unchanged (table : ∀ index, index < (superblock disk).inodeSectors →
      recoveredImage disk (u32 ((superblock disk).inodeTableSector + index)) =
        disk (u32 ((superblock disk).inodeTableSector + index)))
    (bitmap : ∀ index, index < (superblock disk).bitmapSectors →
      recoveredImage disk (u32 ((superblock disk).freeBitmapSector + index)) =
        disk (u32 ((superblock disk).freeBitmapSector + index)))
    (old : Nat → Inode) : TablesInPlace old disk := by
  have sameTable : tableOf (superblock disk) (recoveredImage disk) =
      tableOf (superblock disk) disk := by
    apply List.map_congr_left
    intro index member
    obtain ⟨step, inside, rfl⟩ := List.mem_range'.mp member
    exact table _ (by omega)
  refine ⟨by rw [sameTable], fun index _ => by rw [sameTable], ?_⟩
  funext sector
  unfold bitsOf
  by_cases inside : sector / 8 / sectorSize < (superblock disk).bitmapSectors
  · rw [if_pos inside, if_pos inside, bitmap _ inside]
  · rw [if_neg inside, if_neg inside]

/-- A file system of 64 sectors with a transaction in the log. -/
def smallBoot : BootSector :=
  { magic := 0x4D4F5320
    version := 3
    totalSectors := 64
    inodeTableSector := 1
    dataStartSector := 4
    inodeCount := 1
    freeBitmapSector := 3
    freeBitmapSize := 8
    logStartSector := 4
    logSize := 33
    logNext := 2
    logMagic := 0x4C4F4700
    inodeSlots := 4
    rootIno := 1
    quotaSoftBlocks := 0
    reserved := List.replicate 452 0 }

/-- A crash after the transaction was announced and before its only sector was
copied home. -/
def crashImage (home : Nat) (logged : Sector) (lba : Nat) : Sector :=
  if lba = 0 then smallBoot.encode
  else if lba = 4 then (txnHeader [(home, logged)]).encode
  else if lba = 5 then logged
  else fun _ => 0

theorem superblock_crashImage (home : Nat) (logged : Sector) :
    superblock (crashImage home logged) = smallBoot := by
  apply BootSector.decode_encode
  · decide
  · exact List.length_replicate

theorem crashImage_holds {home : Nat} {logged : Sector}
    (accepted : headerAccepted (txnHeader [(home, logged)]).encode = true) :
    HoldsTransaction (crashImage home logged) := by
  have boot := superblock_crashImage home logged
  refine ⟨?_, ?_, ?_, ?_⟩
  · rw [boot]
    decide
  · rw [boot]
    decide
  · rw [boot]
    decide
  · rw [boot]
    exact accepted

/-- The first sector of an inode table with a root directory. -/
def rootTable : Sector :=
  tableSector (formatInodes (fun _ => Inode.zero) 0) 0

theorem header_data : (TxnHeader.decode (txnHeader [(40, rootTable)]).encode).nsec = 1 ∧
    (TxnHeader.decode (txnHeader [(40, rootTable)]).encode).lba.getD 0 0 = 40 := by
  decide +kernel

/-- A transaction that writes a data sector only. -/
theorem fsInit_recoversFirst_data : HoldsTransaction (crashImage 40 rootTable) ∧
      RecoversFirst (fun _ => Inode.zero) (crashImage 40 rootTable) := by
  have holds : HoldsTransaction (crashImage 40 rootTable) := crashImage_holds (by decide +kernel)
  have boot := superblock_crashImage 40 rootTable
  obtain ⟨one, home⟩ := header_data
  have unchanged : ∀ lba, lba ≠ 0 → lba ≠ 40 → recoveredImage (crashImage 40 rootTable) lba =
        crashImage 40 rootTable lba := by
    intro lba notBoot notHome
    apply recoveredImage_of_unlogged notBoot
    rw [boot]
    change ∀ index, index < (TxnHeader.decode (txnHeader [(40, rootTable)]).encode).nsec →
      (TxnHeader.decode (txnHeader [(40, rootTable)]).encode).lba.getD index 0 ≠ lba
    intro index inside
    rw [one] at inside
    have zero : index = 0 := by omega
    rw [zero, home]
    exact notHome.symm
  have table : smallBoot.inodeSectors = 2 := by decide
  have bitmap : smallBoot.bitmapSectors = 1 := by decide
  have small : ∀ index, index < 2 → u32 (1 + index) = 1 + index ∧ u32 (3 + index) = 3 + index := by
    intro index inside
    exact ⟨u32_of_lt (by omega), u32_of_lt (by omega)⟩
  refine ⟨holds, (fsInit_recoversFirst_iff holds _).mpr fun _ =>
    tablesInPlace_of_unchanged ?_ ?_ _⟩
  · rw [boot, table]
    intro index inside
    have lba : u32 (smallBoot.inodeTableSector + index) = 1 + index := (small index inside).1
    rw [lba]
    exact unchanged (1 + index) (by omega) (by omega)
  · rw [boot, bitmap]
    intro index inside
    have lba : u32 (smallBoot.freeBitmapSector + index) = 3 + index := (small index (by omega)).2
    rw [lba]
    exact unchanged (3 + index) (by omega) (by omega)

/-- The first sector of the inode table, with the root directory, is in the
log and not at home yet. -/
def lostRoot : Nat → Sector :=
  crashImage 1 rootTable

/-- Whether a successful `fs_init` on an image leaves a root directory. -/
def mountsRoot (disk : Nat → Sector) : Option Bool :=
  match fsInit.run flatDevice (blankMachine fun _ _ => true).fs
    (.fresh disk) with
  | (some (), fs, .running _) => some (fs.inodes rootIno).occupied
  | _ => none

set_option maxRecDepth 100000 in
theorem mountsRoot_lostRoot : mountsRoot lostRoot = some false := by
  decide +kernel

set_option maxRecDepth 100000 in
theorem mountsRoot_recovered : mountsRoot (recoveredImage lostRoot) = some true := by
  decide +kernel

/-- A kernel with enough memory that starts on an image. -/
def bootMachine (disk : Nat → Sector) : Machine CachedDisk :=
  (blankMachine fun _ _ => true).withImage disk

theorem bootMachine_withImage (disk image : Nat → Sector) :
    (bootMachine disk).withImage image = bootMachine image := rfl

theorem bootMachine_booting (disk : Nat → Sector) :
    Booting (fun _ => Inode.zero) disk (bootMachine disk) :=
  ⟨⟨blankCachedDisk_fresh.healthy, blankCachedDisk_fresh.unused⟩, rfl, rfl, rfl, rfl⟩

theorem exec_of_mountsRoot {isRoot : Bool} (mounts : mountsRoot disk = some isRoot) :
    (bootMachine disk).result cachedDevice fsInit = some () ∧
      (((bootMachine disk).exec cachedDevice fsInit).fs.inodes rootIno).occupied = isRoot := by
  unfold mountsRoot at mounts
  split at mounts
  · rename_i fs disk' ran
    obtain ⟨returned, state, _⟩ := (bootMachine_booting disk).exec_eq ran
    refine ⟨returned, ?_⟩
    rw [state]
    exact Option.some.inj mounts
  · cases mounts

/-- `fs_init` puts the table it has loaded over the replayed one. -/
theorem fsInit_loses_transaction : HoldsTransaction lostRoot ∧
      Booting (fun _ => Inode.zero) lostRoot (bootMachine lostRoot) ∧
      (bootMachine lostRoot).result cachedDevice fsInit = some () ∧
      ¬ SameTables ((bootMachine lostRoot).exec cachedDevice fsInit)
        (((bootMachine lostRoot).withImage
          (recoveredImage lostRoot)).exec cachedDevice fsInit) := by
  obtain ⟨returned, lost⟩ := exec_of_mountsRoot mountsRoot_lostRoot
  have kept := (exec_of_mountsRoot mountsRoot_recovered).2
  rw [← bootMachine_withImage lostRoot] at kept
  refine ⟨crashImage_holds (by decide +kernel), bootMachine_booting lostRoot, returned, ?_⟩
  intro same
  have sameRoot := congrArg Inode.occupied (same.inodes rootIno (by decide))
  have contradiction := lost.symm.trans (sameRoot.trans kept)
  cases contradiction

end KnitOS.Fs
