import KnitOS.Fs.Frames
import Mathlib.Data.List.GetD

/-!
# The contents of files

What reading, writing and truncating a file do to its bytes, to its inode and
to everything else.
-/

namespace KnitOS.Fs

open Lib Lib.Program Storage

/-- The byte at a position of a file, from its sectors.  There are zeros
behind the last one. -/
def contentAt (blocks : List Sector) (position : Nat) : UInt8 :=
  sectorByte (blocks.getD (position / sectorSize) fun _ => 0)
    (position % sectorSize)

/-- The number of bytes `fs_index_read` can return of a file. -/
def readableSize (fs : FsState) (disk : Nat → Sector) (index : Nat) : Nat :=
  min (fs.inodes index).sizeBytes
    (sectorSize * ((fs.inodes index).dataSectors disk).length)

def fileBytes (fs : FsState) (disk : Nat → Sector) (index : Nat) : List UInt8 :=
  (List.range (readableSize fs disk index)).map
    (contentAt (fileBlocks fs disk index))

theorem length_fileBytes (fs : FsState) (disk : Nat → Sector) (index : Nat) :
    (fileBytes fs disk index).length = readableSize fs disk index := by
  simp [fileBytes]

theorem contentAt_add (blocks : List Sector) {position step : Nat}
    (inside : position % sectorSize + step < sectorSize) : contentAt blocks (position + step) =
      sectorByte (blocks.getD (position / sectorSize) fun _ => 0)
        (position % sectorSize + step) := by
  change position % 512 + step < 512 at inside
  have sameSector : (position + step) / 512 = position / 512 := by omega
  have offset : (position + step) % 512 = position % 512 + step := by omega
  unfold contentAt
  rw [sameSector, offset]

theorem fileBlocks_getD (fs : FsState) (disk : Nat → Sector) (index fileSector : Nat) :
    (fileBlocks fs disk index).getD fileSector (fun _ => 0) =
      match ((fs.inodes index).dataSectors disk)[fileSector]? with
      | some lba => disk lba
      | none => fun _ => 0 := by
  unfold fileBlocks
  rw [List.getD_eq_getElem?_getD, List.getElem?_map]
  cases ((fs.inodes index).dataSectors disk)[fileSector]? with
  | none => rfl
  | some lba => rfl

section

variable {fs : FsState} {disk : Nat → Sector} {held : List Nat} {index : Nat}
  (consistent : Consistent fs disk held)
include consistent

theorem Consistent.run_readChunk (inTable : index < maxInodes) {position count : Nat}
    (inside : position % sectorSize + count ≤ sectorSize) :
    (readChunk index position count).run flatDevice fs (.running disk) =
      (some ((List.range' position count).map
        (contentAt (fileBlocks fs disk index))), fs, .running disk) := by
  have mapped := (consistent.mappable inTable).run_inodeMapSector
    consistent.formatted (position / sectorSize)
  have blockAt := fileBlocks_getD fs disk index (position / sectorSize)
  have contents : (List.range' position count).map (contentAt (fileBlocks fs disk index)) =
        (List.range count).map fun step =>
          sectorByte ((fileBlocks fs disk index).getD (position / sectorSize) fun _ => 0)
            (position % sectorSize + step) := by
    rw [List.range'_eq_map_range, List.map_map]
    apply List.map_congr_left
    intro step member
    have small := List.mem_range.mp member
    exact contentAt_add _ (by omega)
  rw [contents, blockAt, readChunk, run_inodeAt_bind, run_attempt_bind, mapped]
  cases ((fs.inodes index).dataSectors disk)[position / sectorSize]? with
  | none =>
    have zeros : (List.range count).map (fun step => sectorByte (fun _ => 0)
            (position % sectorSize + step)) = List.replicate count 0 := by
      rw [List.eq_replicate_iff]
      refine ⟨by simp, ?_⟩
      intro byte member
      obtain ⟨step, _, byteEq⟩ := List.mem_map.mp member
      rw [← byteEq]
      unfold sectorByte
      split <;> rfl
    simp only [zeros, run_pure]
  | some lba =>
    simp only [run_dRead_bind, run_pure]
    rfl

theorem Consistent.run_readLoop
    (inTable : index < maxInodes) : ∀ (rounds position remaining : Nat), remaining ≤ rounds →
      (readLoop index rounds position remaining).run flatDevice fs (.running disk) =
        (some ((List.range' position remaining).map
          (contentAt (fileBlocks fs disk index))), fs, .running disk) := by
  intro rounds
  induction rounds with
  | zero =>
    intro position remaining enough
    rw [Nat.le_zero.mp enough]
    rfl
  | succ rounds ih =>
    intro position remaining enough
    rw [readLoop]
    by_cases finished : remaining = 0
    · rw [if_pos finished, finished]
      rfl
    · rw [if_neg finished]
      dsimp only
      have countEq : chunkSize position remaining = min (512 - position % 512) remaining := rfl
      have short : chunkSize position remaining ≤ remaining := by omega
      have chunk := consistent.run_readChunk inTable
        (by omega : position % 512 + chunkSize position remaining ≤ 512)
      have rest := ih (position + chunkSize position remaining)
        (remaining - chunkSize position remaining) (by omega)
      rw [run_bind_of_some chunk, run_bind_of_some rest, run_pure,
        ← List.map_append, List.range'_append_1, Nat.add_sub_cancel' short]

theorem Consistent.run_inodeByteCapacity (inTable : index < maxInodes) :
    (inodeByteCapacity (fs.inodes index)).run flatDevice fs (.running disk) =
      (some (sectorSize * ((fs.inodes index).dataSectors disk).length), fs, .running disk) := by
  have mappable := consistent.mappable inTable
  have bounded := consistent.formatted.bounded
  have short := mappable.length_le
  have counted := mappable.run_inodeSectorCount consistent.formatted
  have small : ¬ 0xFFFFFFFF / 512 < ((fs.inodes index).dataSectors disk).length := by
    omega
  rw [inodeByteCapacity, run_bind_of_some counted, if_neg small, run_pure, Nat.mul_comm]

omit consistent

/-- A file the caller may read with `fs_index_read`. -/
def FsState.Readable (fs : FsState) (index : Nat) : Prop :=
  validIndex index = true ∧ (fs.inodes index).occupied = true ∧
    (fs.inodes index).isSpecial = false ∧ fsAccessOk fs index false = true

/-- The state after a file was accessed for reading. -/
def FsState.accessed (fs : FsState) (index : Nat) : FsState :=
  if (fs.inodes index).isDirectory = false then
    fs.ask.setInode index
      { fs.inodes index with atime := u32 (fs.kernel.clock fs.kernel.asked) }
  else
    fs

theorem FsState.looked_accessed (fs : FsState) (index : Nat) : Looked fs (fs.accessed index) := by
  unfold FsState.accessed
  by_cases isFile : (fs.inodes index).isDirectory = false
  · rw [if_pos isFile]
    refine ⟨rfl, rfl, rfl, rfl, rfl, ?_⟩
    intro other
    by_cases same : other = index
    · rw [same, FsState.setInode_self]
      rfl
    · rw [FsState.setInode_other _ _ _ same]
      rfl
  · rw [if_neg isFile]
    exact Looked.refl fs

theorem validIndex_lt {index : Nat} (valid : validIndex index = true) :
    0 < index ∧ index < maxInodes := of_decide_eq_true valid

theorem run_markAccess (fs : FsState) (index : Nat) (flat : FlatDisk) :
    (whenever ((fs.inodes index).isDirectory = false) (touchAccess index)).run flatDevice fs flat =
      (some (), fs.accessed index, flat) := by
  unfold whenever FsState.accessed
  by_cases isFile : (fs.inodes index).isDirectory = false
  · rw [if_pos isFile, if_pos isFile]
    rfl
  · rw [if_neg isFile, if_neg isFile]
    rfl

theorem take_drop_range_map {α : Type} (contents : Nat → α) (total offset size : Nat) :
    (((List.range total).map contents).drop offset).take size =
      (List.range' offset (min size (total - offset))).map contents := by
  apply List.ext_getElem
  · simp
  · intro position _ _
    simp

theorem Consistent.run_fsIndexRead (consistent : Consistent fs disk held)
    (readable : fs.Readable index) (offset size : Nat) :
    (fsIndexRead index offset size).run flatDevice fs (.running disk) =
      (some (((fileBytes fs disk index).drop offset).take size),
        fs.accessed index, .running disk) := by
  obtain ⟨valid, occupied, notSpecial, access⟩ := readable
  have inTable := (validIndex_lt valid).2
  have looked := fs.looked_accessed index
  have after := looked.consistent consistent
  have capacity := after.run_inodeByteCapacity inTable
  have sameSize : ((fs.accessed index).inodes index).sizeBytes =
    (fs.inodes index).sizeBytes := looked.sizeBytes index
  let count := min size (readableSize fs disk index - offset)
  have read := after.run_readLoop inTable count offset count (Nat.le_refl _)
  rw [looked.dataSectors disk index] at capacity
  rw [looked.fileBlocks disk index] at read
  rw [fsIndexRead, run_reads_bind, id_eq, require_of ⟨valid, occupied⟩,
    run_pure_bind, require_of notSpecial, run_pure_bind, require_of access,
    run_pure_bind, run_bind_of_some (run_markAccess fs index _),
    run_inodeAt_bind, run_bind_of_some capacity, sameSize]
  unfold fileBytes
  rw [take_drop_range_map]
  exact read

theorem run_fsIndexRead_refused (refused : ¬ fs.Readable index)
    (offset size : Nat) (flat : FlatDisk) : (fsIndexRead index offset size).run flatDevice fs flat =
      (none, fs, flat) := by
  rw [fsIndexRead, run_reads_bind, id_eq, require_bind_require, require_bind_require,
    require_of_not fun ⟨⟨⟨valid, occupied⟩, notSpecial⟩, access⟩ =>
      refused ⟨valid, occupied, notSpecial, access⟩]
  rfl

theorem Consistent.leaves_fsIndexRead (consistent : Consistent fs disk held)
    (index offset size : Nat) : Leaves (fsIndexRead index offset size) fs disk fun _ fs' disk' =>
      Looked fs fs' ∧ disk' = disk := by
  by_cases readable : fs.Readable index
  · exact ⟨_, _, _, consistent.run_fsIndexRead readable offset size, fs.looked_accessed index, rfl⟩
  · exact ⟨_, _, _, run_fsIndexRead_refused readable offset size _, Looked.refl fs, rfl⟩

end

/-- Contents with some bytes replaced. -/
def overwrite (contents : Nat → UInt8) (position : Nat) (data : List UInt8) : Nat → UInt8 :=
  fun place =>
    if position ≤ place ∧ place < position + data.length then
      data.getD (place - position) 0
    else
      contents place

theorem overwrite_nil (contents : Nat → UInt8) (position : Nat) :
    overwrite contents position [] = contents := by
  funext place
  unfold overwrite
  rw [if_neg (by simp)]

theorem overwrite_append (contents : Nat → UInt8) (position : Nat) (first second : List UInt8) :
    overwrite (overwrite contents position first) (position + first.length) second =
      overwrite contents position (first ++ second) := by
  funext place
  simp only [overwrite, List.length_append]
  by_cases before : place < position + first.length
  · rw [if_neg (by omega)]
    by_cases inFirst : position ≤ place
    · rw [if_pos ⟨inFirst, before⟩, if_pos (by omega), List.getD_append _ _ _ _ (by omega)]
    · rw [if_neg (by omega), if_neg (by omega)]
  · by_cases inSecond : place < position + first.length + second.length
    · rw [if_pos (by omega), if_pos (by omega), List.getD_append_right _ _ _ _ (by omega)]
      congr 1
      omega
    · rw [if_neg (by omega), if_neg (by omega), if_neg (by omega)]

theorem sectorByte_patchSector (bytes : Sector) {offset place : Nat}
    (chunk : List UInt8) (inside : place < sectorSize) :
    sectorByte (patchSector bytes offset chunk) place =
      overwrite (sectorByte bytes) offset chunk place := by
  unfold overwrite
  simp only [sectorByte, patchSector, dif_pos inside]

theorem contentAt_set (blocks : List Sector) {fileSector : Nat}
    (inside : fileSector < blocks.length) (bytes : Sector) (place : Nat) :
    contentAt (blocks.set fileSector bytes) place =
      if place / sectorSize = fileSector then
        sectorByte bytes (place % sectorSize)
      else
        contentAt blocks place := by
  unfold contentAt
  by_cases same : place / sectorSize = fileSector
  · rw [if_pos same, same, List.getD_eq_getElem?_getD, List.getElem?_set_self inside]
    rfl
  · rw [if_neg same, List.getD_eq_getElem?_getD,
      List.getElem?_set_ne (Ne.symm same), List.getD_eq_getElem?_getD]

theorem contentAt_set_patchSector (blocks : List Sector)
    {position : Nat} {chunk : List UInt8} (within : position / sectorSize < blocks.length)
    (inside : position % sectorSize + chunk.length ≤ sectorSize) : contentAt
        (blocks.set (position / sectorSize)
          (patchSector (blocks.getD (position / sectorSize) fun _ => 0)
            (position % sectorSize) chunk)) = overwrite (contentAt blocks) position chunk := by
  funext place
  rw [contentAt_set blocks within]
  have offsetSmall : place % 512 < 512 := Nat.mod_lt _ (by decide)
  change position % 512 + chunk.length ≤ 512 at inside
  by_cases same : place / sectorSize = position / sectorSize
  · rw [if_pos same, sectorByte_patchSector _ _ offsetSmall]
    change place / 512 = position / 512 at same
    unfold overwrite
    by_cases covered : position ≤ place ∧ place < position + chunk.length
    · have shift : place % 512 - position % 512 = place - position := by omega
      have coveredHere : position % 512 ≤ place % 512 ∧
        place % 512 < position % 512 + chunk.length := by omega
      rw [if_pos covered, if_pos coveredHere, shift]
    · have notHere : ¬ (position % 512 ≤ place % 512 ∧
        place % 512 < position % 512 + chunk.length) := by omega
      rw [if_neg covered, if_neg notHere]
      unfold contentAt
      rw [show place / sectorSize = position / sectorSize from same]
  · rw [if_neg same]
    change ¬ place / 512 = position / 512 at same
    unfold overwrite
    rw [if_neg (by omega)]

section

variable {fs : FsState} {held : List Nat} {index : Nat}

theorem Consistent.fileBlocks_update {disk : Nat → Sector}
    (consistent : Consistent fs disk held) (inTable : index < maxInodes)
    {fileSector lba : Nat} (at_ : ((fs.inodes index).dataSectors disk)[fileSector]? = some lba)
    (bytes : Sector) : fileBlocks fs (Function.update disk lba bytes) index =
      (fileBlocks fs disk index).set fileSector bytes := by
  obtain ⟨within, lbaEq⟩ := List.getElem?_eq_some_iff.mp at_
  have member : lba ∈ (fs.inodes index).dataSectors disk := List.mem_of_getElem? at_
  have nodup := (consistent.mappable inTable).nodup
  have sameData := consistent.dataSectors_write inTable fun sector outside => Function.update_of_ne
    (fun same : sector = lba => outside (same ▸ member)) bytes disk
  unfold fileBlocks
  rw [sameData]
  apply List.ext_getElem
  · simp
  · intro place inside _
    rw [List.length_map] at inside
    rw [List.getElem_map]
    by_cases same : place = fileSector
    · subst same
      rw [List.getElem_set_self, lbaEq, Function.update_self]
    · have different : ((fs.inodes index).dataSectors disk)[place] ≠ lba := by
        rw [← lbaEq]
        intro equal
        exact same ((nodup.getElem_inj_iff).mp equal)
      rw [List.getElem_set_ne (Ne.symm same), List.getElem_map, Function.update_of_ne different]

/-- The write loop changes nothing but the contents of the file; inside the
sectors of the file it succeeds. -/
theorem run_writeLoop (inTable : index < maxInodes) :
    ∀ (rounds position : Nat) (data : List UInt8) {disk : Nat → Sector},
      Consistent fs disk held → data.length ≤ rounds →
      Leaves (writeLoop index rounds position data) fs disk fun outcome fs' disk' =>
          fs' = fs ∧
          (∀ sector, sector ∉ (fs.inodes index).dataSectors disk → disk' sector = disk sector) ∧
          (position + data.length ≤ 512 * ((fs.inodes index).dataSectors disk).length →
            outcome = some () ∧ contentAt (fileBlocks fs disk' index) =
              overwrite (contentAt (fileBlocks fs disk index)) position data) := by
  intro rounds
  induction rounds with
  | zero =>
    intro position data disk _ enough
    rw [List.eq_nil_of_length_eq_zero (Nat.le_zero.mp enough)]
    exact ⟨some (), fs, disk, rfl, rfl, fun _ _ => rfl, fun _ => ⟨rfl, (overwrite_nil _ _).symm⟩⟩
  | succ rounds ih =>
    intro position data disk consistent enough
    rw [writeLoop]
    by_cases finished : data.isEmpty = true
    · rw [if_pos finished, List.isEmpty_iff.mp finished]
      exact ⟨some (), fs, disk, rfl, rfl, fun _ _ => rfl, fun _ => ⟨rfl, (overwrite_nil _ _).symm⟩⟩
    · rw [if_neg finished]
      dsimp only
      have nonempty : data.length ≠ 0 := by
        intro empty
        rw [List.eq_nil_of_length_eq_zero empty] at finished
        exact finished rfl
      let count := chunkSize position data.length
      have countEq : count = min (512 - position % 512) data.length := rfl
      have chunkLength : (data.take count).length = count := by
        rw [List.length_take]
        omega
      have restLength : (data.drop count).length = data.length - count := List.length_drop
      have mapped := (consistent.mappable inTable).run_inodeMapSector
        consistent.formatted (position / sectorSize)
      cases at_ : ((fs.inodes index).dataSectors disk)[ position / sectorSize]? with
      | none =>
        rw [at_] at mapped
        have unmapped : (writeChunk index position (data.take count)).run flatDevice
                fs (.running disk) = (none, fs, .running disk) := by
          rw [writeChunk, run_inodeAt_bind, run_bind_of_none mapped]
        refine ⟨none, fs, disk, run_bind_of_none unmapped, rfl, fun _ _ => rfl, ?_⟩
        intro inside
        have beyond := List.getElem?_eq_none_iff.mp at_
        change _ ≤ position / 512 at beyond
        omega
      | some lba =>
        rw [at_] at mapped
        obtain ⟨within, _⟩ := List.getElem?_eq_some_iff.mp at_
        have blockAt := fileBlocks_getD fs disk index (position / sectorSize)
        rw [at_] at blockAt
        let bytes := patchSector (disk lba) (position % sectorSize) (data.take count)
        let middle := Function.update disk lba bytes
        have written : (writeChunk index position (data.take count)).run flatDevice
                fs (.running disk) = (some (), fs, .running middle) := by
          rw [writeChunk, run_inodeAt_bind, run_bind_of_some mapped]
          rfl
        have elsewhere : ∀ sector, sector ∉ (fs.inodes index).dataSectors disk →
              middle sector = disk sector := by
          intro sector outside
          apply Function.update_of_ne
          intro same
          exact outside (same ▸ List.mem_of_getElem? at_)
        have sameData := consistent.dataSectors_write inTable elsewhere
        have chunkContents : contentAt (fileBlocks fs middle index) =
              overwrite (contentAt (fileBlocks fs disk index)) position (data.take count) := by
          rw [consistent.fileBlocks_update inTable at_,
            ← contentAt_set_patchSector (fileBlocks fs disk index)
              (by unfold fileBlocks; rw [List.length_map]; exact within) (by
                rw [chunkLength]
                change position % 512 + count ≤ 512
                omega),
            blockAt]
        obtain ⟨outcome, fs', final, ranRest, fsEq, restElsewhere, restContents⟩ :=
          ih (position + count) (data.drop count)
            (consistent.write_data inTable elsewhere) (by omega)
        rw [sameData] at restElsewhere restContents
        refine ⟨outcome, fs', final, ?_, fsEq, ?_, ?_⟩
        · rw [run_bind_of_some written]
          exact ranRest
        · intro sector outside
          rw [restElsewhere sector outside, elsewhere sector outside]
        · intro inside
          obtain ⟨succeeded, contents⟩ := restContents (by omega)
          have joined := overwrite_append (contentAt (fileBlocks fs disk index)) position
            (data.take count) (data.drop count)
          rw [chunkLength, List.take_append_drop] at joined
          exact ⟨succeeded, by rw [contents, chunkContents, joined]⟩

end

def FsState.Writable (fs : FsState) (index : Nat) : Prop :=
  validIndex index = true ∧ (fs.inodes index).occupied = true ∧
    fsAccessOk fs index true = true

/-- The state after the modification and change times were set. -/
def FsState.stamped (fs : FsState) (index : Nat) : FsState :=
  fs.ask.setInode index
    { fs.inodes index with
      mtime := u32 (fs.kernel.clock fs.kernel.asked)
      ctime := u32 (fs.kernel.clock fs.kernel.asked) }

/-- What a successful change of the number of sectors did to a file: it kept
its first sectors, or it got free ones with their old contents. -/
structure Resized (index need : Nat) (fs : FsState) (disk : Nat → Sector)
    (fs' : FsState) (disk' : Nat → Sector) : Prop where
  length : ((fs'.inodes index).dataSectors disk').length = need
  grown : ((fs.inodes index).dataSectors disk).length < need →
    Extended fs ((fs.inodes index).dataSectors disk) ((fs'.inodes index).dataSectors disk') ∧
      ∀ sector ∈ (fs'.inodes index).dataSectors disk', disk' sector = disk sector
  kept : need ≤ ((fs.inodes index).dataSectors disk).length →
    fileBlocks fs' disk' index = (fileBlocks fs disk index).take need

/-- A file has the same sectors with the same contents. -/
structure SameFile (index : Nat) (fs : FsState) (disk : Nat → Sector)
    (fs' : FsState) (disk' : Nat → Sector) : Prop where
  data : (fs'.inodes index).dataSectors disk' = (fs.inodes index).dataSectors disk
  contents : ∀ sector ∈ (fs.inodes index).dataSectors disk, disk' sector = disk sector

theorem SameFile.blocks {index : Nat} {fs fs' : FsState}
    {disk disk' : Nat → Sector} (same : SameFile index fs disk fs' disk') :
    fileBlocks fs' disk' index = fileBlocks fs disk index := by
  unfold fileBlocks
  rw [same.data]
  exact List.map_congr_left same.contents

theorem Resized.of_sameFile {index need : Nat} {fs fs' fs'' : FsState}
    {disk disk' disk'' : Nat → Sector} (resized : Resized index need fs disk fs' disk')
    (same : SameFile index fs' disk' fs'' disk'') : Resized index need fs disk fs'' disk'' := by
  refine ⟨?_, ?_, ?_⟩
  · rw [same.data]
    exact resized.length
  · intro short
    obtain ⟨extended, contents⟩ := resized.grown short
    rw [same.data]
    refine ⟨extended, ?_⟩
    intro sector member
    rw [same.contents sector member, contents sector member]
  · intro long
    rw [same.blocks]
    exact resized.kept long

section

variable {fs : FsState} {disk : Nat → Sector} {held : List Nat} {index : Nat}
  (consistent : Consistent fs disk held) (inTable : index < maxInodes)

include consistent inTable

theorem Consistent.sameFile {fs' : FsState} {disk' : Nat → Sector}
    (blocks : (fs'.inodes index).SameBlocks (fs.inodes index))
    (same : SameData fs disk disk') : SameFile index fs disk fs' disk' := by
  constructor
  · rw [blocks.dataSectors]
    apply Inode.dataSectors_congr
    intro present
    exact same _ (consistent.owned.inode_marked inTable _
      (Inode.mem_ownedSectors_indirect disk present)).1
  · intro sector member
    exact same sector (consistent.owned.inode_marked inTable sector
      (List.mem_append_left _ member)).1

theorem Consistent.leaves_resizeTo (need : Nat) : Leaves
    (resizeTo index need ((fs.inodes index).dataSectors disk).length) fs
    disk fun outcome fs' disk' =>
      Rebuilt index fs disk held fs' disk' ∧
      (outcome = some () → Resized index need fs disk fs' disk') := by
  unfold resizeTo
  apply yields_ite
  · intro short
    obtain ⟨outcome, fs', disk', grew, step, extended, reached⟩ :=
      run_inodeGrowSectors consistent inTable need
    refine ⟨outcome, fs', disk', grew, step.rebuilt consistent.owned inTable, ?_⟩
    intro succeeded
    exact ⟨by rw [reached succeeded]; omega, fun _ => ⟨extended, step.data_kept inTable⟩,
      fun long => by omega⟩
  · intro notShort
    apply yields_ite
    · intro long
      obtain ⟨outcome, fs', disk', shrunk, rebuilt, contents, _⟩ :=
        run_inodeShrinkTo consistent inTable need
      refine ⟨outcome, fs', disk', shrunk, rebuilt, ?_⟩
      intro succeeded
      have blocks := contents succeeded
      have lengths := congrArg List.length blocks
      rw [List.length_take] at lengths
      unfold fileBlocks at lengths
      rw [List.length_map, List.length_map] at lengths
      exact ⟨by omega, fun short => by omega, fun _ => blocks⟩
    · intro notLong
      apply yields_pure
      refine ⟨Rebuilt.refl consistent index, fun _ =>
        ⟨by omega, fun short => by omega, fun _ => ?_⟩⟩
      rw [List.take_of_length_le]
      unfold fileBlocks
      rw [List.length_map]
      omega

omit inTable in
theorem Consistent.leaves_stamp (index : Nat) :
    Leaves (touchModified index >>= fun _ => fsPersistMeta) fs disk fun outcome fs' disk' =>
        outcome = some () ∧ fs' = fs.stamped index ∧ SameData fs disk disk' := by
  have stamped : Consistent (fs.stamped index) disk held := consistent.ask.setInode ⟨rfl, rfl, rfl⟩
  have ran : (touchModified index).run flatDevice fs (.running disk) =
    (some (), fs.stamped index, .running disk) := rfl
  apply Yields.bind_of_run ran
  exact stamped.formatted.run_fsPersistMeta disk

omit inTable in
theorem Consistent.edited_stamped {disk' : Nat → Sector} (same : SameData fs disk disk') :
    Edited index fs disk held (fs.stamped index) disk' := by
  have asked := Edited.of_ask consistent index
  have stamped : Edited index fs.ask disk held (fs.stamped index) disk :=
    Edited.of_setInode consistent.ask ⟨rfl, rfl, rfl⟩ rfl
  exact (asked.trans stamped).trans (Edited.of_sameData stamped.consistent same index)

omit consistent inTable in
theorem FsState.stamped_self (fs : FsState) (index : Nat) :
    ((fs.stamped index).inodes index).SameBlocks (fs.inodes index) ∧
      ((fs.stamped index).inodes index).sizeBytes = (fs.inodes index).sizeBytes := by
  unfold FsState.stamped
  rw [FsState.setInode_self]
  exact ⟨⟨rfl, rfl, rfl⟩, rfl⟩

omit consistent inTable in
theorem run_fsIndexTruncate_refused (refused : ¬ fs.Writable index)
    (newSize : Nat) (flat : FlatDisk) : (fsIndexTruncate index newSize).run flatDevice fs flat =
      (none, fs, flat) := by
  rw [fsIndexTruncate, run_reads_bind, id_eq, require_bind_require,
    require_of_not fun ⟨⟨valid, occupied⟩, access⟩ => refused ⟨valid, occupied, access⟩]
  rfl

omit inTable in
theorem Consistent.leaves_fsIndexTruncate_of_resizeTo {newSize : Nat}
    {post : Option Unit → FsState → (Nat → Sector) → Prop} (writable : fs.Writable index)
    (resizes : Leaves (resizeTo index (sectorsFor newSize)
        ((fs.inodes index).dataSectors disk).length) fs disk fun outcome middle middleDisk =>
        Rebuilt index fs disk held middle middleDisk ∧ post outcome middle middleDisk) :
    Leaves (fsIndexTruncate index newSize) fs disk fun outcome fs' disk' =>
      Edited index fs disk held fs' disk' ∧
      ∃ middle middleDisk, post outcome middle middleDisk ∧
        (outcome = none → fs' = middle ∧ disk' = middleDisk) ∧ (outcome = some () →
          (fs'.inodes index).sizeBytes = newSize ∧ SameFile index middle middleDisk fs' disk') := by
  obtain ⟨valid, occupied, access⟩ := writable
  have inTable := (validIndex_lt valid).2
  have formatted := consistent.formatted
  have counted := (consistent.mappable inTable).run_inodeSectorCount formatted
  rw [fsIndexTruncate]
  apply yields_reads_bind
  rw [id_eq, require_of ⟨valid, occupied⟩, require_of access]
  apply Yields.bind_of_run (run_pure _ _ _ _)
  apply Yields.bind_of_run (run_pure _ _ _ _)
  apply Yields.bind_of_run (formatted.run_fsLoadBitmap _)
  apply yields_reads_bind
  apply Yields.bind_of_run counted
  apply resizes.bind
  · rintro middle middleDisk ⟨rebuilt, failed⟩
    exact ⟨rebuilt.edited, middle, middleDisk, failed, fun _ => ⟨rfl, rfl⟩, nofun⟩
  rintro _ middle middleDisk ⟨rebuilt, succeeds⟩
  apply yields_modify_bind
  let sized := middle.setInode index { middle.inodes index with sizeBytes := newSize }
  have sizedEdit : Edited index middle middleDisk held sized middleDisk :=
    Edited.of_setInode rebuilt.consistent ⟨rfl, rfl, rfl⟩ rfl
  apply (sizedEdit.consistent.leaves_stamp index).mono
  rintro outcome fs' disk' ⟨succeeded, fsEq, same⟩
  obtain ⟨stampedBlocks, stampedSize⟩ := sized.stamped_self index
  have sizedInode : sized.inodes index =
    { middle.inodes index with sizeBytes := newSize } := FsState.setInode_self middle index _
  rw [sizedInode] at stampedBlocks stampedSize
  have sameFile : SameFile index middle middleDisk (sized.stamped index) disk' := by
    refine rebuilt.consistent.sameFile inTable ?_ same
    exact ⟨stampedBlocks.direct, stampedBlocks.indirectLba, stampedBlocks.xattrLba⟩
  rw [fsEq, succeeded]
  exact ⟨(rebuilt.edited.trans sizedEdit).trans
      (sizedEdit.consistent.edited_stamped same), middle, middleDisk, succeeds,
    nofun, fun _ => ⟨stampedSize, sameFile⟩⟩

omit inTable in
theorem Consistent.leaves_fsIndexTruncate (newSize : Nat) :
    Leaves (fsIndexTruncate index newSize) fs disk fun outcome fs' disk' =>
      Edited index fs disk held fs' disk' ∧
      (outcome = some () → (fs'.inodes index).sizeBytes = newSize ∧
        Resized index (sectorsFor newSize) fs disk fs' disk') := by
  by_cases writable : fs.Writable index
  · have inTable := (validIndex_lt writable.1).2
    apply (consistent.leaves_fsIndexTruncate_of_resizeTo writable
      (consistent.leaves_resizeTo inTable (sectorsFor newSize))).mono
    rintro outcome fs' disk' ⟨edited, middle, middleDisk, resized, _, sized⟩
    refine ⟨edited, ?_⟩
    intro succeeded
    obtain ⟨size, sameFile⟩ := sized succeeded
    exact ⟨size, (resized succeeded).of_sameFile sameFile⟩
  · exact ⟨none, fs, disk, run_fsIndexTruncate_refused writable newSize _,
      Edited.refl consistent index, nofun⟩

end

/-- Bytes were stored in a file that has room for them. -/
structure Stored (index offset : Nat) (data : List UInt8) (fs : FsState)
    (disk : Nat → Sector) (fs' : FsState) (disk' : Nat → Sector) : Prop where
  sizeBytes : (fs'.inodes index).sizeBytes = (fs.inodes index).sizeBytes
  blocks : (fs'.inodes index).SameBlocks (fs.inodes index)
  sectors : (fs'.inodes index).dataSectors disk' = (fs.inodes index).dataSectors disk
  contents : contentAt (fileBlocks fs' disk' index) =
    overwrite (contentAt (fileBlocks fs disk index)) offset data

section

variable {fs : FsState} {disk : Nat → Sector} {held : List Nat} {index : Nat}

theorem Consistent.leaves_storeBytes (consistent : Consistent fs disk held)
    (inTable : index < maxInodes) (offset : Nat) (data : List UInt8) :
    Leaves (storeBytes index offset data) fs disk fun outcome fs' disk' =>
      Edited index fs disk held fs' disk' ∧
      (offset + data.length ≤ 512 * ((fs.inodes index).dataSectors disk).length →
        outcome = some data.length ∧ Stored index offset data fs disk fs' disk') := by
  unfold storeBytes
  apply yields_ite
  · intro empty
    rw [List.isEmpty_iff.mp empty]
    apply yields_pure
    refine ⟨Edited.refl consistent index, fun _ => ⟨rfl, rfl, ⟨rfl, rfl, rfl⟩, rfl, ?_⟩⟩
    rw [overwrite_nil]
  · intro nonempty
    apply (run_writeLoop inTable data.length offset data consistent (Nat.le_refl _)).bind
    · rintro fs' disk' ⟨fsEq, elsewhere, inside⟩
      rw [fsEq]
      refine ⟨(consistent.rebuilt_write inTable elsewhere).edited, ?_⟩
      intro fits
      cases (inside fits).1
    rintro _ fs' written ⟨fsEq, elsewhere, inside⟩
    rw [fsEq]
    have writtenEdit := (consistent.rebuilt_write inTable elsewhere).edited
    apply Yields.bind_of_run (run_cacheSync fs written)
    apply Yields.assoc
    apply (writtenEdit.consistent.leaves_stamp index).bind
    · rintro fs'' disk'' ⟨impossible, _⟩
      cases impossible
    rintro _ fs'' disk'' ⟨_, stampedEq, same⟩
    rw [stampedEq]
    obtain ⟨stampedBlocks, stampedSize⟩ := fs.stamped_self index
    have sameFile : SameFile index fs written (fs.stamped index) disk'' :=
      writtenEdit.consistent.sameFile inTable stampedBlocks same
    apply yields_pure
    refine ⟨writtenEdit.trans (writtenEdit.consistent.edited_stamped same), ?_⟩
    intro fits
    refine ⟨rfl, stampedSize, stampedBlocks, ?_, ?_⟩
    · rw [sameFile.data, consistent.dataSectors_write inTable elsewhere]
    · rw [sameFile.blocks]
      exact (inside fits).2

def FsState.Accepts (fs : FsState) (index : Nat) : Prop :=
  fs.Writable index ∧ (fs.inodes index).isSpecial = false

variable {data : List UInt8} {offset : Nat}

theorem run_fsIndexWrite_refused (refused : ¬ (fs.Accepts index ∧
      offset ≤ u32 (offset + data.length))) (flat : FlatDisk) :
    (fsIndexWrite index offset data).run flatDevice fs flat = (none, fs, flat) := by
  rw [fsIndexWrite, run_reads_bind, id_eq]
  dsimp only
  rw [require_bind_require, require_bind_require, require_bind_require,
    require_of_not fun ⟨⟨⟨⟨valid, occupied⟩, notSpecial⟩, access⟩, noWrap⟩ =>
      refused ⟨⟨⟨valid, occupied, access⟩, notSpecial⟩, noWrap⟩]
  rfl

theorem run_fsIndexWrite_accepted (accepts : fs.Accepts index)
    (noWrap : offset ≤ u32 (offset + data.length)) (flat : FlatDisk) :
    (fsIndexWrite index offset data).run flatDevice fs flat = (whenever
          ((fs.inodes index).sizeBytes < u32 (offset + data.length))
          (fsIndexTruncate index (u32 (offset + data.length))) >>=
        fun _ => storeBytes index offset data).run flatDevice fs flat := by
  obtain ⟨⟨valid, occupied, access⟩, notSpecial⟩ := accepts
  rw [fsIndexWrite, run_reads_bind, id_eq, require_of ⟨valid, occupied⟩,
    run_pure_bind, require_of notSpecial, run_pure_bind, require_of access, run_pure_bind]
  dsimp only
  rw [require_of noWrap, run_pure_bind]

theorem Consistent.leaves_fsIndexWrite_inside
    (consistent : Consistent fs disk held) (accepts : fs.Accepts index)
    (inside : offset + data.length ≤ (fs.inodes index).sizeBytes)
    (room : (fs.inodes index).sizeBytes ≤ 512 * ((fs.inodes index).dataSectors disk).length) :
    Leaves (fsIndexWrite index offset data) fs disk fun outcome fs' disk' =>
      outcome = some data.length ∧ Edited index fs disk held fs' disk' ∧
      Stored index offset data fs disk fs' disk' := by
  have inTable := (validIndex_lt accepts.1.1).2
  have short := (consistent.mappable inTable).length_le
  have bounded := consistent.formatted.bounded
  have final : u32 (offset + data.length) = offset + data.length := u32_of_lt (by omega)
  obtain ⟨outcome, fs', disk', ran, edited, stored⟩ :=
    consistent.leaves_storeBytes inTable offset data
  obtain ⟨succeeded, contents⟩ := stored (by omega)
  refine ⟨outcome, fs', disk', ?_, succeeded, edited, contents⟩
  rw [run_fsIndexWrite_accepted accepts (by omega)]
  unfold whenever
  rw [if_neg (by omega)]
  exact ran

/-- `fs_index_write` changes one file.  If it succeeds, it stores the bytes in
the file, resized first if it was too short. -/
theorem Consistent.leaves_fsIndexWrite (consistent : Consistent fs disk held) (index offset : Nat)
    (data : List UInt8) : Leaves (fsIndexWrite index offset data) fs disk fun outcome fs' disk' =>
      Edited index fs disk held fs' disk' ∧
      (outcome ≠ none → ∃ middle middleDisk,
          ((fs.inodes index).sizeBytes < u32 (offset + data.length) →
            (middle.inodes index).sizeBytes = u32 (offset + data.length) ∧
            Resized index (sectorsFor (u32 (offset + data.length))) fs disk middle middleDisk) ∧
          (u32 (offset + data.length) ≤ (fs.inodes index).sizeBytes →
            middle = fs ∧ middleDisk = disk) ∧ (offset + data.length ≤
              512 * ((middle.inodes index).dataSectors middleDisk).length →
            Stored index offset data middle middleDisk fs' disk')) := by
  by_cases passed : fs.Accepts index ∧ offset ≤ u32 (offset + data.length)
  · obtain ⟨accepts, noWrap⟩ := passed
    have inTable := (validIndex_lt accepts.1.1).2
    unfold Leaves Program.Yields
    rw [run_fsIndexWrite_accepted accepts noWrap]
    apply yields_whenever_bind
    · intro short
      apply (consistent.leaves_fsIndexTruncate _).bind
      · rintro fs' disk' ⟨edited, _⟩
        exact ⟨edited, fun impossible => absurd rfl impossible⟩
      rintro _ middle middleDisk ⟨edited, resized⟩
      apply (edited.consistent.leaves_storeBytes inTable offset data).mono
      rintro outcome fs' disk' ⟨storeEdited, stored⟩
      exact ⟨edited.trans storeEdited, fun _ =>
        ⟨middle, middleDisk, fun _ => resized rfl, fun long => by omega,
          fun fits => (stored fits).2⟩⟩
    · intro long
      apply (consistent.leaves_storeBytes inTable offset data).mono
      rintro outcome fs' disk' ⟨storeEdited, stored⟩
      exact ⟨storeEdited, fun _ =>
        ⟨fs, disk, fun short => absurd short long, fun _ => ⟨rfl, rfl⟩,
          fun fits => (stored fits).2⟩⟩
  · exact ⟨none, fs, disk, run_fsIndexWrite_refused passed _,
      Edited.refl consistent index, fun impossible => absurd rfl impossible⟩

end

end KnitOS.Fs
