import KnitOS.Fs.FileTable
import KnitOS.Fs.Images
import KnitOS.Fs.Permissions

/-!
# Extended attributes

An inode has at most one attribute, in a sector of its own: the name, a zero
byte and the value.  The value is written with a length and read back as a
string.
-/

namespace KnitOS.Fs

open Lib Lib.Program Storage

/-- The size check of `fs_setxattr`, in the 32 bits of `size_t`. -/
def AttributeFits (nameLength size : Nat) : Prop :=
  u32 (nameLength + 1 + size + 1) < sectorSize

/-- The offsets in the sector buffer to which `fs_setxattr` copies the name,
its zero byte, the value and the last zero byte. -/
def attributeOffsets (nameLength size : Nat) : List Nat :=
  List.range nameLength ++ nameLength ::
    ((List.range size).map fun position => u32 (nameLength + 1 + position)) ++
    [u32 (nameLength + 1 + size)]

/-- `fs_setxattr` touches its buffer after the size check only. -/
def StaysInBuffer (nameLength size : Nat) : Prop :=
  AttributeFits nameLength size →
    ∀ offset ∈ attributeOffsets nameLength size, offset < sectorSize

theorem staysInBuffer_iff {nameLength size : Nat}
    (sizeWord : size < 4294967296) (fits : AttributeFits nameLength size) :
    StaysInBuffer nameLength size ↔ nameLength + 1 + size + 1 < 4294967296 := by
  unfold AttributeFits at fits
  constructor
  · intro stays
    by_contra wraps
    have inside := stays fits
    have nameInside : nameLength < 512 := inside nameLength (by
      simp [attributeOffsets])
    -- the copy of the value runs over the end of the buffer
    have reached : u32 (nameLength + 1 + (511 - nameLength)) ∈
        attributeOffsets nameLength size := by
      have member : 511 - nameLength ∈ List.range size := by
        rw [List.mem_range]
        omega
      have mapped := List.mem_map_of_mem
        (f := fun position => u32 (nameLength + 1 + position)) member
      simp only [attributeOffsets, List.mem_append, List.mem_cons]
      exact Or.inl (Or.inr (Or.inr mapped))
    have beyond := inside _ reached
    have isEnd : nameLength + 1 + (511 - nameLength) = 512 := by omega
    rw [isEnd] at beyond
    exact absurd beyond (by decide)
  · intro noWrap _ offset member
    rw [u32_of_lt noWrap] at fits
    change nameLength + 1 + size + 1 < 512 at fits
    change offset < 512
    simp only [attributeOffsets, List.mem_append, List.mem_cons,
      List.mem_range, List.mem_map, List.not_mem_nil, or_false] at member
    rcases member with (inName | atZero | ⟨position, inValue, isOffset⟩) | atEnd
    · omega
    · omega
    · rw [← isOffset, u32_of_lt (by omega)]
      omega
    · rw [atEnd, u32_of_lt (by omega)]
      omega

theorem sectorByte_attributeBlock (name value : List UInt8) {offset : Nat}
    (inside : offset < sectorSize) : sectorByte (attributeBlock name value) offset =
      (name ++ 0 :: value).getD offset 0 := sectorByte_sectorOf _ inside

theorem attributeBlock_name {name : List UInt8} (value : List UInt8)
    (short : name.length + 1 < sectorSize) :
    (List.range name.length).map (sectorByte (attributeBlock name value)) = name ∧
      sectorByte (attributeBlock name value) name.length = 0 := by
  constructor
  · apply List.ext_getElem
    · simp
    · intro index indexInside inside
      rw [List.getElem_map, List.getElem_range, sectorByte_attributeBlock name value (by omega),
        List.getD_append _ _ _ _ inside, List.getD_eq_getElem _ _ inside]
  · rw [sectorByte_attributeBlock name value (by omega)]
    simp

theorem attributeBlock_rest (name value : List UInt8) :
    (List.range' (name.length + 1) (sectorSize - (name.length + 1))).map
        (sectorByte (attributeBlock name value)) = (List.range (sectorSize - (name.length + 1))).map
        fun position => value.getD position 0 := by
  rw [List.range'_eq_map_range, List.map_map]
  apply List.map_congr_left
  intro position member
  rw [List.mem_range] at member
  have inside : name.length + 1 + position < sectorSize := by omega
  have behind : name.length ≤ name.length + 1 + position := by omega
  have shift : name.length + 1 + position - name.length = position + 1 := by
    omega
  change sectorByte (attributeBlock name value) (name.length + 1 + position) = value.getD position 0
  rw [sectorByte_attributeBlock name value inside,
    List.getD_append_right _ _ _ _ behind, shift, List.getD_cons_succ]

/-- A value that is shorter than the area it was copied to is read back up to
its first zero byte. -/
theorem cString_padded {value : List UInt8} {room : Nat} (short : value.length < room) :
    cString ((List.range room).map fun position => value.getD position 0) = cString value := by
  induction value generalizing room with
  | nil =>
    cases room with
    | zero => rfl
    | succ room =>
      rw [List.range_succ_eq_map]
      rfl
  | cons byte rest ih =>
    cases room with
    | zero => exact absurd short (Nat.not_lt_zero _)
    | succ room =>
      have restShort : rest.length < room := Nat.lt_of_succ_lt_succ short
      have tail := ih restShort
      rw [List.range_succ_eq_map, List.map_cons, List.map_map]
      unfold cString at tail ⊢
      rw [List.getD_cons_zero, List.takeWhile_cons, List.takeWhile_cons]
      split
      · exact congrArg (byte :: ·) tail
      · rfl

/-- An inode without its attribute block and the times. -/
def Inode.plain (inode : Inode) : Inode :=
  { inode with xattrLba := 0, atime := 0, mtime := 0, ctime := 0 }

/-- The inodes of the table and their contents are the same, apart from
attributes and times. -/
structure SameFiles (fs : FsState) (disk : Nat → Sector) (fs' : FsState)
    (disk' : Nat → Sector) : Prop where
  kernel : fs'.kernel.fixed = fs.kernel.fixed
  inodes : ∀ index, index < maxInodes → (fs'.inodes index).plain = (fs.inodes index).plain
  sectors : ∀ index, index < maxInodes → ∀ sector ∈ (fs.inodes index).dataSectors disk ++
      (fs.inodes index).indirectSectors, disk' sector = disk sector

namespace SameFiles

variable {fs fs' fs'' : FsState} {disk disk' disk'' : Nat → Sector}
  {index : Nat}

theorem of_looked (looked : Looked fs fs') (disk : Nat → Sector) : SameFiles fs disk fs' disk := by
  refine ⟨looked.kernel, fun index _ => ?_, fun _ _ _ _ => rfl⟩
  have throughUnread : ∀ inode : Inode, inode.plain = inode.unread.plain := fun _ => rfl
  rw [throughUnread, looked.inodes index, ← throughUnread]

theorem dataSectors (same : SameFiles fs disk fs' disk') (inTable : index < maxInodes) :
    (fs'.inodes index).dataSectors disk' = (fs.inodes index).dataSectors disk := by
  have throughPlain : ∀ (inode : Inode) (disk : Nat → Sector),
    inode.dataSectors disk = inode.plain.dataSectors disk := fun _ _ => rfl
  rw [throughPlain, same.inodes index inTable, ← throughPlain]
  apply Inode.dataSectors_congr
  intro present
  apply same.sectors index inTable
  exact List.mem_append_right _ (Inode.mem_indirectSectors present)

theorem indirectSectors (same : SameFiles fs disk fs' disk') (inTable : index < maxInodes) :
    (fs'.inodes index).indirectSectors = (fs.inodes index).indirectSectors := by
  have indirectLba := congrArg Inode.indirectLba (same.inodes index inTable)
  change (fs'.inodes index).indirectLba = (fs.inodes index).indirectLba at indirectLba
  unfold Inode.indirectSectors
  rw [indirectLba]

theorem trans (first : SameFiles fs disk fs' disk') (second : SameFiles fs' disk' fs'' disk'') :
    SameFiles fs disk fs'' disk'' := by
  refine ⟨second.kernel.trans first.kernel, fun index inTable =>
    (second.inodes index inTable).trans (first.inodes index inTable),
    fun index inTable sector member => ?_⟩
  have memberAfter : sector ∈ (fs'.inodes index).dataSectors disk' ++
      (fs'.inodes index).indirectSectors := by
    rw [first.dataSectors inTable, first.indirectSectors inTable]
    exact member
  rw [second.sectors index inTable sector memberAfter, first.sectors index inTable sector member]

variable (same : SameFiles fs disk fs' disk')
include same

theorem flags (inTable : index < maxInodes) :
    (fs'.inodes index).flags = (fs.inodes index).flags := by
  have flags := congrArg Inode.flags (same.inodes index inTable)
  exact flags

theorem fsAccessOk (inTable : index < maxInodes) (wantWrite : Bool) :
    fsAccessOk fs' index wantWrite = fsAccessOk fs index wantWrite := by
  have callerUid := congrArg Kernel.uid same.kernel
  have callerGid := congrArg Kernel.gid same.kernel
  have mode := congrArg Inode.mode (same.inodes index inTable)
  have uid := congrArg Inode.uid (same.inodes index inTable)
  have gid := congrArg Inode.gid (same.inodes index inTable)
  exact fsAccessOk_congr callerUid callerGid (same.flags inTable) mode uid gid wantWrite

theorem nodeView_eq (inTable : index < maxInodes) :
    nodeView fs' disk' index = nodeView fs disk index := by
  have parent := congrArg Inode.parent (same.inodes index inTable)
  have size := congrArg Inode.sizeBytes (same.inodes index inTable)
  have inlined := congrArg Inode.symlinkInline (same.inodes index inTable)
  change (fs'.inodes index).parent = (fs.inodes index).parent at parent
  change (fs'.inodes index).sizeBytes = (fs.inodes index).sizeBytes at size
  change (fs'.inodes index).symlinkInline = (fs.inodes index).symlinkInline at inlined
  have blocks : fileBlocks fs' disk' index = fileBlocks fs disk index := by
    unfold fileBlocks
    rw [same.dataSectors inTable]
    apply List.map_congr_left
    intro sector member
    exact same.sectors index inTable sector (List.mem_append_left _ member)
  simp only [nodeView, fileBytes, readableSize, Inode.isSpecial,
    Inode.hasFlag, same.flags inTable, parent, size, inlined, blocks,
    same.dataSectors inTable, same.fsAccessOk inTable]

theorem occupied (inTable : index < maxInodes) :
    (fs'.inodes index).occupied = (fs.inodes index).occupied :=
  Inode.occupied_congr (same.flags inTable)

end SameFiles

section

variable {fs fs' : FsState} {disk disk' : Nat → Sector}

theorem viewOf_filesOf (fs : FsState) (disk : Nat → Sector) (index : Nat)
    (present : (filesOf fs disk index).isSome = true) :
    viewOf (filesOf fs disk) index = nodeView fs disk index := by
  obtain ⟨node, isNode⟩ := Option.isSome_iff_exists.mp present
  rw [viewOf_some isNode]
  obtain ⟨_, _, rfl⟩ := filesOf_eq_some_iff.mp isNode
  rfl

variable {index : Nat}

theorem isSome_filesOf_iff : (filesOf fs disk index).isSome = true ↔
    index < maxInodes ∧ (fs.inodes index).occupied = true := by
  unfold filesOf
  split
  · rename_i present
    simp [present]
  · rename_i absent
    simp only [Option.isSome_none, Bool.false_eq_true, false_iff]
    exact absent

variable (same : SameFiles fs disk fs' disk')
include same

theorem SameFiles.isSome_iff (index : Nat) :
    (filesOf fs' disk' index).isSome = true ↔ (filesOf fs disk index).isSome = true := by
  rw [isSome_filesOf_iff, isSome_filesOf_iff]
  constructor
  · rintro ⟨inTable, occupied⟩
    rw [same.occupied inTable] at occupied
    exact ⟨inTable, occupied⟩
  · rintro ⟨inTable, occupied⟩
    rw [← same.occupied inTable] at occupied
    exact ⟨inTable, occupied⟩

theorem SameFiles.viewOf : viewOf (filesOf fs' disk') = viewOf (filesOf fs disk) := by
  funext index
  by_cases present : (filesOf fs disk index).isSome = true
  · have inTable := (isSome_filesOf_iff.mp present).1
    rw [viewOf_filesOf fs disk index present,
      viewOf_filesOf fs' disk' index ((same.isSome_iff index).mpr present)]
    exact same.nodeView_eq inTable
  · have absent : filesOf fs disk index = none := by
      simpa using present
    have absentAfter : filesOf fs' disk' index = none := by
      rw [← same.isSome_iff index] at present
      simpa using present
    rw [viewOf_none absent, viewOf_none absentAfter]

theorem SameFiles.node_before {node : Node} (isNode : filesOf fs' disk' index = some node) :
    ∃ before, filesOf fs disk index = some before ∧ node.inode.flags = before.inode.flags ∧
      node.inode.parent = before.inode.parent ∧
      node.size = before.size ∧ node.bytes = before.bytes := by
  obtain ⟨inTable, occupied, rfl⟩ := filesOf_eq_some_iff.mp isNode
  rw [same.occupied inTable] at occupied
  have viewed := same.nodeView_eq inTable
  exact ⟨_, filesOf_some inTable occupied,
    congrArg NodeView.flags viewed, congrArg NodeView.parent viewed,
    congrArg NodeView.size viewed, congrArg NodeView.bytes viewed⟩

theorem SameFiles.node_after {node : Node} (isNode : filesOf fs disk index = some node)
    (isDirectory : node.isDirectory = true) : ∃ after, filesOf fs' disk' index = some after ∧
      after.isDirectory = true := by
  have present : (filesOf fs' disk' index).isSome = true := by
    rw [same.isSome_iff, isNode]
    rfl
  obtain ⟨after, isAfter⟩ := Option.isSome_iff_exists.mp present
  obtain ⟨before, isBefore, flags, _⟩ := same.node_before isAfter
  rw [isNode] at isBefore
  cases isBefore
  refine ⟨after, isAfter, ?_⟩
  exact (Inode.isDirectory_congr flags).trans isDirectory

theorem SameFiles.closed (closed : Closed (filesOf fs disk)) : Closed (filesOf fs' disk') := by
  have sameFlag : ∀ {after before : Node} (mask : Nat), after.inode.flags = before.inode.flags →
        after.inode.hasFlag mask = before.inode.hasFlag mask := by
    intro after before mask flags
    unfold Inode.hasFlag
    rw [flags]
  constructor
  case root =>
    obtain ⟨node, isNode, isDirectory⟩ := closed.root
    exact same.node_after isNode isDirectory
  case found =>
    intro dir node name index isNode isDirectory found
    obtain ⟨before, isBefore, flags, _, _, bytes⟩ := same.node_before isNode
    rw [same.isSome_iff]
    apply closed.found dir before name index isBefore
    · rw [← isDirectory]
      exact (sameFlag _ flags).symm
    · rw [← bytes]
      exact found
  case parent =>
    intro dir node isNode isDirectory
    obtain ⟨before, isBefore, flags, parent, _⟩ := same.node_before isNode
    have beforeDirectory : before.isDirectory = true := by
      rw [← isDirectory]
      exact (sameFlag _ flags).symm
    rw [parent]
    rcases closed.parent dir before isBefore beforeDirectory with
      atRoot | ⟨up, isUp, upDirectory⟩
    · exact Or.inl atRoot
    · exact Or.inr (same.node_after isUp upDirectory)
  case links =>
    intro index node isNode isLink notInline
    obtain ⟨before, isBefore, flags, _, size, bytes⟩ := same.node_before isNode
    rw [size, bytes]
    apply closed.links index before isBefore
    · rw [← isLink]
      exact (sameFlag _ flags).symm
    · rw [← same.viewOf]
      exact notInline

end

section

variable {fs fs' : FsState} {disk disk' : Nat → Sector}

theorem Inode.mem_ownedSectors_of_contents {inode : Inode} {disk : Nat → Sector} {sector : Nat}
    (member : sector ∈ inode.dataSectors disk ++ inode.indirectSectors) :
    sector ∈ inode.ownedSectors disk := by
  unfold Inode.ownedSectors
  rw [← List.append_assoc]
  exact List.mem_append_left _ member

variable {index : Nat} (intact : Intact fs disk)
include intact

theorem Intact.sameFiles_write
    (inTable : index < maxInodes) (present : (fs.inodes index).xattrLba ≠ 0) (bytes : Sector) :
    SameFiles fs disk fs (Function.update disk (fs.inodes index).xattrLba bytes) := by
  refine ⟨rfl, fun _ _ => rfl, fun other otherInTable sector member => ?_⟩
  apply Function.update_of_ne
  intro isBlock
  rw [isBlock] at member
  have owned := intact.consistent.owned
  by_cases sameInode : other = index
  · subst sameInode
    have isXattr : (fs.inodes other).xattrLba ∈ (fs.inodes other).xattrSectors := by
      unfold Inode.xattrSectors
      rw [if_neg present]
      exact List.mem_cons_self
    have nodup := owned.inode_nodup inTable
    unfold Inode.ownedSectors at nodup
    rw [← List.append_assoc] at nodup
    exact (List.nodup_append.mp nodup).2.2 _ member _ isXattr rfl
  · exact owned.inode_apart otherInTable inTable sameInode _
      (Inode.mem_ownedSectors_of_contents member) (Inode.mem_ownedSectors_xattr disk present)

theorem Intact.sameFiles_take (index : Nat)
    {block : Nat} (free : fsBitmapTest fs block = false) (bytes : Sector) :
    SameFiles fs disk (fs.withXattr index block) (Function.update disk block bytes) := by
  refine ⟨rfl, fun other _ => ?_, fun other otherInTable sector member => ?_⟩
  · by_cases sameInode : other = index
    · rw [sameInode, FsState.withXattr, FsState.setInode_self]
      rfl
    · rw [FsState.withXattr, FsState.setInode_other _ _ _ sameInode]
      rfl
  · apply Function.update_of_ne
    rintro rfl
    have marked := (intact.consistent.owned.inode_marked otherInTable sector
      (Inode.mem_ownedSectors_of_contents member)).2.2
    rw [free] at marked
    cases marked

theorem Intact.sameFiles_persist (same : SameData fs disk disk') : SameFiles fs disk fs disk' := by
  refine ⟨rfl, fun _ _ => rfl, fun other otherInTable sector member => ?_⟩
  exact same sector (intact.consistent.owned.inode_marked otherInTable sector
    (Inode.mem_ownedSectors_of_contents member)).1

/-- `fs_setxattr` once the attribute block is there: the block holds the
attribute, and the files are as before. -/
theorem Intact.leaves_storeAttribute_files (inTable : index < maxInodes)
    (present : (fs.inodes index).xattrLba ≠ 0) (name value : List UInt8) :
    Leaves (storeAttribute (fs.inodes index).xattrLba name value) fs disk
      fun outcome fs' disk' => outcome = some () →
        AttributeFits name.length value.length ∧ fs' = fs ∧
          Intact fs disk' ∧ SameFiles fs disk fs disk' ∧
          disk' (fs.inodes index).xattrLba = attributeBlock name value := by
  apply Yields.bind_of_run (run_dRead fs disk _)
  apply yields_require_bind
  · intro _ impossible
    cases impossible
  intro fits
  apply Yields.bind_of_run (run_dWrite fs disk _ _)
  have written := intact.write_xattr inTable present (attributeBlock name value)
  apply (leaves_and written.leaves_persist (written.consistent.formatted.run_fsPersistMeta _)).mono
  rintro _ fs' disk' ⟨⟨_, after⟩, _, fsEq, same⟩ _
  have above := (written.consistent.owned.inode_marked inTable _
    (Inode.mem_ownedSectors_xattr _ present)).1
  refine ⟨fits, fsEq, after, (intact.sameFiles_write inTable present _).trans
    (written.sameFiles_persist same), ?_⟩
  rw [same _ above, Function.update_self]

omit intact

variable {files : Files} (mounted : Mounted files fs disk)
include mounted

/-- A call that returned 0 has stored the attribute of the inode that the path
names, and the files are as before. -/
theorem Mounted.leaves_fsSetxattr (closed : Closed files) (path name value : List UInt8) :
    Leaves (fsSetxattr path name value) fs disk fun outcome fs' disk' =>
      outcome = some () → AttributeFits name.length value.length ∧ Intact fs' disk' ∧
          SameFiles fs disk fs' disk' ∧ ∃ index, lookup files false path = some index ∧
            (fs'.inodes index).xattrLba ≠ 0 ∧
            disk' (fs'.inodes index).xattrLba = attributeBlock name value := by
  apply (mounted.leaves_fsLookupIndex closed path false).bind
  · intro _ _ _ impossible
    cases impossible
  rintro index fs₁ disk₁ ⟨looked, isDisk, found⟩
  rw [isDisk]
  have mounted₁ := mounted.looked looked
  have intact₁ := mounted₁.intact
  have sameFiles₁ := SameFiles.of_looked looked disk
  have inTable : index < maxInodes := by
    have isFile := mounted.isSome_of_lookup closed found.symm
    rw [← mounted.isTable, isSome_filesOf_iff] at isFile
    exact isFile.1
  rcases intact₁.run_xattrSector index with
    ⟨present, ran⟩ | ⟨_, _, ran⟩ | ⟨block, absent, _, nonzero, free, ran⟩
  · apply Yields.bind_of_run ran
    apply (intact₁.leaves_storeAttribute_files inTable present name value).mono
    rintro outcome fs' disk' stored returned
    obtain ⟨fits, rfl, intact', same, holds⟩ := stored returned
    exact ⟨fits, intact', sameFiles₁.trans same, index, found.symm, present, holds⟩
  · exact ⟨none, fs₁, disk, run_bind_of_none ran, nofun⟩
  · obtain ⟨_, fs₂, disk₂, ranAgain, intact₂, isXattr⟩ := intact₁.leaves_xattrSector inTable
    rw [ran] at ranAgain
    cases ranAgain
    obtain ⟨lba, _⟩ := isXattr block rfl
    have sameFiles₂ := intact₁.sameFiles_take index free fun _ => 0
    have stored := intact₂.leaves_storeAttribute_files inTable
      (by rw [lba]; exact nonzero) name value
    rw [lba] at stored
    apply Yields.bind_of_run ran
    apply stored.mono
    rintro outcome fs' disk' stored returned
    obtain ⟨fits, rfl, intact', same, holds⟩ := stored returned
    refine ⟨fits, intact', (sameFiles₁.trans sameFiles₂).trans same, index, found.symm, ?_, ?_⟩
    · rw [lba]
      exact nonzero
    · rw [lba]
      exact holds

theorem Mounted.leaves_fsGetxattr (closed : Closed files)
    {path : List UInt8} (found : lookup files false path = some index)
    (present : (fs.inodes index).xattrLba ≠ 0)
    {name value : List UInt8} (holds : disk (fs.inodes index).xattrLba = attributeBlock name value)
    (short : name.length + 1 < sectorSize) (size : Nat) :
    Leaves (fsGetxattr path name size) fs disk fun outcome _ _ =>
      outcome = some ((cString ((List.range (sectorSize - (name.length + 1))).map
          fun position => value.getD position 0)).take size) := by
  apply (mounted.leaves_fsLookupIndex closed path false).bind
  · rintro fs' disk' ⟨_, _, missing⟩
    rw [found] at missing
    cases missing
  rintro other fs₁ disk₁ ⟨looked, isDisk, isOther⟩
  rw [found] at isOther
  cases isOther
  rw [isDisk]
  have lba := (Inode.sameBlocks_of_unread (looked.inodes index)).xattrLba
  apply yields_reads_bind
  rw [lba, require_of present]
  apply Yields.bind_of_run (run_pure _ _ _ _)
  apply Yields.bind_of_run (run_dRead fs₁ disk _)
  have word : u32 (name.length + 1) < sectorSize := by
    rw [u32_of_lt (Nat.lt_trans short (by decide))]
    exact short
  rw [require_of word]
  apply Yields.bind_of_run (run_pure _ _ _ _)
  rw [holds, require_of (attributeBlock_name value short)]
  apply Yields.bind_of_run (run_pure _ _ _ _)
  apply yields_pure
  rw [attributeBlock_rest]

theorem Mounted.sameFiles (same : SameFiles fs disk fs' disk') (intact : Intact fs' disk') :
    Mounted (filesOf fs' disk') fs' disk' := by
  have heap := congrArg Kernel.heap same.kernel
  change fs'.kernel.heap = fs.kernel.heap at heap
  refine ⟨intact, ?_, rfl⟩
  rw [heap]
  exact mounted.generous

/-- After a call of `fs_setxattr` that returned 0, `fs_getxattr` reads the
value up to its first zero byte. -/
theorem Mounted.run_fsGetxattr_of_set (closed : Closed files)
    {path name value : List UInt8} (returned : (fsSetxattr path name value).run flatDevice fs
      (.running disk) = (some (), fs', .running disk'))
    (noWrap : name.length + 1 + value.length + 1 < 4294967296) (size : Nat) :
    ((fsGetxattr path name size).run flatDevice fs' (.running disk')).1 =
      some ((cString value).take size) := by
  obtain ⟨outcome, fs₁, disk₁, ran, stored⟩ := mounted.leaves_fsSetxattr closed path name value
  rw [returned] at ran
  cases ran
  obtain ⟨fits, intact, same, index, found, present, holds⟩ := stored rfl
  have isTable := mounted.isTable
  subst isTable
  unfold AttributeFits at fits
  rw [u32_of_lt noWrap] at fits
  have foundAgain : lookup (filesOf fs' disk') false path = some index := by
    unfold lookup
    rw [same.viewOf]
    exact found
  obtain ⟨_, fs₂, disk₂, read, isValue⟩ :=
    (mounted.sameFiles same intact).leaves_fsGetxattr (same.closed closed)
      foundAgain present holds (by omega) size
  rw [read, isValue, cString_padded (by omega)]

omit mounted

/-- A call of `fs_setxattr` that returned 0 stayed in its buffer and stored
the value as it will be read, under the condition on name and value. -/
theorem fsSetxattr_roundTrip_iff {files : Files}
    (mounted : Mounted files fs disk) (closed : Closed files)
    {path name value : List UInt8} (sizeWord : value.length < 4294967296)
    (returned : (fsSetxattr path name value).run flatDevice fs
      (.running disk) = (some (), fs', .running disk')) : (StaysInBuffer name.length value.length ∧
      ∀ size, value.length ≤ size → ((fsGetxattr path name size).run flatDevice fs'
          (.running disk')).1 = some value) ↔
      0 ∉ value ∧ name.length + 1 + value.length + 1 < 4294967296 := by
  have fits : AttributeFits name.length value.length := by
    obtain ⟨outcome, fs₁, disk₁, ran, stored⟩ := mounted.leaves_fsSetxattr closed path name value
    rw [returned] at ran
    cases ran
    exact (stored rfl).1
  rw [staysInBuffer_iff sizeWord fits, and_comm]
  apply and_congr_left
  intro noWrap
  have read := mounted.run_fsGetxattr_of_set closed returned noWrap
  constructor
  · intro readsBack
    have whole := readsBack value.length (Nat.le_refl _)
    have short : (cString value).length ≤ value.length := (cString_initial _).length_le
    rw [read, List.take_of_length_le short] at whole
    exact cString_eq_self_iff.mp (Option.some.inj whole)
  · intro noZero size enough
    rw [read, cString_eq_self_iff.mpr noZero, List.take_of_length_le enough]

end

/-- A file system with an empty root directory. -/
def bareRoot : List ImageFile :=
  [.directory rootIno []]

theorem bareRoot_files {index : Nat} {node : Node}
    (isNode : filesOf (imageState bareRoot) (imageDisk bareRoot) index = some node) :
    index = rootIno ∧ node.bytes = [] ∧ node.inode.parent = rootIno ∧
      node.isSymlink = false ∧ node.isDirectory = true := by
  obtain ⟨_, occupied, rfl⟩ := filesOf_eq_some_iff.mp isNode
  have isRoot : index = rootIno := by
    by_contra different
    have blank : (imageState bareRoot).inodes index = Inode.zero := by
      change imageInodes bareRoot index = Inode.zero
      unfold imageInodes
      split
      · rfl
      · have beyond : bareRoot[index - 1]? = none := by
          rw [List.getElem?_eq_none_iff]
          change 1 ≤ index - 1
          change ¬ index = 1 at different
          omega
        rw [beyond]
    rw [blank] at occupied
    cases occupied
  subst isRoot
  exact ⟨rfl, rfl, rfl, rfl, rfl⟩

theorem bareRoot_closed : Closed (filesOf (imageState bareRoot) (imageDisk bareRoot)) := by
  have isRoot : filesOf (imageState bareRoot) (imageDisk bareRoot) rootIno =
      some ((imageState bareRoot).nodeAt (imageDisk bareRoot) rootIno) :=
    filesOf_some (by decide) (by decide)
  constructor
  case root =>
    exact ⟨_, isRoot, rfl⟩
  case found =>
    intro dir node name index isNode _ found
    obtain ⟨_, bytes, _⟩ := bareRoot_files isNode
    rw [bytes] at found
    cases found
  case parent =>
    intro dir node isNode _
    obtain ⟨_, _, parent, _⟩ := bareRoot_files isNode
    rw [parent]
    exact Or.inr ⟨_, isRoot, rfl⟩
  case links =>
    intro index node isNode isLink
    obtain ⟨_, _, _, notLink, _⟩ := bareRoot_files isNode
    rw [notLink] at isLink
    cases isLink

theorem bareRoot_mounted : Mounted (filesOf (imageState bareRoot) (imageDisk bareRoot))
    (imageState bareRoot) (imageDisk bareRoot) :=
  ⟨image_intact (by decide) (by decide) ⟨_, rfl, rfl⟩, fun _ _ => rfl, rfl⟩

/-- The attribute `k` of the root directory, with the value `v`. -/
theorem fsSetxattr_roundTrip_plain : ∃ fs' disk',
      (fsSetxattr [47] [107] [118]).run flatDevice (imageState bareRoot)
          (.running (imageDisk bareRoot)) = (some (), fs', .running disk') ∧ StaysInBuffer 1 1 ∧
      ((fsGetxattr [47] [107] 1).run flatDevice fs' (.running disk')).1 = some [118] := by
  have succeeds : ((fsSetxattr [47] [107] [118]).run flatDevice
      (imageState bareRoot) (.running (imageDisk bareRoot))).1 = some () := by
    decide +kernel
  obtain ⟨outcome, fs', disk', ran, _⟩ :=
    bareRoot_mounted.leaves_fsSetxattr bareRoot_closed [47] [107] [118]
  rw [ran] at succeeds
  cases succeeds
  obtain ⟨stays, reads⟩ := (fsSetxattr_roundTrip_iff bareRoot_mounted
    bareRoot_closed (by decide) ran).mpr (by decide)
  exact ⟨fs', disk', ran, stays, reads 1 (Nat.le_refl 1)⟩

/-- A value with a zero byte is cut off there, and a size that makes the sum of
the size check wrap is accepted although the value does not fit. -/
theorem fsSetxattr_loses_value : ((do
        fsSetxattr [47] [107] [118, 0, 118]
        fsGetxattr [47] [107] 3).run flatDevice (imageState bareRoot)
      (.running (imageDisk bareRoot))).1 = some [118] ∧
    AttributeFits 1 4294967295 ∧ ¬ StaysInBuffer 1 4294967295 := by
  have accepted : AttributeFits 1 4294967295 := by
    unfold AttributeFits
    decide
  refine ⟨by decide +kernel, accepted, ?_⟩
  rw [staysInBuffer_iff (by decide) accepted]
  decide

end KnitOS.Fs
