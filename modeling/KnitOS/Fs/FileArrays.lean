import KnitOS.Fs.SectorOwnership
import KnitOS.Lib.Sequences

/-!
# Files as byte arrays

The file system agrees with arrays of bytes where it extends a file only over
bytes that are zero already: `fs_index_truncate` clears neither the rest of the
last sector nor the sectors it adds.
-/

namespace KnitOS.Fs

open Lib Lib.Program Storage

/-- A file has the bytes of an array, and sectors for all of them. -/
structure HoldsArray (index : Nat) (bytes : List UInt8) (fs : FsState)
    (disk : Nat → Sector) : Prop where
  size : (fs.inodes index).sizeBytes = bytes.length
  room : bytes.length ≤ 512 * ((fs.inodes index).dataSectors disk).length
  contents : ∀ position, position < bytes.length →
    contentAt (fileBlocks fs disk index) position = bytes.getD position 0

section

variable {index : Nat} {bytes : List UInt8} {fs fs' : FsState}
  {disk disk' : Nat → Sector}

theorem HoldsArray.fileBytes_eq (holds : HoldsArray index bytes fs disk) :
    fileBytes fs disk index = bytes := by
  have readable : readableSize fs disk index = bytes.length := by
    unfold readableSize
    rw [holds.size]
    exact Nat.min_eq_left holds.room
  unfold fileBytes
  rw [readable]
  apply List.ext_getElem
  · simp
  intro position _ inside
  rw [← List.getD_eq_getElem bytes 0 inside, ← holds.contents position inside]
  simp

theorem holdsArray_fileBytes (room : (fs.inodes index).sizeBytes ≤
      512 * ((fs.inodes index).dataSectors disk).length) :
    HoldsArray index (fileBytes fs disk index) fs disk := by
  have readable : readableSize fs disk index = (fs.inodes index).sizeBytes := Nat.min_eq_left room
  have length : (fileBytes fs disk index).length = (fs.inodes index).sizeBytes := by
    unfold fileBytes
    rw [List.length_map, List.length_range, readable]
  refine ⟨length.symm, by omega, ?_⟩
  intro position inside
  rw [List.getD_eq_getElem _ _ inside]
  simp [fileBytes]

theorem HoldsArray.of_sameFile (holds : HoldsArray index bytes fs disk)
    (sizeBytes : (fs'.inodes index).sizeBytes = (fs.inodes index).sizeBytes)
    (same : SameFile index fs disk fs' disk') : HoldsArray index bytes fs' disk' := by
  refine ⟨sizeBytes.trans holds.size, ?_, ?_⟩
  · rw [same.data]
    exact holds.room
  · rw [same.blocks]
    exact holds.contents

end

/-- A file can be extended to a size such that its bytes stay in place and the
new ones before `hole` are zero. -/
structure CleanExtension (fs : FsState) (disk : Nat → Sector) (index final hole : Nat) : Prop where
  small : final + 511 < 2 ^ 32
  slack : ∀ position, (fs.inodes index).sizeBytes ≤ position → position < hole →
    position < 512 * ((fs.inodes index).dataSectors disk).length →
      contentAt (fileBlocks fs disk index) position = 0
  guarded : 512 * ((fs.inodes index).dataSectors disk).length < final →
    Guarded fs ((fs.inodes index).dataSectors disk) ((fs.inodes index).dataSectors disk).length
  blank : 512 * ((fs.inodes index).dataSectors disk).length < hole →
    ∀ sector, fs.base ≤ sector → fsBitmapTest fs sector = false →
      ∀ place, sectorByte (disk sector) place = 0

theorem sectorsFor_eq {size : Nat} (small : size + 511 < 2 ^ 32) :
    sectorsFor size = (size + 511) / 512 := by
  unfold sectorsFor
  by_cases zero : size = 0
  · rw [if_pos zero, zero]
  · rw [if_neg zero]
    change u32 (size + 511) / 512 = _
    rw [u32_of_lt small]

section

variable {index final hole : Nat} {bytes : List UInt8} {fs fs' : FsState}
  {disk disk' : Nat → Sector}

theorem contentAt_take (blocks : List Sector) {need position : Nat}
    (inside : position < 512 * need) :
    contentAt (blocks.take need) position = contentAt blocks position := by
  have sector : position / 512 < need := by omega
  unfold contentAt
  change sectorByte ((blocks.take need).getD (position / 512) _) _ =
    sectorByte (blocks.getD (position / 512) _) _
  rw [List.getD_eq_getElem?_getD, List.getD_eq_getElem?_getD, List.getElem?_take_of_lt sector]

theorem Extended.append {sectors sectors' : List Nat} (extended : Extended fs sectors sectors')
    (guarded : Guarded fs sectors sectors.length) : ∃ rest, sectors' = sectors ++ rest ∧
      ∀ sector ∈ rest, fsBitmapTest fs sector = false := by
  have kept := extended.kept _ (Nat.le_refl _) guarded
  rw [List.take_length] at kept
  obtain ⟨extra, perm, free⟩ := extended.perm
  have split : sectors' = sectors ++ sectors'.drop sectors.length := by
    conv_lhs => rw [← List.take_append_drop sectors.length sectors', kept]
  refine ⟨_, split, ?_⟩
  intro sector member
  apply free
  rw [split] at perm
  exact ((List.perm_append_left_iff sectors).mp perm).mem_iff.mp member

theorem Resized.blocks_append {need : Nat} (resized : Resized index need fs disk fs' disk')
    (short : ((fs.inodes index).dataSectors disk).length < need)
    (guarded : Guarded fs ((fs.inodes index).dataSectors disk)
      ((fs.inodes index).dataSectors disk).length) : ∃ rest, (fs'.inodes index).dataSectors disk' =
        (fs.inodes index).dataSectors disk ++ rest ∧ fileBlocks fs' disk' index =
        fileBlocks fs disk index ++ rest.map disk ∧
      ∀ sector ∈ rest, fsBitmapTest fs sector = false := by
  obtain ⟨extended, contents⟩ := resized.grown short
  obtain ⟨rest, split, free⟩ := extended.append guarded
  refine ⟨rest, split, ?_, free⟩
  have sameContents : fileBlocks fs' disk' index =
    ((fs'.inodes index).dataSectors disk').map disk := List.map_congr_left contents
  rw [sameContents, split, List.map_append]
  rfl

theorem contentAt_append_left (first second : List Sector) {position : Nat}
    (inside : position < 512 * first.length) :
    contentAt (first ++ second) position = contentAt first position := by
  have taken := contentAt_take (first ++ second) inside
  rw [List.take_left] at taken
  exact taken.symm

theorem contentAt_append_right (first second : List Sector) {position : Nat}
    (behind : 512 * first.length ≤ position) : contentAt (first ++ second) position =
      contentAt second (position - 512 * first.length) := by
  have sector : (position - 512 * first.length) / 512 = position / 512 - first.length := by omega
  have offset : (position - 512 * first.length) % 512 = position % 512 := by
    omega
  unfold contentAt
  change sectorByte ((first ++ second).getD (position / 512) _) (position % 512) =
    sectorByte (second.getD ((position - 512 * first.length) / 512) _)
      ((position - 512 * first.length) % 512)
  rw [sector, offset, List.getD_append_right _ _ _ _ (by omega)]

theorem contentAt_zero {blocks : List Sector}
    (zero : ∀ block ∈ blocks, ∀ place, sectorByte block place = 0)
    (position : Nat) : contentAt blocks position = 0 := by
  unfold contentAt
  rw [List.getD_eq_getElem?_getD]
  cases at_ : blocks[position / sectorSize]? with
  | none =>
    unfold sectorByte
    simp
  | some block => exact zero block (List.mem_of_getElem? at_) _

theorem HoldsArray.extended (holds : HoldsArray index bytes fs disk)
    (clean : CleanExtension fs disk index final hole)
    (base : ∀ sector ∈ (fs'.inodes index).dataSectors disk', fs.base ≤ sector)
    (resized : Resized index (sectorsFor final) fs disk fs' disk')
    (longer : bytes.length < final) (inside : hole ≤ final) :
    final ≤ 512 * ((fs'.inodes index).dataSectors disk').length ∧
      ∀ position, position < max bytes.length hole →
        contentAt (fileBlocks fs' disk' index) position = bytes.getD position 0 := by
  have room := holds.room
  have need := sectorsFor_eq clean.small
  have length := resized.length
  have behind : ∀ position, bytes.length ≤ position →
      bytes.getD position 0 = 0 := fun position outside =>
    List.getD_eq_default _ _ outside
  have before : ∀ position, position < max bytes.length hole →
      position < 512 * ((fs.inodes index).dataSectors disk).length →
        contentAt (fileBlocks fs disk index) position = bytes.getD position 0 := by
    intro position below inOld
    by_cases old : position < bytes.length
    · exact holds.contents position old
    · rw [behind position (by omega)]
      exact clean.slack position (by rw [holds.size]; omega) (by omega) inOld
  refine ⟨by omega, ?_⟩
  intro position below
  by_cases short : ((fs.inodes index).dataSectors disk).length < sectorsFor final
  · obtain ⟨rest, split, blocks, free⟩ := resized.blocks_append short (clean.guarded (by omega))
    have oldLength : (fileBlocks fs disk index).length =
      ((fs.inodes index).dataSectors disk).length := List.length_map _
    rw [blocks]
    by_cases inOld : position < 512 * ((fs.inodes index).dataSectors disk).length
    · rw [contentAt_append_left _ _ (by rw [oldLength]; exact inOld)]
      exact before position below inOld
    · rw [contentAt_append_right _ _ (by rw [oldLength]; omega), behind position (by omega)]
      apply contentAt_zero
      intro block member
      obtain ⟨sector, inRest, rfl⟩ := List.mem_map.mp member
      exact clean.blank (by omega) sector
        (base sector (by rw [split]; exact List.mem_append_right _ inRest)) (free sector inRest)
  · rw [resized.kept (by omega), contentAt_take _ (by omega)]
    exact before position below (by omega)

end

theorem Edited.base_le {index : Nat} {fs fs' : FsState}
    {disk disk' : Nat → Sector} {held : List Nat} (edited : Edited index fs disk held fs' disk')
    (inTable : index < maxInodes) :
    ∀ sector ∈ (fs'.inodes index).dataSectors disk', fs.base ≤ sector := by
  intro sector member
  have marked := (edited.consistent.owned.inode_marked inTable sector
    (List.mem_append_left _ member)).1
  unfold FsState.base at marked ⊢
  rw [edited.touched.boot] at marked
  exact marked

section

variable {index : Nat} {bytes : List UInt8} {fs : FsState}
  {disk : Nat → Sector}

/-- Bytes stored into a file that has the final size already. -/
theorem Stored.holdsSpliced {offset : Nat} {data : List UInt8} {fs' : FsState}
    {disk' : Nat → Sector} (stored : Stored index offset data fs disk fs' disk')
    (size : (fs.inodes index).sizeBytes = max bytes.length (offset + data.length))
    (room : max bytes.length (offset + data.length) ≤
      512 * ((fs.inodes index).dataSectors disk).length)
    (contents : ∀ position, position < max bytes.length offset →
      contentAt (fileBlocks fs disk index) position = bytes.getD position 0) :
    HoldsArray index (spliced 0 offset data bytes) fs' disk' := by
  refine ⟨?_, ?_, ?_⟩
  · rw [stored.sizeBytes, size, length_spliced]
  · rw [stored.sectors, length_spliced]
    exact room
  · rw [length_spliced]
    intro position below
    rw [stored.contents, getD_spliced]
    unfold overwrite
    split
    · rfl
    · exact contents position (by omega)

variable (consistent : Consistent fs disk []) (inTable : index < maxInodes)
  (holds : HoldsArray index bytes fs disk)

include consistent inTable holds

theorem HoldsArray.length_small : bytes.length + 511 < 2 ^ 32 := by
  have room := holds.room
  have short := (consistent.mappable inTable).length_le
  have bounded := consistent.formatted.bounded
  omega

theorem HoldsArray.leaves_fsIndexTruncate {newSize : Nat} (clean : bytes.length < newSize →
      CleanExtension fs disk index newSize newSize) :
    Leaves (fsIndexTruncate index newSize) fs disk fun outcome fs' disk' =>
      Edited index fs disk [] fs' disk' ∧
      (outcome = some () → HoldsArray index (resized 0 newSize bytes) fs' disk') := by
  apply (consistent.leaves_fsIndexTruncate newSize).mono
  rintro outcome fs' disk' ⟨edited, resizes⟩
  refine ⟨edited, ?_⟩
  intro succeeded
  obtain ⟨sizeBytes, resize⟩ := resizes succeeded
  have room := holds.room
  have short := holds.length_small consistent inTable
  have size : (fs'.inodes index).sizeBytes = (resized 0 newSize bytes).length := by
    rw [sizeBytes, length_resized]
  have sameItems : ∀ position, position < newSize →
      (resized 0 newSize bytes).getD position 0 = bytes.getD position 0 :=
    fun position inside => getD_resized bytes inside
  by_cases longer : bytes.length < newSize
  · obtain ⟨roomAfter, contents⟩ := holds.extended (clean longer)
      (edited.base_le inTable) resize longer (Nat.le_refl _)
    refine ⟨size, by rw [length_resized]; exact roomAfter, ?_⟩
    rw [length_resized]
    intro position inside
    rw [sameItems position inside]
    exact contents position (by omega)
  · have need : sectorsFor newSize = (newSize + 511) / 512 := sectorsFor_eq (by omega)
    have length := resize.length
    have kept := resize.kept (by omega)
    refine ⟨size, by rw [length_resized]; omega, ?_⟩
    rw [length_resized]
    intro position inside
    rw [sameItems position inside, kept, contentAt_take _ (by omega)]
    exact holds.contents position (by omega)

theorem HoldsArray.leaves_fsIndexWrite {offset : Nat} {data : List UInt8}
    (clean : bytes.length < offset + data.length →
      CleanExtension fs disk index (offset + data.length) offset) :
    Leaves (fsIndexWrite index offset data) fs disk fun outcome fs' disk' =>
      Edited index fs disk [] fs' disk' ∧
      (outcome ≠ none → HoldsArray index (spliced 0 offset data bytes) fs' disk') := by
  have room := holds.room
  have short := holds.length_small consistent inTable
  have final : u32 (offset + data.length) = offset + data.length := by
    apply u32_of_lt
    by_cases longer : bytes.length < offset + data.length
    · have small := (clean longer).small
      omega
    · omega
  apply (consistent.leaves_fsIndexWrite index offset data).mono
  rintro outcome fs' disk' ⟨edited, writes⟩
  refine ⟨edited, ?_⟩
  intro succeeded
  obtain ⟨middle, middleDisk, extends_, inside, stores⟩ := writes succeeded
  rw [final, holds.size] at extends_ inside
  by_cases longer : bytes.length < offset + data.length
  · obtain ⟨middleSize, resize⟩ := extends_ longer
    have length := resize.length
    rw [sectorsFor_eq (clean longer).small] at length
    have stored := stores (by omega)
    have base : ∀ sector ∈ (middle.inodes index).dataSectors middleDisk, fs.base ≤ sector := by
      rw [← stored.sectors]
      exact edited.base_le inTable
    obtain ⟨roomAfter, contents⟩ :=
      holds.extended (clean longer) base resize longer (Nat.le_add_right _ _)
    exact stored.holdsSpliced (by rw [middleSize]; omega) (by omega) contents
  · obtain ⟨rfl, rfl⟩ := inside (by omega)
    exact (stores (by omega)).holdsSpliced (by rw [holds.size]; omega) (by omega)
      fun position below => holds.contents position (by omega)

end

/-- An occupied inode that is a regular file. -/
structure RegularFile (fs : FsState) (index : Nat) : Prop where
  inTable : index < maxInodes
  occupied : (fs.inodes index).occupied = true
  notDirectory : (fs.inodes index).isDirectory = false
  notSpecial : (fs.inodes index).isSpecial = false

theorem RegularFile.of_flags {fs fs' : FsState} {index : Nat} (regular : RegularFile fs index)
    (flags : (fs'.inodes index).flags = (fs.inodes index).flags) : RegularFile fs' index := by
  refine ⟨regular.inTable, ?_, ?_, ?_⟩
  · exact (Inode.occupied_congr flags).trans regular.occupied
  · exact (Inode.isDirectory_congr flags).trans regular.notDirectory
  · exact (Inode.isSpecial_congr flags).trans regular.notSpecial

section

variable {index : Nat} {fs fs' : FsState} {disk disk' : Nat → Sector}

theorem Spared.flags (spared : Spared index fs disk fs' disk') :
    (fs'.inodes index).flags = (fs.inodes index).flags := by
  have flags := congrArg Inode.flags spared.inode
  exact flags

theorem Spared.sameFile (spared : Spared index fs disk fs' disk') :
    SameFile index fs disk fs' disk' := by
  refine ⟨spared.dataSectors, ?_⟩
  intro sector member
  exact spared.sectors sector (List.mem_append_left _ member)

theorem Spared.holdsArray (spared : Spared index fs disk fs' disk')
    {bytes : List UInt8} (holds : HoldsArray index bytes fs disk) :
    HoldsArray index bytes fs' disk' :=
  holds.of_sameFile (Inode.fields_of_lasting spared.inode).2.2.2.1 spared.sameFile

theorem Worked.spared {files : Nat → Prop}
    (worked : Worked files fs disk fs' disk') (inTable : index < maxInodes)
    (notWorked : ¬ files index) : Spared index fs disk fs' disk' :=
  Spared.of_unread (worked.inodes index fun both => notWorked both.1)
    (worked.sectors index (fun both => notWorked both.1) inTable)

/-- A function keeps the invariant and leaves a file alone. -/
def Spares (index : Nat) {α : Type} (program : FsProgram α) (fs : FsState)
    (disk : Nat → Sector) : Prop :=
  Leaves program fs disk fun _ fs' disk' =>
    Intact fs' disk' ∧ Spared index fs disk fs' disk'

/-- A function that leaves the file alone and whose result is known to have a
property, followed by another one. -/
theorem RegularFile.spares_bind {α β : Type} {program : FsProgram α}
    {next : α → FsProgram β} {Fact : α → Prop} (regular : RegularFile fs index)
    (first : Leaves program fs disk fun outcome fs' disk' =>
      (Intact fs' disk' ∧ Spared index fs disk fs' disk') ∧
      ∀ value ∈ outcome, Fact value)
    (then_ : ∀ value fs' disk', Fact value → Intact fs' disk' →
      RegularFile fs' index → Spares index (next value) fs' disk') :
    Spares index (program >>= next) fs disk := by
  apply Yields.bind first
  · rintro fs' disk' ⟨spares, _⟩
    exact spares
  rintro value fs' disk' ⟨⟨intact, spared⟩, fact⟩
  apply (then_ value fs' disk' (fact value rfl) intact (regular.of_flags spared.flags)).mono
  rintro _ fs'' disk'' ⟨intactAfter, sparedAfter⟩
  exact ⟨intactAfter, spared.trans sparedAfter⟩

theorem Spares.bind {α β : Type} {program : FsProgram α}
    {next : α → FsProgram β} (first : Spares index program fs disk) (regular : RegularFile fs index)
    (then_ : ∀ value fs' disk', Intact fs' disk' → RegularFile fs' index →
      Spares index (next value) fs' disk') : Spares index (program >>= next) fs disk :=
  @RegularFile.spares_bind _ _ _ _ _ _ _ (fun _ => True) regular
    (first.mono fun _ _ _ spares => ⟨spares, fun _ _ => trivial⟩)
    fun value fs' disk' _ => then_ value fs' disk'

variable (intact : Intact fs disk) (regular : RegularFile fs index)

include intact regular

theorem Intact.spares_works {α : Type} {program : FsProgram α}
    {files : Nat → Prop} (works : Works files program fs disk)
    (notWorked : ¬ files index) : Spares index program fs disk := works.mono fun _ _ _ worked =>
    ⟨intact.of_worked worked, worked.spared regular.inTable notWorked⟩

theorem Intact.spares_observes {α : Type} {program : FsProgram α}
    (observes : Observes program fs disk) : Spares index program fs disk :=
  intact.spares_works regular (observes.works intact.consistent fun _ => False) id

omit regular in
theorem Intact.leaves_parentDirectory (dir : List UInt8) :
    Leaves (parentDirectory dir) fs disk fun outcome fs' disk' =>
      (Looked fs fs' ∧ disk' = disk) ∧
      ∀ parent ∈ outcome, (fs'.inodes parent).isDirectory = true := by
  apply leaves_and (intact.consistent.observes_parentDirectory dir)
  apply yields_ite
  · intro _
    apply yields_pure
    rintro _ ⟨⟩
    exact intact.root
  · intro _
    apply yields_require_bind
    · exact fun _ => nofun
    intro _
    apply Yields.bind (intact.consistent.observes_fsLookupIndex dir true)
    · exact fun _ _ _ => nofun
    rintro parent fs' disk' _
    apply yields_reads_bind
    apply yields_require_bind
    · exact fun _ => nofun
    intro isDirectory
    apply yields_pure
    rintro _ ⟨⟩
    exact isDirectory

omit regular in
theorem Intact.leaves_fsParentAndName (path : List UInt8) :
    Leaves (fsParentAndName path) fs disk fun outcome fs' disk' =>
      (Looked fs fs' ∧ disk' = disk) ∧
      ∀ target ∈ outcome, (fs'.inodes target.1).isDirectory = true := by
  apply leaves_and (intact.consistent.observes_fsParentAndName path)
  apply yields_require_bind
  · exact fun _ => nofun
  intro _
  apply yields_require_bind
  · exact fun _ => nofun
  intro _
  apply Yields.bind (intact.leaves_parentDirectory _)
  · exact fun _ _ _ => nofun
  rintro parent fs' disk' ⟨_, isDirectory⟩
  apply yields_pure
  rintro _ ⟨⟩
  exact isDirectory parent rfl

theorem Intact.spares_writableParent (path : List UInt8) :
    Leaves (writableParent path) fs disk fun outcome fs' disk' =>
      (Intact fs' disk' ∧ Spared index fs disk fs' disk') ∧
      ∀ target ∈ outcome, target.1 ≠ index := by
  have looks : ∀ {fs' : FsState}, Looked fs fs' →
      Intact fs' disk ∧ Spared index fs disk fs' disk := fun looked =>
    ⟨intact.of_looked looked, Spared.of_unread (looked.inodes index) fun _ _ => rfl⟩
  have nothing : ∀ target ∈ (none : Option (Nat × List UInt8)), target.1 ≠ index := nofun
  apply Yields.bind (intact.leaves_fsParentAndName path)
  · rintro fs' disk' ⟨⟨looked, rfl⟩, _⟩
    exact ⟨looks looked, nothing⟩
  rintro target fs' disk' ⟨⟨looked, rfl⟩, isDirectory⟩
  apply yields_reads_bind
  apply yields_require_bind
  · intro _
    exact ⟨looks looked, nothing⟩
  intro _
  apply yields_pure
  refine ⟨looks looked, ?_⟩
  rintro _ ⟨⟩ same
  have notDirectory := (regular.of_flags (looked.flags index)).notDirectory
  rw [← same, isDirectory target rfl] at notDirectory
  cases notDirectory

omit regular in
theorem Intact.spares_dropLink {named : Nat} (inTable : named < maxInodes)
    (notRoot : named ≠ rootIno) (different : named ≠ index) :
    Spares index (dropLink named) fs disk := by
  apply (intact.leaves_dropLink inTable notRoot).mono
  rintro _ fs' disk' ⟨after, others⟩
  refine ⟨after, ?_⟩
  rcases others index with spared | ⟨same, _⟩
  · exact spared
  · exact absurd same.symm different

theorem Intact.spares_fsDelete {path : List UInt8} (names : ∀ named,
    ((fsLookupIndex path false).run flatDevice fs (.running disk)).1 =
      some named → named < maxInodes ∧ named ≠ index) : Spares index (fsDelete path) fs disk := by
  apply yields_initialized intact.consistent.formatted.initialized
  have looksUp : Leaves (fsLookupIndex path false) fs disk fun outcome fs' disk' =>
        (Intact fs' disk' ∧ Spared index fs disk fs' disk') ∧
        ∀ named ∈ outcome, named < maxInodes ∧ named ≠ index := by
    apply (intact.spares_observes regular
      (intact.consistent.observes_fsLookupIndex path false)).with_outcome.mono
    rintro outcome fs' disk' ⟨spares, found⟩
    refine ⟨spares, fun named isNamed => names named ?_⟩
    rw [found]
    exact isNamed
  apply regular.spares_bind looksUp
  rintro named fs₁ disk₁ ⟨inTable, different⟩ intact₁ regular₁
  apply yields_require_bind
  · intro _
    exact ⟨intact₁, Spared.refl index fs₁ disk₁⟩
  intro notRoot
  apply regular₁.spares_bind (intact₁.spares_writableParent regular₁ path)
  intro target fs₂ disk₂ notFile intact₂ regular₂
  apply (intact₂.spares_observes regular₂
    (intact₂.consistent.observes_requireDeletable named)).bind regular₂
  intro _ fs₃ disk₃ intact₃ regular₃
  apply (intact₃.spares_works regular₃ (intact₃.consistent.works_dirRemoveEntry target.1 target.2)
    notFile.symm).bind regular₃
  intro _ fs₄ disk₄ intact₄ regular₄
  apply (intact₄.spares_dropLink inTable notRoot different).bind regular₄
  intro _ fs₅ disk₅ intact₅ regular₅
  exact intact₅.spares_works regular₅ (intact₅.consistent.works_fsPersistMeta fun _ => False) id

end

/-- A call of root on the file or on another one. -/
inductive FileStep where
  | write (offset : Nat) (data : List UInt8)
  | truncate (newSize : Nat)
  | writeOther (other offset : Nat) (data : List UInt8)
  | truncateOther (other newSize : Nat)
  | delete (path : List UInt8)

namespace FileStep

def program (index : Nat) : FileStep → FsProgram Unit
  | write offset data => do
      let _ ← fsIndexWrite index offset data
      pure ()
  | truncate newSize => fsIndexTruncate index newSize
  | writeOther other offset data => do
      let _ ← fsIndexWrite other offset data
      pure ()
  | truncateOther other newSize => fsIndexTruncate other newSize
  | delete path => fsDelete path

def action (index : Nat) (step : FileStep) : Action :=
  ⟨0, 0, step.program index⟩

/-- What the call does to the array. -/
def applyTo (bytes : List UInt8) : FileStep → List UInt8
  | write offset data => spliced 0 offset data bytes
  | truncate newSize => resized 0 newSize bytes
  | _ => bytes

/-- The call is on another file; or it succeeds and extends the file only over
zeros. -/
def Clean (index : Nat) (machine : Machine CachedDisk) (step : FileStep) : Prop :=
  match step with
  | write offset data =>
    (machine.withCaller 0 0).result cachedDevice (step.program index) ≠
        none ∧
      ((machine.fs.inodes index).sizeBytes < offset + data.length →
        CleanExtension machine.fs machine.dev.view index
          (offset + data.length) offset)
  | truncate newSize =>
    (machine.withCaller 0 0).result cachedDevice (step.program index) ≠
        none ∧
      ((machine.fs.inodes index).sizeBytes < newSize →
        CleanExtension machine.fs machine.dev.view index newSize newSize)
  | writeOther other _ _ | truncateOther other _ => other ≠ index
  | delete path =>
    ∀ named,
      (machine.withCaller 0 0).result cachedDevice
          (fsLookupIndex path false) = some named →
        named < maxInodes ∧ named ≠ index

end FileStep

/-- The file system is in order, and the file holds the array. -/
structure FileState (index : Nat) (machine : Machine CachedDisk) (bytes : List UInt8) : Prop where
  sound : machine.dev.Sound
  intact : Intact machine.fs machine.dev.view
  regular : RegularFile machine.fs index
  holds : HoldsArray index bytes machine.fs machine.dev.view

section

variable {index : Nat} {machine : Machine CachedDisk} {bytes : List UInt8}
  (state : FileState index machine bytes)

include state

theorem FileState.of_edited {fs' : FsState} {disk' : Nat → Sector}
    (edited : Edited index (machine.fs.withCaller 0 0) machine.dev.view []
      fs' disk') : Intact fs' disk' ∧ RegularFile fs' index :=
  ⟨(state.intact.withCaller 0 0).of_worked (Worked.of_edited edited rfl state.regular.occupied),
    state.regular.of_flags (edited.flags index)⟩

theorem FileState.of_spares {program : FsProgram Unit}
    (spares : Spares index program (machine.fs.withCaller 0 0) machine.dev.view) :
    FileState index (machine.act cachedDevice ⟨0, 0, program⟩) bytes := by
  obtain ⟨sound, intact, spared⟩ := Leaves.cached state.sound spares
  have holds : HoldsArray index bytes (machine.fs.withCaller 0 0) machine.dev.view :=
    ⟨state.holds.size, state.holds.room, state.holds.contents⟩
  exact ⟨sound, intact, state.regular.of_flags spared.flags, spared.holdsArray holds⟩

theorem FileState.step {step : FileStep} (clean : step.Clean index machine) :
    FileState index (machine.act cachedDevice (step.action index)) (step.applyTo bytes) := by
  have called := state.intact.withCaller 0 0
  have regular : RegularFile (machine.fs.withCaller 0 0) index := state.regular.of_flags rfl
  have holds : HoldsArray index bytes (machine.fs.withCaller 0 0) machine.dev.view :=
    ⟨state.holds.size, state.holds.room, state.holds.contents⟩
  have size := state.holds.size
  cases step with
  | write offset data =>
    obtain ⟨succeeds, extension⟩ := clean
    rw [size] at extension
    have leaves : Leaves ((FileStep.write offset data).program index)
        (machine.fs.withCaller 0 0) machine.dev.view fun outcome fs' disk' =>
          Edited index (machine.fs.withCaller 0 0) machine.dev.view [] fs' disk' ∧
          (outcome ≠ none → HoldsArray index (spliced 0 offset data bytes) fs' disk') := by
      apply Yields.bind (holds.leaves_fsIndexWrite called.consistent
        regular.inTable fun longer => ?_)
      · rintro fs' disk' ⟨edited, _⟩
        exact ⟨edited, fun impossible => absurd rfl impossible⟩
      · rintro _ fs' disk' ⟨edited, stored⟩
        exact yields_pure ⟨edited, fun _ => stored (Option.some_ne_none _)⟩
      · obtain ⟨small, slack, guarded, blank⟩ := extension longer
        exact ⟨small, slack, guarded, blank⟩
    obtain ⟨sound, edited, stored⟩ := Leaves.cached state.sound leaves
    obtain ⟨intact, stillRegular⟩ := state.of_edited edited
    exact ⟨sound, intact, stillRegular, stored succeeds⟩
  | truncate newSize =>
    obtain ⟨succeeds, extension⟩ := clean
    rw [size] at extension
    have leaves := holds.leaves_fsIndexTruncate called.consistent regular.inTable fun longer => by
        obtain ⟨small, slack, guarded, blank⟩ := extension longer
        exact ⟨small, slack, guarded, blank⟩
    obtain ⟨sound, edited, stored⟩ := Leaves.cached state.sound leaves
    obtain ⟨intact, stillRegular⟩ := state.of_edited edited
    obtain ⟨_, succeeded⟩ := Option.ne_none_iff_exists'.mp succeeds
    exact ⟨sound, intact, stillRegular, stored succeeded⟩
  | writeOther other offset data =>
    apply state.of_spares
    apply (called.spares_works regular (called.consistent.works_fsIndexWrite other offset data)
      clean.symm).bind regular
    intro _ fs' disk' intact stillRegular
    exact intact.spares_observes stillRegular (observes_pure () fs' disk')
  | truncateOther other newSize =>
    exact state.of_spares (called.spares_works regular
      (called.consistent.works_fsIndexTruncate other newSize) clean.symm)
  | delete path =>
    apply state.of_spares
    apply called.spares_fsDelete regular
    intro named found
    have lookup := (Leaves.cached state.sound (called.consistent.observes_fsLookupIndex path
      false).with_outcome).2.2
    exact clean named (lookup.symm.trans found)

theorem FileState.result_fsIndexRead (offset size : Nat) :
    (machine.withCaller 0 0).result cachedDevice (fsIndexRead index offset size) =
      some ((bytes.drop offset).take size) := by
  have called := state.intact.withCaller 0 0
  have valid : validIndex index = true := by
    have positive : 0 < index := by
      apply Nat.pos_of_ne_zero
      intro zero
      have occupied := state.regular.occupied
      rw [zero, state.intact.zeroth] at occupied
      cases occupied
    exact decide_eq_true ⟨positive, state.regular.inTable⟩
  have access := @fsAccessOk_root (machine.fs.withCaller 0 0) index valid
    state.regular.occupied rfl false
  have ran := called.consistent.run_fsIndexRead
    ⟨valid, state.regular.occupied, state.regular.notSpecial, access⟩ offset size
  have sameBytes : fileBytes (machine.fs.withCaller 0 0) machine.dev.view
    index = bytes := state.holds.fileBytes_eq
  rw [sameBytes] at ran
  have leaves : Leaves (fsIndexRead index offset size)
      (machine.fs.withCaller 0 0) machine.dev.view fun outcome _ _ =>
        outcome = some ((bytes.drop offset).take size) :=
    ⟨_, _, _, ran, rfl⟩
  exact (Leaves.cached state.sound leaves).2

end

/-- Files refine byte arrays along every run of calls that succeed and extend
the file only over zeros. -/
theorem fsIndexRead_after {machine : Machine CachedDisk}
    (fresh : FreshlyFormatted machine) {earlier : List FsStep}
    (allowed : AlongRun (fun state step => state.act cachedDevice step.action)
      (fun state step => step.KeepsOwners state) machine earlier)
    {start : Machine CachedDisk} (reached : start =
      machine.after cachedDevice (earlier.map FsStep.action))
    {index : Nat} (regular : RegularFile start.fs index) (room : (start.fs.inodes index).sizeBytes ≤
      512 * ((start.fs.inodes index).dataSectors start.dev.view).length)
    {steps : List FileStep} (clean : AlongRun
      (fun state step => state.act cachedDevice (step.action index))
      (fun state step => step.Clean index state) start steps) (offset size : Nat) :
    ((start.after cachedDevice (steps.map (FileStep.action index))).withCaller 0 0).result
        cachedDevice (fsIndexRead index offset size) = some (((runFrom FileStep.applyTo
        (fileBytes start.fs start.dev.view index) steps).drop offset).take size) := by
  obtain ⟨sound, intact⟩ := Intact.after fresh allowed
  rw [← reached] at sound intact
  have state : FileState index start (fileBytes start.fs start.dev.view index) :=
    ⟨sound, intact, regular, holdsArray_fileBytes room⟩
  have keeps : ∀ (current : Machine CachedDisk) (bytes : List UInt8)
      (step : FileStep), FileState index current bytes → step.Clean index current →
        FileState index (current.act cachedDevice (step.action index)) (step.applyTo bytes) :=
    fun _ _ _ related isClean => related.step isClean
  have final := AlongRun.simulates keeps clean state
  unfold Machine.after
  rw [runFrom_map]
  exact final.result_fsIndexRead offset size

def createsFile : List FsStep :=
  [⟨0, 0, .createFile [47, 97] 0⟩]

/-- A machine with a new file, whose inode number is 2. -/
@[irreducible]
def newFileMachine : Machine CachedDisk :=
  ((blankMachine scarceHeap).exec cachedDevice fsInit).after cachedDevice
    (createsFile.map FsStep.action)

theorem newFileMachine_eq : newFileMachine =
    ((blankMachine scarceHeap).exec cachedDevice fsInit).after cachedDevice
      (createsFile.map FsStep.action) := by
  unfold newFileMachine
  with_reducible rfl

/-- What a function returns after calls on the new file, as far as it can be
computed from the data sectors alone. -/
def resultOnData {α : Type} (program : FsProgram α) (steps : List FileStep) : Option (Option α) :=
  let machine := ((blankMachine scarceHeap).newData
    (createsFile.map FsStep.action ++
      steps.map (FileStep.action 2))).withCaller 0 0
  let reached := program.run
    (dataDevice (blankMachine scarceHeap).fs.newFormat.base) machine.fs
    machine.dev
  reached.2.2.map fun _ => reached.1

theorem result_of_onData {α : Type} {program : FsProgram α}
    {steps : List FileStep} {outcome : Option α}
    (onData : resultOnData program steps = some outcome) : ((newFileMachine.after cachedDevice
        (steps.map (FileStep.action 2))).withCaller 0 0).result cachedDevice program = outcome := by
  have joined : newFileMachine.after cachedDevice (steps.map (FileStep.action 2)) =
      ((blankMachine scarceHeap).exec cachedDevice fsInit).after cachedDevice
        (createsFile.map FsStep.action ++ steps.map (FileStep.action 2)) := by
    rw [newFileMachine_eq]
    exact (runFrom_append _ _ _ _).symm
  obtain ⟨data, valid, isOutcome⟩ := Option.map_eq_some_iff.mp onData
  rw [joined, result_after_fsInit_eq (blankMachine_unformatted scarceHeap)
    scarceHeap_grants (Option.isSome_iff_exists.mpr ⟨data, valid⟩)]
  exact isOutcome

def isEmptyFile (inode : Inode) : Bool :=
  inode.occupied && !inode.isDirectory && !inode.isSpecial &&
    inode.sizeBytes == 0 && decide (inode.direct = Inode.noExtents) &&
    inode.indirectLba == 0

set_option maxRecDepth 100000 in
theorem isEmptyFile_onData : (((blankMachine scarceHeap).newData
      (createsFile.map FsStep.action)).dev.isSome &&
    isEmptyFile (((blankMachine scarceHeap).newData
      (createsFile.map FsStep.action)).fs.inodes 2)) = true := by
  decide +kernel

theorem newFileMachine_file : RegularFile newFileMachine.fs 2 ∧
    (newFileMachine.fs.inodes 2).sizeBytes = 0 ∧
    ∀ disk, (newFileMachine.fs.inodes 2).dataSectors disk = [] := by
  have evaluated := isEmptyFile_onData
  simp only [isEmptyFile, Bool.and_eq_true, Bool.not_eq_true', beq_iff_eq,
    decide_eq_true_eq] at evaluated
  obtain ⟨valid, ⟨⟨⟨⟨occupied, notDirectory⟩, notSpecial⟩, size⟩, direct⟩, indirectLba⟩ := evaluated
  obtain ⟨sameState, _⟩ := after_fsInit_eq
    (blankMachine_unformatted scarceHeap) scarceHeap_grants valid
  rw [← sameState] at occupied notDirectory notSpecial size direct indirectLba
  rw [newFileMachine_eq]
  refine ⟨⟨by decide, occupied, notDirectory, notSpecial⟩, size, ?_⟩
  intro disk
  unfold Inode.dataSectors Inode.indirectExtents
  rw [direct, if_pos indirectLba]
  rfl

theorem newFileMachine_reached :
    FreshlyFormatted ((blankMachine scarceHeap).exec cachedDevice fsInit) ∧
      AlongRun (fun state step => state.act cachedDevice (FsStep.action step))
        (fun state step => FsStep.KeepsOwners state step)
        ((blankMachine scarceHeap).exec cachedDevice fsInit) createsFile :=
  ⟨(blankMachine_unformatted scarceHeap).freshlyFormatted scarceHeap_grants, trivial, trivial⟩

set_option maxRecDepth 100000 in
theorem write_onData : resultOnData ((FileStep.write 0 [1, 2, 3]).program 2) [] =
    some (some ()) := by
  decide +kernel

/-- Three bytes are written to the new file. -/
def firstWrite : List FileStep :=
  [.write 0 [1, 2, 3]]

theorem firstWrite_clean : AlongRun
    (fun state step => state.act cachedDevice (FileStep.action 2 step))
    (fun state step => FileStep.Clean 2 state step) newFileMachine firstWrite := by
  obtain ⟨_, _, sectors⟩ := newFileMachine_file
  have succeeds : (newFileMachine.withCaller 0 0).result cachedDevice
      ((FileStep.write 0 [1, 2, 3]).program 2) ≠ none := by
    have outcome := result_of_onData write_onData
    intro failed
    cases failed.symm.trans outcome
  have extension : CleanExtension newFileMachine.fs newFileMachine.dev.view 2
      (0 + [1, 2, 3].length) 0 := by
    refine ⟨by decide, fun _ _ below => absurd below (Nat.not_lt_zero _), ?_,
      fun below => absurd below (Nat.not_lt_zero _)⟩
    rw [sectors]
    intro _ position sector at_
    cases at_
  exact ⟨⟨succeeds, fun _ => extension⟩, trivial⟩

theorem fsIndexRead_after_firstWrite : RegularFile newFileMachine.fs 2 ∧
      ((newFileMachine.after cachedDevice
          (firstWrite.map (FileStep.action 2))).withCaller 0 0).result
          cachedDevice (fsIndexRead 2 0 3) = some (((runFrom FileStep.applyTo
          (fileBytes newFileMachine.fs newFileMachine.dev.view 2) firstWrite).drop 0).take 3) := by
  obtain ⟨fresh, allowed⟩ := newFileMachine_reached
  obtain ⟨regular, size, _⟩ := newFileMachine_file
  have room : (newFileMachine.fs.inodes 2).sizeBytes ≤
      512 * ((newFileMachine.fs.inodes 2).dataSectors newFileMachine.dev.view).length := by
    rw [size]
    exact Nat.zero_le _
  exact ⟨regular, fsIndexRead_after fresh allowed newFileMachine_eq regular
    room firstWrite_clean 0 3⟩

/-- Write three bytes, cut the file to one byte and extend it to three. -/
def cutAndExtend : List FileStep :=
  [.write 0 [1, 2, 3], .truncate 1, .truncate 3]

set_option maxRecDepth 100000 in
theorem truncate_onData : resultOnData ((FileStep.truncate 1).program 2) (cutAndExtend.take 1) =
    some (some ()) := by
  decide +kernel

set_option maxRecDepth 100000 in
theorem extend_onData : resultOnData ((FileStep.truncate 3).program 2) (cutAndExtend.take 2) =
    some (some ()) := by
  decide +kernel

set_option maxRecDepth 100000 in
theorem read_onData : resultOnData (fsIndexRead 2 0 3) cutAndExtend = some (some [1, 2, 3]) := by
  decide +kernel

theorem cutAndExtend_succeeds (count : Nat) (inside : count < cutAndExtend.length) :
    ((newFileMachine.after cachedDevice ((cutAndExtend.take count).map
          (FileStep.action 2))).withCaller 0 0).result cachedDevice
        ((cutAndExtend.get ⟨count, inside⟩).program 2) = some () := by
  match count, inside with
  | 0, _ => exact result_of_onData write_onData
  | 1, _ => exact result_of_onData truncate_onData
  | 2, _ => exact result_of_onData extend_onData

/-- Bytes that were cut off come back when the file is extended. -/
theorem fsIndexTruncate_uncovers_old_bytes :
    FreshlyFormatted ((blankMachine scarceHeap).exec cachedDevice fsInit) ∧
      RegularFile newFileMachine.fs 2 ∧ (∀ count (inside : count < cutAndExtend.length),
        ((newFileMachine.after cachedDevice ((cutAndExtend.take count).map
              (FileStep.action 2))).withCaller 0 0).result cachedDevice
            ((cutAndExtend.get ⟨count, inside⟩).program 2) = some ()) ∧ runFrom FileStep.applyTo
          (fileBytes newFileMachine.fs newFileMachine.dev.view 2) cutAndExtend = [1, 0, 0] ∧
      ((newFileMachine.after cachedDevice
          (cutAndExtend.map (FileStep.action 2))).withCaller 0 0).result
          cachedDevice (fsIndexRead 2 0 3) = some [1, 2, 3] := by
  obtain ⟨fresh, _⟩ := newFileMachine_reached
  obtain ⟨regular, size, _⟩ := newFileMachine_file
  have empty : fileBytes newFileMachine.fs newFileMachine.dev.view 2 = [] := by
    unfold fileBytes readableSize
    rw [size, Nat.zero_min]
    rfl
  refine ⟨fresh, regular, cutAndExtend_succeeds, ?_, result_of_onData read_onData⟩
  rw [empty]
  decide

end KnitOS.Fs
