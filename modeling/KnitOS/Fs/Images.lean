import KnitOS.Fs.FileArrays
import KnitOS.Fs.Naming

/-!
# Disk images

A file system on a disk of 4096 sectors whose files lie one behind the other,
each in one extent.  All such images are consistent, so that statements about
consistent file systems can be checked on small trees.
-/

namespace KnitOS.Fs

open Storage

/-- A file of an image: its inode, apart from the extents, and its bytes. -/
structure ImageFile where
  inode : Inode
  bytes : List UInt8

def ImageFile.directory (parent : Nat) (entries : List Dirent) : ImageFile where
  inode :=
    { rootInode 0 with
      parent := parent
      sizeBytes := (entries.flatMap Dirent.encode).length }
  bytes := entries.flatMap Dirent.encode

def ImageFile.regular (parent : Nat) (bytes : List UInt8) : ImageFile where
  inode :=
    { Inode.zero with
      flags := Inode.flagOccupied
      mode := modeFile
      nlink := 1
      parent := parent
      sizeBytes := bytes.length }
  bytes := bytes

/-- A symbolic link with a target that is stored in the inode. -/
def ImageFile.symlink (parent : Nat) (target : List UInt8) : ImageFile where
  inode :=
    { Inode.zero with
      flags := Inode.flagOccupied ||| Inode.flagSymlink
      mode := modeLink
      nlink := 1
      parent := parent
      sizeBytes := target.length
      symlinkInline := target ++
        List.replicate (symlinkInlineSize - target.length) 0 }
  bytes := []

def ImageFile.sectors (file : ImageFile) : Nat :=
  (file.bytes.length + 511) / 512

/-- The bytes of a file, filled up to whole sectors. -/
def ImageFile.padded (file : ImageFile) : List UInt8 :=
  file.bytes ++ List.replicate (512 * file.sectors - file.bytes.length) 0

/-- The inode with one extent. -/
def ImageFile.placed (file : ImageFile) (start : Nat) : Inode :=
  { file.inode with
    direct := ⟨start, file.sectors⟩ :: List.replicate 3 ⟨0, 0⟩
    direct_length := rfl
    indirectLba := 0
    xattrLba := 0 }

/-- The first sector behind the first files. -/
def imageStart (files : List ImageFile) (count : Nat) : Nat :=
  338 + ((files.take count).map ImageFile.sectors).sum

def imageInodes (files : List ImageFile) (index : Nat) : Inode :=
  if index = 0 then
    Inode.zero
  else
    match files[index - 1]? with
    | some file => file.placed (imageStart files (index - 1))
    | none => Inode.zero

/-- A mounted image, with a caller who is root and a heap that grants every
request. -/
def imageState (files : List ImageFile) : FsState :=
  { boot := formatBoot 4096
    inodes := imageInodes files
    initialized := true
    bitmap := some fun sector => decide (sector < imageStart files files.length)
    bitmapSectors := 1
    kernel :=
      { uid := 0
        gid := 0
        diskSizeSectors := 4096
        clock := fun _ => 0
        heap := fun _ _ => true
        stale := fun _ _ => 0
        asked := 0 } }

def imageDisk (files : List ImageFile) (sector : Nat) : Sector :=
  sectorOf fun offset =>
    (files.flatMap ImageFile.padded).getD (512 * (sector - 338) + offset) 0

structure ImageFits (files : List ImageFile) : Prop where
  few : files.length < maxInodes
  inside : imageStart files files.length ≤ 4096

instance imageFitsDecidable (files : List ImageFile) : Decidable (ImageFits files) :=
  decidable_of_iff
    (files.length < maxInodes ∧ imageStart files files.length ≤ 4096)
    ⟨fun both => ⟨both.1, both.2⟩, fun fits => ⟨fits.few, fits.inside⟩⟩

section

variable {files : List ImageFile}

theorem imageStart_succ {position : Nat} {file : ImageFile}
    (isFile : files[position]? = some file) : imageStart files (position + 1) =
      imageStart files position + file.sectors := by
  unfold imageStart
  rw [List.take_add_one, isFile, List.map_append, List.sum_append]
  simp [Nat.add_assoc]

theorem imageStart_mono : Monotone (imageStart files) := by
  apply monotone_nat_of_le_succ
  intro position
  unfold imageStart
  rw [List.take_add_one, List.map_append, List.sum_append]
  omega

theorem imageInodes_file {index : Nat} {file : ImageFile} (isFile : files[index]? = some file) :
    imageInodes files (index + 1) = file.placed (imageStart files index) := by
  unfold imageInodes
  rw [if_neg (Nat.succ_ne_zero index), Nat.add_sub_cancel, isFile]

theorem imageInodes_blank {index : Nat}
    (notFile : ∀ position, index = position + 1 → files[position]? = none) :
    imageInodes files index = Inode.zero := by
  unfold imageInodes
  by_cases zero : index = 0
  · rw [if_pos zero]
  · rw [if_neg zero, notFile (index - 1) (by omega)]

theorem ImageFile.dataSectors_placed (file : ImageFile) (start : Nat) (disk : Nat → Sector) :
    (file.placed start).dataSectors disk = List.range' start file.sectors := by
  simp [Inode.dataSectors, ImageFile.placed, Inode.indirectExtents, Extent.sectors, List.replicate]

theorem ImageFile.ownedSectors_placed (file : ImageFile) (start : Nat) (disk : Nat → Sector) :
    (file.placed start).ownedSectors disk = List.range' start file.sectors := by
  rw [Inode.ownedSectors, file.dataSectors_placed]
  simp [Inode.indirectSectors, Inode.xattrSectors, ImageFile.placed]

theorem imageInodes_cases (files : List ImageFile) (index : Nat) :
    imageInodes files index = Inode.zero ∨ ∃ position file, index = position + 1 ∧
        files[position]? = some file ∧
        imageInodes files index = file.placed (imageStart files position) := by
  cases index with
  | zero => exact .inl rfl
  | succ position =>
    cases isFile : files[position]? with
    | none =>
      left
      apply imageInodes_blank
      intro other same
      rw [← Nat.succ.inj same]
      exact isFile
    | some file =>
      exact .inr ⟨position, file, rfl, isFile, imageInodes_file isFile⟩

theorem mem_claims_image {owner sector : Nat}
    (member : sector ∈ claims (imageState files) (imageDisk files) [] owner) :
    ∃ position, owner = position + 1 ∧ position < files.length ∧
      imageStart files position ≤ sector ∧ sector < imageStart files (position + 1) := by
  unfold claims at member
  by_cases inTable : owner < maxInodes
  · rw [if_pos inTable] at member
    change sector ∈ (imageInodes files owner).ownedSectors _ at member
    rcases imageInodes_cases files owner with blank | ⟨position, file, ownerEq, isFile, placed⟩
    · rw [blank, Inode.Blank.ownedSectors ⟨rfl, rfl, rfl⟩] at member
      cases member
    · rw [placed, file.ownedSectors_placed, List.mem_range'_1] at member
      refine ⟨position, ownerEq, (List.getElem?_eq_some_iff.mp isFile).1, member.1, ?_⟩
      rw [imageStart_succ isFile]
      exact member.2
  · rw [if_neg inTable, ite_self] at member
    cases member

theorem image_formatted (files : List ImageFile) : Formatted (imageState files) :=
  ⟨rfl, (by decide : 0 < 4096), (by decide : 4096 ≤ 4194304), rfl, rfl, (by decide :
    1 = ((formatBoot 4096).freeBitmapSize + sectorSize - 1) / sectorSize)⟩

theorem image_consistent (fits : ImageFits files) :
    Consistent (imageState files) (imageDisk files) [] := by
  refine ⟨image_formatted files, ⟨⟨?_, ?_⟩, ?_⟩, ?_⟩
  · intro owner
    unfold claims
    by_cases inTable : owner < maxInodes
    · rw [if_pos inTable]
      change ((imageInodes files owner).ownedSectors _).Nodup
      rcases imageInodes_cases files owner with blank | ⟨position, file, _, _, placed⟩
      · rw [blank, Inode.Blank.ownedSectors ⟨rfl, rfl, rfl⟩]
        exact List.nodup_nil
      · rw [placed, file.ownedSectors_placed]
        exact List.nodup_range'
    · rw [if_neg inTable, ite_self]
      exact List.nodup_nil
  · intro first second different sector inFirst inSecond
    obtain ⟨one, firstEq, _, aboveOne, belowOne⟩ := mem_claims_image inFirst
    obtain ⟨two, secondEq, _, aboveTwo, belowTwo⟩ := mem_claims_image inSecond
    rcases Nat.lt_trichotomy one two with less | same | greater
    · have ordered := @imageStart_mono files (one + 1) two less
      omega
    · omega
    · have ordered := @imageStart_mono files (two + 1) one greater
      omega
  · intro owner sector member
    obtain ⟨position, _, inFiles, above, below⟩ := mem_claims_image member
    have first : 338 ≤ imageStart files position := Nat.le_add_right _ _
    have last := @imageStart_mono files (position + 1) files.length inFiles
    have inside := fits.inside
    have base : (imageState files).base = 338 := (image_formatted files).base_eq
    have total : (imageState files).boot.totalSectors = 4096 := rfl
    rw [base, total]
    refine ⟨by omega, by omega, ?_⟩
    change (if 4096 ≤ sector then true
      else decide (sector < imageStart files files.length)) = true
    rw [if_neg (by omega)]
    exact decide_eq_true (by omega)
  · intro index inTable
    change Packed ((imageInodes files index).extents _)
    rcases imageInodes_cases files index with blank | ⟨position, file, _, _, placed⟩
    · rw [blank]
      exact Inode.Blank.packed ⟨rfl, rfl, rfl⟩ _
    · rw [placed]
      simp [Packed, Inode.extents, ImageFile.placed, Inode.indirectExtents, List.replicate]

theorem ImageFile.length_padded (file : ImageFile) : file.padded.length = 512 * file.sectors := by
  have room : file.bytes.length ≤ 512 * file.sectors := by
    unfold ImageFile.sectors
    omega
  unfold ImageFile.padded
  rw [List.length_append, List.length_replicate]
  omega

theorem length_flatMap_padded (files : List ImageFile) : (files.flatMap ImageFile.padded).length =
    512 * (files.map ImageFile.sectors).sum := by
  induction files with
  | nil => rfl
  | cons file rest ih =>
    rw [List.flatMap_cons, List.length_append, ih,
      file.length_padded, List.map_cons, List.sum_cons, Nat.mul_add]

theorem getD_flatMap_padded {position : Nat} {file : ImageFile}
    (isFile : files[position]? = some file) {offset : Nat} (inside : offset < file.bytes.length) :
    (files.flatMap ImageFile.padded).getD (512 * (imageStart files position - 338) + offset) 0 =
      file.bytes.getD offset 0 := by
  obtain ⟨inFiles, fileEq⟩ := List.getElem?_eq_some_iff.mp isFile
  have split : files = files.take position ++ file :: files.drop (position + 1) := by
    rw [← fileEq, List.getElem_cons_drop, List.take_append_drop]
  have before : 512 * (imageStart files position - 338) =
      ((files.take position).flatMap ImageFile.padded).length := by
    rw [length_flatMap_padded, imageStart, Nat.add_sub_cancel_left]
  rw [before]
  nth_rewrite 1 [split]
  rw [List.flatMap_append, List.getD_append_right _ _ _ _ (by omega),
    Nat.add_sub_cancel_left, List.flatMap_cons, ImageFile.padded,
    List.append_assoc, List.getD_append _ _ _ _ inside]

theorem image_dataSectors {position : Nat} {file : ImageFile}
    (isFile : files[position]? = some file) :
    ((imageState files).inodes (position + 1)).dataSectors (imageDisk files) =
      List.range' (imageStart files position) file.sectors := by
  change (imageInodes files (position + 1)).dataSectors _ = _
  rw [imageInodes_file isFile, file.dataSectors_placed]

theorem image_holdsArray {position : Nat} {file : ImageFile} (isFile : files[position]? = some file)
    (size : file.inode.sizeBytes = file.bytes.length) :
    HoldsArray (position + 1) file.bytes (imageState files) (imageDisk files) := by
  have room : file.bytes.length ≤ 512 * file.sectors := by
    unfold ImageFile.sectors
    omega
  refine ⟨?_, ?_, ?_⟩
  · change (imageInodes files (position + 1)).sizeBytes = _
    rw [imageInodes_file isFile]
    exact size
  · rw [image_dataSectors isFile, List.length_range']
    exact room
  · intro place inside
    have inSectors : place / 512 < file.sectors := by omega
    have start : 338 ≤ imageStart files position := Nat.le_add_right _ _
    have found := getD_flatMap_padded isFile inside
    have samePlace : 512 * (imageStart files position + place / 512 - 338) +
        place % 512 = 512 * (imageStart files position - 338) + place := by
      omega
    unfold contentAt
    rw [fileBlocks_getD, image_dataSectors isFile]
    rw [List.getElem?_range' inSectors, Nat.one_mul]
    change sectorByte (imageDisk files (imageStart files position + place / 512)) (place % 512) = _
    unfold imageDisk
    rw [sectorByte_sectorOf _ (Nat.mod_lt place (by decide)), samePlace, found]

theorem image_inode_cases (files : List ImageFile) (index : Nat) :
    (imageState files).inodes index = Inode.zero ∨ ∃ file ∈ files, ∃ start,
        (imageState files).inodes index = file.placed start := by
  rcases imageInodes_cases files index with blank | ⟨position, file, _, isFile, placed⟩
  · exact Or.inl blank
  · exact Or.inr ⟨file, List.mem_of_getElem? isFile, _, placed⟩

theorem image_intact (fits : ImageFits files)
    (occupied : ∀ file ∈ files, file.inode.occupied = true)
    (root : ∃ file, files[0]? = some file ∧ file.inode.isDirectory = true) :
    Intact (imageState files) (imageDisk files) := by
  obtain ⟨file, isFirst, isDirectory⟩ := root
  refine ⟨image_consistent fits, ?_, ?_, ?_⟩
  · intro index _ notOccupied
    rcases image_inode_cases files index with blank | ⟨other, member, start, placed⟩
    · rw [blank]
      exact ⟨rfl, (⟨rfl, rfl, rfl⟩ : Inode.zero.Blank).dataSectors _, rfl⟩
    · have flags : (other.placed start).occupied = other.inode.occupied := rfl
      rw [placed, flags, occupied other member] at notOccupied
      cases notOccupied
  · change (imageInodes files 0).occupied = false
    rw [imageInodes, if_pos rfl]
    rfl
  · change (imageInodes files (0 + 1)).isDirectory = true
    rw [imageInodes_file isFirst]
    exact isDirectory

def ImageFile.isInline (file : ImageFile) : Bool :=
  decide (file.inode.sizeBytes < symlinkInlineSize) &&
    file.inode.symlinkInline.headD 0 != 0

theorem image_linksBacked (inlined : ∀ file ∈ files, file.inode.isSymlink = true →
    file.isInline = true) : LinksBacked (nodeView (imageState files) (imageDisk files)) := by
  intro index _ isLink notInline
  rcases image_inode_cases files index with blank | ⟨file, member, start, placed⟩
  · change ((imageState files).inodes index).isSymlink = true at isLink
    rw [blank] at isLink
    cases isLink
  · have inlineEq : (nodeView (imageState files) (imageDisk files)
        index).isInline = file.isInline := by
      unfold NodeView.isInline nodeView
      dsimp only
      rw [placed]
      rfl
    change ((imageState files).inodes index).isSymlink = true at isLink
    rw [placed] at isLink
    rw [inlineEq, inlined file member isLink] at notInline
    cases notInline

end

end KnitOS.Fs
