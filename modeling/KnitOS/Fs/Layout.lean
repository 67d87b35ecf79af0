import KnitOS.Storage.Disk
import Mathlib.Algebra.Ring.Nat
import Mathlib.Data.List.Basic

/-!
# On-disk structures of the file system

The superblock, the inodes, the extents and the journal header, with their
byte layout.  All fields are little-endian; a field that does not fit its
width is truncated when it is written.
-/

namespace KnitOS.Fs

open Storage

def halfBytes (value : Nat) : List UInt8 :=
  [UInt8.ofNat value, UInt8.ofNat (value / 256)]

def wordBytes (value : Nat) : List UInt8 :=
  [UInt8.ofNat value, UInt8.ofNat (value / 256),
    UInt8.ofNat (value / 65536), UInt8.ofNat (value / 16777216)]

def halfOf (low high : UInt8) : Nat :=
  low.toNat + 256 * high.toNat

def wordOf (first second third fourth : UInt8) : Nat :=
  first.toNat + 256 * second.toNat + 65536 * third.toNat +
    16777216 * fourth.toNat

def halfAt (bytes : Nat → UInt8) (offset : Nat) : Nat :=
  halfOf (bytes offset) (bytes (offset + 1))

def wordAt (bytes : Nat → UInt8) (offset : Nat) : Nat :=
  wordOf (bytes offset) (bytes (offset + 1)) (bytes (offset + 2))
    (bytes (offset + 3))

def sectorByte (sector : Sector) (offset : Nat) : UInt8 :=
  if inside : offset < sectorSize then sector ⟨offset, inside⟩ else 0

def sectorOf (bytes : Nat → UInt8) : Sector :=
  fun offset => bytes offset

/-- Bytes, followed by zeros, as a byte array. -/
def bytesOf (bytes : List UInt8) (offset : Nat) : UInt8 :=
  bytes.getD offset 0

theorem sectorByte_sectorOf (bytes : Nat → UInt8) {offset : Nat} (inside : offset < sectorSize) :
    sectorByte (sectorOf bytes) offset = bytes offset := by
  simp [sectorByte, sectorOf, inside]

theorem wordOf_wordBytes (value : Nat) : wordOf (UInt8.ofNat value) (UInt8.ofNat (value / 256))
    (UInt8.ofNat (value / 65536)) (UInt8.ofNat (value / 16777216)) = u32 value := by
  simp only [wordOf, u32, UInt8.toNat_ofNat']
  omega

theorem wordAt_bytesOf (words : List Nat) (rest : List UInt8) :
    ∀ {index : Nat}, index < words.length →
      wordAt (bytesOf (words.flatMap wordBytes ++ rest)) (4 * index) =
        u32 (words.getD index 0) := by
  induction words with
  | nil =>
    intro index inside
    exact absurd inside (Nat.not_lt_zero index)
  | cons word others ih =>
    intro index inside
    cases index with
    | zero => exact wordOf_wordBytes word
    | succ index =>
      have shorter : index < others.length := Nat.lt_of_succ_lt_succ inside
      exact ih shorter

structure BootSector where
  magic : Nat
  version : Nat
  totalSectors : Nat
  inodeTableSector : Nat
  dataStartSector : Nat
  inodeCount : Nat
  freeBitmapSector : Nat
  freeBitmapSize : Nat
  logStartSector : Nat
  logSize : Nat
  logNext : Nat
  logMagic : Nat
  inodeSlots : Nat
  rootIno : Nat
  quotaSoftBlocks : Nat
  reserved : List UInt8

namespace BootSector

def words (boot : BootSector) : List Nat :=
  [boot.magic, boot.version, boot.totalSectors, boot.inodeTableSector,
    boot.dataStartSector, boot.inodeCount, boot.freeBitmapSector,
    boot.freeBitmapSize, boot.logStartSector, boot.logSize, boot.logNext,
    boot.logMagic, boot.inodeSlots, boot.rootIno, boot.quotaSoftBlocks]

def encode (boot : BootSector) : Sector :=
  sectorOf (bytesOf (boot.words.flatMap wordBytes ++ boot.reserved))

def decode (sector : Sector) : BootSector :=
  let word (index : Nat) : Nat := wordAt (sectorByte sector) (4 * index)
  { magic := word 0
    version := word 1
    totalSectors := word 2
    inodeTableSector := word 3
    dataStartSector := word 4
    inodeCount := word 5
    freeBitmapSector := word 6
    freeBitmapSize := word 7
    logStartSector := word 8
    logSize := word 9
    logNext := word 10
    logMagic := word 11
    inodeSlots := word 12
    rootIno := word 13
    quotaSoftBlocks := word 14
    reserved :=
      (List.range 452).map fun offset => sectorByte sector (60 + offset) }

end BootSector

theorem wordAt_congr {first second : Nat → UInt8} {offset : Nat} (same : ∀ position, position < 4 →
      first (offset + position) = second (offset + position)) :
    wordAt first offset = wordAt second offset := by
  have zero := same 0 (by decide)
  have one := same 1 (by decide)
  have two := same 2 (by decide)
  have three := same 3 (by decide)
  simp only [Nat.add_zero] at zero
  simp only [wordAt, zero, one, two, three]

theorem wordAt_sectorOf (words : List Nat) (rest : List UInt8) {index : Nat}
    (inside : index < words.length) (short : words.length ≤ 128) : wordAt
        (sectorByte (sectorOf (bytesOf (words.flatMap wordBytes ++ rest)))) (4 * index) =
      u32 (words.getD index 0) := by
  rw [← wordAt_bytesOf words rest inside]
  apply wordAt_congr
  intro position positionSmall
  have inSector : 4 * index + position < 512 := by omega
  exact sectorByte_sectorOf _ inSector

theorem BootSector.decode_encode_logNext (boot : BootSector) :
    (decode boot.encode).logNext = u32 boot.logNext := wordAt_sectorOf boot.words boot.reserved
    (by simp [BootSector.words]) (by simp [BootSector.words])

structure Extent where
  lba : Nat
  count : Nat
deriving DecidableEq, Inhabited

abbrev indirectMax : Nat := 64

def decodeExtents (sector : Sector) : List Extent :=
  (List.range indirectMax).map fun index =>
    { lba := wordAt (sectorByte sector) (8 * index)
      count := wordAt (sectorByte sector) (8 * index + 4) }

def encodeExtents (extents : List Extent) : Sector :=
  sectorOf <| bytesOf <|
    (extents.flatMap fun extent => [extent.lba, extent.count]).flatMap
      wordBytes

abbrev directExtents : Nat := 4

abbrev symlinkInlineSize : Nat := 60

structure Inode where
  mode : Nat
  flags : Nat
  uid : Nat
  gid : Nat
  nlink : Nat
  pad0 : Nat
  sizeBytes : Nat
  atime : Nat
  mtime : Nat
  ctime : Nat
  parent : Nat
  direct : List Extent
  indirectLba : Nat
  xattrLba : Nat
  rdev : Nat
  symlinkInline : List UInt8
  direct_length : direct.length = directExtents
deriving DecidableEq

namespace Inode

def noExtents : List Extent :=
  List.replicate directExtents ⟨0, 0⟩

theorem noExtents_length : noExtents.length = directExtents := List.length_replicate

def zero : Inode where
  mode := 0
  flags := 0
  uid := 0
  gid := 0
  nlink := 0
  pad0 := 0
  sizeBytes := 0
  atime := 0
  mtime := 0
  ctime := 0
  parent := 0
  direct := noExtents
  indirectLba := 0
  xattrLba := 0
  rdev := 0
  symlinkInline := List.replicate symlinkInlineSize 0
  direct_length := noExtents_length

instance : Inhabited Inode := ⟨zero⟩

abbrev flagOccupied : Nat := 0x01

abbrev flagDirectory : Nat := 0x02

abbrev flagSymlink : Nat := 0x04

/-- `FS_FLAG_FIFO | FS_FLAG_SOCK | FS_FLAG_BLK | FS_FLAG_CHR`. -/
abbrev flagSpecial : Nat := 0x78

def hasFlag (inode : Inode) (mask : Nat) : Bool :=
  inode.flags &&& mask != 0

def occupied (inode : Inode) : Bool := inode.hasFlag flagOccupied

def isDirectory (inode : Inode) : Bool := inode.hasFlag flagDirectory

def isSymlink (inode : Inode) : Bool := inode.hasFlag flagSymlink

def isSpecial (inode : Inode) : Bool := inode.hasFlag flagSpecial

section

variable {first second : Inode} (same : first.flags = second.flags)
include same

theorem hasFlag_congr (mask : Nat) : first.hasFlag mask = second.hasFlag mask := by
  unfold hasFlag
  rw [same]

theorem occupied_congr : first.occupied = second.occupied := hasFlag_congr same _

theorem isDirectory_congr : first.isDirectory = second.isDirectory := hasFlag_congr same _

theorem isSpecial_congr : first.isSpecial = second.isSpecial := hasFlag_congr same _

end

def encode (inode : Inode) : List UInt8 :=
  [inode.mode, inode.flags, inode.uid, inode.gid, inode.nlink,
      inode.pad0].flatMap halfBytes ++
    ([inode.sizeBytes, inode.atime, inode.mtime, inode.ctime,
      inode.parent] ++
      (inode.direct.flatMap fun extent => [extent.lba, extent.count]) ++
      [inode.indirectLba, inode.xattrLba, inode.rdev]).flatMap wordBytes ++
    inode.symlinkInline

def decode (bytes : Nat → UInt8) (offset : Nat) : Inode :=
  let half (position : Nat) : Nat := halfAt bytes (offset + position)
  let word (position : Nat) : Nat := wordAt bytes (offset + position)
  { mode := half 0
    flags := half 2
    uid := half 4
    gid := half 6
    nlink := half 8
    pad0 := half 10
    sizeBytes := word 12
    atime := word 16
    mtime := word 20
    ctime := word 24
    parent := word 28
    direct :=
      (List.range directExtents).map fun index =>
        ⟨word (32 + 8 * index), word (36 + 8 * index)⟩
    indirectLba := word 64
    xattrLba := word 68
    rdev := word 72
    symlinkInline :=
      (List.range symlinkInlineSize).map fun position =>
        bytes (offset + 76 + position)
    direct_length := by simp }

end Inode

abbrev inodeSize : Nat := 136

abbrev maxInodes : Nat := 1024

def tableSector (inodes : Nat → Inode) (index : Nat) : Sector :=
  sectorOf fun offset =>
    let position := sectorSize * index + offset
    bytesOf (inodes (position / inodeSize)).encode (position % inodeSize)

/-- One byte of the bitmap: bit `n` stands for sector `8 * index + n`. -/
def bitmapByte (bits : Nat → Bool) (index : Nat) : UInt8 :=
  (List.range 8).foldl
    (fun byte bit =>
      if bits (8 * index + bit) then byte ||| (1 <<< UInt8.ofNat bit)
      else byte)
    0

def bitmapSector (bits : Nat → Bool) (index : Nat) : Sector :=
  sectorOf fun offset => bitmapByte bits (sectorSize * index + offset)

abbrev journalMax : Nat := 32

abbrev txnMagic : Nat := 0x4A524E31

structure TxnHeader where
  magic : Nat
  nsec : Nat
  lba : List Nat
  csum : Nat

namespace TxnHeader

/-- The header as the bytes of the first log sector; unused entries are
zero. -/
def encode (header : TxnHeader) : Sector :=
  sectorOf <| bytesOf <|
    ([header.magic, header.nsec] ++
      (List.range journalMax).map (fun index => header.lba.getD index 0) ++
      [header.csum]).flatMap wordBytes

def decode (sector : Sector) : TxnHeader :=
  { magic := wordAt (sectorByte sector) 0
    nsec := wordAt (sectorByte sector) 4
    lba :=
      (List.range journalMax).map fun index =>
        wordAt (sectorByte sector) (8 + 4 * index)
    csum := wordAt (sectorByte sector) 136 }

end TxnHeader

def csumStep (sum : Nat) (byte : UInt8) : Nat :=
  let added := u32 (sum + byte.toNat)
  u32 (2 * added) ||| (added / 2147483648)

/-- `fs_csum32` of the first bytes of a sector. -/
def fsCsum32 (sector : Sector) (length : Nat) : Nat :=
  (List.range length).foldl
    (fun sum offset => csumStep sum (sectorByte sector offset)) 0

end KnitOS.Fs
