import Mathlib.Data.List.FinRange

/-!
# IPv4 packets and reassembly

The header functions of `ip.cpp` over bytes, and `ip_input_fragment` over its
table of four datagrams.  A coverage map has one bit for each byte of the
buffer, so it is a function of the position.
-/

namespace KnitOS.Net

/-! ## Headers -/

def bytes16 (value : UInt16) : List UInt8 :=
  [(value >>> 8).toUInt8, value.toUInt8]

def bytes32 (value : UInt32) : List UInt8 :=
  [(value >>> 24).toUInt8, (value >>> 16).toUInt8, (value >>> 8).toUInt8,
    value.toUInt8]

def word16 (bytes : List UInt8) (offset : Nat) : UInt16 :=
  (bytes.getD offset 0).toUInt16 <<< 8 ||| (bytes.getD (offset + 1) 0).toUInt16

def word32 (bytes : List UInt8) (offset : Nat) : UInt32 :=
  (word16 bytes offset).toUInt32 <<< 16 |||
    (word16 bytes (offset + 2)).toUInt32

/-- The sum of the big-endian words; a last single byte is the high byte of a
word. -/
def sumWords : List UInt8 → Nat
  | [] => 0
  | [last] => last.toNat * 256
  | high :: low :: rest => high.toNat * 256 + low.toNat + sumWords rest

/-- One round of the loop that adds the carries back. -/
def addCarries (sum : Nat) : Nat :=
  if sum / 65536 = 0 then sum else sum % 65536 + sum / 65536

/-- `ip_checksum`.  A 32-bit sum needs at most three rounds. -/
def ipChecksum (bytes : List UInt8) : UInt16 :=
  ~~~ UInt16.ofNat (addCarries (addCarries (addCarries (sumWords bytes))))

structure IpHeader where
  versionIhl : UInt8
  tos : UInt8
  totalLength : UInt16
  id : UInt16
  flagsFragment : UInt16
  ttl : UInt8
  protocol : UInt8
  checksum : UInt16
  srcIp : UInt32
  destIp : UInt32
deriving DecidableEq

def IpHeader.bytes (header : IpHeader) : List UInt8 :=
  [header.versionIhl, header.tos] ++ bytes16 header.totalLength ++
    bytes16 header.id ++ bytes16 header.flagsFragment ++
    [header.ttl, header.protocol] ++ bytes16 header.checksum ++
    bytes32 header.srcIp ++ bytes32 header.destIp

abbrev ipHeaderSize : Nat := 20

abbrev ipFlagMf : UInt16 := 0x2000
abbrev ipOffmask : UInt16 := 0x1FFF

def ipCreatePacketEx (bufferSize : Nat) (srcIp destIp : UInt32)
    (protocol : UInt8) (id flagsFrag : UInt16) (payload : List UInt8) : Option (List UInt8) :=
  if bufferSize < ipHeaderSize + payload.length then
    none
  else
    let header : IpHeader :=
      { versionIhl := 0x45
        tos := 0
        totalLength := UInt16.ofNat (ipHeaderSize + payload.length)
        id := id
        flagsFragment := flagsFrag
        ttl := 64
        protocol := protocol
        checksum := 0
        srcIp := srcIp
        destIp := destIp }
    some ({ header with checksum := ipChecksum header.bytes }.bytes ++ payload)

def readIpHeader (packet : List UInt8) : IpHeader where
  versionIhl := packet.getD 0 0
  tos := packet.getD 1 0
  totalLength := word16 packet 2
  id := word16 packet 4
  flagsFragment := word16 packet 6
  ttl := packet.getD 8 0
  protocol := packet.getD 9 0
  checksum := word16 packet 10
  srcIp := word32 packet 12
  destIp := word32 packet 16

/-- `ip_parse_header`: the header and the payload. -/
def ipParseHeader (packet : List UInt8) : Option (IpHeader × List UInt8) :=
  let header := readIpHeader packet
  let ihl := (header.versionIhl &&& 0x0F).toNat * 4
  let totalLen := header.totalLength.toNat
  if packet.length < ipHeaderSize then
    none
  else if header.versionIhl >>> 4 ≠ 4 then
    none
  else if ihl < 20 ∨ packet.length < ihl then
    none
  else if totalLen < ihl ∨ packet.length < totalLen then
    none
  else if ipChecksum (((packet.take ihl).set 10 0).set 11 0) ≠
      header.checksum then
    none
  else
    some (header, (packet.take totalLen).drop ihl)

/-! ## Reassembly -/

abbrev ipReassBuf : Nat := 8192

abbrev ipReassTimeoutMs : UInt32 := 3000

structure ReassEntry where
  used : Bool
  src : UInt32
  dest : UInt32
  id : UInt16
  protocol : UInt8
  buffer : Nat → UInt8
  receivedLen : Nat
  totalLen : Nat
  cov : Nat → Bool
  deadlineMs : UInt32

/-- The table, with `IP_REASS_MAX` entries. -/
abbrev ReassTable : Type := Fin 4 → ReassEntry

namespace ReassEntry

/-- The entry collects fragments of the datagram. -/
def collects (entry : ReassEntry) (header : IpHeader) : Bool :=
  entry.used && decide (entry.src = header.srcIp) &&
    decide (entry.dest = header.destIp) && decide (entry.id = header.id) &&
    decide (entry.protocol = header.protocol)

def start (header : IpHeader) (deadlineMs : UInt32) : ReassEntry where
  used := true
  src := header.srcIp
  dest := header.destIp
  id := header.id
  protocol := header.protocol
  buffer := fun _ => 0
  receivedLen := 0
  totalLen := 0
  cov := fun _ => false
  deadlineMs := deadlineMs

/-- One byte is stored; it counts when its position was not covered. -/
def writeByte (entry : ReassEntry) (pos : Nat) (byte : UInt8) : ReassEntry :=
  let stored := { entry with buffer := Function.update entry.buffer pos byte }
  if entry.cov pos then
    stored
  else
    { stored with
      cov := Function.update entry.cov pos true
      receivedLen := entry.receivedLen + 1 }

/-- The loop over the bytes of a fragment. -/
def writeBytes (entry : ReassEntry) : Nat → List UInt8 → ReassEntry
  | _, [] => entry
  | pos, byte :: rest => (entry.writeByte pos byte).writeBytes (pos + 1) rest

/-- A fragment is stored; the last one gives the length. -/
def store (entry : ReassEntry) (offset : Nat) (more : Bool) (payload : List UInt8) : ReassEntry :=
  let written := entry.writeBytes offset payload
  if more then
    written
  else
    { written with totalLen := offset + payload.length }

def contents (entry : ReassEntry) : List UInt8 :=
  (List.range entry.totalLen).map entry.buffer

end ReassEntry

/-- The position of a fragment in its datagram. -/
def IpHeader.fragmentOffset (header : IpHeader) : Nat :=
  (header.flagsFragment &&& ipOffmask).toNat * 8

def IpHeader.moreFragments (header : IpHeader) : Bool :=
  header.flagsFragment &&& ipFlagMf != 0

/-- The results -1, 1 and 0 of `ip_input_fragment`. -/
inductive FragmentResult where
  | refused
  | waiting
  | whole (header : IpHeader) (payload : List UInt8)
deriving DecidableEq

/-- The entry a fragment goes to, as it is before the fragment is stored. -/
def reassEntryFor (header : IpHeader) (deadlineMs : UInt32)
    (table : ReassTable) : Option (Fin 4 × ReassEntry) :=
  match (List.finRange 4).find? fun slot => (table slot).collects header with
  | some slot => some (slot, { table slot with deadlineMs := deadlineMs })
  | none =>
    match (List.finRange 4).find? fun slot => !(table slot).used with
    | some slot => some (slot, ReassEntry.start header deadlineMs)
    | none => none

/-- The part of `ip_input_fragment` after the entry was chosen. -/
def storeFragment (header : IpHeader) (payload : List UInt8)
    (entry : ReassEntry) : FragmentResult × ReassEntry :=
  if ipReassBuf < header.fragmentOffset + payload.length then
    (.refused, { entry with used := false })
  else
    let stored := entry.store header.fragmentOffset header.moreFragments payload
    if stored.totalLen = 0 ∨ stored.receivedLen < stored.totalLen then
      (.waiting, stored)
    else
      (.whole { header with flagsFragment := 0 } stored.contents,
        { stored with used := false })

/-- The fragment in a packet, if it is one. -/
def fragmentOf (packet : List UInt8) : Option (IpHeader × List UInt8) :=
  match ipParseHeader packet with
  | none => none
  | some (header, payload) =>
    if header.moreFragments = false ∧ header.fragmentOffset = 0 then
      none
    else
      some (header, payload)

/-- `ip_input_fragment` at the time `now`. -/
def ipInputFragment (now : UInt32) (packet : List UInt8)
    (table : ReassTable) : FragmentResult × ReassTable :=
  match fragmentOf packet with
  | none => (.refused, table)
  | some (header, payload) =>
    match reassEntryFor header (now + ipReassTimeoutMs) table with
    | none => (.refused, table)
    | some (slot, entry) =>
      let stored := storeFragment header payload entry
      (stored.1, Function.update table slot stored.2)

/-- `ip_reassembly_gc` at the time `now`; the difference is compared as a
signed number. -/
def ipReassemblyGc (now : UInt32) (table : ReassTable) : ReassTable :=
  fun slot =>
    if (table slot).used ∧ now - (table slot).deadlineMs < 0x80000000 then
      { table slot with used := false }
    else
      table slot

def reassemblyInit : ReassTable :=
  fun _ =>
    { ReassEntry.start
        ⟨0, 0, 0, 0, 0, 0, 0, 0, 0, 0⟩ 0 with used := false }

end KnitOS.Net
