import KnitOS.Ssh.Authentication

/-!
# Reads of a packet

`br_raw` answers with the end of the packet when a string is not there, and its
callers read the string all the same.  Whether the reads stay inside the packet
is decided by the length words that the packet holds.
-/

namespace KnitOS.Ssh

open Lib

/-! ## What is read -/

/-- Bytes that are read through a pointer of `br_raw`. -/
structure Span where
  start : Nat
  size : Nat

/-- The bytes lie below `plen`. -/
def Span.Inside (span : Span) (plen : Nat) : Prop :=
  ∀ index < span.size, span.start + index < plen

/-- The bytes of a field that `Br.copied` reads. -/
def Field.copied (field : Field) (room : Nat) : Span :=
  ⟨field.start, min field.size.toNat room⟩

/-- The bytes that `Br.fieldIs` reads: `memcmp` is called for a field of the
right size. -/
def Field.compared (field : Field) (name : List UInt8) : List Span :=
  if field.size = UInt32.ofNat name.length then [⟨field.start, name.length⟩] else []

inductive Service where
  | userauth
  | connection

def Service.name : Service → List UInt8
  | .userauth => ascii "ssh-userauth"
  | .connection => ascii "ssh-connection"

/-- The code that reads a packet: a service request, an authentication request
and the relay of channel data. -/
inductive PacketUse where
  | service (asked : Service)
  | request
  | relay

/-- What is passed to `memcmp`, `lookup_user`, `verify_password` and
`sys_write`. -/
def PacketUse.reads (packet : Br) : PacketUse → List Span
  | .service asked => (brStr packet.body).1.compared asked.name
  | .request =>
    let fields := authFields packet
    fields.user.copied 63 :: (fields.method.compared (ascii "password") ++
      if packet.fieldIs fields.method (ascii "password") then
        [fields.password.copied 127]
      else
        [])
  | .relay => [(relayData packet).copied (relayData packet).size.toNat]

section

variable {first second : Br} {field : Field}

theorem copied_congr {room : Nat}
    (same : ∀ index < (field.copied room).size,
      first.memory (field.start + index) = second.memory (field.start + index)) :
    first.copied field room = second.copied field room :=
  List.map_congr_left fun index member => same index (List.mem_range.mp member)

theorem fieldIs_congr {name : List UInt8}
    (same : ∀ span ∈ field.compared name, ∀ index < span.size,
      first.memory (span.start + index) = second.memory (span.start + index)) :
    first.fieldIs field name = second.fieldIs field name := by
  unfold Br.fieldIs
  by_cases sized : field.size = UInt32.ofNat name.length
  · have read := same _ (by rw [Field.compared, if_pos sized]; exact List.mem_singleton_self _)
    have slices : (first.memory.slice field.start name.length).1 =
        (second.memory.slice field.start name.length).1 :=
      List.map_congr_left fun index member => read index (List.mem_range.mp member)
    rw [slices]
  · rw [decide_eq_false sized, Bool.false_and, Bool.false_and]

end

/-! ## The length words of a packet -/

section

variable (payload : List UInt8) (pos : Nat)

/-- A byte of the payload; `br_u8` answers zero behind the end. -/
def byteAt : Nat :=
  (payload.getD pos 0).toNat

/-- The length word at a position. -/
def lengthAt : Nat :=
  256 * (256 * (256 * byteAt payload pos + byteAt payload (pos + 1)) +
    byteAt payload (pos + 2)) + byteAt payload (pos + 3)

/-- Where the data behind a length word begins. -/
def dataAt : Nat :=
  min (pos + 4) payload.length

/-- Where the data ends by the sum of `br_raw`, which has 32 bits. -/
def dataEnd : Nat :=
  (dataAt payload pos + lengthAt payload pos) % 2 ^ 32

/-- Where the next field begins. -/
def behind : Nat :=
  min (dataEnd payload pos) payload.length

/-- The payload has the string, as far as a sum of 32 bits can say, and it has
the bytes of it that go to an array with the given room. -/
def Held (room : Nat) : Prop :=
  dataEnd payload pos ≤ payload.length ∧
    dataAt payload pos + min (lengthAt payload pos) room ≤ payload.length

/-- The third string of a request. -/
def methodAt : Nat :=
  behind payload (behind payload 1)

end

/-- The condition on the length words of a payload. -/
def PacketUse.Complete (payload : List UInt8) : PacketUse → Prop
  | .service asked =>
    lengthAt payload 1 = asked.name.length →
      5 + asked.name.length ≤ payload.length
  | .request =>
    Held payload 1 63 ∧
      (lengthAt payload (methodAt payload) = 8 →
        methodAt payload + 12 ≤ payload.length ∧
          ((payload.drop (methodAt payload + 4)).take 8 = ascii "password" →
            Held payload (methodAt payload + 13) 127))
  | .relay =>
    lengthAt payload 5 = 0 ∨ 9 + lengthAt payload 5 ≤ payload.length

/-- The reader stands at a position of the payload. -/
structure Br.At (payload : List UInt8) (reader : Br) (pos : Nat) : Prop where
  bytes : ∀ index < payload.length, reader.memory index = payload.getD index 0
  len : reader.len.toNat = payload.length
  position : reader.pos.toNat = pos
  inside : pos ≤ payload.length

section

variable {payload : List UInt8} {pos : Nat} {reader : Br}

theorem byteAt_of_le (behind : payload.length ≤ pos) : byteAt payload pos = 0 := by
  unfold byteAt
  rw [List.getD_eq_default _ _ behind]
  rfl

theorem byteAt_min (offset : Nat) :
    byteAt payload (min pos payload.length + offset) = byteAt payload (pos + offset) := by
  rcases Nat.le_total pos payload.length with inside | outside
  · rw [Nat.min_eq_left inside]
  · rw [Nat.min_eq_right outside, byteAt_of_le (by omega), byteAt_of_le (by omega)]

theorem lengthAt_min :
    lengthAt payload (min pos payload.length) = lengthAt payload pos := by
  have first := @byteAt_min payload pos 0
  rw [Nat.add_zero, Nat.add_zero] at first
  unfold lengthAt
  rw [first, byteAt_min, byteAt_min, byteAt_min]

theorem dataAt_min : dataAt payload (min pos payload.length) = dataAt payload pos := by
  unfold dataAt
  omega

theorem behind_min : behind payload (min pos payload.length) = behind payload pos := by
  unfold behind dataEnd
  rw [dataAt_min, lengthAt_min]

theorem held_min (room : Nat) :
    Held payload (min pos payload.length) room ↔ Held payload pos room := by
  unfold Held dataEnd
  rw [dataAt_min, lengthAt_min]

theorem lengthAt_lt (payload : List UInt8) (pos : Nat) : lengthAt payload pos < 2 ^ 32 := by
  have first := (payload.getD pos 0).toNat_lt
  have second := (payload.getD (pos + 1) 0).toNat_lt
  have third := (payload.getD (pos + 2) 0).toNat_lt
  have fourth := (payload.getD (pos + 3) 0).toNat_lt
  unfold lengthAt byteAt
  omega

theorem toNat_shift_or {word : UInt32} (small : word.toNat < 2 ^ 24) (byte : UInt8) :
    (word <<< 8 ||| byte.toUInt32).toNat = 256 * word.toNat + byte.toNat := by
  have shifted : (word <<< 8).toNat = 2 ^ 8 * word.toNat := by
    rw [UInt32.toNat_shiftLeft, Nat.shiftLeft_eq, Nat.mul_comm]
    exact Nat.mod_eq_of_lt (by change 2 ^ 8 * word.toNat < 2 ^ 32; omega)
  rw [UInt32.toNat_or, shifted, UInt8.toNat_toUInt32,
    ← Nat.two_pow_add_eq_or_of_lt (by exact byte.toNat_lt)]

theorem toNat_word (first second third fourth : UInt8) :
    (((first.toUInt32 <<< 8 ||| second.toUInt32) <<< 8 ||| third.toUInt32) <<< 8 |||
        fourth.toUInt32).toNat =
      256 * (256 * (256 * first.toNat + second.toNat) + third.toNat) + fourth.toNat := by
  have firstSmall := first.toNat_lt
  have secondSmall := second.toNat_lt
  have thirdSmall := third.toNat_lt
  have one : first.toUInt32.toNat = first.toNat := UInt8.toNat_toUInt32 first
  have two := toNat_shift_or (by omega : first.toUInt32.toNat < 2 ^ 24) second
  have three := toNat_shift_or (by omega :
    (first.toUInt32 <<< 8 ||| second.toUInt32).toNat < 2 ^ 24) third
  rw [toNat_shift_or (by omega), three, two, one]

variable (short : payload.length < 2000)

include short

theorem Br.At.u8 (stands : reader.At payload pos) :
    (brU8 reader).1.toNat = byteAt payload pos ∧
      (brU8 reader).2.At payload (min (pos + 1) payload.length) := by
  have inside := stands.inside
  unfold brU8
  by_cases below : pos < payload.length
  · rw [if_pos (UInt32.lt_iff_toNat_lt.mpr (by rw [stands.position, stands.len]; exact below))]
    refine ⟨?_, stands.bytes, stands.len, ?_, Nat.min_le_right _ _⟩
    · rw [stands.position, stands.bytes pos below]
      rfl
    · have next : (reader.pos + 1).toNat = pos + 1 := by
        rw [UInt32.toNat_add, stands.position]
        exact Nat.mod_eq_of_lt (by change pos + 1 < 2 ^ 32; omega)
      rw [next, Nat.min_eq_left below]
  · rw [if_neg (fun less => below (by
      rw [UInt32.lt_iff_toNat_lt, stands.position, stands.len] at less
      exact less))]
    refine ⟨(byteAt_of_le (by omega)).symm, stands.bytes, stands.len, ?_, Nat.min_le_right _ _⟩
    rw [stands.position]
    omega

theorem Br.At.u32 (stands : reader.At payload pos) :
    (brU32 reader).1.toNat = lengthAt payload pos ∧
      (brU32 reader).2.At payload (dataAt payload pos) := by
  have inside := stands.inside
  obtain ⟨first, stands⟩ := stands.u8 short
  obtain ⟨second, stands⟩ := stands.u8 short
  obtain ⟨third, stands⟩ := stands.u8 short
  obtain ⟨fourth, stands⟩ := stands.u8 short
  have secondPos : min (min (pos + 1) payload.length + 1) payload.length =
      min (pos + 2) payload.length := by omega
  have thirdPos : min (min (pos + 2) payload.length + 1) payload.length =
      min (pos + 3) payload.length := by omega
  have fourthPos : min (min (pos + 3) payload.length + 1) payload.length =
      dataAt payload pos := by
    unfold dataAt
    omega
  rw [secondPos, thirdPos] at fourth
  rw [secondPos] at third
  rw [secondPos, thirdPos, fourthPos] at stands
  have clamped : ∀ offset, byteAt payload (min (pos + offset) payload.length) =
      byteAt payload (pos + offset) := fun offset => @byteAt_min payload (pos + offset) 0
  rw [clamped] at second third fourth
  refine ⟨?_, stands⟩
  unfold brU32
  dsimp only
  rw [toNat_word, first, second, third, fourth]
  rfl

/-- Where `br_raw` points and what it leaves, by the length word. -/
theorem Br.At.str (stands : reader.At payload pos) :
    (brStr reader).1.size.toNat = lengthAt payload pos ∧
      (brStr reader).1.start =
        (if dataEnd payload pos ≤ payload.length then dataAt payload pos
          else payload.length) ∧
      (brStr reader).2.At payload (behind payload pos) := by
  obtain ⟨size, stands⟩ := stands.u32 short
  have sum : ((brU32 reader).2.pos + (brU32 reader).1).toNat = dataEnd payload pos := by
    rw [UInt32.toNat_add, stands.position, size]
    rfl
  have missing : (brU32 reader).2.len < (brU32 reader).2.pos + (brU32 reader).1 ↔
      ¬ dataEnd payload pos ≤ payload.length := by
    rw [UInt32.lt_iff_toNat_lt, sum, stands.len, Nat.not_le]
  unfold brStr brRaw behind
  dsimp only
  refine ⟨size, ?_⟩
  by_cases fits : dataEnd payload pos ≤ payload.length
  · rw [if_neg (fun less => missing.mp less fits), if_pos fits]
    exact ⟨stands.position, stands.bytes, stands.len,
      sum.trans (Nat.min_eq_left fits).symm, Nat.min_le_right _ _⟩
  · rw [if_pos (missing.mpr fits), if_neg fits]
    exact ⟨stands.len, stands.bytes, stands.len,
      stands.len.trans (Nat.min_eq_right (by omega)).symm, Nat.min_le_right _ _⟩

omit short in
theorem Span.inside_iff {span : Span} {plen : Nat} :
    span.Inside plen ↔ span.size = 0 ∨ span.start + span.size ≤ plen := by
  unfold Span.Inside
  constructor
  · intro inside
    rcases Nat.eq_zero_or_pos span.size with nothing | something
    · exact Or.inl nothing
    · have last := inside (span.size - 1) (by omega)
      exact Or.inr (by omega)
  · rintro bound index below
    omega

/-- The string is where the payload says. -/
theorem Br.At.str_eq {other : Br} (stands : reader.At payload pos)
    (otherStands : other.At payload pos) : (brStr reader).1 = (brStr other).1 := by
  obtain ⟨size, start, _⟩ := stands.str short
  obtain ⟨otherSize, otherStart, _⟩ := otherStands.str short
  exact Field.ext (UInt32.toNat_inj.mp (size.trans otherSize.symm))
    (start.trans otherStart.symm)

theorem Br.At.copied_inside_iff (stands : reader.At payload pos) {room : Nat} (some : 0 < room) :
    ((brStr reader).1.copied room).Inside payload.length ↔ Held payload pos room := by
  obtain ⟨size, start, _⟩ := stands.str short
  have dataInside : dataAt payload pos ≤ payload.length := Nat.min_le_right _ _
  have small := lengthAt_lt payload pos
  rw [Span.inside_iff]
  unfold Field.copied Held
  dsimp only
  rw [size, start]
  by_cases fits : dataEnd payload pos ≤ payload.length
  · rw [if_pos fits, and_iff_right fits]
    omega
  · rw [if_neg fits]
    have nonzero : lengthAt payload pos ≠ 0 := by
      intro zero
      unfold dataEnd at fits
      rw [zero, Nat.add_zero] at fits
      omega
    omega

/-- A comparison with a text that is not empty stays inside exactly when the text
would fit. -/
theorem Br.At.compared_inside_iff (stands : reader.At payload pos) {name : List UInt8}
    (some : 0 < name.length) (few : name.length < 2000) :
    (∀ span ∈ (brStr reader).1.compared name, span.Inside payload.length) ↔
      (lengthAt payload pos = name.length → pos + 4 + name.length ≤ payload.length) := by
  obtain ⟨size, start, _⟩ := stands.str short
  have named : (UInt32.ofNat name.length).toNat = name.length :=
    Nat.mod_eq_of_lt (by omega)
  have sized : (brStr reader).1.size = UInt32.ofNat name.length ↔
      lengthAt payload pos = name.length := by
    rw [← UInt32.toNat_inj, size, named]
  unfold Field.compared
  by_cases same : lengthAt payload pos = name.length
  · rw [if_pos (sized.mpr same), List.forall_mem_singleton, Span.inside_iff]
    dsimp only
    rw [start]
    unfold dataEnd dataAt
    rw [same]
    split
    · omega
    · omega
  · rw [if_neg (fun equal => same (sized.mp equal))]
    exact ⟨fun _ equal => absurd equal same, fun _ span member => absurd member List.not_mem_nil⟩

end

/-! ## Reading inside a packet -/

/-- The reader behind the message type, or at the end of an empty payload. -/
def opened (memory : Memory) (payload : List UInt8) : Br :=
  { packetOf memory payload with pos := UInt32.ofNat (min 1 payload.length) }

/-- Behind the end of an empty payload, `br_u8` does not move and `br_raw` goes
back to the end. -/
theorem brStr_body (memory : Memory) (payload : List UInt8) :
    brStr (packetOf memory payload).body = brStr (opened memory payload) ∧
      relayData (packetOf memory payload) = (brStr (brU32 (opened memory payload)).2).1 := by
  cases payload with
  | nil => simp [relayData, brStr, brRaw, brU32, brU8, packetOf, opened, Br.body]
  | cons type rest =>
    have position : min 1 (type :: rest).length = 1 := Nat.min_eq_left (Nat.le_add_left _ _)
    unfold opened relayData
    rw [position]
    exact ⟨rfl, rfl⟩

section

variable (memory : Memory) {payload : List UInt8} (short : payload.length < 2000)

include short

theorem opened_at : (opened memory payload).At payload (min 1 payload.length) where
  bytes index below := by
    change payload.getD index (memory index) = _
    rw [List.getD_eq_getElem _ _ below, List.getD_eq_getElem _ _ below]
  len := by
    change (UInt32.ofNat payload.length).toNat = _
    exact Nat.mod_eq_of_lt (by omega)
  position := by
    change (UInt32.ofNat (min 1 payload.length)).toNat = _
    exact Nat.mod_eq_of_lt (by omega)
  inside := Nat.min_le_right _ _

theorem method_at : Br.At payload (brStr (brStr (packetOf memory payload).body).2).2
    (methodAt payload) := by
  have service := ((opened_at memory short).str short).2.2
  rw [behind_min, ← (brStr_body memory payload).1] at service
  exact (service.str short).2.2

theorem fieldIs_password_iff {reader : Br} {pos : Nat} (stands : reader.At payload pos)
    (sized : lengthAt payload pos = 8) (fits : pos + 12 ≤ payload.length) :
    (packetOf memory payload).fieldIs (brStr reader).1 (ascii "password") = true ↔
      (payload.drop (pos + 4)).take 8 = ascii "password" := by
  obtain ⟨size, start, _⟩ := stands.str short
  have data : dataAt payload pos = pos + 4 := Nat.min_eq_left (by omega)
  have isEight : (brStr reader).1.size = UInt32.ofNat (ascii "password").length := by
    rw [← UInt32.toNat_inj, size, sized]
    decide
  have dataEnds : dataEnd payload pos ≤ payload.length := by
    unfold dataEnd
    rw [data, sized]
    omega
  rw [if_pos dataEnds, data] at start
  have slice : ((packetOf memory payload).memory.slice (pos + 4) 8).1 =
      (payload.drop (pos + 4)).take 8 := by
    change (List.range 8).map
      (fun index => (packetOf memory payload).memory (pos + 4 + index)) = _
    refine List.ext_getElem ?_ fun index first second => ?_
    · rw [List.length_take, List.length_drop, List.length_map, List.length_range]
      omega
    · rw [List.length_map, List.length_range] at first
      have bytes := (opened_at memory short).bytes (pos + 4 + index) (by omega)
      rw [List.getElem_take, List.getElem_drop, List.getElem_map, List.getElem_range]
      refine bytes.trans ?_
      exact List.getD_eq_getElem _ _ (by omega)
  unfold Br.fieldIs
  rw [start, decide_eq_true isEight, Bool.true_and, decide_eq_true_iff]
  exact Eq.congr_left slice

theorem service_inside_iff (asked : Service) :
    (∀ span ∈ (PacketUse.service asked).reads (packetOf memory payload),
        span.Inside payload.length) ↔
      (PacketUse.service asked).Complete payload := by
  have named : 0 < asked.name.length ∧ asked.name.length < 2000 := by
    cases asked <;> decide
  unfold PacketUse.reads PacketUse.Complete
  rw [(brStr_body memory payload).1,
    (opened_at memory short).compared_inside_iff short named.1 named.2, lengthAt_min]
  refine imp_congr_right fun _ => ?_
  omega

theorem request_inside_iff :
    (∀ span ∈ PacketUse.request.reads (packetOf memory payload), span.Inside payload.length) ↔
      PacketUse.request.Complete payload := by
  have method := method_at memory short
  unfold PacketUse.reads PacketUse.Complete authFields
  dsimp only
  have user := (opened_at memory short).copied_inside_iff short (by decide : 0 < 63)
  rw [← (brStr_body memory payload).1, held_min] at user
  rw [List.forall_mem_cons, List.forall_mem_append, user,
    method.compared_inside_iff short (by decide) (by decide)]
  refine and_congr_right fun _ => ?_
  by_cases sized : lengthAt payload (methodAt payload) = 8
  · rw [forall_prop_of_true sized]
    refine (and_congr_left fun _ => forall_prop_of_true sized).trans ?_
    refine and_congr_right fun fits => ?_
    have change := ((method.str short).2.2.u8 short).2
    have behindMethod : min (behind payload (methodAt payload) + 1) payload.length =
        min (methodAt payload + 13) payload.length := by
      unfold behind dataEnd dataAt
      rw [sized]
      omega
    rw [behindMethod] at change
    have password := change.copied_inside_iff short (by decide : 0 < 127)
    rw [held_min] at password
    have isPassword := fieldIs_password_iff memory short method sized fits
    split
    · rename_i named
      rw [List.forall_mem_singleton, forall_prop_of_true (isPassword.mp named)]
      exact password
    · rename_i other
      exact ⟨fun _ same => absurd (isPassword.mpr same) other,
        fun _ span member => absurd member List.not_mem_nil⟩
  · refine iff_of_true ⟨fun same => absurd same sized, ?_⟩ fun same => absurd same sized
    have other : ¬ (packetOf memory payload).fieldIs (brStr
        (brStr (brStr (packetOf memory payload).body).2).2).1 (ascii "password") = true := by
      intro named
      have size := (method.str short).1
      have equal := of_decide_eq_true (Bool.and_eq_true_iff.mp named).1
      rw [equal] at size
      exact sized size.symm
    rw [if_neg other]
    exact fun span member => absurd member List.not_mem_nil

theorem relay_inside_iff :
    (∀ span ∈ PacketUse.relay.reads (packetOf memory payload), span.Inside payload.length) ↔
      PacketUse.relay.Complete payload := by
  have data := ((opened_at memory short).u32 short).2
  have position : dataAt payload 1 = min 5 payload.length := rfl
  rw [dataAt_min, position] at data
  have size : (relayData (packetOf memory payload)).size.toNat = lengthAt payload 5 := by
    rw [(brStr_body memory payload).2]
    exact (data.str short).1.trans lengthAt_min
  unfold PacketUse.reads PacketUse.Complete
  rw [List.forall_mem_singleton, size]
  rcases Nat.eq_zero_or_pos (lengthAt payload 5) with nothing | something
  · refine iff_of_true ?_ (Or.inl nothing)
    rw [Span.inside_iff, nothing]
    exact Or.inl (Nat.min_zero _)
  · rw [(brStr_body memory payload).2, data.copied_inside_iff short something, held_min]
    unfold Held dataEnd dataAt
    omega

/-- Outside the packet, a request depends on the bytes of `PacketUse.reads`
only. -/
theorem authRequest_congr (other : Memory)
    (same : ∀ span ∈ PacketUse.request.reads (packetOf memory payload), ∀ index < span.size,
      (packetOf memory payload).memory (span.start + index) =
        (packetOf other payload).memory (span.start + index)) :
    authRequest (packetOf memory payload) = authRequest (packetOf other payload) := by
  have user := (opened_at memory short).str_eq short (opened_at other short)
  have method := method_at memory short
  have otherMethod := method_at other short
  have password := ((method.str short).2.2.u8 short).2.str_eq short
    ((otherMethod.str short).2.2.u8 short).2
  have fields : authFields (packetOf memory payload) = authFields (packetOf other payload) := by
    rw [← (brStr_body memory payload).1, ← (brStr_body other payload).1] at user
    unfold authFields
    dsimp only
    rw [user, method.str_eq short otherMethod, password]
  unfold PacketUse.reads at same
  rw [List.forall_mem_cons, List.forall_mem_append] at same
  obtain ⟨user, method, password⟩ := same
  unfold authRequest
  dsimp only
  rw [← fields, ← copied_congr user, ← fieldIs_congr method]
  split at password
  · rename_i isPassword
    rw [if_pos isPassword, if_pos isPassword,
      copied_congr (List.forall_mem_singleton.mp password)]
  · rename_i other
    rw [if_neg other, if_neg other]

end

/-- The code reads inside a packet exactly if the length words of the packet do
not promise more than it has. -/
theorem reads_inside_iff (use : PacketUse) (memory : Memory) {payload : List UInt8}
    (accepted : payload.length < 2000) :
    (∀ span ∈ use.reads (packetOf memory payload), span.Inside payload.length) ↔
      use.Complete payload := by
  cases use with
  | service asked => exact service_inside_iff memory accepted asked
  | request => exact request_inside_iff memory accepted
  | relay => exact relay_inside_iff memory accepted

/-- A request whose strings are all there. -/
theorem reads_inside_iff_login :
    (passwordRequest (ascii "root") (ascii "pw")).length < 2000 ∧
      ∀ span ∈ PacketUse.request.reads
          (packetOf (fun _ => 0) (passwordRequest (ascii "root") (ascii "pw"))),
        span.Inside (passwordRequest (ascii "root") (ascii "pw")).length :=
  ⟨by decide, (reads_inside_iff .request (fun _ => 0) (by decide)).mpr (by
    refine ⟨⟨by decide, by decide⟩, fun _ => ⟨by decide, fun _ => ⟨by decide, by decide⟩⟩⟩)⟩

/-- A user name of four bytes of which none is there. -/
theorem user_read_behind_packet :
    ¬ ∀ span ∈ PacketUse.request.reads (packetOf (fun _ => 0) [msgUserauthRequest, 0, 0, 0, 4]),
      span.Inside [msgUserauthRequest, 0, 0, 0, 4].length := by
  intro inside
  have user := inside _ List.mem_cons_self 0 (by decide)
  revert user
  decide

end KnitOS.Ssh
