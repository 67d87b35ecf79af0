import KnitOS.Ssh.Server

/-!
# The exchange hash

The hash is meant to cover everything both sides sent in the key exchange.  The
values go through an accumulator of 2048 bytes, which drops what does not fit,
and the identification string of the client is stored cut off.
-/

namespace KnitOS.Ssh

open Lib Lib.Command

/-- `string` of the protocol. -/
def sshString (data : List UInt8) : List UInt8 :=
  wordBytes (UInt32.ofNat data.length) ++ data

/-- `mpint` of the protocol, for a number that is not negative. -/
def sshMpint (data : List UInt8) : List UInt8 :=
  match data.dropWhile (· = 0) with
  | [] => sshString []
  | first :: rest =>
    if first &&& 0x80 ≠ 0 then
      sshString (0 :: first :: rest)
    else
      sshString (first :: rest)

/-- All values of an exchange, one after the other. -/
def Exchange.complete (exchange : Exchange) : List UInt8 :=
  sshString exchange.vc ++ sshString exchange.vs ++ sshString exchange.ic ++
    sshString exchange.is ++ sshString exchange.ksb ++
    sshString exchange.qc.1 ++ sshString exchange.spub.1 ++
    sshMpint exchange.k.1

/-- The hash of an exchange is the hash of all its values, with the
identification string and the first message as the client sent them, whatever
the hash function is. -/
def Exchange.HashedInFull (exchange : Exchange) (line kexinit : List UInt8) : Prop :=
  ∀ sha256 : List UInt8 → List UInt8,
    sha256 exchange.hashed =
      sha256 { exchange with vc := line, ic := kexinit }.complete

@[simp]
theorem length_wordBytes (word : UInt32) : (wordBytes word).length = 4 := rfl

@[simp]
theorem length_sshString (data : List UInt8) : (sshString data).length = 4 + data.length := by
  unfold sshString
  rw [List.length_append, length_wordBytes]

theorem toNat_byte (word : UInt32) : (word >>> 24).toUInt8.toNat = word.toNat / 2 ^ 24 % 2 ^ 8 ∧
    (word >>> 16).toUInt8.toNat = word.toNat / 2 ^ 16 % 2 ^ 8 ∧
    (word >>> 8).toUInt8.toNat = word.toNat / 2 ^ 8 % 2 ^ 8 ∧
    word.toUInt8.toNat = word.toNat % 2 ^ 8 := by
  refine ⟨?_, ?_, ?_, UInt32.toNat_toUInt8 word⟩
  all_goals
    rw [UInt32.toNat_toUInt8, UInt32.toNat_shiftRight, Nat.shiftRight_eq_div_pow]
    rfl

theorem wordBytes_injective {first second : UInt32}
    (same : wordBytes first = wordBytes second) : first = second := by
  unfold wordBytes at same
  simp only [List.cons.injEq, and_true] at same
  obtain ⟨high, upper, lower, low⟩ := same
  have high := congrArg UInt8.toNat high
  have upper := congrArg UInt8.toNat upper
  have lower := congrArg UInt8.toNat lower
  have low := congrArg UInt8.toNat low
  obtain ⟨firstHigh, firstUpper, firstLower, firstLow⟩ := toNat_byte first
  obtain ⟨secondHigh, secondUpper, secondLower, secondLow⟩ := toNat_byte second
  have firstBound := first.toNat_lt
  have secondBound := second.toNat_lt
  apply UInt32.toNat_inj.mp
  omega

theorem bwU8_of_room {value : UInt8} {buf : Buf} (room : buf.bytes.length < buf.cap) :
    bwU8 value buf = ⟨buf.cap, buf.bytes ++ [value]⟩ := by
  unfold bwU8
  rw [if_pos room]

theorem bwRaw_of_room {data : List UInt8} {buf : Buf}
    (room : buf.bytes.length + data.length ≤ buf.cap) :
    bwRaw data buf = ⟨buf.cap, buf.bytes ++ data⟩ := by
  unfold bwRaw
  rw [if_neg (by omega)]
  dsimp only
  rw [List.take_length]

theorem bwU32_of_room {value : UInt32} {buf : Buf} (room : buf.bytes.length + 4 ≤ buf.cap) :
    bwU32 value buf = ⟨buf.cap, buf.bytes ++ wordBytes value⟩ := by
  unfold bwU32 wordBytes
  simp only [List.foldl_cons, List.foldl_nil]
  rw [@bwU8_of_room _ buf (by omega)]
  rw [@bwU8_of_room _ ⟨buf.cap, _⟩ (by simp; omega)]
  rw [@bwU8_of_room _ ⟨buf.cap, _⟩ (by simp; omega)]
  rw [@bwU8_of_room _ ⟨buf.cap, _⟩ (by simp; omega)]
  simp only [List.append_assoc, List.cons_append, List.nil_append]

theorem bwMpint_of_room {data : List UInt8} {cap : Nat} (room : data.length + 5 ≤ cap) :
    (bwMpint data (Buf.empty cap)).bytes = sshMpint data := by
  have shorter : (data.dropWhile (· = 0)).length ≤ data.length :=
    (List.dropWhile_suffix _).length_le
  have empty : ∀ value, bwU32 value (Buf.empty cap) = ⟨cap, wordBytes value⟩ :=
    fun value => bwU32_of_room (by simp only [Buf.empty, List.length_nil]; omega)
  unfold bwMpint sshMpint
  cases stripped : data.dropWhile (· = 0) with
  | nil =>
    dsimp only
    rw [empty]
    rfl
  | cons first rest =>
    rw [stripped, List.length_cons] at shorter
    dsimp only
    rw [empty, empty]
    split
    · rw [bwU8_of_room (by dsimp only; rw [length_wordBytes]; omega), bwRaw_of_room]
      · simp [sshString]
      · simp
        omega
    · rw [bwRaw_of_room]
      · simp [sshString]
      · simp
        omega

theorem shaAdd_take (full data : List UInt8) :
    shaAdd data (full.take shaBufSize) = (full ++ data).take shaBufSize := by
  unfold shaAdd
  rw [List.length_take, List.take_append]
  dsimp only
  congr 1
  split
  · rename_i overflows
    rcases Nat.le_total full.length shaBufSize with fits | full
    · rw [Nat.min_eq_right fits]
    · rw [Nat.min_eq_left full, Nat.sub_self, Nat.sub_eq_zero_of_le full]
  · rename_i fits
    rw [List.take_length, List.take_of_length_le]
    rcases Nat.le_total full.length shaBufSize with fits' | full
    · omega
    · omega

theorem shaAddStr_take (full data : List UInt8) : shaAddStr data (full.take shaBufSize) =
    (full ++ sshString data).take shaBufSize := by
  unfold shaAddStr sshString
  rw [shaAdd_take, shaAdd_take, List.append_assoc]

theorem shaAddMpint_take (full : List UInt8) (data : Bytes 32) :
    shaAddMpint data.1 (full.take shaBufSize) = (full ++ sshMpint data.1).take shaBufSize := by
  unfold shaAddMpint
  rw [bwMpint_of_room (by rw [data.2]; decide), shaAdd_take]

theorem Exchange.hashed_eq (exchange : Exchange) :
    exchange.hashed = exchange.complete.take shaBufSize := by
  unfold Exchange.hashed Exchange.complete
  dsimp only
  have empty : ([] : List UInt8) = [].take shaBufSize := rfl
  rw [empty]
  simp only [shaAddStr_take, shaAddMpint_take, List.nil_append]

/-- The capacity of a buffer and the number of bytes in it. -/
structure Buf.Holds (buf : Buf) (cap size : Nat) : Prop where
  capacity : buf.cap = cap
  length : buf.bytes.length = size

namespace Buf.Holds

variable {buf : Buf} {cap size : Nat} (holds : buf.Holds cap size)

include holds

theorem u8 (value : UInt8) (room : size < cap) : (bwU8 value buf).Holds cap (size + 1) := by
  rw [bwU8_of_room (by rw [holds.length, holds.capacity]; exact room)]
  refine ⟨holds.capacity, ?_⟩
  dsimp only
  rw [List.length_append, holds.length, List.length_singleton]

theorem raw {data : List UInt8} {count : Nat} (counted : data.length = count)
    (room : size + count ≤ cap) : (bwRaw data buf).Holds cap (size + count) := by
  rw [bwRaw_of_room (by rw [holds.length, holds.capacity, counted]; exact room)]
  refine ⟨holds.capacity, ?_⟩
  dsimp only
  rw [List.length_append, holds.length, counted]

theorem u32 (value : UInt32) (room : size + 4 ≤ cap) : (bwU32 value buf).Holds cap (size + 4) := by
  rw [bwU32_of_room (by rw [holds.length, holds.capacity]; exact room)]
  refine ⟨holds.capacity, ?_⟩
  dsimp only
  rw [List.length_append, holds.length, length_wordBytes]

theorem str {data : List UInt8} {count : Nat} (counted : data.length = count)
    (room : size + 4 + count ≤ cap) : (bwStr data buf).Holds cap (size + 4 + count) :=
  (holds.u32 _ (by omega)).raw counted room

end Buf.Holds

theorem Buf.holds_empty (cap : Nat) : (Buf.empty cap).Holds cap 0 := ⟨rfl, rfl⟩

theorem length_buildKexinit (cookie : Bytes 16) : (buildKexinit cookie).length = 182 := by
  have alg : hostKeyAlg.length = 11 := by decide
  have kex : (ascii "curve25519-sha256").length = 17 := by decide
  have enc : (ascii "chacha20-poly1305@openssh.com").length = 29 := by decide
  have mac : (ascii "hmac-sha2-256").length = 13 := by decide
  have comp : (ascii "none").length = 4 := by decide
  have named := ((((Buf.holds_empty 1024).u8 msgKexinit (by decide)).raw
    cookie.2 (by decide)).str kex (by decide)).str alg (by decide)
  have ciphers := (((named.str enc (by decide)).str enc (by decide)).str
    mac (by decide)).str mac (by decide)
  have languages := (((ciphers.str comp (by decide)).str comp (by decide)).str
    List.length_nil (by decide)).str List.length_nil (by decide)
  exact ((languages.u8 0 (by decide)).u32 0 (by decide)).length

theorem length_hostKeyBlob (hostPk : Bytes 32) : (hostKeyBlob hostPk).length = 51 := by
  have alg : hostKeyAlg.length = 11 := by decide
  exact (((Buf.holds_empty 128).str alg (by decide)).str hostPk.2 (by decide)).length

/-- The hash is the session identifier, it is signed, and the keys are derived
from it. -/
structure HashUsed (world : SshWorld) (sshd : Sshd) (exchange : Exchange)
    (hash : List UInt8) : Prop where
  sid : sshd.sid = hash
  signed : ecdhReply exchange (world.ed25519Sign hash sshd.hostSk) ∈ sshd.sent
  keyC2s : sshd.keyC2s = deriveKey world sshd hash 67
  keyS2c : sshd.keyS2c = deriveKey world sshd hash 68

variable {sshd reached : Sshd} {exchange : Exchange} {world : SshWorld}

theorem finishKex_uses {hash : List UInt8} {value : Unit}
    (finished : (finishKex world exchange hash).run sshd = (some value, reached)) :
    HashUsed world reached exchange hash := by
  unfold finishKex at finished
  rw [run_modify_bind, run_reads_bind, run_bind_eq_some_iff] at finished
  obtain ⟨_, _, replied, finished⟩ := finished
  obtain ⟨_, rfl⟩ := run_sshSend_eq_some_iff.mp replied
  obtain ⟨_, _, announced, finished⟩ := run_bind_eq_some_iff.mp finished
  obtain ⟨_, rfl⟩ := run_sshSend_eq_some_iff.mp announced
  obtain ⟨_, _, received, finished⟩ := run_bind_eq_some_iff.mp finished
  obtain ⟨_, _, _, rfl, rfl⟩ := run_sshRecv_eq_some_iff.mp received
  obtain ⟨_, _, required, finished⟩ := run_bind_eq_some_iff.mp finished
  obtain ⟨_, rfl⟩ := run_require_eq_some_iff.mp required
  cases finished
  refine ⟨rfl, ?_, rfl, rfl⟩
  simp

theorem slice_store (memory : Memory) (bytes : List UInt8) :
    ((memory.store bytes).slice 0 bytes.length).1 = bytes := by
  unfold Memory.slice Memory.store
  dsimp only
  apply List.ext_getElem
  · simp
  · intro index _ inside
    simp [inside]

/-- What an accepted exchange consists of, apart from the keys. -/
structure Exchanged (exchange : Exchange) (line kexinit : List UInt8) : Prop where
  vc : exchange.vc = readVersion line
  vs : exchange.vs.length = 18
  ic : exchange.ic = kexinit
  is : exchange.is.length = 182
  ksb : exchange.ksb.length = 51

variable {kexinit : List UInt8}

theorem exchangeValues_spec {rest : List (List UInt8)}
    (returned : (exchangeValues world).run sshd = (some exchange, reached))
    (arrives : sshd.incoming = kexinit :: rest) (limit : kexinit.length < 2 ^ 32) :
    exchange.vc = sshd.vc ∧ exchange.vs = sshd.vs ∧ exchange.ic = kexinit ∧
      exchange.is.length = 182 ∧ exchange.ksb.length = 51 ∧
      exchange.k = world.x25519 (clampScalar (world.random (sshd.clock + 2) 32)) exchange.qc := by
  unfold exchangeValues at returned
  obtain ⟨_, _, received, returned⟩ := run_bind_eq_some_iff.mp returned
  obtain ⟨_, _, head, rfl, rfl⟩ := run_sshRecv_eq_some_iff.mp received
  rw [arrives] at head
  cases head
  obtain ⟨_, _, required, returned⟩ := run_bind_eq_some_iff.mp returned
  obtain ⟨_, rfl⟩ := run_require_eq_some_iff.mp required
  rw [run_modify_bind, run_bind_of_some (run_ask _ _), run_modify_bind] at returned
  obtain ⟨_, _, replied, returned⟩ := run_bind_eq_some_iff.mp returned
  obtain ⟨_, rfl⟩ := run_sshSend_eq_some_iff.mp replied
  obtain ⟨_, _, received, returned⟩ := run_bind_eq_some_iff.mp returned
  obtain ⟨_, _, _, rfl, rfl⟩ := run_sshRecv_eq_some_iff.mp received
  obtain ⟨_, _, required, returned⟩ := run_bind_eq_some_iff.mp returned
  obtain ⟨_, rfl⟩ := run_require_eq_some_iff.mp required
  obtain ⟨_, _, required, returned⟩ := run_bind_eq_some_iff.mp returned
  obtain ⟨_, rfl⟩ := run_require_eq_some_iff.mp required
  rw [run_bind_of_some (run_ask _ _), run_modify_bind] at returned
  cases returned
  refine ⟨rfl, rfl, ?_, ?_, ?_, rfl⟩
  case refine_2 =>
    dsimp only
    exact length_buildKexinit _
  case refine_3 =>
    dsimp only
    exact length_hostKeyBlob _
  have size : (UInt32.ofNat kexinit.length).toNat = kexinit.length :=
    UInt32.toNat_ofNat_of_lt' limit
  dsimp only [Sshd.receive]
  rw [size, if_pos rfl]
  exact slice_store _ _

/-- The secret of a key of the client: the scalar is drawn after the greeting, the
cookie and the answer to the first message. -/
def sharedSecret (world : SshWorld) (sshd : Sshd) (qc : Bytes 32) : Bytes 32 :=
  world.x25519 (clampScalar (world.random (sshd.clock + 3) 32)) qc

variable {line : List UInt8}

theorem handshake_spec {rest : List (List UInt8)} (arrives : sshd.incoming = kexinit :: rest)
    (limit : kexinit.length < 2 ^ 32)
    (accepted : (handshake world line).run sshd = (some exchange, reached)) :
    Exchanged exchange line kexinit ∧
      exchange.k = sharedSecret world sshd exchange.qc ∧
      HashUsed world reached exchange (world.sha256 exchange.hashed) := by
  unfold handshake doKex at accepted
  rw [run_modify_bind, run_bind_of_some (run_ask _ _)] at accepted
  obtain ⟨_, _, required, accepted⟩ := run_bind_eq_some_iff.mp accepted
  obtain ⟨_, rfl⟩ := run_require_eq_some_iff.mp required
  rw [run_modify_bind] at accepted
  obtain ⟨_, _, required, accepted⟩ := run_bind_eq_some_iff.mp accepted
  obtain ⟨_, rfl⟩ := run_require_eq_some_iff.mp required
  rw [run_modify_bind] at accepted
  obtain ⟨_, _, valued, accepted⟩ := run_bind_eq_some_iff.mp accepted
  obtain ⟨_, _, finished, accepted⟩ := run_bind_eq_some_iff.mp accepted
  cases accepted
  obtain ⟨vc, vs, ic, is, ksb, k⟩ := exchangeValues_spec valued arrives limit
  have version : sshv.length = 18 := by decide
  exact ⟨⟨vc, by rw [vs]; exact version, ic, is, ksb⟩, k, finishKex_uses finished⟩

theorem length_complete (exchanged : Exchanged exchange line kexinit) (vc : List UInt8) :
    { exchange with vc := vc, ic := kexinit }.complete.length =
      vc.length + kexinit.length + (sshMpint exchange.k.1).length + 343 := by
  unfold Exchange.complete
  simp only [List.length_append, length_sshString, exchanged.vs, exchanged.is,
    exchanged.ksb, exchange.qc.2, exchange.spub.2]
  omega

theorem length_readVersion (line : List UInt8) : (readVersion line).length ≤ 63 := by
  unfold readVersion cString
  have prefixed := (List.takeWhile_prefix (fun byte : UInt8 => byte ≠ 0)
    (l := ((line.takeWhile (· ≠ lineFeed)).filter (· ≠ carriageReturn)).take 63)).length_le
  have taken := List.length_take_le 63 ((line.takeWhile (· ≠ lineFeed)).filter (· ≠ carriageReturn))
  omega

theorem sshString_inj {first second firstRest secondRest : List UInt8}
    (firstShort : first.length < 2 ^ 32) (secondShort : second.length < 2 ^ 32)
    (same : sshString first ++ firstRest = sshString second ++ secondRest) : first = second := by
  unfold sshString at same
  rw [List.append_assoc, List.append_assoc] at same
  obtain ⟨lengths, rest⟩ := List.append_inj same rfl
  have sizes := congrArg UInt32.toNat (wordBytes_injective lengths)
  rw [UInt32.toNat_ofNat_of_lt' firstShort, UInt32.toNat_ofNat_of_lt' secondShort] at sizes
  exact (List.append_inj rest sizes).1

theorem Exchange.hashed_cons (exchange : Exchange) (short : exchange.vc.length ≤ 63) :
    ∃ rest, exchange.hashed = sshString exchange.vc ++ rest := by
  rw [exchange.hashed_eq]
  unfold Exchange.complete
  simp only [List.append_assoc]
  have room : shaBufSize = 2048 := rfl
  rw [List.take_append, List.take_of_length_le (by
    rw [length_sshString]
    omega)]
  exact ⟨_, rfl⟩

theorem Exchange.hashed_of_long (exchange : Exchange) (long : shaBufSize ≤
      exchange.vs.length + exchange.ic.length + exchange.is.length) (spub k : Bytes 32) :
    { exchange with spub := spub, k := k }.hashed = exchange.hashed := by
  have cut : ∀ secrets : List UInt8, (sshString exchange.vc ++ sshString exchange.vs ++
        sshString exchange.ic ++ sshString exchange.is ++
        sshString exchange.ksb ++ sshString exchange.qc.1 ++ secrets).take shaBufSize =
      (sshString exchange.vc ++ sshString exchange.vs ++
        sshString exchange.ic ++ sshString exchange.is ++
        sshString exchange.ksb ++ sshString exchange.qc.1).take shaBufSize := by
    intro secrets
    refine List.take_append_of_le_length ?_
    simp only [List.length_append, length_sshString]
    omega
  rw [Exchange.hashed_eq, Exchange.hashed_eq]
  unfold Exchange.complete
  rw [List.append_assoc _ (sshString spub.1), cut,
    List.append_assoc _ (sshString exchange.spub.1), cut]

theorem Exchanged.hashedInFull_iff (exchanged : Exchanged exchange line kexinit) :
    exchange.HashedInFull line kexinit ↔ readVersion line = line ∧
        line.length + kexinit.length + (sshMpint exchange.k.1).length ≤ 1705 := by
  have size := length_complete exchanged line
  constructor
  · intro full
    have same : exchange.hashed = { exchange with vc := line, ic := kexinit }.complete := full id
    have short : exchange.hashed.length ≤ shaBufSize := by
      rw [exchange.hashed_eq]
      exact List.length_take_le _ _
    rw [same, size] at short
    have room : shaBufSize = 2048 := rfl
    have stored : exchange.vc.length ≤ 63 := by
      rw [exchanged.vc]
      exact length_readVersion line
    refine ⟨?_, by omega⟩
    rw [← exchanged.vc]
    obtain ⟨rest, start⟩ := exchange.hashed_cons stored
    rw [start] at same
    unfold Exchange.complete at same
    simp only [List.append_assoc] at same
    exact sshString_inj (by omega) (by omega) same
  · rintro ⟨stored, fits⟩ sha256
    have same : { exchange with vc := line, ic := kexinit } = exchange := by
      rw [← exchanged.ic, ← stored, ← exchanged.vc]
    rw [same, exchange.hashed_eq, List.take_of_length_le]
    rw [same] at size
    rw [size]
    have room : shaBufSize = 2048 := rfl
    omega

/-- The largest payload of `ssh_recv`: a packet has at most 2000 bytes, one
of them the padding length. -/
abbrev maxPayload : Nat := 1999

/-- The hash that is signed and that the keys are derived from covers all
values exactly when they fit into the accumulator, which leaves 1705 bytes for
the three whose length varies, and the identification string was stored
unchanged. -/
theorem exchangeHash_full_iff {world : SshWorld} {sshd reached : Sshd}
    {line kexinit : List UInt8} {exchange : Exchange}
    {rest : List (List UInt8)} (arrives : sshd.incoming = kexinit :: rest)
    (limit : kexinit.length ≤ maxPayload)
    (accepted : (handshake world line).run sshd = (some exchange, reached)) :
    HashUsed world reached exchange (world.sha256 exchange.hashed) ∧
      exchange.k = sharedSecret world sshd exchange.qc ∧
      (exchange.HashedInFull line kexinit ↔ readVersion line = line ∧
        line.length + kexinit.length +
          (sshMpint (sharedSecret world sshd exchange.qc).1).length ≤ 1705) := by
  have bound : maxPayload = 1999 := rfl
  obtain ⟨exchanged, secret, used⟩ := handshake_spec arrives (by omega) accepted
  refine ⟨used, secret, ?_⟩
  rw [← secret]
  exact exchanged.hashedInFull_iff

/-- A world in which every send succeeds, with functions that are easy to
evaluate in the place of the cryptographic ones. -/
def plainWorld : SshWorld where
  sha256 := id
  x25519 scalar _ := scalar
  ed25519Sign _ key := key
  random _ size := ⟨List.replicate size 1, List.length_replicate⟩
  delivers _ := true
  shadow _ := some (ascii "root|ab|db5ddc3b\n")
  passwd _ := some (ascii "root:x:0:0:root\n")
  opensPty _ := true

/-- The server before its first connection. -/
def freshSshd (incoming : List (List UInt8)) : Sshd where
  clock := 0
  incoming := incoming
  sent := []
  encrypted := false
  vc := []
  vs := []
  ic := []
  is := []
  k := ⟨List.replicate 32 0, rfl⟩
  sid := []
  keyC2s := []
  keyS2c := []
  hostPk := ⟨List.replicate 32 0, rfl⟩
  hostSk := ⟨List.replicate 64 0, rfl⟩
  pkt _ _ := 0
  user := []
  shellUid := 0
  shellGid := 0
  pending := []
  hasPending := false
  chan := 0
  maxpkt := 32768
  sessions := []

/-- The packets of a client in the key exchange, with a first message of the
given size. -/
def kexPackets (size : Nat) : List (List UInt8) :=
  [msgKexinit :: List.replicate size 0,
    msgKexEcdhInit :: [0, 0, 0, 32] ++ List.replicate 32 9, [msgNewkeys]]

def clientLine : List UInt8 := ascii "SSH-2.0-client"

/-- With a first message of 17 bytes everything is hashed. -/
theorem exchangeHash_full_of_short : ∃ exchange reached,
      (handshake plainWorld clientLine).run (freshSshd (kexPackets 16)) = (some exchange, reached) ∧
      exchange.HashedInFull clientLine (msgKexinit :: List.replicate 16 0) := by
  have returned : ((handshake plainWorld clientLine).run
      (freshSshd (kexPackets 16))).1.isSome = true := by
    decide +kernel
  obtain ⟨exchange, found⟩ := Option.isSome_iff_exists.mp returned
  refine ⟨exchange, _, Prod.ext found rfl, ?_⟩
  obtain ⟨_, secret, full⟩ := exchangeHash_full_iff rfl (by decide) (Prod.ext found rfl)
  rw [← secret] at full
  refine full.mpr ⟨by decide +kernel, ?_⟩
  have fits : ∀ exchange ∈ ((handshake plainWorld clientLine).run (freshSshd (kexPackets 16))).1,
      clientLine.length + 17 + (sshMpint exchange.k.1).length ≤ 1705 := by
    decide +kernel
  exact fits exchange found

/-- With a first message of 1901 bytes neither the key of the server nor the
shared secret has an influence on the hash. -/
theorem exchangeHash_cut_off : ∃ exchange reached,
      (handshake plainWorld clientLine).run (freshSshd (kexPackets 1900)) =
        (some exchange, reached) ∧ ¬ exchange.HashedInFull clientLine
        (msgKexinit :: List.replicate 1900 0) ∧
      ∀ spub k, { exchange with spub := spub, k := k }.hashed = exchange.hashed := by
  have returned : ((handshake plainWorld clientLine).run
      (freshSshd (kexPackets 1900))).1.isSome = true := by
    decide +kernel
  obtain ⟨exchange, found⟩ := Option.isSome_iff_exists.mp returned
  have accepted : (handshake plainWorld clientLine).run
      (freshSshd (kexPackets 1900)) = (some exchange, _) := Prod.ext found rfl
  have arrives : (freshSshd (kexPackets 1900)).incoming =
      (msgKexinit :: List.replicate 1900 0) :: (kexPackets 1900).drop 1 := rfl
  have size : (msgKexinit :: List.replicate 1900 (0 : UInt8)).length = 1901 := by decide +kernel
  obtain ⟨exchanged, _, _⟩ := handshake_spec arrives (by rw [size]; decide) accepted
  refine ⟨exchange, _, accepted, ?_, ?_⟩
  · intro full
    have fits := (exchanged.hashedInFull_iff.mp full).2
    omega
  · intro spub k
    refine exchange.hashed_of_long ?_ spub k
    rw [exchanged.ic, exchanged.is, exchanged.vs, size]
    decide

end KnitOS.Ssh
