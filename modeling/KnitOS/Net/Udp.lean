import KnitOS.Net.Datagrams
import KnitOS.Net.Ip

/-!
# UDP from end to end

`udp_handle_packet` copies the header to a local variable and computes the
checksum from there on: after the eight bytes of the copy it reads the stack.
-/

namespace KnitOS.Net

open Lib

abbrev udpHeaderSize : Nat := 8
abbrev udpMaxPayload : Nat := 1472

/-- `udp_checksum` over the `udpLen` bytes at a pointer. -/
def udpChecksum (srcIp destIp : UInt32) (bytes : Nat → UInt8) (udpLen : Nat) : UInt16 :=
  ipChecksum (bytes32 srcIp ++ bytes32 destIp ++ [0, 17] ++ bytes16 (UInt16.ofNat udpLen) ++
    (List.range udpLen).map bytes)

/-- The checksum 0 means that there is none. -/
def nonzeroChecksum (checksum : UInt16) : UInt16 :=
  if checksum = 0 then 0xFFFF else checksum

def udpCreatePacket (bufferSize : Nat) (srcPort destPort : UInt16) (payload : List UInt8) :
    Option (List UInt8) :=
  if bufferSize < udpHeaderSize + payload.length then
    none
  else
    some (bytes16 srcPort ++ bytes16 destPort ++
      bytes16 (UInt16.ofNat (udpHeaderSize + payload.length)) ++ [0, 0] ++ payload)

/-- The datagram that `udp_send` gives to `ip_output`. -/
def udpSend (ourIp destIp : UInt32) (srcPort destPort : UInt16) (payload : List UInt8) :
    Option (List UInt8) :=
  if udpMaxPayload < payload.length then
    none
  else
    (udpCreatePacket (udpHeaderSize + udpMaxPayload) srcPort destPort payload).map fun packet =>
      let checksum := udpChecksum ourIp destIp (packet.getD · 0) packet.length
      packet.take 6 ++ bytes16 (nonzeroChecksum checksum) ++ packet.drop 8

/-- The datagram sockets by descriptor, and the ports with an echo. -/
structure UdpHost where
  ourIp : UInt32
  sockets : Nat → Option DatagramSocket
  listenPorts : List UInt16

def socketFindUdpPort (host : UdpHost) (port : UInt16) : Option Nat :=
  (List.range 64).find? fun fd => (host.sockets fd).any (·.localPort == port)

/-- The host, the echo, and the bytes read after the copy of the header. -/
structure UdpHandled where
  host : UdpHost
  echo : Option (List UInt8)
  strayReads : List Nat

/-- `udp_handle_packet`, with the stack after the copy of the header.  The
checksum is compared as it stands in memory, with its bytes exchanged. -/
def udpHandlePacket (stack : Nat → UInt8) (srcIp destIp : UInt32) (packet : List UInt8)
    (host : UdpHost) : UdpHandled :=
  let saved := word16 [packet.getD 7 0, packet.getD 6 0] 0
  let verify := fun place => if place < 6 then packet.getD place 0 else
    if place < 8 then 0 else stack (place - 8)
  let strayReads := if saved = 0 then [] else (List.range packet.length).drop udpHeaderSize
  if packet.length < udpHeaderSize then
    ⟨host, none, []⟩
  else if saved ≠ 0 ∧ nonzeroChecksum (udpChecksum srcIp destIp verify packet.length) ≠ saved then
    ⟨host, none, strayReads⟩
  else
    let srcPort := word16 packet 0
    let destPort := word16 packet 2
    let payload := packet.drop udpHeaderSize
    match socketFindUdpPort host destPort with
    | some fd =>
      let sockets := Function.update host.sockets fd
        ((host.sockets fd).map (·.udpDeliver srcIp srcPort payload))
      ⟨{ host with sockets := sockets }, none, strayReads⟩
    | none =>
      let echo := if destPort ∈ host.listenPorts ∧ payload ≠ [] then
        udpSend host.ourIp srcIp destPort srcPort payload else none
      ⟨host, echo, strayReads⟩

/-- What is sent is queued at the socket of the port, and nothing else is read. -/
def EndToEnd (stack : Nat → UInt8) (srcIp destIp : UInt32) (srcPort destPort : UInt16)
    (payload : List UInt8) (host : UdpHost) : Prop :=
  ∃ packet, udpSend srcIp destIp srcPort destPort payload = some packet ∧
    ∀ fd, socketFindUdpPort host destPort = some fd →
      (udpHandlePacket stack srcIp destIp packet host).host.sockets fd =
          (host.sockets fd).map (·.udpDeliver srcIp srcPort payload) ∧
        (udpHandlePacket stack srcIp destIp packet host).strayReads = []

theorem nonzeroChecksum_ne_zero (checksum : UInt16) : nonzeroChecksum checksum ≠ 0 := by
  unfold nonzeroChecksum
  split_ifs with zero
  · decide
  · exact zero

theorem word16_exchanged_ne_zero {value : UInt16} (nonzero : value ≠ 0) :
    word16 [value.toUInt8, (value >>> 8).toUInt8] 0 ≠ 0 := by
  intro zero
  obtain ⟨low, high⟩ := UInt16.or_eq_zero_iff.mp zero
  refine nonzero (UInt16.toNat_inj.mp ?_)
  rw [← UInt16.toNat_inj] at low high
  have bound := value.toNat_lt
  simp [Nat.shiftLeft_eq, Nat.shiftRight_eq_div_pow] at low high ⊢
  omega

theorem strayReads_ne_nil {stack : Nat → UInt8} {srcIp destIp : UInt32} {packet : List UInt8}
    {host : UdpHost} (long : udpHeaderSize < packet.length)
    (checked : word16 [packet.getD 7 0, packet.getD 6 0] 0 ≠ 0) :
    (udpHandlePacket stack srcIp destIp packet host).strayReads ≠ [] := by
  have stray : (List.range packet.length).drop udpHeaderSize ≠ [] := by simpa using long
  simp only [udpHandlePacket, if_neg checked, if_neg (Nat.not_lt.mpr long.le)]
  split
  · exact stray
  · split
    · exact stray
    · exact stray

theorem udpSend_eq {srcIp destIp : UInt32} {srcPort destPort : UInt16}
    {payload packet : List UInt8} (isSent : udpSend srcIp destIp srcPort destPort payload =
      some packet) : ∃ ports length checksum, ports.length = 4 ∧ checksum ≠ 0 ∧
        packet = ports ++ bytes16 length ++ bytes16 checksum ++ payload := by
  unfold udpSend at isSent
  split_ifs at isSent
  obtain ⟨created, isCreated, rfl⟩ := Option.map_eq_some_iff.mp isSent
  unfold udpCreatePacket at isCreated
  split_ifs at isCreated
  cases isCreated
  exact ⟨bytes16 srcPort ++ bytes16 destPort, _, _, rfl, nonzeroChecksum_ne_zero _, rfl⟩

/-- A host with one datagram socket, at port 7. -/
def echoHost : UdpHost :=
  { ourIp := 2
    sockets := fun fd => if fd = 0 then
      some ⟨7, ⟨0, 0, false⟩, fun _ => ⟨0, 0, []⟩, 0, 0, 0⟩ else none
    listenPorts := [] }

end KnitOS.Net
