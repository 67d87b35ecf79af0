import KnitOS.Net.Reassembly

/-!
# Received packets

`net_handle_ipv4` asks `ip_input_fragment` first.  The result -1 means that the
packet is no fragment, but also that the table had no room for a fragment.
-/

namespace KnitOS.Net

open Lib

/-- The handlers that `net_handle_ipv4` calls. -/
inductive Handler where
  | udp
  | tcp
  | icmp
  | dnsRequest
  | dnsResponse
  | dhcp
deriving DecidableEq

/-- A call of a handler with the sender and the bytes. -/
structure Passed where
  handler : Handler
  srcIp : UInt32
  payload : List UInt8
deriving DecidableEq

structure Received where
  arp : Option (UInt32 × List UInt8)
  passed : List Passed
  table : ReassTable

/-- The client and server ports that are served next to the UDP handler. -/
def udpService (srcIp : UInt32) (payload : List UInt8) : List Passed :=
  if payload.length < 8 then []
  else if word16 payload 2 = 53 then [⟨.dnsRequest, srcIp, payload.drop 8⟩]
  else if word16 payload 2 = 49152 then [⟨.dnsResponse, srcIp, payload.drop 8⟩]
  else if word16 payload 2 = 68 then [⟨.dhcp, srcIp, payload.drop 8⟩]
  else []

def passIpv4 (header : IpHeader) (payload : List UInt8) : List Passed :=
  if header.protocol = 17 then ⟨.udp, header.srcIp, payload⟩ :: udpService header.srcIp payload
  else if header.protocol = 6 then [⟨.tcp, header.srcIp, payload⟩]
  else if header.protocol = 1 then [⟨.icmp, header.srcIp, payload⟩]
  else []

/-- The header and the bytes that `net_handle_ipv4` goes on with. -/
def ipv4Payload (result : FragmentResult) (packet : List UInt8) : Option (IpHeader × List UInt8) :=
  match result with
  | .waiting => none
  | .whole header payload => some (header, payload)
  | .refused => ipParseHeader packet

def netHandleIpv4 (isLocalDest : UInt32 → Bool) (now : UInt32) (srcMac packet : List UInt8)
    (table : ReassTable) : Received :=
  let (result, table) := ipInputFragment now packet table
  match ipv4Payload result packet with
  | none => ⟨none, [], table⟩
  | some (header, payload) =>
    { arp := if header.srcIp ∈ [0, 0xFFFFFFFF] then none else some (header.srcIp, srcMac)
      passed := if isLocalDest header.destIp then passIpv4 header payload else []
      table := table }

def FragmentResult.datagram : FragmentResult → Option (List UInt8)
  | .whole _ payload => some payload
  | _ => none

/-- The bytes are those of a packet that is no fragment, or a completed datagram. -/
def IsWhole (now : UInt32) (packet : List UInt8) (table : ReassTable) (payload : List UInt8) :
    Prop :=
  fragmentOf packet = none ∧ (ipParseHeader packet).map Prod.snd = some payload ∨
    (ipInputFragment now packet table).1.datagram = some payload

/-- The protocol handlers are given whole datagrams only. -/
def PassesWhole (isLocalDest : UInt32 → Bool) (now : UInt32) (srcMac packet : List UInt8)
    (table : ReassTable) : Prop :=
  ∀ call ∈ (netHandleIpv4 isLocalDest now srcMac packet table).passed,
    call.handler ∈ [.udp, .tcp, .icmp] → IsWhole now packet table call.payload

/-- The table has an entry for the fragment, and the fragment ends in the buffer. -/
def Storable (header : IpHeader) (payload : List UInt8) (table : ReassTable) : Prop :=
  (∃ slot, (table slot).collects header ∨ (table slot).used = false) ∧
    header.fragmentOffset + payload.length ≤ ipReassBuf

variable {header : IpHeader} {payload : List UInt8} {table : ReassTable}

theorem payload_of_mem_passIpv4 {call : Passed} (member : call ∈ passIpv4 header payload)
    (isProtocol : call.handler ∈ [.udp, .tcp, .icmp]) : call.payload = payload := by
  have notServed : call ∉ udpService header.srcIp payload := by
    intro served
    unfold udpService at served
    split_ifs at served <;> simp_all
  unfold passIpv4 at member
  split_ifs at member <;> simp_all

theorem exists_mem_passIpv4 : (∃ call ∈ passIpv4 header payload,
    call.handler ∈ [.udp, .tcp, .icmp]) ↔ header.protocol ∈ [17, 6, 1] := by
  unfold passIpv4
  split_ifs <;> simp_all

theorem reassEntryFor_eq_none {deadlineMs : UInt32} : reassEntryFor header deadlineMs table = none ↔
    ¬ ∃ slot, (table slot).collects header ∨ (table slot).used = false := by
  unfold reassEntryFor
  cases found : (List.finRange 4).find? fun slot => (table slot).collects header with
  | some slot =>
    have collects := List.find?_some found
    exact iff_of_false nofun (not_not_intro ⟨slot, Or.inl collects⟩)
  | none =>
    have noneCollects : ∀ slot, (table slot).collects header = false := by simpa using found
    cases free : (List.finRange 4).find? fun slot => !(table slot).used with
    | some slot =>
      have unused : (table slot).used = false := by simpa using List.find?_some free
      exact iff_of_false nofun (not_not_intro ⟨slot, Or.inr unused⟩)
    | none => simpa [noneCollects] using free

variable {isLocalDest : UInt32 → Bool} {now : UInt32} {srcMac packet : List UInt8}

theorem ipInputFragment_refused (fragment : fragmentOf packet = some (header, payload)) :
    (ipInputFragment now packet table).1 = .refused ↔ ¬ Storable header payload table := by
  unfold ipInputFragment Storable
  rw [fragment]
  dsimp only
  cases chosen : reassEntryFor header (now + ipReassTimeoutMs) table with
  | none => simp [reassEntryFor_eq_none.mp chosen]
  | some place =>
    have hasEntry := reassEntryFor_eq_none.not_left.mp (by rw [chosen]; simp)
    simp only [storeFragment, hasEntry, true_and, Nat.not_le]
    split_ifs <;> simp_all

theorem ipParseHeader_of_fragmentOf (fragment : fragmentOf packet = some (header, payload)) :
    ipParseHeader packet = some (header, payload) := by
  unfold fragmentOf at fragment
  split at fragment
  · cases fragment
  · split_ifs at fragment
    simp_all

theorem mem_passed {call : Passed} :
    call ∈ (netHandleIpv4 isLocalDest now srcMac packet table).passed ↔ ∃ header payload,
      ipv4Payload (ipInputFragment now packet table).1 packet = some (header, payload) ∧
        isLocalDest header.destIp = true ∧ call ∈ passIpv4 header payload := by
  simp only [netHandleIpv4]
  split
  · simp_all
  · split_ifs <;> simp_all

/-- Fragments are taken for datagrams exactly when the table refuses them. -/
theorem passesWhole_iff (isLocalDest : UInt32 → Bool) (now : UInt32) (srcMac packet : List UInt8)
    (table : ReassTable) : PassesWhole isLocalDest now srcMac packet table ↔
      ∀ header payload, fragmentOf packet = some (header, payload) →
        Storable header payload table ∨ isLocalDest header.destIp = false ∨
          header.protocol ∉ [17, 6, 1] := by
  constructor
  · intro passes header payload fragment
    by_contra bad
    simp only [not_or, Bool.not_eq_false, not_not] at bad
    obtain ⟨notStorable, isLocal, known⟩ := bad
    have refused : (ipInputFragment now packet table).1 = .refused :=
      (ipInputFragment_refused fragment).mpr notStorable
    obtain ⟨call, member, isProtocol⟩ := exists_mem_passIpv4.mpr known
    have isPayload : ipv4Payload (ipInputFragment now packet table).1 packet =
        some (header, payload) := by
      rw [refused]
      exact ipParseHeader_of_fragmentOf fragment
    rcases passes call (mem_passed.mpr ⟨header, payload, isPayload, isLocal, member⟩) isProtocol
      with ⟨notFragment, _⟩ | datagram
    · simp [fragment] at notFragment
    · simp [refused, FragmentResult.datagram] at datagram
  · intro stored call passed isProtocol
    obtain ⟨header, payload, isPayload, isLocal, member⟩ := mem_passed.mp passed
    rw [payload_of_mem_passIpv4 member isProtocol]
    cases result : (ipInputFragment now packet table).1 with
    | waiting => simp [result, ipv4Payload] at isPayload
    | whole whole datagram => simp_all [ipv4Payload, IsWhole, FragmentResult.datagram]
    | refused =>
      simp only [result, ipv4Payload] at isPayload
      cases fragment : fragmentOf packet with
      | none => exact Or.inl ⟨fragment, by rw [isPayload]; rfl⟩
      | some parts =>
        cases isPayload.symm.trans (ipParseHeader_of_fragmentOf fragment)
        rcases stored _ _ fragment with storable | remote | unknown
        · exact absurd storable ((ipInputFragment_refused fragment).mp result)
        · simp [isLocal] at remote
        · exact absurd (exists_mem_passIpv4.mp ⟨call, member, isProtocol⟩) unknown

/-- Four datagrams fill the table; a fragment of a fifth is passed on. -/
theorem fragment_passed_as_datagram :
    ¬ PassesWhole (fun _ => true) 0 [] (fragmentPacket ipFlagMf [1, 2, 3, 4, 5, 6, 7, 8])
      (runFrom Reassembly.step Reassembly.init ([1, 2, 3, 4].map fun id => .packet 0
        ((ipCreatePacketEx 1600 1 2 17 id ipFlagMf [0, 0, 0, 0, 0, 0, 0, 0]).getD []))).table := by
  unfold PassesWhole IsWhole
  decide +kernel

end KnitOS.Net
