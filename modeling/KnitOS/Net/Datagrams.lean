import KnitOS.Lib.Ring
import KnitOS.Lib.Runs

/-!
# Datagram sockets

The queue of a datagram socket is a ring of eight entries.  It is compared with
the queue that keeps the last eight datagrams.
-/

namespace KnitOS.Net

open Lib

abbrev udpSockQueue : Nat := 8
abbrev udpPktMax : Nat := 512

/-- An entry of the queue; `data` has the `len` bytes that are in use. -/
structure Datagram where
  srcIp : UInt32
  srcPort : UInt16
  data : List UInt8
deriving DecidableEq

/-- `peer_ip`, `peer_port` and `has_peer`. -/
structure Peer where
  ip : UInt32
  port : UInt16
  known : Bool

structure DatagramSocket where
  localPort : UInt16
  peer : Peer
  queue : RingBuffer Datagram

/-- `socket_udp_deliver` at the socket of the port. -/
def DatagramSocket.udpDeliver (socket : DatagramSocket) (srcIp : UInt32) (srcPort : UInt16)
    (data : List UInt8) : DatagramSocket :=
  let queue := if udpSockQueue ≤ socket.queue.count then socket.queue.pop udpSockQueue
    else socket.queue
  { socket with queue := queue.push udpSockQueue ⟨srcIp, srcPort, data.take udpPktMax⟩ }

/-- `socket_udp_try_recv`: the bytes in the buffer of the caller. -/
def DatagramSocket.udpTryRecv (socket : DatagramSocket) (len : Nat) :
    List UInt8 × DatagramSocket :=
  if socket.queue.count = 0 then
    ([], socket)
  else
    let packet := socket.queue.slots socket.queue.head
    (packet.data.take len,
      { socket with
        peer := ⟨packet.srcIp, packet.srcPort, true⟩
        queue := socket.queue.pop udpSockQueue })

inductive DatagramCall where
  | deliver (srcIp : UInt32) (srcPort : UInt16) (data : List UInt8)
  | tryRecv (len : Nat)

def DatagramSocket.call (socket : DatagramSocket) : DatagramCall → List UInt8 × DatagramSocket
  | .deliver srcIp srcPort data => ([], socket.udpDeliver srcIp srcPort data)
  | .tryRecv len => socket.udpTryRecv len

/-- The queue a datagram socket stands for. -/
structure DatagramQueue where
  kept : List Datagram
  peer : Peer

/-- A datagram is added at the end, and the last eight stay. -/
def DatagramQueue.call (queue : DatagramQueue) : DatagramCall → List UInt8 × DatagramQueue
  | .deliver srcIp srcPort data =>
    let all := queue.kept ++ [⟨srcIp, srcPort, data.take udpPktMax⟩]
    ([], { queue with kept := all.drop (all.length - 8) })
  | .tryRecv len =>
    match queue.kept with
    | [] => ([], queue)
    | oldest :: rest => (oldest.data.take len, ⟨rest, oldest.srcIp, oldest.srcPort, true⟩)

/-- A call, with what the calls before have returned. -/
def answering {σ : Type} (call : σ → DatagramCall → List UInt8 × σ)
    (state : σ × List (List UInt8)) (input : DatagramCall) : σ × List (List UInt8) :=
  ((call state.1 input).2, state.2 ++ [(call state.1 input).1])

structure DatagramSocket.Refines (socket : DatagramSocket) (queue : DatagramQueue) : Prop where
  valid : socket.queue.Valid udpSockQueue
  kept : socket.queue.contents udpSockQueue = queue.kept
  peer : socket.peer = queue.peer

variable {socket : DatagramSocket} {queue : DatagramQueue}

theorem DatagramSocket.Refines.call (refines : socket.Refines queue) (input : DatagramCall) :
    (socket.call input).1 = (queue.call input).1 ∧
      (socket.call input).2.Refines (queue.call input).2 := by
  obtain ⟨valid, kept, peer⟩ := refines
  have length : queue.kept.length = socket.queue.count := by
    rw [← kept, RingBuffer.length_contents]
  cases input with
  | deliver srcIp srcPort data =>
    refine ⟨rfl, ?_⟩
    simp only [DatagramSocket.call, DatagramSocket.udpDeliver, DatagramQueue.call]
    split_ifs with full
    · have isFull : socket.queue.count = 8 := Nat.le_antisymm valid.count full
      have filled : 0 < socket.queue.count := isFull ▸ Nat.zero_lt_succ 7
      have popped : (socket.queue.pop udpSockQueue).count = 7 := by
        change socket.queue.count - 1 = 7
        omega
      have room : (socket.queue.pop udpSockQueue).count < udpSockQueue :=
        popped ▸ Nat.lt_succ_self 7
      refine ⟨(valid.pop filled).push room _, ?_, peer⟩
      rw [(valid.pop filled).contents_push room, List.length_append, length, isFull, ← kept,
        RingBuffer.contents_eq_cons filled valid.head]
      rfl
    · have room := Nat.lt_of_not_le full
      refine ⟨valid.push room _, ?_, peer⟩
      rw [valid.contents_push room, kept, List.length_append, length, List.length_singleton,
        Nat.sub_eq_zero_of_le (Nat.succ_le_of_lt room), List.drop_zero]
  | tryRecv len =>
    simp only [DatagramSocket.call, DatagramSocket.udpTryRecv, DatagramQueue.call]
    split_ifs with empty
    · have none : queue.kept = [] := List.eq_nil_of_length_eq_zero (length.trans empty)
      rw [none]
      exact ⟨rfl, valid, kept, peer⟩
    · have filled := Nat.pos_of_ne_zero empty
      rw [RingBuffer.contents_eq_cons filled valid.head] at kept
      rw [← kept]
      exact ⟨rfl, valid.pop filled, rfl, rfl⟩

/-- A new datagram socket returns what the queue of the last eight datagrams
returns, and stays in step with it. -/
theorem datagramSocket_refines (localPort : UInt16) (slots : Nat → Datagram) (peer : Peer)
    (calls : List DatagramCall) :
    let after := runFrom (answering DatagramSocket.call)
      (⟨localPort, peer, slots, 0, 0, 0⟩, []) calls
    let queue := runFrom (answering DatagramQueue.call) (⟨[], peer⟩, []) calls
    after.2 = queue.2 ∧ after.1.Refines queue.1 := by
  refine @runFrom_simulates _ _ _ (answering DatagramSocket.call) (answering DatagramQueue.call)
    (fun after queue => after.2 = queue.2 ∧ after.1.Refines queue.1) ?_ _ _ ⟨rfl, ?_⟩ calls
  · rintro after queue input ⟨same, refines⟩
    obtain ⟨answer, next⟩ := refines.call input
    simp only [answering, same, answer, next, and_self]
  · exact ⟨⟨Nat.zero_lt_succ 7, Nat.zero_le 8, rfl⟩, rfl, rfl⟩

end KnitOS.Net
