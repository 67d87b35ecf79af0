import Mathlib.Data.List.FinRange
import KnitOS.Net.TcpEvents

/-!
# The connection table and the sockets

The table of `tcp_connection.cpp`, its packet handler and timers, and the
stream sockets of `socket.cpp`.  `socket_connect` and `socket_close` are cut at
their waiting loops: one round of a loop is an event, which says whether it is
the last.  No function reads `history`; it numbers the connections and records
which of them each socket connected, accepted or listens on.
-/

namespace KnitOS.Net

/-! ## The state -/

/-- An index below `TCP_MAX_CONNECTIONS`. -/
abbrev Slot : Type := Fin 64

/-- A descriptor below `SOCKET_MAX`; no other one is a socket. -/
abbrev Fd : Type := Fin 64

inductive SocketType where
  | stream
  | dgram
deriving DecidableEq

/-- `struct socket_entry` without its datagram queue and its owner. -/
structure Socket where
  used : Bool
  type : Option SocketType
  localPort : UInt16
  localIp : UInt32
  peerIp : UInt32
  peerPort : UInt16
  hasPeer : Bool
  listening : Bool
  tcp : Option Slot
  listenTcp : Option Slot
deriving DecidableEq

def socketReset : Socket where
  used := false
  type := none
  localPort := 0
  localIp := 0
  peerIp := 0
  peerPort := 0
  hasPeer := false
  listening := false
  tcp := none
  listenTcp := none

/-- A connection by its number and its addresses. -/
abbrev Ticket : Type := Nat × FourTuple

/-- Which connection each place holds, and which connections belong to each
socket. -/
structure History where
  ids : Slot → Nat
  next : Nat
  own : Fd → List Ticket

/-- A call that waits. -/
inductive Call where
  | connecting (fd : Fd) (slot : Slot)
  | closing (fd : Fd) (slot : Slot) (ticket : Ticket)
deriving DecidableEq

/-- The place a call waits for. -/
def Call.slot : Call → Slot
  | .connecting _ slot => slot
  | .closing _ slot _ => slot

structure Stack where
  conns : Slot → Conn
  nextIsn : UInt32
  ourIp : UInt32
  clock : Nat → UInt32
  asked : Nat
  wire : List Outgoing
  sockets : Fd → Socket
  calls : List Call
  history : History

namespace Stack

/-- The connection in a place. -/
def ticket (stack : Stack) (slot : Slot) : Ticket :=
  (stack.history.ids slot, (stack.conns slot).tuple)

/-- One connection with the clock and the wire. -/
def focus (stack : Stack) (slot : Slot) : Endpoint :=
  ⟨stack.conns slot, stack.clock, stack.asked, stack.wire⟩

def put (stack : Stack) (slot : Slot) (endpoint : Endpoint) : Stack :=
  { stack with
    conns := Function.update stack.conns slot endpoint.conn
    clock := endpoint.clock
    asked := endpoint.asked
    wire := endpoint.wire }

def setSocket (stack : Stack) (fd : Fd) (socket : Socket) : Stack :=
  { stack with sockets := Function.update stack.sockets fd socket }

def setOwn (stack : Stack) (fd : Fd) (own : List Ticket) : Stack :=
  { stack with
    history :=
      { stack.history with
        own := Function.update stack.history.own fd own } }

/-- The connection in the place belongs to the socket. -/
def addOwn (stack : Stack) (fd : Fd) (slot : Slot) : Stack :=
  stack.setOwn fd (stack.ticket slot :: stack.history.own fd)

/-! ## The connection table -/

/-- The first place that satisfies a test. -/
def findSlot (stack : Stack) (test : Slot → Conn → Bool) : Option Slot :=
  (List.finRange 64).find? fun slot => test slot (stack.conns slot)

/-- The place the next connection gets. -/
def freeSlot (stack : Stack) : Option Slot :=
  stack.findSlot fun _ conn => !conn.valid

/-- A new connection in a place. -/
def place (stack : Stack) (slot : Slot) (conn : Conn) : Stack :=
  { stack with
    conns := Function.update stack.conns slot conn
    asked := stack.asked + 1
    history :=
      { stack.history with
        ids := Function.update stack.history.ids slot stack.history.next
        next := stack.history.next + 1 } }

def tcpConnectionCreate (srcIp : UInt32) (srcPort : UInt16)
    (destIp : UInt32) (destPort : UInt16) (stack : Stack) : Option Slot × Stack :=
  match stack.freeSlot with
  | none => (none, stack)
  | some slot =>
    (some slot,
      { stack.place slot (newConn srcIp srcPort destIp destPort
          stack.nextIsn (stack.clock stack.asked)) with
        nextIsn := stack.nextIsn + 1 })

def tcpConnectionFind (tuple : FourTuple) (stack : Stack) : Option Slot :=
  stack.findSlot fun _ conn => conn.valid && decide (conn.tuple = tuple)

def tcpConnectionFindListen (port : UInt16) (stack : Stack) : Option Slot :=
  stack.findSlot fun _ conn =>
    conn.valid && decide (conn.state = .listen) && decide (conn.srcPort = port)

def tcpConnectionAllocListen (srcIp : UInt32) (port : UInt16)
    (stack : Stack) : Option Slot × Stack :=
  match stack.freeSlot with
  | none => (none, stack)
  | some slot =>
    (some slot,
      stack.place slot
        { newConn srcIp port 0 0 0 (stack.clock stack.asked) with
          state := .listen })

def tcpConnectionAcceptPending (localPort : UInt16) (listenConn : Slot)
    (stack : Stack) : Option Slot :=
  stack.findSlot fun slot conn =>
    decide (slot ≠ listenConn) && conn.valid &&
      decide (conn.state = .established) &&
      decide (conn.srcPort = localPort) && decide (conn.destIp ≠ 0) &&
      conn.pendingAccept

/-- A SYN for no connection: a listening port makes one. -/
def acceptSyn (srcIp : UInt32) (segment : Segment) (stack : Stack) : Stack :=
  match stack.tcpConnectionFindListen segment.destPort with
  | none => stack
  | some _ =>
    match stack.tcpConnectionCreate stack.ourIp segment.destPort srcIp
        segment.srcPort with
    | (none, _) => stack
    | (some slot, created) =>
      created.put slot (openPassive segment (created.focus slot))

def tcpHandlePacket (srcIp destIp : UInt32) (segment : Segment) (stack : Stack) : Stack :=
  if destIp ≠ stack.ourIp then
    stack
  else
    match stack.tcpConnectionFind
        ⟨stack.ourIp, segment.destPort, srcIp, segment.srcPort⟩ with
    | some slot => stack.put slot (handleSegment segment (stack.focus slot))
    | none =>
      if segment.has tcpFlagRst then
        stack
      else if segment.has tcpFlagSyn then
        stack.acceptSyn srcIp segment
      else
        stack

def tcpProcessTimers (stack : Stack) : Stack :=
  (List.finRange 64).foldl
    (fun stack slot => stack.put slot (processTimers (stack.focus slot))) stack

def tcpConnect (destIp : UInt32) (destPort : UInt16) (stack : Stack) : Option Slot × Stack :=
  if stack.ourIp = 0 then
    (none, stack)
  else
    let srcPort := 49152 + (stack.nextIsn % 16384).toUInt16
    match stack.tcpConnectionCreate stack.ourIp srcPort destIp destPort with
    | (none, _) => (none, stack)
    | (some slot, created) =>
      (some slot, created.put slot (openActive (created.focus slot)))

def tcpListen (port : UInt16) (stack : Stack) : Option Slot × Stack :=
  if stack.ourIp = 0 then
    (none, stack)
  else if (stack.tcpConnectionFindListen port).isSome then
    (none, stack)
  else
    stack.tcpConnectionAllocListen stack.ourIp port

/-- The last lines of `tcp_close`. -/
def closeValid (slot : Slot) (stack : Stack) : Stack :=
  if (stack.conns slot).valid then
    stack.put slot
      ((stack.focus slot).setConn (tcpConnectionClose (stack.conns slot)))
  else
    stack

/-- A connection that was just entered in the table. -/
structure Entered (tuple : FourTuple) (state : TcpState) (conn : Conn) : Prop where
  tuple : conn.tuple = tuple
  state : conn.state = state
  valid : conn.valid = true
  pending : conn.pendingAccept = false
  queue : conn.queue = []

/-- The packet is a SYN for a listening port and for no connection. -/
def opensConnection (stack : Stack) (srcIp destIp : UInt32) (segment : Segment) : Bool :=
  decide (destIp = stack.ourIp) &&
    (stack.tcpConnectionFind
      ⟨stack.ourIp, segment.destPort, srcIp, segment.srcPort⟩).isNone &&
    !segment.has tcpFlagRst && segment.has tcpFlagSyn &&
    (stack.tcpConnectionFindListen segment.destPort).isSome

theorem tcpConnect_cases (destIp : UInt32) (destPort : UInt16) (stack : Stack) :
    (stack.tcpConnect destIp destPort = (none, stack) ∧ (stack.ourIp = 0 ∨ stack.freeSlot = none)) ∨
      ∃ slot conn endpoint, stack.freeSlot = some slot ∧
        Entered ⟨stack.ourIp, 49152 + (stack.nextIsn % 16384).toUInt16, destIp, destPort⟩ .synSent
          endpoint.conn ∧
        stack.tcpConnect destIp destPort = (some slot, Stack.put { stack.place slot conn with
          nextIsn := stack.nextIsn + 1 } slot endpoint) := by
  unfold tcpConnect tcpConnectionCreate
  split
  · rename_i noAddress
    exact Or.inl ⟨rfl, Or.inl noAddress⟩
  · cases free : stack.freeSlot with
    | none => exact Or.inl ⟨rfl, Or.inr rfl⟩
    | some slot =>
      refine Or.inr ⟨slot, _, _, rfl, ?_, rfl⟩
      simp only [openActive, focus, place, setConn_conn, tcpSend_conn, Function.update_self]
      exact ⟨rfl, rfl, rfl, rfl, rfl⟩

theorem tcpListen_cases (port : UInt16) (stack : Stack) :
    stack.tcpListen port = (none, stack) ∨ ∃ slot conn, stack.freeSlot = some slot ∧
      stack.tcpConnectionFindListen port = none ∧ Entered ⟨stack.ourIp, port, 0, 0⟩ .listen conn ∧
        stack.tcpListen port = (some slot, stack.place slot conn) := by
  unfold tcpListen tcpConnectionAllocListen
  split
  · exact Or.inl rfl
  · split
    · exact Or.inl rfl
    · rename_i noListener
      cases free : stack.freeSlot with
      | none => exact Or.inl rfl
      | some slot =>
        exact Or.inr ⟨slot, _, rfl, by simpa using noListener, ⟨rfl, rfl, rfl, rfl, rfl⟩, rfl⟩

theorem tcpHandlePacket_cases (srcIp destIp : UInt32) (segment : Segment) (stack : Stack) :
    stack.tcpHandlePacket srcIp destIp segment = stack ∨
      (∃ slot, destIp = stack.ourIp ∧ stack.tcpConnectionFind
          ⟨stack.ourIp, segment.destPort, srcIp, segment.srcPort⟩ = some slot ∧
        stack.tcpHandlePacket srcIp destIp segment =
          stack.put slot (handleSegment segment (stack.focus slot))) ∨
      ∃ slot conn endpoint, stack.freeSlot = some slot ∧
        stack.opensConnection srcIp destIp segment = true ∧
        Entered ⟨stack.ourIp, segment.destPort, srcIp, segment.srcPort⟩ .synReceived endpoint.conn ∧
        stack.tcpHandlePacket srcIp destIp segment = Stack.put { stack.place slot conn with
          nextIsn := stack.nextIsn + 1 } slot endpoint := by
  unfold tcpHandlePacket acceptSyn tcpConnectionCreate opensConnection
  split
  · exact Or.inl rfl
  · rename_i forUs
    cases stack.tcpConnectionFind ⟨stack.ourIp, segment.destPort, srcIp, segment.srcPort⟩ with
    | some slot => exact Or.inr (Or.inl ⟨slot, not_not.mp forUs, rfl, rfl⟩)
    | none =>
      dsimp only
      split
      · exact Or.inl rfl
      · rename_i noReset
        split
        · rename_i synchronizes
          cases stack.tcpConnectionFindListen segment.destPort with
          | none => exact Or.inl rfl
          | some _ =>
            cases stack.freeSlot with
            | none => exact Or.inl rfl
            | some slot =>
              refine Or.inr (Or.inr ⟨slot, _, _, rfl, ?_, ?_, rfl⟩)
              · simp [not_not.mp forUs, noReset, synchronizes]
              · simp only [openPassive, focus, place, setConn_conn, tcpSend_conn,
                  Function.update_self]
                exact ⟨rfl, rfl, rfl, rfl, rfl⟩
        · exact Or.inl rfl

/-! ## Sockets -/

def socketAlloc (stack : Stack) : Option Fd × Stack :=
  match (List.finRange 64).find? fun fd => !(stack.sockets fd).used with
  | none => (none, stack)
  | some fd =>
    (some fd,
      (stack.setSocket fd { socketReset with used := true }).setOwn fd [])

def socketCreate (type : SocketType) (stack : Stack) : Option Fd × Stack :=
  match stack.socketAlloc with
  | (none, _) => (none, stack)
  | (some fd, allocated) =>
    (some fd,
      allocated.setSocket fd
        { allocated.sockets fd with type := some type })

/-- `socket_bind` to a port that `net_ports` grants. -/
def socketBind (fd : Fd) (port : UInt16) (address : UInt32) (stack : Stack) : Stack :=
  let socket := stack.sockets fd
  if !socket.used then
    stack
  else if (List.finRange 64).any fun other =>
      decide (other ≠ fd) && (stack.sockets other).used &&
        decide ((stack.sockets other).type = socket.type) &&
        decide ((stack.sockets other).localPort = port) then
    stack
  else
    stack.setSocket fd
      { socket with
        localPort := port
        localIp := if address = 0 then stack.ourIp else address }

def socketListen (fd : Fd) (stack : Stack) : Stack :=
  let socket := stack.sockets fd
  if !socket.used || decide (socket.type ≠ some .stream) ||
      decide (socket.localPort = 0) || socket.listenTcp.isSome then
    stack
  else
    match stack.tcpListen socket.localPort with
    | (none, _) => stack
    | (some slot, listening) =>
      (listening.setSocket fd
        { socket with listenTcp := some slot, listening := true }).addOwn
          fd slot

def acceptedSocket (listener : Socket) (slot : Slot) (conn : Conn) : Socket :=
  { socketReset with
    used := true
    type := some .stream
    localPort := listener.localPort
    localIp := listener.localIp
    peerIp := conn.destIp
    peerPort := conn.destPort
    hasPeer := true
    tcp := some slot }

/-- One round of `socket_accept`.  When no socket is free, `pending_accept` is
set again. -/
def acceptRound (fd : Fd) (stack : Stack) : Option Fd × Stack :=
  let socket := stack.sockets fd
  match socket.used, socket.type, socket.listenTcp with
  | true, some .stream, some listenConn =>
    match stack.tcpConnectionAcceptPending socket.localPort listenConn with
    | none => (none, stack)
    | some slot =>
      match stack.socketAlloc with
      | (none, _) => (none, stack)
      | (some newFd, allocated) =>
        let conn := { allocated.conns slot with pendingAccept := false }
        let taken := allocated.put slot
          ((allocated.focus slot).setConn conn)
        (some newFd,
          (taken.setSocket newFd
            (acceptedSocket socket slot conn)).addOwn newFd slot)
  | _, _, _ => (none, stack)

/-- The start of `socket_connect` for a stream socket. -/
def socketConnect (fd : Fd) (address : UInt32) (port : UInt16) (stack : Stack) : Stack :=
  let socket := stack.sockets fd
  if !socket.used || decide (address = 0) || decide (port = 0) ||
      decide (socket.type ≠ some .stream) then
    stack
  else
    let named := stack.setSocket fd
      { socket with peerIp := address, peerPort := port, hasPeer := true }
    if socket.tcp.isSome then
      named
    else
      match named.tcpConnect address port with
      | (none, _) => named
      | (some slot, connecting) =>
        { connecting.addOwn fd slot with
          calls := connecting.calls ++ [.connecting fd slot] }

/-- The end of `socket_connect` when the connection is established. -/
def attach (fd : Fd) (slot : Slot) (stack : Stack) : Stack :=
  stack.setSocket fd
    { stack.sockets fd with
      tcp := some slot
      localPort := (stack.conns slot).srcPort
      localIp := (stack.conns slot).srcIp }

/-- One round of the loop of `tcp_connect_wait`. -/
def connectRound (index : Nat) (isLast : Bool) (stack : Stack) : Stack :=
  match stack.calls[index]? with
  | some (.connecting fd slot) =>
    let left := { stack with calls := stack.calls.eraseIdx index }
    if (stack.conns slot).state = .established then
      left.attach fd slot
    else if (stack.conns slot).state = .closed ∨ isLast then
      left.closeValid slot
    else
      stack
  | _ => stack

/-- `socket_send` for a stream socket. -/
def socketSend (fd : Fd) (data : List UInt8) (stack : Stack) : Option Nat × Stack :=
  let socket := stack.sockets fd
  match socket.used, socket.type, socket.tcp with
  | true, some .stream, some slot =>
    if data = [] ∨ (stack.conns slot).state ≠ .established then
      (none, stack)
    else
      let sent := tcpSendData data (stack.focus slot)
      (sent.1, stack.put slot sent.2)
  | _, _, _ => (none, stack)

/-- One try of `socket_recv` for a stream socket: the bytes, or `none` at the
end of the stream. -/
def socketTcpTryRecv (fd : Fd) (maxLen : Nat) (stack : Stack) : Option (List UInt8) × Stack :=
  let socket := stack.sockets fd
  match socket.used, socket.type, socket.tcp with
  | true, some .stream, some slot =>
    let received := tcpConnectionReceive (stack.conns slot) maxLen
    let left := stack.put slot ((stack.focus slot).setConn received.2)
    if received.1 ≠ [] then
      (some received.1, left)
    else if (stack.conns slot).state ∈
        [.closed, .closeWait, .closing, .timeWait, .lastAck] ∨
        (stack.conns slot).valid = false then
      (none, left)
    else
      (some [], left)
  | _, _, _ => (none, stack)

/-- The end of `socket_close`, after `tcp_close`. -/
def finishClose (fd : Fd) (stack : Stack) : Stack :=
  let closed :=
    match (stack.sockets fd).listenTcp with
    | none => stack
    | some slot =>
      stack.put slot
        ((stack.focus slot).setConn (tcpConnectionClose (stack.conns slot)))
  (closed.setSocket fd socketReset).setOwn fd []

/-- The FIN of `tcp_close`. -/
def sendFin (endpoint : Endpoint) : Endpoint :=
  let sent := endpoint.tcpSend endpoint.conn.sendSeq endpoint.conn.recvSeq
    (tcpFlagFin ||| tcpFlagAck) []
  sent.setConn
    { sent.conn with
      state := .finWait1
      sendSeq := sent.conn.sendSeq + 1 }

theorem continues_sendFin (endpoint : Endpoint) (established : endpoint.conn.state = .established) :
    Continues endpoint.conn (sendFin endpoint).conn := by
  unfold Stack.sendFin
  dsimp only
  rw [setConn_conn, tcpSend_conn]
  exact Continues.moves rfl rfl rfl id (by simp [established])

/-- The start of `socket_close`; it waits after a FIN. -/
def socketClose (fd : Fd) (stack : Stack) : Stack :=
  if !(stack.sockets fd).used then
    stack
  else
    match (stack.sockets fd).tcp with
    | none => stack.finishClose fd
    | some slot =>
      if (stack.conns slot).state = .established then
        { stack.put slot (sendFin (stack.focus slot)) with
          calls := stack.calls ++ [.closing fd slot (stack.ticket slot)] }
      else
        (stack.closeValid slot).finishClose fd

/-- One round of the loop of `tcp_close`. -/
def closeRound (index : Nat) (isLast : Bool) (stack : Stack) : Stack :=
  match stack.calls[index]? with
  | some (.closing fd slot _) =>
    let left := { stack with calls := stack.calls.eraseIdx index }
    if (stack.conns slot).valid = false then
      left.finishClose fd
    else if (stack.conns slot).state ∈ [.finWait2, .closed] ∨ isLast then
      (left.closeValid slot).finishClose fd
    else
      stack
  | _ => stack

end Stack

inductive StackEvent where
  | address (ourIp : UInt32)
  | packet (srcIp destIp : UInt32) (segment : Segment)
  | timers
  | create (type : SocketType)
  | bind (fd : Fd) (port : UInt16) (address : UInt32)
  | listen (fd : Fd)
  | accept (fd : Fd)
  | connect (fd : Fd) (address : UInt32) (port : UInt16)
  | connectRound (index : Nat) (isLast : Bool)
  | send (fd : Fd) (data : List UInt8)
  | recv (fd : Fd) (maxLen : Nat)
  | close (fd : Fd)
  | closeRound (index : Nat) (isLast : Bool)

def Stack.step (stack : Stack) : StackEvent → Stack
  | .address ourIp => { stack with ourIp := ourIp }
  | .packet srcIp destIp segment => stack.tcpHandlePacket srcIp destIp segment
  | .timers => stack.tcpProcessTimers
  | .create type => (stack.socketCreate type).2
  | .bind fd port address => stack.socketBind fd port address
  | .listen fd => stack.socketListen fd
  | .accept fd => (stack.acceptRound fd).2
  | .connect fd address port => stack.socketConnect fd address port
  | .connectRound index isLast => stack.connectRound index isLast
  | .send fd data => (stack.socketSend fd data).2
  | .recv fd maxLen => (stack.socketTcpTryRecv fd maxLen).2
  | .close fd => stack.socketClose fd
  | .closeRound index isLast => stack.closeRound index isLast

/-- The stack after `tcp_init` and `socket_init`. -/
def Stack.init (clock : Nat → UInt32) : Stack where
  conns := fun _ => tcpConnectionClose (newConn 0 0 0 0 0 0)
  nextIsn := 1000
  ourIp := 0
  clock := clock
  asked := 0
  wire := []
  sockets := fun _ => socketReset
  calls := []
  history := ⟨fun slot => slot.val, 64, fun _ => []⟩

end KnitOS.Net
