import Mathlib.Algebra.Ring.Nat
import Mathlib.Data.List.Basic

/-!
# One TCP connection

The functions of `tcp_connection.cpp` and `tcp.cpp` on a single connection.  An
endpoint is a connection with the clock, read off a schedule indexed by the
number of readings, and the segments handed to `tcp_send`, oldest first, whose
result all callers ignore.
-/

namespace KnitOS.Net

/-! ## Segments and connections -/

inductive TcpState where
  | closed
  | listen
  | synSent
  | synReceived
  | established
  | finWait1
  | finWait2
  | closeWait
  | closing
  | timeWait
  | lastAck
deriving DecidableEq

abbrev tcpFlagFin : UInt8 := 0x01
abbrev tcpFlagSyn : UInt8 := 0x02
abbrev tcpFlagRst : UInt8 := 0x04
abbrev tcpFlagPsh : UInt8 := 0x08
abbrev tcpFlagAck : UInt8 := 0x10

/-- A segment with a valid header and checksum, in host byte order. -/
structure Segment where
  srcPort : UInt16
  destPort : UInt16
  seqNum : UInt32
  ackNum : UInt32
  flags : UInt8
  window : UInt16
  payload : List UInt8
deriving DecidableEq

def Segment.has (segment : Segment) (flag : UInt8) : Bool :=
  segment.flags &&& flag != 0

structure Outgoing where
  destIp : UInt32
  segment : Segment
deriving DecidableEq

abbrev tcpRxBufferSize : Nat := 4096

abbrev tcpTxBufferSize : Nat := 4096

abbrev tcpMaxRetransmit : Nat := 5

abbrev tcpRtoInitial : UInt32 := 1000

abbrev tcpRtoMax : UInt32 := 60000

abbrev tcpMaxPayload : Nat := 1460

/-- An entry of the retransmission queue; its length is that of `data`. -/
structure Queued where
  seq : UInt32
  timeout : UInt32
  rto : UInt32
  retries : Nat
  data : List UInt8
deriving DecidableEq

/-- The sequence number after the last byte of an entry. -/
def Queued.finish (entry : Queued) : UInt32 :=
  entry.seq + UInt32.ofNat entry.data.length

/-- `struct tcp_connection`.  The buffers and the queue hold what is in use of
the arrays. -/
structure Conn where
  srcIp : UInt32
  srcPort : UInt16
  destIp : UInt32
  destPort : UInt16
  state : TcpState
  sendSeq : UInt32
  sendUna : UInt32
  recvSeq : UInt32
  sendWindow : UInt16
  recvWindow : UInt16
  mss : UInt16
  rxBuffer : List UInt8
  txBuffer : List UInt8
  queue : List Queued
  cwnd : UInt32
  ssthresh : UInt32
  inSlowStart : Bool
  lastActivity : UInt32
  pendingAccept : Bool
  valid : Bool
deriving DecidableEq

structure FourTuple where
  srcIp : UInt32
  srcPort : UInt16
  destIp : UInt32
  destPort : UInt16
deriving DecidableEq

def Conn.tuple (conn : Conn) : FourTuple :=
  ⟨conn.srcIp, conn.srcPort, conn.destIp, conn.destPort⟩

def newConn (srcIp : UInt32) (srcPort : UInt16) (destIp : UInt32)
    (destPort : UInt16) (isn now : UInt32) : Conn where
  srcIp := srcIp
  srcPort := srcPort
  destIp := destIp
  destPort := destPort
  state := .synSent
  sendSeq := isn
  sendUna := isn
  recvSeq := 0
  sendWindow := UInt16.ofNat tcpRxBufferSize
  recvWindow := UInt16.ofNat tcpRxBufferSize
  mss := 1460
  rxBuffer := []
  txBuffer := []
  queue := []
  cwnd := 1
  ssthresh := 65535
  inSlowStart := true
  lastActivity := now
  pendingAccept := false
  valid := true

/-- A connection with the clock and the outgoing segments. -/
structure Endpoint where
  conn : Conn
  clock : Nat → UInt32
  asked : Nat
  wire : List Outgoing

namespace Endpoint

/-- `tcp_get_time`: the next reading. -/
def time (endpoint : Endpoint) : UInt32 :=
  endpoint.clock endpoint.asked

def tick (endpoint : Endpoint) : Endpoint :=
  { endpoint with asked := endpoint.asked + 1 }

def setConn (endpoint : Endpoint) (conn : Conn) : Endpoint :=
  { endpoint with conn := conn }

/-- `tcp_send` to the peer of the connection; it refuses long payloads. -/
def tcpSend (seqNum ackNum : UInt32) (flags : UInt8)
    (payload : List UInt8) (endpoint : Endpoint) : Endpoint :=
  if tcpMaxPayload < payload.length then
    endpoint
  else
    { endpoint with
      wire := endpoint.wire ++
        [{ destIp := endpoint.conn.destIp
           segment :=
            { srcPort := endpoint.conn.srcPort
              destPort := endpoint.conn.destPort
              seqNum := seqNum
              ackNum := ackNum
              flags := flags
              window := endpoint.conn.recvWindow
              payload := payload } }] }

/-- The acknowledgement that follows a change of `recv_seq`. -/
def sendAck (endpoint : Endpoint) : Endpoint :=
  endpoint.tcpSend endpoint.conn.sendSeq endpoint.conn.recvSeq tcpFlagAck []

end Endpoint

def tcpConnectionClose (conn : Conn) : Conn :=
  { conn with state := .closed, valid := false }

/-- `tcp_connect` on a new connection: the SYN takes a sequence number. -/
def openActive (endpoint : Endpoint) : Endpoint :=
  let sent := endpoint.tcpSend endpoint.conn.sendSeq 0 tcpFlagSyn []
  sent.setConn { sent.conn with sendSeq := sent.conn.sendSeq + 1 }

/-- A SYN that a listening port answers with a new connection. -/
def openPassive (segment : Segment) (endpoint : Endpoint) : Endpoint :=
  let received := endpoint.setConn
    { endpoint.conn with
      state := .synReceived
      recvSeq := segment.seqNum + 1 }
  let sent := received.tcpSend received.conn.sendSeq
    received.conn.recvSeq (tcpFlagSyn ||| tcpFlagAck) []
  sent.setConn { sent.conn with sendSeq := sent.conn.sendSeq + 1 }

/-! ## Application calls -/

def tcpConnectionSend (conn : Conn) (data : List UInt8) : Option Conn :=
  if conn.state ≠ .established then
    none
  else if tcpTxBufferSize - conn.txBuffer.length < data.length then
    none
  else
    some { conn with txBuffer := conn.txBuffer ++ data }

/-- `tcp_connection_receive`: the bytes and what is left. -/
def tcpConnectionReceive (conn : Conn) (maxLen : Nat) : List UInt8 × Conn :=
  (conn.rxBuffer.take maxLen,
    { conn with rxBuffer := conn.rxBuffer.drop maxLen })

/-- `tcp_add_retransmit`: a full queue drops the segment. -/
def tcpAddRetransmit (seq : UInt32) (data : List UInt8) (endpoint : Endpoint) : Endpoint :=
  if tcpMaxRetransmit ≤ endpoint.conn.queue.length then
    endpoint
  else
    let entry : Queued :=
      { seq := seq
        timeout := endpoint.time + tcpRtoInitial
        rto := tcpRtoInitial
        retries := 0
        data := data }
    endpoint.tick.setConn
      { endpoint.conn with queue := endpoint.conn.queue ++ [entry] }

/-- `tcp_ack_retransmit`: the entries that are kept. -/
def tcpAckRetransmit (ackNum : UInt32) (conn : Conn) : Conn :=
  { conn with
    queue := conn.queue.filter fun entry => decide (ackNum ≤ entry.finish) }

/-- The growth of the congestion window by some bytes. -/
def growWindow (bytes : UInt32) (conn : Conn) : Conn :=
  if conn.inSlowStart then
    let cwnd := conn.cwnd + bytes
    { conn with
      cwnd := cwnd
      inSlowStart := decide (cwnd < conn.ssthresh) }
  else
    { conn with cwnd := conn.cwnd + (bytes * bytes / conn.cwnd + 1) }

/-- What the connection counts as sent and not acknowledged. -/
def Conn.outstanding (conn : Conn) : UInt32 :=
  conn.sendSeq - conn.sendUna

def windowAvailable (conn : Conn) : UInt32 :=
  conn.sendWindow.toUInt32 - conn.outstanding

def cwndAvailable (conn : Conn) : UInt32 :=
  conn.cwnd - conn.outstanding

/-- The bytes of the next segment of `tcp_send_data`. -/
def nextChunk (conn : Conn) (data : List UInt8) : List UInt8 :=
  data.take (min (min (min data.length conn.mss.toNat)
    (windowAvailable conn).toNat) (cwndAvailable conn).toNat)

/-- Transmit one segment of `tcp_send_data`. -/
def transmit (chunk : List UInt8) (endpoint : Endpoint) : Endpoint :=
  let sent := endpoint.tcpSend endpoint.conn.sendSeq endpoint.conn.recvSeq
    (tcpFlagAck ||| tcpFlagPsh) chunk
  let queued := tcpAddRetransmit endpoint.conn.sendSeq chunk sent
  let advanced :=
    { queued.conn with
      sendSeq := queued.conn.sendSeq + UInt32.ofNat chunk.length }
  queued.setConn (growWindow (UInt32.ofNat chunk.length) advanced)

/-- The loop of `tcp_send_data`; it returns the number of bytes sent.  A round
sends at least a byte, so as many rounds as bytes are enough. -/
def sendLoop : Nat → List UInt8 → Endpoint → Nat × Endpoint
  | 0, _, endpoint => (0, endpoint)
  | rounds + 1, data, endpoint =>
    if data = [] ∨ windowAvailable endpoint.conn = 0 ∨
        cwndAvailable endpoint.conn = 0 then
      (0, endpoint)
    else
      let chunk := nextChunk endpoint.conn data
      let rest :=
        sendLoop rounds (data.drop chunk.length) (transmit chunk endpoint)
      (chunk.length + rest.1, rest.2)

/-- `tcp_send_data`: the number of bytes sent, or `none` for the result -1. -/
def tcpSendData (data : List UInt8) (endpoint : Endpoint) : Option Nat × Endpoint :=
  match tcpConnectionSend endpoint.conn data with
  | none => (none, endpoint)
  | some conn =>
    let sent := sendLoop data.length data (endpoint.setConn conn)
    (some sent.1, sent.2)

/-- A SYN for a connection that exists. -/
def handleSyn (segment : Segment) (endpoint : Endpoint) : Endpoint :=
  if endpoint.conn.state = .synSent then
    (endpoint.setConn
      { endpoint.conn with
        state := .established
        recvSeq := segment.seqNum + 1 }).sendAck
  else
    endpoint

/-- The state after an acknowledgement. -/
def ackState (segment : Segment) (conn : Conn) : Conn :=
  let opened :=
    if conn.state = .synReceived then
      { conn with state := .established, pendingAccept := true }
    else
      conn
  if opened.state = .finWait1 ∧ segment.ackNum = opened.sendSeq then
    { opened with state := .finWait2 }
  else
    opened

/-- New data is acknowledged. -/
def advanceUna (ackNum : UInt32) (conn : Conn) : Conn :=
  if conn.sendUna < ackNum then
    growWindow (ackNum - conn.sendUna)
      (tcpAckRetransmit ackNum { conn with sendUna := ackNum })
  else
    conn

/-- The ACK branch of `tcp_handle_packet`. -/
def handleAck (segment : Segment) (conn : Conn) : Conn :=
  { advanceUna segment.ackNum (ackState segment conn) with
    sendWindow := segment.window }

/-- The data part of `tcp_handle_packet`: only the next expected segment is
taken, and only when it fits the buffer. -/
def handleData (segment : Segment) (endpoint : Endpoint) : Endpoint :=
  let conn := endpoint.conn
  if segment.payload ≠ [] ∧ conn.state = .established ∧
      segment.seqNum = conn.recvSeq ∧
      conn.rxBuffer.length + segment.payload.length ≤ tcpRxBufferSize then
    let rxBuffer := conn.rxBuffer ++ segment.payload
    (endpoint.setConn
      { conn with
        rxBuffer := rxBuffer
        recvSeq := conn.recvSeq + UInt32.ofNat segment.payload.length
        recvWindow := UInt16.ofNat (tcpRxBufferSize - rxBuffer.length)
        }).sendAck
  else
    endpoint

/-- The FIN part of `tcp_handle_packet`. -/
def handleFin (segment : Segment) (endpoint : Endpoint) : Endpoint :=
  let conn := endpoint.conn
  if segment.has tcpFlagFin then
    if conn.state = .established then
      (endpoint.setConn
        { conn with
          state := .closeWait
          recvSeq := conn.recvSeq + 1 }).sendAck
    else if conn.state = .finWait2 then
      let acknowledged :=
        (endpoint.setConn { conn with recvSeq := conn.recvSeq + 1 }).sendAck
      acknowledged.setConn (tcpConnectionClose acknowledged.conn)
    else
      endpoint
  else
    endpoint

/-- The branches of `tcp_handle_packet` for SYN and ACK. -/
def handleControl (segment : Segment) (endpoint : Endpoint) : Endpoint :=
  if segment.has tcpFlagSyn then
    handleSyn segment endpoint
  else if segment.has tcpFlagAck then
    endpoint.setConn (handleAck segment endpoint.conn)
  else
    endpoint

/-- `tcp_handle_packet` for a segment of an existing connection. -/
def handleSegment (segment : Segment) (endpoint : Endpoint) : Endpoint :=
  if segment.has tcpFlagRst then
    endpoint.setConn (tcpConnectionClose endpoint.conn)
  else
    handleFin segment (handleData segment (handleControl segment endpoint))

/-- One entry of the queue in `tcp_process_timers`. -/
def timerEntry (entry : Queued) (endpoint : Endpoint) : Queued × Endpoint :=
  let read := endpoint.tick
  if entry.timeout ≤ endpoint.time then
    if entry.retries < tcpMaxRetransmit then
      let sent := read.tcpSend entry.seq read.conn.recvSeq tcpFlagAck
        entry.data
      let rto := min (entry.rto * 2) tcpRtoMax
      ({ entry with
          retries := entry.retries + 1
          rto := rto
          timeout := sent.time + rto }, sent.tick)
    else
      (entry, read.setConn (tcpConnectionClose read.conn))
  else
    (entry, read)

/-- The entries of the queue, one after the other. -/
def timerEntries : List Queued → Endpoint → List Queued × Endpoint
  | [], endpoint => ([], endpoint)
  | entry :: rest, endpoint =>
    let first := timerEntry entry endpoint
    let others := timerEntries rest first.2
    (first.1 :: others.1, others.2)

def processTimers (endpoint : Endpoint) : Endpoint :=
  if endpoint.conn.valid then
    let processed := timerEntries endpoint.conn.queue endpoint
    processed.2.setConn { processed.2.conn with queue := processed.1 }
  else
    endpoint

end KnitOS.Net
