import KnitOS.Net.HttpProtocol

/-!
# Receiving HTTP requests

`http_recv_request` of `http_server.cpp` on one connection: the bytes its socket
has buffered and the chunks still to arrive.  The request buffer is static, so
what earlier calls left behind follows the bytes of this call.
-/

namespace KnitOS.Net

open Lib

structure Feed where
  buffered : List UInt8
  chunks : List (List UInt8)
deriving DecidableEq

namespace Feed

/-- All bytes that were not received yet. -/
def bytes (feed : Feed) : List UInt8 :=
  feed.buffered ++ feed.chunks.flatten

/-- `socket_recv` of at most `maxLen` bytes. -/
def recv (maxLen : Nat) (feed : Feed) : List UInt8 × Feed :=
  match feed.buffered, feed.chunks with
  | [], [] => ([], feed)
  | [], chunk :: rest => (chunk.take maxLen, ⟨chunk.drop maxLen, rest⟩)
  | buffered, chunks => (buffered.take maxLen, ⟨buffered.drop maxLen, chunks⟩)

/-- `socket_recv_exact`: its rounds never yield, so no chunk arrives in them,
and it takes what is buffered when it is called. -/
def recvExact (need : Nat) (feed : Feed) : List UInt8 × Feed :=
  (feed.buffered.take need, ⟨feed.buffered.drop need, feed.chunks⟩)

end Feed

abbrev httpReqMax : Nat := 2048

abbrev httpPendingMax : Nat := 512

def httpFindHdrEnd : List UInt8 → Option Nat
  | [] => none
  | byte :: rest =>
    if [carriageReturn, lineFeed, carriageReturn, lineFeed].isPrefixOf
        (byte :: rest) then
      some 4
    else
      (httpFindHdrEnd rest).map (· + 1)

/-- The request buffer, filled up to `got`, and the connection. -/
structure Reader where
  got : List UInt8
  stale : List UInt8
  feed : Feed
deriving DecidableEq

namespace Reader

/-- The bytes received by this call and those that were not received yet. -/
def bytes (reader : Reader) : List UInt8 := reader.got ++ reader.feed.bytes

/-- The space before the last byte of the buffer. -/
def space (reader : Reader) : Nat := httpReqMax - reader.got.length - 1

def add (reader : Reader) (received : List UInt8) (feed : Feed) : Reader :=
  { got := reader.got ++ received
    stale := reader.stale.drop received.length
    feed := feed }

/-- `buf[total] = 0`. -/
def terminate (reader : Reader) : Reader :=
  { reader with stale := 0 :: reader.stale.drop 1 }

/-- The loops end with a full buffer or a whole head. -/
def finished (reader : Reader) : Bool :=
  decide (reader.space = 0) || (httpFindHdrEnd reader.got).isSome

/-- The loop that takes what is there. -/
def drain : Nat → Reader → Reader
  | 0, reader => reader
  | rounds + 1, reader =>
    if reader.finished then
      reader
    else if reader.feed.buffered = [] then
      reader
    else
      let received := reader.feed.recv
        (min reader.space reader.feed.buffered.length)
      if received.1 = [] then
        reader
      else
        drain rounds (reader.add received.1 received.2)

/-- The loop that waits for the head; the first component is false when the
call fails. -/
def receiveHead (shortIdle : Bool) : Nat → Nat → Reader → Bool × Reader
  | 0, _, reader => (true, reader)
  | rounds + 1, round, reader =>
    if reader.finished then
      (true, reader)
    else
      let received := reader.feed.recv reader.space
      if shortIdle && decide (1 < round) &&
          decide (reader.feed.buffered = []) then
        if received.1 = [] then
          (false, reader)
        else
          receiveHead shortIdle rounds (round + 1)
            (reader.add received.1 received.2)
      else if received.1 = [] then
        receiveHead shortIdle rounds (round + 1)
          { reader with feed := received.2 }
      else
        receiveHead shortIdle rounds (round + 1)
          (reader.add received.1 received.2).terminate

end Reader

/-- `max_rounds`. -/
def headRounds (shortIdle : Bool) : Nat := if shortIdle then 12 else 60

/-- The static buffers of the server, the connection and what was sent on
it. -/
structure HttpConn where
  buffer : List UInt8
  pending : List UInt8
  feed : Feed
  sent : List (List UInt8)
deriving DecidableEq

/-- A request as the handler gets it: the head and the body. -/
abbrev Handed : Type := List UInt8 × List UInt8

/-- `http_save_pending`: the loop ends when the pending buffer is full or the
socket is empty. -/
def httpSavePending (pending : List UInt8) (feed : Feed) : List UInt8 × Feed :=
  let room := httpPendingMax - pending.length
  (pending ++ feed.buffered.take room,
    ⟨feed.buffered.drop room, feed.chunks⟩)

/-- The part of `http_recv_request` after the head was parsed. -/
def httpReceiveBody (reader : Reader) (hdrEnd : Nat) (info : HttpRequestInfo)
    (conn : HttpConn) : Handed × HttpConn :=
  let inbuf := reader.got.drop hdrEnd
  let bodyInBuf := inbuf.take info.contentLength
  let need := info.contentLength - bodyInBuf.length
  let rest :=
    if need = 0 then
      ([], reader.feed)
    else
      reader.feed.recvExact need
  let body :=
    if rest.1.length = need then bodyInBuf ++ rest.1 else bodyInBuf
  let extra :=
    if info.contentLength = 0 then
      []
    else
      (inbuf.drop bodyInBuf.length).take httpPendingMax
  let saved := httpSavePending extra rest.2
  ((reader.got.take hdrEnd, body),
    { buffer := reader.got ++ reader.stale
      pending := saved.1
      feed := saved.2
      sent :=
        if info.expectContinue then
          conn.sent ++ [ascii "HTTP/1.1 100 Continue\r\n\r\n"]
        else
          conn.sent })

/-- The start of `http_recv_request`, up to the end of its loops.  The length
of the pending bytes is set to zero before they are taken. -/
def httpReceive (shortIdle : Bool) (conn : HttpConn) : Bool × Reader :=
  let pending : List UInt8 := []
  let taken := pending.take (httpReqMax - 1)
  Reader.receiveHead shortIdle (headRounds shortIdle) 0
    (Reader.drain 16 ⟨taken, conn.buffer.drop taken.length, conn.feed⟩)

/-- The rest of `http_recv_request`. -/
def httpFinish (reader : Reader) (conn : HttpConn) : Option Handed × HttpConn :=
  let left : HttpConn :=
    { conn with
      buffer := reader.got ++ reader.stale
      pending := []
      feed := reader.feed }
  match httpFindHdrEnd reader.got with
  | none =>
    if reader.got = [] then
      (none, left)
    else
      (some (reader.got, []), left)
  | some hdrEnd =>
    match httpParseRequest (reader.got ++ reader.stale) hdrEnd with
    | .error _ => (some (reader.got.take hdrEnd, []), left)
    | .ok info =>
      let result := httpReceiveBody reader hdrEnd info left
      (some result.1, result.2)

/-- `http_recv_request`: the request, if there is one. -/
def httpRecvRequest (shortIdle : Bool) (conn : HttpConn) : Option Handed × HttpConn :=
  let received := httpReceive shortIdle conn
  if received.1 = false then
    (none,
      { conn with
        buffer := received.2.got ++ received.2.stale
        pending := []
        feed := received.2.feed })
  else
    httpFinish received.2 conn

/-- What successive calls hand to the handler; the first call waits longer. -/
def httpServe : Nat → Bool → HttpConn → List Handed
  | 0, _, _ => []
  | calls + 1, shortIdle, conn =>
    match httpRecvRequest shortIdle conn with
    | (none, _) => []
    | (some request, left) => request :: httpServe calls true left

end KnitOS.Net
