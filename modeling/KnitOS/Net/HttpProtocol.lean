import KnitOS.Lib.Text
import Mathlib.Algebra.Ring.Nat
import Mathlib.Data.List.Basic

/-!
# HTTP requests

`http_parse_request` of `http_protocol.cpp`.  It is given a NUL-terminated
buffer and the length of the head.  Header values are read from the buffer, not
from the head: a value ends at the NUL byte.
-/

namespace KnitOS.Net

open Lib

abbrev space : UInt8 := 32

def httpTolower (char : UInt8) : UInt8 :=
  if 65 ≤ char ∧ char ≤ 90 then char + 32 else char

def isLineEnd (char : UInt8) : Bool :=
  char = carriageReturn || char = lineFeed

/-- `http_header_eq` on a NUL-terminated name. -/
def httpHeaderEq (line name : List UInt8) : Bool :=
  ((List.range name.length).all fun index =>
      httpTolower (line.getD index 0) = name.getD index 0) &&
    [0, colon, space].contains (line.getD name.length 0)

/-- `http_skip_line`: the position after the line and its line ends. -/
def httpSkipLine (head : List UInt8) (pos : Nat) : Nat :=
  let lineEnd := pos + ((head.drop pos).takeWhile fun char =>
    !isLineEnd char).length
  lineEnd + ((head.drop lineEnd).takeWhile isLineEnd).length

/-- `http_str_icontains` on a NUL-terminated text. -/
def httpStrIcontains (hay needle : List UInt8) : Bool :=
  hay.tails.any fun rest =>
    !rest.isEmpty && needle.isPrefixOf (rest.map httpTolower)

/-- `http_header_value` in the text from the line on. -/
def httpHeaderValue (text : List UInt8) : List UInt8 :=
  (((text.takeWhile (· ≠ 0)).dropWhile (· ≠ colon)).drop 1).dropWhile
    (· = space)

inductive HttpMethod where
  | get
  | head
  | options
  | post
  | put
deriving DecidableEq

def httpParseMethod (head : List UInt8) : Option HttpMethod :=
  if (ascii "GET ").isPrefixOf head then
    some .get
  else if (ascii "HEAD ").isPrefixOf head then
    some .head
  else if (ascii "OPTIONS ").isPrefixOf head then
    some .options
  else if (ascii "POST ").isPrefixOf head then
    some .post
  else if (ascii "PUT ").isPrefixOf head then
    some .put
  else
    none

/-- `http_parse_version`: whether the version is accepted, and whether it is
1.1. -/
def httpParseVersion (head : List UInt8) (pathEnd : Nat) : Bool × Bool :=
  let rest := (head.drop pathEnd).dropWhile (· = space)
  if 8 ≤ rest.length ∧ (ascii "HTTP/").isPrefixOf rest then
    if (ascii "HTTP/1.1").isPrefixOf rest then
      (true, true)
    else if (ascii "HTTP/1.0").isPrefixOf rest then
      (true, false)
    else if (ascii "HTTP/2").isPrefixOf rest then
      (false, false)
    else
      (true, false)
  else
    (true, false)

/-- `struct http_request_info` of a request that was parsed. -/
structure HttpRequestInfo where
  method : HttpMethod
  path : List UInt8
  isHttp11 : Bool
  keepAlive : Bool
  acceptGzip : Bool
  expectContinue : Bool
  chunkedBody : Bool
  contentLength : Nat
deriving DecidableEq

/-- The results -1, -2 and -3 of `http_parse_request`. -/
inductive HttpParseError where
  | badRequest
  | unknownMethod
  | badVersion
deriving DecidableEq

/-- The number at the start of a value, as a 32-bit `int`. -/
def httpDigits (value : List UInt8) : UInt32 :=
  (value.takeWhile fun char => 48 ≤ char ∧ char ≤ 57).foldl
    (fun number char => number * 10 + (char - 48).toUInt32) 0

/-- What the header lines have said so far. -/
structure HttpHeaders where
  connClose : Bool
  connKeep : Bool
  acceptGzip : Bool
  expectContinue : Bool
  chunkedBody : Bool
  contentLength : Nat
deriving DecidableEq

/-- One header line; `text` is the buffer from the line on. -/
def httpHeaderLine (line text : List UInt8) (headers : HttpHeaders) : HttpHeaders :=
  let name := (line.takeWhile (· ≠ colon)).take 31
  let value := httpHeaderValue text
  if httpHeaderEq name (ascii "connection") then
    { headers with
      connClose := headers.connClose || httpStrIcontains value (ascii "close")
      connKeep := headers.connKeep ||
        httpStrIcontains value (ascii "keep-alive") }
  else if httpHeaderEq name (ascii "content-length") then
    -- a negative number has the top bit set
    if httpDigits value ≤ 4096 then
      { headers with contentLength := (httpDigits value).toNat }
    else
      headers
  else if httpHeaderEq name (ascii "accept-encoding") then
    { headers with
      acceptGzip := headers.acceptGzip ||
        httpStrIcontains value (ascii "gzip") }
  else if httpHeaderEq name (ascii "expect") then
    { headers with
      expectContinue := headers.expectContinue ||
        httpStrIcontains value (ascii "100-continue") }
  else if httpHeaderEq name (ascii "transfer-encoding") then
    { headers with
      chunkedBody := headers.chunkedBody ||
        httpStrIcontains value (ascii "chunked") }
  else
    headers

/-- The loop over the header lines.  Every round moves on, so as many rounds as
bytes are enough. -/
def httpHeaderLoop (buffer head : List UInt8) : Nat → Nat → HttpHeaders → HttpHeaders
  | 0, _, headers => headers
  | rounds + 1, pos, headers =>
    if head.length ≤ pos then
      headers
    else if [carriageReturn, lineFeed].isPrefixOf (head.drop pos) then
      headers
    else
      let next := httpSkipLine head pos
      let line := ((head.take next).drop pos).reverse.dropWhile isLineEnd
      if line = [] then
        httpHeaderLoop buffer head rounds next headers
      else
        httpHeaderLoop buffer head rounds next
          (httpHeaderLine line.reverse (buffer.drop pos) headers)

/-- The path of the request line, up to the query. -/
def httpPath (target : List UInt8) : List UInt8 :=
  (target.takeWhile (· ≠ 63)).take 191

/-- `http_parse_request` on the first `reqLen` bytes of the buffer. -/
def httpParseRequest (buffer : List UInt8) (reqLen : Nat) : Except HttpParseError HttpRequestInfo :=
  let head := buffer.take reqLen
  if reqLen < 16 then
    .error .badRequest
  else
    match httpParseMethod head with
    | none => .error .unknownMethod
    | some method =>
      let start := (head.takeWhile (· ≠ space)).length
      if head.length ≤ start then
        .error .badRequest
      else
        let target := (head.drop (start + 1)).takeWhile fun char =>
          char ≠ space && !isLineEnd char
        if target = [] then
          .error .badRequest
        else
          let version := httpParseVersion head (start + 1 + target.length)
          if version.1 = false then
            .error .badVersion
          else
            let headers := httpHeaderLoop buffer head head.length
              (httpSkipLine head 0)
              ⟨false, false, false, false, false, 0⟩
            .ok
              { method := method
                path := httpPath target
                isHttp11 := version.2
                keepAlive := !headers.connClose &&
                  (headers.connKeep || version.2)
                acceptGzip := headers.acceptGzip
                expectContinue := headers.expectContinue
                chunkedBody := headers.chunkedBody
                contentLength := headers.contentLength }

end KnitOS.Net
