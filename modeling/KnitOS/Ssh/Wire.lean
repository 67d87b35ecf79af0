import KnitOS.Lib.Memory
import KnitOS.Lib.Text
import Mathlib.Tactic.NormNum

/-!
# Byte buffers of the SSH server

The writer, the reader and the hash accumulator of `sshd.c`.  A packet buffer is
the memory from the start of a static array on: a read behind the payload
yields what was left there.
-/

namespace KnitOS.Ssh

open Lib

/-- A byte array of fixed size. -/
abbrev Bytes (size : Nat) : Type :=
  { bytes : List UInt8 // bytes.length = size }

/-- The four bytes of a word, the most significant one first. -/
def wordBytes (word : UInt32) : List UInt8 :=
  [(word >>> 24).toUInt8, (word >>> 16).toUInt8, (word >>> 8).toUInt8,
    word.toUInt8]

structure Buf where
  cap : Nat
  bytes : List UInt8

def Buf.empty (cap : Nat) : Buf := ⟨cap, []⟩

def bwU8 (value : UInt8) (buf : Buf) : Buf :=
  if buf.bytes.length < buf.cap then
    { buf with bytes := buf.bytes ++ [value] }
  else
    buf

def bwU32 (value : UInt32) (buf : Buf) : Buf :=
  (wordBytes value).foldl (fun buf byte => bwU8 byte buf) buf

def bwRaw (data : List UInt8) (buf : Buf) : Buf :=
  let size :=
    if buf.cap < buf.bytes.length + data.length then
      buf.cap - buf.bytes.length
    else
      data.length
  { buf with bytes := buf.bytes ++ data.take size }

def bwStr (data : List UInt8) (buf : Buf) : Buf :=
  bwRaw data (bwU32 (UInt32.ofNat data.length) buf)

def bwMpint (data : List UInt8) (buf : Buf) : Buf :=
  match data.dropWhile (· = 0) with
  | [] => bwU32 0 buf
  | first :: rest =>
    let size := UInt32.ofNat (first :: rest).length
    if first &&& 0x80 ≠ 0 then
      bwRaw (first :: rest) (bwU8 0 (bwU32 (size + 1) buf))
    else
      bwRaw (first :: rest) (bwU32 size buf)

structure Br where
  memory : Memory
  len : UInt32
  pos : UInt32

def brU8 (reader : Br) : UInt8 × Br :=
  if reader.pos < reader.len then
    (reader.memory reader.pos.toNat, { reader with pos := reader.pos + 1 })
  else
    (0, reader)

def brU32 (reader : Br) : UInt32 × Br :=
  let first := brU8 reader
  let second := brU8 first.2
  let third := brU8 second.2
  let fourth := brU8 third.2
  ((((first.1.toUInt32 <<< 8 ||| second.1.toUInt32) <<< 8 |||
      third.1.toUInt32) <<< 8) ||| fourth.1.toUInt32, fourth.2)

/-- The offset of the data and the reader behind it.  The sum is computed
modulo `2 ^ 32`; data that is not there is taken to lie at the end. -/
def brRaw (size : UInt32) (reader : Br) : Nat × Br :=
  if reader.len < reader.pos + size then
    (reader.len.toNat, { reader with pos := reader.len })
  else
    (reader.pos.toNat, { reader with pos := reader.pos + size })

/-- A string of a packet: its length as the packet has it, and where `br_raw`
points. -/
@[ext] structure Field where
  size : UInt32
  start : Nat

/-- `br_u32` for the length of a string and `br_raw` for its data, as in
`br_skip_str`. -/
def brStr (reader : Br) : Field × Br :=
  let size := brU32 reader
  let data := brRaw size.1 size.2
  (⟨size.1, data.1⟩, data.2)

/-- The bytes of a field that are copied to an array with the given room. -/
def Br.copied (reader : Br) (field : Field) (room : Nat) : List UInt8 :=
  (reader.memory.slice field.start (min field.size.toNat room)).1

/-- `memcmp` of a field with a text. -/
def Br.fieldIs (reader : Br) (field : Field) (name : List UInt8) : Bool :=
  field.size = UInt32.ofNat name.length &&
    decide ((reader.memory.slice field.start name.length).1 = name)

/-- The size of `buf` in `struct shactx`. -/
abbrev shaBufSize : Nat := 2048

def shaAdd (data acc : List UInt8) : List UInt8 :=
  let size :=
    if shaBufSize < acc.length + data.length then
      shaBufSize - acc.length
    else
      data.length
  acc ++ data.take size

def shaAddMpint (data acc : List UInt8) : List UInt8 :=
  shaAdd (bwMpint data (Buf.empty 300)).bytes acc

def shaAddStr (data acc : List UInt8) : List UInt8 :=
  shaAdd data (shaAdd (wordBytes (UInt32.ofNat data.length)) acc)

end KnitOS.Ssh
