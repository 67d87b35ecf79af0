import KnitOS.Lib.Runs

/-!
# Serial input

`serial_poll_char` of `serial_log.cpp` on the bytes that wait at COM1.
-/

namespace KnitOS.Console

open Lib

/-- The values 0 to 6 of `g_esc_state`; from 3 on a tilde is awaited. -/
inductive EscState where
  | idle
  | escape
  | bracket
  | two
  | three
  | one
  | four
deriving DecidableEq

abbrev keyUp : UInt8 := 0x80
abbrev keyDown : UInt8 := 0x81
abbrev keyLeft : UInt8 := 0x82
abbrev keyRight : UInt8 := 0x83
abbrev keyHome : UInt8 := 0x86
abbrev keyEnd : UInt8 := 0x87
abbrev keyDelete : UInt8 := 0x89

/-- The part of `serial_poll_char` behind the telnet commands. -/
def decodeByte (state : EscState) (byte : UInt8) : UInt8 × EscState :=
  if byte = 13 then (10, .idle)
  else if 1 ≤ byte ∧ byte ≤ 26 then (byte, .idle)
  else match state with
  | .escape => (0, if byte = 91 then .bracket else .idle)
  | .bracket =>
    match byte with
    | 65 => (keyUp, .idle)
    | 66 => (keyDown, .idle)
    | 67 => (keyRight, .idle)
    | 68 => (keyLeft, .idle)
    | 72 => (keyHome, .idle)
    | 70 => (keyEnd, .idle)
    | 50 => (0, .two)
    | 51 => (0, .three)
    | 49 => (0, .one)
    | 52 => (0, .four)
    | _ => (0, .idle)
  | .two | .three => (if byte = 126 then keyDelete else 0, .idle)
  | .one => (if byte = 126 then keyHome else 0, .idle)
  | .four => (if byte = 126 then keyEnd else 0, .idle)
  | .idle =>
    if byte = 0x1B then (0, .escape)
    else if byte = 127 ∨ byte = 8 then (8, .idle)
    else if byte = 10 ∨ byte = 9 ∨ 32 ≤ byte ∧ byte < 127 then (byte, .idle)
    else (0, .idle)

structure Serial where
  waiting : List UInt8
  telnetSkip : Nat
  escState : EscState

def serialPollChar (serial : Serial) : UInt8 × Serial :=
  if 0 < serial.telnetSkip then
    (0, { serial with
      telnetSkip := serial.telnetSkip - 1, waiting := serial.waiting.tail })
  else match serial.waiting with
  | [] => (0, serial)
  | byte :: waiting =>
    if byte = 0xFF then
      (0, { serial with waiting, telnetSkip := 2 })
    else
      let (char, escState) := decodeByte serial.escState byte
      (char, { serial with waiting, escState })

inductive SerialEvent where
  | arrive (byte : UInt8)
  | poll

/-- The port with the nonzero characters returned so far. -/
structure SerialRun extends Serial where
  returned : List UInt8

def SerialRun.step (run : SerialRun) : SerialEvent → SerialRun
  | .arrive byte => { run with waiting := run.waiting ++ [byte] }
  | .poll =>
    let (char, serial) := serialPollChar run.toSerial
    ⟨serial, run.returned ++ [char].filter (· ≠ 0)⟩

def SerialRun.booted : SerialRun := ⟨⟨[], 0, .idle⟩, []⟩

def arrivals : List SerialEvent → List UInt8
  | [] => []
  | .arrive byte :: events => byte :: arrivals events
  | .poll :: events => arrivals events

/-- The stream without its three-byte commands, of which `skip` bytes are left
at the front. -/
def withoutTelnet : Nat → List UInt8 → List UInt8
  | _, [] => []
  | skip + 1, _ :: stream => withoutTelnet skip stream
  | 0, byte :: stream =>
    if byte = 0xFF then withoutTelnet 2 stream else byte :: withoutTelnet 0 stream

/-- The nonzero characters that a stream without commands stands for. -/
def characters (state : EscState) : List UInt8 → List UInt8
  | [] => []
  | byte :: stream =>
    [(decodeByte state byte).1].filter (· ≠ 0) ++
      characters (decodeByte state byte).2 stream

/-- What has been returned, and what the bytes still to be polled stand for. -/
def SerialRun.all (run : SerialRun) (stream : List UInt8) : List UInt8 :=
  run.returned ++
    characters run.escState (withoutTelnet run.telnetSkip (run.waiting ++ stream))

/-- A poll within a telnet command finds a byte. -/
def SerialRun.Timely (run : SerialRun) : SerialEvent → Prop
  | .arrive _ => True
  | .poll => run.waiting = [] → run.telnetSkip = 0

instance SerialRun.decideTimely (run : SerialRun) : ∀ event, Decidable (run.Timely event)
  | .arrive _ => isTrue trivial
  | .poll => inferInstanceAs (Decidable (_ → _))

theorem SerialRun.all_poll {run : SerialRun} (timely : run.Timely .poll)
    (stream : List UInt8) : (run.step .poll).all stream = run.all stream := by
  obtain ⟨⟨waiting, telnetSkip, escState⟩, returned⟩ := run
  cases waiting with
  | nil =>
    obtain rfl : telnetSkip = 0 := timely rfl
    simp [step, serialPollChar, all]
  | cons byte waiting =>
    cases telnetSkip with
    | succ skip => simp [step, serialPollChar, all, withoutTelnet]
    | zero =>
      by_cases iac : byte = 0xFF
      · simp [step, serialPollChar, all, withoutTelnet, iac]
      · simp [step, serialPollChar, all, withoutTelnet, iac, characters]

theorem SerialRun.all_runFrom {run : SerialRun} {events : List SerialEvent}
    (timely : AlongRun step Timely run events) (stream : List UInt8) :
    (runFrom step run events).all stream = run.all (arrivals events ++ stream) := by
  induction events generalizing run with
  | nil => rfl
  | cons event events ih =>
    rw [runFrom_cons, ih timely.2]
    cases event with
    | arrive byte => simp [step, all, arrivals]
    | poll => exact all_poll timely.1 _

/-- Whenever the bytes arrive and are polled, the returned characters are those
of the stream without its telnet commands. -/
theorem SerialRun.returned_eq_characters {events : List SerialEvent}
    (timely : AlongRun step Timely booted events)
    (drained : (runFrom step booted events).waiting = []) :
    (runFrom step booted events).returned =
      characters .idle (withoutTelnet 0 (arrivals events)) := by
  have same : _ = characters .idle (withoutTelnet 0 (arrivals events ++ [])) :=
    all_runFrom timely []
  simpa [all, drained, withoutTelnet, characters] using same

theorem SerialRun.returned_arrow :
    (runFrom step booted [.poll, .arrive 0x1B, .arrive 91, .poll, .arrive 0xFF, .arrive 0xFB,
      .arrive 3, .poll, .poll, .poll, .poll, .poll, .arrive 65, .poll]).returned =
      characters .idle [0x1B, 91, 65] :=
  returned_eq_characters (by decide) (by decide)

/-- Polls between the bytes of a command use up its skip: its option byte 3 is
returned as Ctrl-C. -/
theorem SerialRun.command_byte_returned :
    (runFrom step booted [.arrive 0xFF, .poll, .poll, .poll, .arrive 0xFB, .arrive 3,
      .poll, .poll]).returned = [3] ∧
    (runFrom step booted [.arrive 0xFF, .arrive 0xFB, .arrive 3, .poll, .poll,
      .poll]).returned = [] := by
  decide

end KnitOS.Console
