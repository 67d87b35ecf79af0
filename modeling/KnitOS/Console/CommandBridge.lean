import KnitOS.Lib.Lines
import KnitOS.Lib.Runs

/-!
# The kernel-command bridge

`kernel_run_command` posts a command in the one slot all callers share and
yields until the console loop has answered.  A step is what a task does between
two yields.  The numbers of the requests, and the lists of requests, executions
and returns, are a history beside the kernel's state.
-/

namespace KnitOS.Console

open Lib Function

abbrev kcmdReqCap : Nat := 256
abbrev kcmdRespCap : Nat := 8192

/-- The values 0 to 3 of `g_state`. -/
inductive BridgeState where
  | idle
  | pending
  | ready
  | notFound
deriving DecidableEq

structure Bridge where
  state : BridgeState
  req : CharArray kcmdReqCap
  resp : Nat → UInt8
  respLen : Nat

/-- `kernel_kcmd_take`: the console's copy of the command. -/
def kernelKcmdTake (bridge : Bridge) : Option (CharArray kcmdReqCap) :=
  if bridge.state = .pending then
    some (strncpy kcmdReqCap bridge.req.toCStr)
  else
    none

def kernelKcmdReply (len : Nat) (bridge : Bridge) : Bridge :=
  let len := min len kcmdRespCap
  { bridge with
    state := .ready
    resp := if len < kcmdRespCap then update bridge.resp len 0
      else bridge.resp
    respLen := len }

def kernelKcmdReplyNotfound (bridge : Bridge) : Bridge :=
  { bridge with state := .notFound, respLen := 0 }

/-- `terminal_putchar` while the output is captured in the response. -/
def terminalPutchar (len : Nat) (char : UInt8) (bridge : Bridge) : Nat × Bridge :=
  if len + 1 < kcmdRespCap then
    (len + 1, { bridge with resp := update bridge.resp len char })
  else
    (len, bridge)

def terminalCaptureEnd (len : Nat) (bridge : Bridge) : Bridge :=
  if len < kcmdRespCap then
    { bridge with resp := update bridge.resp len 0 }
  else
    bridge

def readResp (len : Nat) (bridge : Bridge) : List UInt8 :=
  (List.range len).map bridge.resp

/-- A call of `kernel_run_command` that has posted its command and yields. -/
structure Caller where
  ticket : Nat
  cmd : CStr
  cap : Nat
  since : UInt32

/-- The console loop inside `process_command`; `printed` is all that was printed
since the command was taken, `len` how much of it the response holds. -/
structure Running where
  ticket : Nat
  command : CharArray kcmdReqCap
  len : Nat
  printed : List UInt8

/-- What `kernel_run_command` returns: a response of the console, its -1 for an
unknown command, or whatever `kcmd_fallback` makes of the command. -/
inductive Answer where
  | output (bytes : List UInt8)
  | notFound
  | fallback
deriving DecidableEq

structure Returned where
  caller : Caller
  answer : Answer

/-- A command that the console has run. -/
structure Execution where
  ticket : Nat
  command : CharArray kcmdReqCap
  printed : List UInt8
  handled : Bool

structure System where
  bridge : Bridge
  now : UInt32
  callers : List Caller
  console : Option Running
  requests : List CStr
  executions : List Execution
  returned : List Returned

inductive Event where
  /-- A task calls `kernel_run_command`. -/
  | run (cmd : CStr) (cap : Nat)
  /-- A waiting call comes back from `sched_yield`. -/
  | resume (index : Nat)
  | take
  | print (char : UInt8)
  | finish (handled : Bool)
  | tick (ms : UInt32)

/-- `kernel_run_command` up to its first yield. -/
def post (cmd : CStr) (cap : Nat) (system : System) : System :=
  if cap = 0 then
    system
  else
    { system with
      bridge :=
        { system.bridge with
          state := .pending
          req := strncpy kcmdReqCap cmd
          respLen := 0 }
      callers := system.callers ++
        [{ ticket := system.requests.length, cmd, cap, since := system.now }]
      requests := system.requests ++ [cmd] }

/-- A waiting call returns and leaves the slot idle. -/
def leave (index : Nat) (caller : Caller) (answer : Answer) (system : System) : System :=
  { system with
    bridge := { system.bridge with state := .idle }
    callers := system.callers.eraseIdx index
    returned := system.returned ++ [{ caller, answer }] }

/-- `kernel_run_command` after a yield.  The time is looked at first, also when
a response has come meanwhile. -/
def resume (index : Nat) (system : System) : System :=
  match system.callers[index]? with
  | none => system
  | some caller =>
    if 30000 < system.now - caller.since then
      leave index caller .fallback system
    else
      match system.bridge.state with
      | .pending => system
      | .ready =>
        leave index caller
          (.output (readResp (min system.bridge.respLen caller.cap)
            system.bridge)) system
      | .notFound => leave index caller .notFound system
      | .idle => leave index caller .fallback system

/-- The console loop looks for a command; the captured output starts empty. -/
def take (system : System) : System :=
  match system.console, kernelKcmdTake system.bridge with
  | none, some command =>
    { system with
      console := some
        { ticket := system.requests.length - 1
          command
          len := 0
          printed := [] } }
  | _, _ => system

/-- Something is printed.  It is captured only while a command runs. -/
def print (char : UInt8) (system : System) : System :=
  match system.console with
  | none => system
  | some running =>
    let put := terminalPutchar running.len char system.bridge
    { system with
      bridge := put.2
      console := some
        { running with
          len := put.1
          printed := running.printed ++ [char] } }

/-- The command is over; `handled` is the value of `cmd_handled`. -/
def finish (handled : Bool) (system : System) : System :=
  match system.console with
  | none => system
  | some running =>
    let ended := terminalCaptureEnd running.len system.bridge
    { system with
      bridge :=
        if handled then kernelKcmdReply running.len ended
        else kernelKcmdReplyNotfound ended
      console := none
      executions := system.executions ++
        [{ ticket := running.ticket
           command := running.command
           printed := running.printed
           handled }] }

def step (system : System) (event : Event) : System :=
  match event with
  | .run cmd cap => post cmd cap system
  | .resume index => resume index system
  | .take => take system
  | .print char => print char system
  | .finish handled => finish handled system
  | .tick ms => { system with now := system.now + ms }

def booted : System where
  bridge :=
    { state := .idle
      req := strncpy kcmdReqCap (.ofBytes [])
      resp := fun _ => 0
      respLen := 0 }
  now := 0
  callers := []
  console := none
  requests := []
  executions := []
  returned := []

/-- The bytes of a command's output that the response can hold. -/
def Execution.captured (execution : Execution) : List UInt8 :=
  execution.printed.take (kcmdRespCap - 1)

/-- The answer is what the console made of the caller's own request. -/
def Returned.IsOwn (executions : List Execution) (returned : Returned) : Prop :=
  match returned.answer with
  | .output bytes => ∃ execution ∈ executions,
      execution.ticket = returned.caller.ticket ∧ execution.handled = true ∧
        bytes = execution.captured.take returned.caller.cap
  | .notFound => ∃ execution ∈ executions,
      execution.ticket = returned.caller.ticket ∧ execution.handled = false
  | .fallback => True

theorem Returned.IsOwn.append {executions : List Execution}
    {returned : Returned} (own : returned.IsOwn executions)
    (later : List Execution) : returned.IsOwn (executions ++ later) := by
  obtain ⟨caller, answer⟩ := returned
  cases answer with
  | output bytes =>
    obtain ⟨execution, member, facts⟩ := own
    exact ⟨execution, List.mem_append_left _ member, facts⟩
  | notFound =>
    obtain ⟨execution, member, facts⟩ := own
    exact ⟨execution, List.mem_append_left _ member, facts⟩
  | fallback => trivial

/-- A command's text is the text of the one request it is run for. -/
def RunsRequest (requests : List CStr) (ticket : Nat) (command : CharArray kcmdReqCap) : Prop :=
  ∃ cmd, requests[ticket]? = some cmd ∧ command = strncpy kcmdReqCap cmd

/-- Every call that returned a response of the console got that of its own
request, and every command was run with the text of one request. -/
structure AnswersOwn (system : System) : Prop where
  returned : ∀ returned ∈ system.returned, returned.IsOwn system.executions
  executed : ∀ execution ∈ system.executions,
    RunsRequest system.requests execution.ticket execution.command

theorem RunsRequest.append {requests : List CStr} {ticket : Nat} {command : CharArray kcmdReqCap}
    (runs : RunsRequest requests ticket command) (later : List CStr) :
    RunsRequest (requests ++ later) ticket command := by
  obtain ⟨cmd, found, text⟩ := runs
  have inside : ticket < requests.length := (List.getElem?_eq_some_iff.mp found).1
  exact ⟨cmd, (List.getElem?_append_left inside).trans found, text⟩

/-- The slot, the console and every execution have the text of one request. -/
structure TextsOwn (system : System) : Prop where
  slot : system.bridge.state = .pending →
    RunsRequest system.requests (system.requests.length - 1) system.bridge.req
  running : ∀ running, system.console = some running →
    RunsRequest system.requests running.ticket running.command
  executed : ∀ execution ∈ system.executions,
    RunsRequest system.requests execution.ticket execution.command

namespace TextsOwn

variable {system : System} (texts : TextsOwn system)
include texts

theorem post (cmd : CStr) (cap : Nat) : TextsOwn (post cmd cap system) := by
  unfold Console.post
  split
  · exact texts
  · refine ⟨?_, ?_, ?_⟩
    · intro _
      exact ⟨cmd, by simp, rfl⟩
    · intro running isRunning
      exact (texts.running running isRunning).append [cmd]
    · intro execution member
      exact (texts.executed execution member).append [cmd]

theorem leave (index : Nat) (caller : Caller)
    (answer : Answer) : TextsOwn (leave index caller answer system) :=
  ⟨BridgeState.noConfusion, texts.running, texts.executed⟩

theorem resume (index : Nat) : TextsOwn (resume index system) := by
  unfold Console.resume
  split
  · exact texts
  · split
    · exact texts.leave ..
    · split
      · exact texts
      · exact texts.leave ..
      · exact texts.leave ..
      · exact texts.leave ..

theorem take : TextsOwn (take system) := by
  unfold Console.take
  split
  · rename_i command _ taken
    refine ⟨texts.slot, ?_, texts.executed⟩
    intro running isRunning
    cases isRunning
    unfold kernelKcmdTake at taken
    split at taken
    · rename_i pending
      cases taken
      rw [strncpy_toCStr]
      exact texts.slot pending
    · cases taken
  · exact texts

theorem print (char : UInt8) : TextsOwn (print char system) := by
  unfold Console.print
  split
  · exact texts
  · rename_i running isRunning
    refine ⟨?_, ?_, texts.executed⟩
    · unfold terminalPutchar
      split
      · exact texts.slot
      · exact texts.slot
    · intro later isLater
      cases isLater
      exact texts.running running isRunning

theorem finish (handled : Bool) : TextsOwn (finish handled system) := by
  unfold Console.finish
  split
  · exact texts
  · rename_i running isRunning
    refine ⟨?_, ?_, ?_⟩
    · cases handled with
      | true => exact BridgeState.noConfusion
      | false => exact BridgeState.noConfusion
    · intro later isLater
      cases isLater
    · exact List.forall_mem_append.mpr ⟨texts.executed,
        List.forall_mem_singleton.mpr (texts.running running isRunning)⟩

theorem step (event : Event) : TextsOwn (step system event) := by
  cases event with
  | run cmd cap => exact texts.post cmd cap
  | resume index => exact texts.resume index
  | take => exact texts.take
  | print char => exact texts.print char
  | finish handled => exact texts.finish handled
  | tick ms => exact ⟨texts.slot, texts.running, texts.executed⟩

end TextsOwn

/-- A call is made while no other call waits and the console runs nothing. -/
def InTurn (system : System) (event : Event) : Prop :=
  match event with
  | .run _ cap => cap = 0 ∨
      (system.callers.isEmpty = true ∧ system.console.isNone = true)
  | _ => True

instance decidableInTurn (system : System) : ∀ event, Decidable (InTurn system event)
  | .run _ cap => inferInstanceAs (Decidable (cap = 0 ∨
      (system.callers.isEmpty = true ∧ system.console.isNone = true)))
  | .resume _ => isTrue trivial
  | .take => isTrue trivial
  | .print _ => isTrue trivial
  | .finish _ => isTrue trivial
  | .tick _ => isTrue trivial

/-- What holds while every call was made in turn: the waiting call, the running
command and the answer in the slot all belong to the last request. -/
structure Ordered (system : System) : Prop where
  callers : ∀ caller ∈ system.callers, caller.ticket + 1 = system.requests.length
  running : ∀ running, system.console = some running → running.ticket + 1 = system.requests.length ∧
      (system.bridge.state = .pending ∨ system.bridge.state = .idle) ∧
      readResp running.len system.bridge = running.printed.take (kcmdRespCap - 1)
  asked : system.bridge.state = .pending → 0 < system.requests.length
  ready : system.bridge.state = .ready → ∃ execution ∈ system.executions,
      execution.ticket + 1 = system.requests.length ∧ execution.handled = true ∧
        readResp system.bridge.respLen system.bridge = execution.captured
  notFound : system.bridge.state = .notFound → ∃ execution ∈ system.executions,
      execution.ticket + 1 = system.requests.length ∧ execution.handled = false
  returned : ∀ returned ∈ system.returned, returned.IsOwn system.executions

theorem length_readResp (len : Nat) (bridge : Bridge) : (readResp len bridge).length = len := by
  simp [readResp]

theorem readResp_take (len cap : Nat) (bridge : Bridge) :
    readResp (min len cap) bridge = (readResp len bridge).take cap := by
  unfold readResp
  rw [← List.map_take, List.take_range, Nat.min_comm]

theorem readResp_update {len index : Nat} (behind : len ≤ index) (char : UInt8) (bridge : Bridge) :
    readResp len { bridge with resp := update bridge.resp index char } = readResp len bridge := by
  refine List.map_congr_left fun other inside => ?_
  have different : other ≠ index := by
    have less := List.mem_range.mp inside
    omega
  exact update_of_ne different ..

theorem readResp_succ (len : Nat) (char : UInt8) (bridge : Bridge) : readResp (len + 1)
        { bridge with resp := update bridge.resp len char } =
      readResp len bridge ++ [char] := by
  have last : readResp (len + 1) { bridge with resp := update bridge.resp len char } = readResp len
          { bridge with resp := update bridge.resp len char } ++
        [update bridge.resp len char len] := by
    unfold readResp
    rw [List.range_succ, List.map_append, List.map_singleton]
  rw [last, readResp_update le_rfl, update_self]

theorem readResp_terminalPutchar {len : Nat} {printed : List UInt8}
    {bridge : Bridge} (captured : readResp len bridge = printed.take (kcmdRespCap - 1))
    (char : UInt8) : readResp (terminalPutchar len char bridge).1
        (terminalPutchar len char bridge).2 = (printed ++ [char]).take (kcmdRespCap - 1) := by
  have lengths := congrArg List.length captured
  rw [length_readResp, List.length_take] at lengths
  unfold terminalPutchar
  split
  · rename_i room
    have fits : (printed ++ [char]).length ≤ kcmdRespCap - 1 := by
      rw [List.length_append, List.length_singleton]
      simp only [kcmdRespCap] at room lengths ⊢
      omega
    have fitted : printed.length ≤ kcmdRespCap - 1 := by
      rw [List.length_append] at fits
      omega
    rw [readResp_succ, captured, List.take_of_length_le fitted, List.take_of_length_le fits]
  · rename_i full
    have filled : kcmdRespCap - 1 ≤ printed.length := by
      simp only [kcmdRespCap] at full lengths ⊢
      omega
    rw [captured, List.take_append_of_le_length filled]

theorem readResp_kernelKcmdReply {len : Nat} (room : len < kcmdRespCap) (bridge : Bridge) :
    (kernelKcmdReply len (terminalCaptureEnd len bridge)).respLen = len ∧
      readResp len (kernelKcmdReply len (terminalCaptureEnd len bridge)) = readResp len bridge := by
  have whole : min len kcmdRespCap = len := Nat.min_eq_left room.le
  have ended : readResp len (terminalCaptureEnd len bridge) = readResp len bridge := by
    unfold terminalCaptureEnd
    rw [if_pos room]
    exact readResp_update le_rfl 0 bridge
  refine ⟨whole, ?_⟩
  rw [← ended]
  unfold kernelKcmdReply
  simp only [whole, if_pos room]
  exact readResp_update le_rfl 0 _

theorem terminalPutchar_state (len : Nat) (char : UInt8) (bridge : Bridge) :
    (terminalPutchar len char bridge).2.state = bridge.state := by
  unfold terminalPutchar
  split
  · rfl
  · rfl

namespace Ordered

variable {system : System} (ordered : Ordered system)
include ordered

theorem post {cmd : CStr} {cap : Nat}
    (inTurn : InTurn system (.run cmd cap)) : Ordered (post cmd cap system) := by
  unfold Console.post
  split
  · exact ordered
  · rename_i positive
    obtain ⟨alone, idle⟩ := inTurn.resolve_left positive
    have noCaller : system.callers = [] := List.isEmpty_iff.mp alone
    have noCommand : system.console = none := Option.isNone_iff_eq_none.mp idle
    refine ⟨?_, ?_, ?_, BridgeState.noConfusion, BridgeState.noConfusion, ordered.returned⟩
    · intro caller member
      rw [noCaller, List.nil_append] at member
      rw [List.mem_singleton.mp member, List.length_append, List.length_singleton]
    · intro running isRunning
      rw [noCommand] at isRunning
      cases isRunning
    · intro _
      simp

theorem leave {index : Nat} {caller : Caller}
    {answer : Answer} (own : Returned.IsOwn system.executions { caller, answer }) :
    Ordered (leave index caller answer system) := by
  refine ⟨?_, ?_, BridgeState.noConfusion, BridgeState.noConfusion, BridgeState.noConfusion, ?_⟩
  · intro other member
    exact ordered.callers other (List.mem_of_mem_eraseIdx member)
  · intro running isRunning
    obtain ⟨last, _, captured⟩ := ordered.running running isRunning
    exact ⟨last, Or.inr rfl, captured⟩
  · exact List.forall_mem_append.mpr ⟨ordered.returned, List.forall_mem_singleton.mpr own⟩

theorem resume (index : Nat) : Ordered (resume index system) := by
  unfold Console.resume
  split
  · exact ordered
  · rename_i caller found
    have last := ordered.callers caller (List.mem_of_getElem? found)
    split
    · exact ordered.leave trivial
    · split
      · exact ordered
      · rename_i isReady
        obtain ⟨execution, member, ticket, handled, captured⟩ := ordered.ready isReady
        refine ordered.leave ⟨execution, member, Nat.succ.inj (ticket.trans last.symm), handled, ?_⟩
        rw [readResp_take, captured]
      · rename_i isNotFound
        obtain ⟨execution, member, ticket, notHandled⟩ := ordered.notFound isNotFound
        exact ordered.leave ⟨execution, member, Nat.succ.inj (ticket.trans last.symm), notHandled⟩
      · exact ordered.leave trivial

theorem take : Ordered (take system) := by
  unfold Console.take
  split
  · rename_i command _ taken
    have pending : system.bridge.state = .pending := by
      unfold kernelKcmdTake at taken
      split at taken
      · assumption
      · cases taken
    have asked := ordered.asked pending
    refine ⟨ordered.callers, ?_, ordered.asked, ordered.ready, ordered.notFound, ordered.returned⟩
    intro running isRunning
    cases isRunning
    exact ⟨Nat.sub_add_cancel asked, Or.inl pending, rfl⟩
  · exact ordered

theorem print (char : UInt8) : Ordered (print char system) := by
  unfold Console.print
  split
  · exact ordered
  · rename_i running isRunning
    obtain ⟨last, state, captured⟩ := ordered.running running isRunning
    have sameState := terminalPutchar_state running.len char system.bridge
    refine ⟨ordered.callers, ?_, ?_, ?_, ?_, ordered.returned⟩
    · intro later isLater
      cases isLater
      refine ⟨last, ?_, readResp_terminalPutchar captured char⟩
      rw [sameState]
      exact state
    · intro pending
      exact ordered.asked (sameState.symm.trans pending)
    · intro isReady
      rw [sameState] at isReady
      rw [isReady] at state
      exact absurd state (by decide)
    · intro isNotFound
      exact ordered.notFound (sameState.symm.trans isNotFound)

theorem finish (handled : Bool) : Ordered (finish handled system) := by
  unfold Console.finish
  split
  · exact ordered
  · rename_i running isRunning
    obtain ⟨last, _, captured⟩ := ordered.running running isRunning
    have room : running.len < kcmdRespCap := by
      have lengths := congrArg List.length captured
      rw [length_readResp, List.length_take] at lengths
      simp only [kcmdRespCap] at lengths ⊢
      omega
    have stillReturned : ∀ execution, ∀ returned ∈ system.returned,
      returned.IsOwn (system.executions ++ [execution]) := fun execution returned member =>
      (ordered.returned returned member).append [execution]
    cases handled with
    | true =>
      refine ⟨ordered.callers, ?_, BridgeState.noConfusion, ?_,
        BridgeState.noConfusion, stillReturned _⟩
      · intro later isLater
        cases isLater
      · intro _
        obtain ⟨whole, same⟩ := readResp_kernelKcmdReply room system.bridge
        refine ⟨_, List.mem_append_right _ (List.mem_singleton_self _), last, rfl, ?_⟩
        simp only [if_true]
        rw [whole, same]
        exact captured
    | false =>
      refine ⟨ordered.callers, ?_, BridgeState.noConfusion,
        BridgeState.noConfusion, ?_, stillReturned _⟩
      · intro later isLater
        cases isLater
      · intro _
        exact ⟨_, List.mem_append_right _ (List.mem_singleton_self _), last, rfl⟩

theorem step {event : Event} (inTurn : InTurn system event) : Ordered (step system event) := by
  cases event with
  | run cmd cap => exact ordered.post inTurn
  | resume index => exact ordered.resume index
  | take => exact ordered.take
  | print char => exact ordered.print char
  | finish handled => exact ordered.finish handled
  | tick ms =>
    exact ⟨ordered.callers, ordered.running, ordered.asked, ordered.ready,
      ordered.notFound, ordered.returned⟩

end Ordered

theorem textsOwn_booted : TextsOwn booted := by
  refine ⟨BridgeState.noConfusion, ?_, ?_⟩
  · intro running isRunning
    cases isRunning
  · intro execution member
    exact absurd member List.not_mem_nil

theorem ordered_booted : Ordered booted := by
  refine ⟨?_, ?_, BridgeState.noConfusion, BridgeState.noConfusion, BridgeState.noConfusion, ?_⟩
  · intro caller member
    exact absurd member List.not_mem_nil
  · intro running isRunning
    cases isRunning
  · intro returned member
    exact absurd member List.not_mem_nil

/-- Whatever the interleaving and the time-outs, no command is run with the
text of two requests; and while calls are made in turn, every response that a
call returns is that of its own command. -/
theorem answers_own (events : List Event) (inTurn : AlongRun step InTurn booted events) :
    AnswersOwn (runFrom step booted events) := by
  have texts : TextsOwn (runFrom step booted events) :=
    runFrom_invariant (fun _ event texts => texts.step event) textsOwn_booted events
  have ordered : Ordered (runFrom step booted events) :=
    inTurn.invariant (fun _ _ ordered inTurn => ordered.step inTurn) ordered_booted
  exact ⟨ordered.returned, texts.executed⟩

/-- One call times out while its command runs, the next one is answered. -/
theorem answers_own_late : AnswersOwn (runFrom step booted
      [.run (.ofText "ping") 64, .take, .tick 30001, .resume 0, .print 112,
        .finish true, .run (.ofText "uptime") 64, .take, .print 117, .finish true, .resume 0]) :=
  answers_own _ (by decide +kernel)

/-- Two calls at once: the second one overwrites the first one's request. -/
def overtakenCalls : List Event :=
  [.run (.ofText "ls") 64, .run (.ofText "id") 64, .take, .print 105,
    .finish true, .resume 0, .resume 0]

/-- The first caller comes back first and returns what the second caller's
command printed, its own command never being run; the second caller is left with
the fall-back. -/
theorem second_call_answers_first : let system := runFrom step booted overtakenCalls
    ¬ AnswersOwn system ∧ system.returned.map (fun returned =>
        (returned.caller.ticket, returned.answer)) = [(0, .output [105]), (1, .fallback)] ∧
      system.executions.map (fun execution =>
        (execution.ticket, execution.command.bytes)) = [(1, ascii "id")] := by
  have returns : (runFrom step booted overtakenCalls).returned.map
      (fun returned => (returned.caller.ticket, returned.answer)) =
        [(0, .output [105]), (1, .fallback)] := by
    decide +kernel
  have executes : (runFrom step booted overtakenCalls).executions.map
      (fun execution => (execution.ticket, execution.command.bytes)) = [(1, ascii "id")] := by
    decide +kernel
  refine ⟨fun own => ?_, returns, executes⟩
  have first : (0, Answer.output [105]) ∈ (runFrom step booted overtakenCalls).returned.map
        (fun returned => (returned.caller.ticket, returned.answer)) := by
    rw [returns]
    exact List.mem_cons_self
  obtain ⟨⟨caller, answer⟩, member, isFirst⟩ := List.mem_map.mp first
  obtain ⟨ticket, rfl⟩ := Prod.mk.inj isFirst
  obtain ⟨execution, executed, sameTicket, _⟩ := own.returned _ member
  have only : (execution.ticket, execution.command.bytes) ∈ [(1, ascii "id")] := by
    rw [← executes]
    exact List.mem_map_of_mem executed
  have ticketOne := congrArg Prod.fst (List.mem_singleton.mp only)
  dsimp only at ticket sameTicket ticketOne
  omega

end KnitOS.Console
