import KnitOS.Net.Sockets

/-!
# The connection table

`tcp_connect` takes its local port from the counter of initial sequence
numbers, without a look at the table.  Listening connections are entries of the
same table, for the remote address and port 0.
-/

namespace KnitOS.Net

open Lib Function

/-- Both connections would answer to the same segments, or both listen on one
port. -/
def Clash (first second : Conn) : Prop :=
  first.valid = true ∧ second.valid = true ∧
    (first.state ≠ .listen ∧ second.state ≠ .listen ∧ first.tuple = second.tuple ∨
      first.state = .listen ∧ second.state = .listen ∧ first.srcPort = second.srcPort)

def OnePerTuple (conns : Slot → Conn) : Prop :=
  ∀ first second, Clash (conns first) (conns second) → first = second

namespace Stack

/-- `tcp_close` up to its loop; what follows the loop is `closeValid`. -/
def tcpClose (slot : Slot) (stack : Stack) : Stack :=
  if (stack.conns slot).state = .established then
    stack.put slot (sendFin (stack.focus slot))
  else
    stack.closeValid slot

end Stack

inductive TableEvent where
  | address (ourIp : UInt32)
  | connect (destIp : UInt32) (destPort : UInt16)
  | listen (port : UInt16)
  | packet (srcIp destIp : UInt32) (segment : Segment)
  | send (slot : Slot) (data : List UInt8)
  | receive (slot : Slot) (maxLen : Nat)
  | close (slot : Slot)
  | closeValid (slot : Slot)
  | timers

def TableEvent.apply (stack : Stack) : TableEvent → Stack
  | .address ourIp => { stack with ourIp := ourIp }
  | .connect destIp destPort => (stack.tcpConnect destIp destPort).2
  | .listen port => (stack.tcpListen port).2
  | .packet srcIp destIp segment => stack.tcpHandlePacket srcIp destIp segment
  | .send slot data => stack.put slot (tcpSendData data (stack.focus slot)).2
  | .receive slot maxLen => stack.put slot
      ((stack.focus slot).setConn (tcpConnectionReceive (stack.conns slot) maxLen).2)
  | .close slot => stack.tcpClose slot
  | .closeValid slot => stack.closeValid slot
  | .timers => stack.tcpProcessTimers

/-- The port that `tcp_connect` takes is not in use for the destination. -/
def PortIsFree (stack : Stack) : TableEvent → Prop
  | .connect destIp destPort => ∀ slot, (stack.conns slot).valid = true →
      (stack.conns slot).state ≠ .listen → (stack.conns slot).tuple ≠
        ⟨stack.ourIp, 49152 + (stack.nextIsn % 16384).toUInt16, destIp, destPort⟩
  | _ => True

/-- The segment is a RST, and the connection found for it listens. -/
def ResetsListener (stack : Stack) : TableEvent → Prop
  | .packet srcIp destIp segment => destIp = stack.ourIp ∧ segment.has tcpFlagRst = true ∧
      ∃ slot, stack.tcpConnectionFind
        ⟨stack.ourIp, segment.destPort, srcIp, segment.srcPort⟩ = some slot ∧
          (stack.conns slot).state = .listen
  | _ => False

theorem Clash.symm {first second : Conn} (clash : Clash first second) : Clash second first := by
  obtain ⟨firstValid, secondValid, ⟨first, second, same⟩ | ⟨first, second, same⟩⟩ := clash
  · exact ⟨secondValid, firstValid, Or.inl ⟨second, first, same.symm⟩⟩
  · exact ⟨secondValid, firstValid, Or.inr ⟨second, first, same.symm⟩⟩

theorem Clash.of_continues {first first' second second' : Conn} (goesOn : Continues first first')
    (goesOn' : Continues second second') (clash : Clash first' second') : Clash first second := by
  obtain ⟨valid, valid', same⟩ := clash
  refine ⟨goesOn.valid valid, goesOn'.valid valid', same.imp ?_ ?_⟩
  · rintro ⟨away, away', tuple⟩
    exact ⟨fun listens => away (goesOn.listens listens valid),
      fun listens => away' (goesOn'.listens listens valid'),
      goesOn.tuple.symm.trans (tuple.trans goesOn'.tuple)⟩
  · rintro ⟨listens, listens', port⟩
    have before := goesOn.opening (by rw [listens]; rfl)
    have before' := goesOn'.opening (by rw [listens']; rfl)
    have ports := congrArg FourTuple.srcPort goesOn.tuple
    have ports' := congrArg FourTuple.srcPort goesOn'.tuple
    exact ⟨before.trans listens, before'.trans listens', ports.symm.trans (port.trans ports')⟩

/-- A connection that listens with nothing queued stays valid. -/
def StaysValid (before after : Conn) : Prop :=
  before.valid = true → before.state = .listen → before.queue = [] → after.valid = true

theorem staysValid_handleSegment {segment : Segment} {endpoint : Endpoint}
    (noReset : endpoint.conn.state = .listen → ¬ segment.has tcpFlagRst) :
    StaysValid endpoint.conn (handleSegment segment endpoint).conn := by
  intro valid listens _
  have control : (handleControl segment endpoint).conn.state = .listen ∧
      (handleControl segment endpoint).conn.valid = true := by
    unfold handleControl
    split
    · simp [handleSyn, listens, valid]
    · split
      · obtain ⟨_, _, _, _, _, _, isNext⟩ := handleAck_eq segment endpoint.conn
        have acked : (handleAck segment endpoint.conn).valid = true := by
          rw [isNext]
          exact valid
        exact ⟨(Continues.handleAck segment endpoint.conn).listens listens acked, acked⟩
      · exact ⟨listens, valid⟩
  unfold handleSegment handleFin handleData
  simp [noReset listens, control]

theorem staysValid_processTimers (endpoint : Endpoint) :
    StaysValid endpoint.conn (processTimers endpoint).conn := by
  intro valid _ none
  simp [processTimers, valid, none, timerEntries]

theorem staysValid_tcpSendData (endpoint : Endpoint) (data : List UInt8) :
    StaysValid endpoint.conn (tcpSendData data endpoint).2.conn := by
  intro valid listens _
  simp [tcpSendData, tcpConnectionSend, listens, valid]

/-- A place goes on with its connection.  When it is kept, it goes on listening. -/
structure Goes (kept : Prop) (before after : Conn) : Prop extends Continues before after where
  stays : kept → StaysValid before after

theorem Goes.refl (kept : Prop) (conn : Conn) : Goes kept conn conn :=
  ⟨.refl conn, fun _ valid _ _ => valid⟩

theorem Goes.trans {kept : Prop} {first second third : Conn} (before : Goes kept first second)
    (after : Goes kept second third) : Goes kept first third := by
  refine ⟨before.toContinues.trans after.toContinues, fun isKept valid listens none => ?_⟩
  have secondValid := before.stays isKept valid listens none
  have secondListens := before.listens listens secondValid
  exact after.stays isKept secondValid secondListens (before.quiet secondListens none)

theorem Goes.update {kept : Slot → Prop} {conns : Slot → Conn} {slot : Slot} {conn : Conn}
    (goes : Goes (kept slot) (conns slot) conn) (other : Slot) :
    Goes (kept other) (conns other) (update conns slot conn other) := by
  by_cases same : other = slot
  · rw [same, update_self]
    exact goes
  · rw [update_of_ne same]
    exact .refl _ _

/-- No RST finds the connection while it listens, and its owner does not close
it. -/
def Keeps (stack : Stack) (event : TableEvent) (slot : Slot) : Prop :=
  ¬ ResetsListener stack event ∧ event ≠ .close slot ∧ event ≠ .closeValid slot

/-- Every place goes on, or a free one gets a new connection. -/
def Steps (stack : Stack) (event : TableEvent) (conns : Slot → Conn) : Prop :=
  (∀ slot, Goes (Keeps stack event slot) (stack.conns slot) (conns slot)) ∨
    ∃ slot conn, (stack.conns slot).valid = false ∧ conn.queue = [] ∧
      (PortIsFree stack event → ∀ other, ¬ Clash conn (stack.conns other)) ∧
      conns = update stack.conns slot conn

theorem steps_refl (stack : Stack) (event : TableEvent) : Steps stack event stack.conns :=
  Or.inl fun _ => .refl _ _

section

variable {stack : Stack} {event : TableEvent}

theorem steps_enter {slot : Slot} (free : stack.freeSlot = some slot) {tuple : FourTuple}
    {state : TcpState} {conn : Conn} (entered : Stack.Entered tuple state conn)
    (apart : PortIsFree stack event → ∀ other, ¬ Clash conn (stack.conns other)) :
    Steps stack event (update stack.conns slot conn) :=
  Or.inr ⟨slot, conn, by simpa using List.find?_some free, entered.queue, apart, rfl⟩

theorem Stack.Entered.apart {tuple : FourTuple} {state : TcpState} {conn other : Conn}
    (entered : Stack.Entered tuple state conn) (isOpen : state ≠ .listen)
    (fresh : other.valid = true → other.state ≠ .listen → other.tuple ≠ tuple) :
    ¬ Clash conn other := by
  rintro ⟨_, valid, ⟨_, away, same⟩ | ⟨listens, _⟩⟩
  · exact fresh valid away (same.symm.trans entered.tuple)
  · exact isOpen (entered.state.symm.trans listens)

variable (stack)

theorem steps_connect (destIp : UInt32) (destPort : UInt16) :
    Steps stack (.connect destIp destPort) (stack.tcpConnect destIp destPort).2.conns := by
  rcases Stack.tcpConnect_cases destIp destPort stack with
    ⟨refused, _⟩ | ⟨slot, _, _, free, entered, isNext⟩
  · rw [refused]
    exact steps_refl _ _
  · rw [isNext]
    simp only [Stack.put, Stack.place, update_idem]
    exact steps_enter free entered fun portIsFree other =>
      entered.apart TcpState.noConfusion (portIsFree other)

theorem steps_listen (port : UInt16) :
    Steps stack (.listen port) (stack.tcpListen port).2.conns := by
  rcases Stack.tcpListen_cases port stack with refused | ⟨slot, _, free, none, entered, isNext⟩
  · rw [refused]
    exact steps_refl _ _
  · rw [isNext]
    refine steps_enter free entered fun _ other => ?_
    rintro ⟨_, valid, ⟨away, _⟩ | ⟨_, listens, same⟩⟩
    · exact away entered.state
    · have samePort := congrArg FourTuple.srcPort entered.tuple
      have different := List.find?_eq_none.mp none other (List.mem_finRange other)
      simp only [valid, listens, ← same, decide_true, Bool.true_and, decide_eq_true_eq] at different
      exact different samePort

theorem steps_packet (srcIp destIp : UInt32) (segment : Segment) :
    Steps stack (.packet srcIp destIp segment)
      (stack.tcpHandlePacket srcIp destIp segment).conns := by
  rcases Stack.tcpHandlePacket_cases srcIp destIp segment stack with
    same | ⟨slot, forUs, found, isNext⟩ | ⟨slot, _, _, free, opens, entered, isNext⟩
  · rw [same]
    exact steps_refl _ _
  · rw [isNext]
    refine Or.inl (Goes.update ⟨.handleSegment segment (stack.focus slot), fun isKept => ?_⟩)
    refine @staysValid_handleSegment segment (stack.focus slot) fun listens reset => ?_
    exact isKept.1 ⟨forUs, reset, slot, found, listens⟩
  · rw [isNext]
    simp only [Stack.put, Stack.place, update_idem]
    refine steps_enter free entered fun _ other =>
      entered.apart TcpState.noConfusion fun valid _ same => ?_
    simp only [Stack.opensConnection, Bool.and_eq_true, Option.isNone_iff_eq_none] at opens
    have none := List.find?_eq_none.mp opens.1.1.1.2 other (List.mem_finRange other)
    simp [valid, same] at none

theorem steps_timers : Steps stack .timers stack.tcpProcessTimers.conns := by
  refine Or.inl fun slot => List.foldlRecOn (motive := fun after : Stack =>
    Goes _ (stack.conns slot) (after.conns slot)) _ _ (.refl _ _) fun after before other _ => ?_
  exact before.trans (@Goes.update (Keeps stack .timers) after.conns other _
    ⟨.processTimers (after.focus other),
      fun _ => staysValid_processTimers (after.focus other)⟩ slot)

theorem steps_closeValid {slot : Slot} (closes : ¬ Keeps stack event slot) :
    Steps stack event (stack.closeValid slot).conns := by
  unfold Stack.closeValid
  split
  · exact Or.inl (Goes.update ⟨.close (stack.conns slot), fun isKept => absurd isKept closes⟩)
  · exact steps_refl _ _

theorem TableEvent.steps (event : TableEvent) : Steps stack event (event.apply stack).conns := by
  cases event with
  | address ourIp => exact steps_refl _ _
  | connect destIp destPort => exact steps_connect stack destIp destPort
  | listen port => exact steps_listen stack port
  | packet srcIp destIp segment => exact steps_packet stack srcIp destIp segment
  | send slot data =>
    exact Or.inl (Goes.update ⟨.tcpSendData (stack.focus slot) data,
      fun _ => staysValid_tcpSendData (stack.focus slot) data⟩)
  | receive slot maxLen =>
    exact Or.inl (Goes.update ⟨.still rfl rfl rfl rfl fun _ => id, fun _ valid _ _ => valid⟩)
  | close slot =>
    simp only [TableEvent.apply, Stack.tcpClose]
    split
    · rename_i established
      exact Or.inl (Goes.update ⟨Stack.continues_sendFin (stack.focus slot) established,
        fun _ _ listens => nomatch established.symm.trans listens⟩)
    · exact steps_closeValid stack fun isKept => isKept.2.1 rfl
  | closeValid slot => exact steps_closeValid stack fun isKept => isKept.2.2 rfl
  | timers => exact steps_timers stack

end

theorem OnePerTuple.update {conns : Slot → Conn} (one : OnePerTuple conns) {slot : Slot}
    {conn : Conn} (apart : ∀ other, ¬ Clash conn (conns other)) :
    OnePerTuple (update conns slot conn) := by
  intro first second clash
  by_cases isFirst : first = slot
  · by_cases isSecond : second = slot
    · rw [isFirst, isSecond]
    · rw [isFirst, update_self, update_of_ne isSecond] at clash
      exact absurd clash (apart second)
  · rw [update_of_ne isFirst] at clash
    by_cases isSecond : second = slot
    · rw [isSecond, update_self] at clash
      exact absurd clash.symm (apart first)
    · rw [update_of_ne isSecond] at clash
      exact one first second clash

theorem OnePerTuple.step {stack : Stack} {event : TableEvent} (one : OnePerTuple stack.conns)
    (free : PortIsFree stack event) : OnePerTuple (event.apply stack).conns := by
  rcases event.steps stack with goes | ⟨slot, conn, _, _, apart, isNext⟩
  · intro first second clash
    exact one first second (clash.of_continues (goes first).toContinues (goes second).toContinues)
  · rw [isNext]
    exact one.update (apart free)

/-- Connections stay apart as long as `tcp_connect` happens on a free port. -/
theorem onePerTuple_run (clock : Nat → UInt32) {events : List TableEvent}
    (free : AlongRun TableEvent.apply PortIsFree (Stack.init clock) events) :
    OnePerTuple (runFrom TableEvent.apply (Stack.init clock) events).conns :=
  @AlongRun.invariant _ _ TableEvent.apply (fun stack => OnePerTuple stack.conns) PortIsFree
    (fun _ _ one free => one.step free) events _ free fun _ _ clash => absurd clash.1 nofun

/-- Two connections to one server, one after the other. -/
def connectTwice : List TableEvent :=
  [.address 0x0A00020F, .connect 0x0A000202 80, .connect 0x0A000202 80]

theorem onePerTuple_run_connectTwice :
    OnePerTuple (runFrom TableEvent.apply (Stack.init fun _ => 0) connectTwice).conns :=
  onePerTuple_run _ ⟨trivial, by unfold PortIsFree; decide +kernel,
    by unfold PortIsFree; decide +kernel, trivial⟩

/-- The table while the first connection stays and others come and go. -/
structure Cycling (isn : UInt32) (stack : Stack) : Prop where
  ourIp : stack.ourIp = 0x0A00020F
  nextIsn : stack.nextIsn = isn
  first : (stack.conns 0).valid = true ∧ (stack.conns 0).state = .synSent ∧
    (stack.conns 0).tuple = ⟨0x0A00020F, 50152, 0x0A000202, 80⟩
  second : (stack.conns 1).valid = false

/-- The next place is the second one. -/
theorem Cycling.connects {isn : UInt32} {stack : Stack} (cycling : Cycling isn stack) :
    ∃ conn endpoint, (stack.tcpConnect 0x0A000202 80).2 =
        Stack.put { stack.place 1 conn with nextIsn := isn + 1 } 1 endpoint ∧
      Stack.Entered ⟨0x0A00020F, 49152 + (isn % 16384).toUInt16, 0x0A000202, 80⟩ .synSent
        endpoint.conn := by
  obtain ⟨rest, slots⟩ : ∃ rest, List.finRange 64 = 0 :: 1 :: rest := ⟨_, rfl⟩
  have next : stack.freeSlot = some 1 := by
    rw [Stack.freeSlot, Stack.findSlot, slots, List.find?_cons_of_neg (by simp [cycling.first.1]),
      List.find?_cons_of_pos (by simp [cycling.second])]
  rcases Stack.tcpConnect_cases 0x0A000202 80 stack with
    ⟨_, noAddress | full⟩ | ⟨slot, conn, endpoint, free, entered, isNext⟩
  · rw [cycling.ourIp] at noAddress
    cases noAddress
  · rw [next] at full
    cases full
  · cases next.symm.trans free
    rw [cycling.ourIp, cycling.nextIsn] at entered
    exact ⟨conn, endpoint, by rw [isNext, cycling.nextIsn], entered⟩

theorem Cycling.round {isn : UInt32} {stack : Stack} (cycling : Cycling isn stack) :
    Cycling (isn + 1) (runFrom TableEvent.apply stack [.connect 0x0A000202 80, .close 1]) := by
  obtain ⟨conn, endpoint, isNext, entered⟩ := cycling.connects
  simp only [runFrom_cons, runFrom_nil, TableEvent.apply, isNext, Stack.tcpClose, Stack.closeValid,
    Stack.put, update_self, entered.valid, entered.state, reduceCtorEq, if_false, if_true]
  exact ⟨cycling.ourIp, rfl, by simpa [Stack.place] using cycling.first, rfl⟩

theorem Cycling.rounds (count : Nat) {isn : UInt32} {stack : Stack} (cycling : Cycling isn stack) :
    Cycling (isn + UInt32.ofNat count) (runFrom TableEvent.apply stack
      (List.replicate count [.connect 0x0A000202 80, .close 1]).flatten) := by
  induction count generalizing isn stack with
  | zero => simpa using cycling
  | succ count ih =>
    have later := ih cycling.round
    have sum : isn + 1 + UInt32.ofNat count = isn + UInt32.ofNat (count + 1) := by
      rw [UInt32.ofNat_add]
      grind
    rw [List.replicate_succ, List.flatten_cons, runFrom_append]
    exact sum ▸ later

theorem Cycling.clashes {isn : UInt32} {stack : Stack} (cycling : Cycling isn stack)
    (again : 49152 + (isn % 16384).toUInt16 = 50152) :
    ¬ OnePerTuple (runFrom TableEvent.apply stack [.connect 0x0A000202 80]).conns := by
  obtain ⟨conn, endpoint, isNext, entered⟩ := cycling.connects
  obtain ⟨valid, state, tuple⟩ := cycling.first
  rw [again] at entered
  intro one
  refine absurd (one 0 1 ?_) (by decide)
  simp only [runFrom_cons, runFrom_nil, TableEvent.apply, isNext, Stack.put, Stack.place,
    update_idem, update_self]
  rw [update_of_ne (by decide)]
  exact ⟨valid, entered.valid, Or.inl ⟨by rw [state]; decide, by rw [entered.state]; decide,
    tuple.trans entered.tuple.symm⟩⟩

/-- After 16384 connections the first local port is taken again. -/
theorem ports_come_back : ¬ OnePerTuple (runFrom TableEvent.apply (Stack.init fun _ => 0)
    ([.address 0x0A00020F, .connect 0x0A000202 80] ++
      ((List.replicate 16383 [.connect 0x0A000202 80, .close 1]).flatten ++
      [.connect 0x0A000202 80]))).conns := by
  have first : Cycling 1001 (runFrom TableEvent.apply (Stack.init fun _ => 0)
      [.address 0x0A00020F, .connect 0x0A000202 80]) :=
    ⟨rfl, rfl, by decide +kernel, by decide +kernel⟩
  rw [runFrom_append, runFrom_append]
  exact (first.rounds 16383).clashes (by decide)

/-- The connections that listen, other than one that its owner closes, still
do, on the same port. -/
def ListenersSurvive (stack : Stack) (event : TableEvent) : Prop :=
  ∀ slot, (stack.conns slot).valid = true → (stack.conns slot).state = .listen →
    event ≠ .close slot → event ≠ .closeValid slot →
      let after := (event.apply stack).conns slot
      after.valid = true ∧ after.state = .listen ∧ after.srcPort = (stack.conns slot).srcPort

/-- Listening connections have nothing queued. -/
theorem unqueued_run (clock : Nat → UInt32) (events : List TableEvent) :
    ∀ slot, ((runFrom TableEvent.apply (Stack.init clock) events).conns slot).state = .listen →
      ((runFrom TableEvent.apply (Stack.init clock) events).conns slot).queue = [] := by
  refine @runFrom_invariant _ _ TableEvent.apply (fun stack : Stack =>
    ∀ slot, (stack.conns slot).state = .listen → (stack.conns slot).queue = [])
    ?_ _ (fun _ _ => rfl)
    events
  intro stack event unqueued slot
  rcases event.steps stack with goes | ⟨other, conn, _, none, _, isNext⟩
  · intro listens
    have same := (goes slot).opening (by rw [listens]; rfl)
    exact (goes slot).quiet listens (unqueued slot (same.trans listens))
  · rw [isNext]
    by_cases same : slot = other
    · rw [same, update_self]
      exact fun _ => none
    · rw [update_of_ne same]
      exact unqueued slot

/-- In every run, what can end a listening connection beside its owner is a RST
for which `tcp_connection_find` finds it. -/
theorem listenersSurvive_iff (clock : Nat → UInt32) (events : List TableEvent)
    (event : TableEvent) :
    ListenersSurvive (runFrom TableEvent.apply (Stack.init clock) events) event ↔
      ¬ ResetsListener (runFrom TableEvent.apply (Stack.init clock) events) event := by
  have unqueued := unqueued_run clock events
  generalize runFrom TableEvent.apply (Stack.init clock) events = stack at unqueued ⊢
  constructor
  · intro survive resets
    cases event with
    | packet srcIp destIp segment =>
      obtain ⟨forUs, reset, slot, found, listens⟩ := resets
      have valid : (stack.conns slot).valid = true := by
        have matched := List.find?_some found
        simp only [Bool.and_eq_true] at matched
        exact matched.1
      have after := (survive slot valid listens nofun nofun).1
      simp [TableEvent.apply, Stack.tcpHandlePacket, forUs, found, handleSegment, reset,
        Stack.put, tcpConnectionClose] at after
    | _ => exact resets
  · intro spares slot valid listens notClosed notEnded
    rcases event.steps stack with goes | ⟨other, conn, invalid, _, _, isNext⟩
    · have after := (goes slot).stays ⟨spares, notClosed, notEnded⟩ valid listens
        (unqueued slot listens)
      exact ⟨after, (goes slot).listens listens after,
        congrArg FourTuple.srcPort (goes slot).tuple⟩
    · have different : slot ≠ other := by
        rintro rfl
        rw [valid] at invalid
        cases invalid
      rw [isNext, update_of_ne different]
      exact ⟨valid, listens, rfl⟩

/-- A RST from the address and the port 0 ends a listening connection. -/
theorem reset_ends_listener : ¬ ListenersSurvive
    (runFrom TableEvent.apply (Stack.init fun _ => 0) [.address 0x0A00020F, .listen 22])
    (.packet 0 0x0A00020F
      { srcPort := 0, destPort := 22, seqNum := 0, ackNum := 0, flags := tcpFlagRst, window := 0
        payload := [] }) := by
  intro survive
  have after := survive 0 (by decide +kernel) (by decide +kernel) nofun nofun
  revert after
  decide +kernel

end KnitOS.Net
