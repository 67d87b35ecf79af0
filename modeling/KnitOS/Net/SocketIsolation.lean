import KnitOS.Net.Sockets

/-!
# Socket isolation

A socket keeps an index into the connection table, whose places the packet
handler and the timers free without telling it.  A socket is isolated while its
place holds a connection of its own.
-/

namespace KnitOS.Net

open Lib Function

namespace Stack

/-- Every socket in use points to connections it connected, accepted or listens
on, a close in progress closes the connection it was called for, and no two
sockets point to one connection. -/
structure Isolated (stack : Stack) : Prop where
  own : ∀ fd slot, (stack.sockets fd).used = true → (stack.sockets fd).tcp = some slot ∨
      (stack.sockets fd).listenTcp = some slot → stack.ticket slot ∈ stack.history.own fd
  closing : ∀ fd slot ticket, Call.closing fd slot ticket ∈ stack.calls → stack.ticket slot = ticket
  apart : ∀ fd other slot, (stack.sockets fd).used = true → (stack.sockets other).used = true →
    (stack.sockets fd).tcp = some slot → (stack.sockets other).tcp = some slot → fd = other

/-- A socket or a call in progress points to the place. -/
def Referenced (stack : Stack) (slot : Slot) : Prop :=
  (∃ fd, (stack.sockets fd).tcp = some slot ∨
      (stack.sockets fd).listenTcp = some slot) ∨
    ∃ call ∈ stack.calls, call.slot = slot

instance (stack : Stack) (slot : Slot) : Decidable (stack.Referenced slot) :=
  inferInstanceAs (Decidable ((∃ _, _ ∨ _) ∨ ∃ _, _ ∧ _))

/-- The place a new connection would get is not pointed to. -/
def FreshPlace (stack : Stack) : Prop :=
  ∀ slot, stack.freeSlot = some slot → ¬ stack.Referenced slot

instance (stack : Stack) : Decidable stack.FreshPlace :=
  inferInstanceAs (Decidable (∀ _, _ → ¬ _))

/-- No call of `socket_connect` on the socket is in progress. -/
def NotConnecting (stack : Stack) (fd : Fd) : Prop :=
  ∀ slot, Call.connecting fd slot ∉ stack.calls

instance (stack : Stack) (fd : Fd) : Decidable (stack.NotConnecting fd) :=
  inferInstanceAs (Decidable (∀ _, _ ∉ _))

/-- The close that a round belongs to is of a socket that does not connect. -/
def RoundPermits (stack : Stack) (index : Nat) : Prop :=
  match stack.calls[index]? with
  | some (.closing fd _ _) => stack.NotConnecting fd
  | _ => True

instance (stack : Stack) (index : Nat) : Decidable (stack.RoundPermits index) := by
  unfold RoundPermits
  split
  · exact inferInstance
  · exact inferInstance

/-- A new connection gets a place nothing points to, and no socket is closed
while it connects. -/
def Permits (stack : Stack) : StackEvent → Prop
  | .packet srcIp destIp segment =>
    stack.opensConnection srcIp destIp segment = true → stack.FreshPlace
  | .listen fd =>
    (stack.sockets fd).used = true → (stack.sockets fd).listenTcp = none →
      stack.FreshPlace
  | .connect fd _ _ =>
    (stack.sockets fd).used = true → (stack.sockets fd).tcp = none →
      stack.FreshPlace
  | .close fd => stack.NotConnecting fd
  | .closeRound index _ => stack.RoundPermits index
  | _ => True

instance Permits.decide (stack : Stack) : ∀ event, Decidable (stack.Permits event)
  | .packet _ _ _ => inferInstanceAs (Decidable (_ → FreshPlace _))
  | .listen _ => inferInstanceAs (Decidable (_ → _ → FreshPlace _))
  | .connect _ _ _ => inferInstanceAs (Decidable (_ → _ → FreshPlace _))
  | .close _ => inferInstanceAs (Decidable (NotConnecting _ _))
  | .closeRound _ _ => inferInstanceAs (Decidable (RoundPermits _ _))
  | .address _ | .timers | .create _ | .bind _ _ _ | .accept _
  | .connectRound _ _ | .send _ _ | .recv _ _ => isTrue trivial

/-- The connection waits to be accepted, or will when its handshake ends. -/
def unaccepted (conn : Conn) : Prop :=
  conn.pendingAccept = true ∨ conn.state = .synReceived

/-- What every state of a run within the conditions satisfies. -/
structure Sound (stack : Stack) : Prop where
  numbered : ∀ slot, stack.history.ids slot < stack.history.next
  distinct : Function.Injective stack.history.ids
  ownNumbered : ∀ fd, ∀ ticket ∈ stack.history.own fd, ticket.1 < stack.history.next
  pointed : ∀ fd slot, (stack.sockets fd).tcp = some slot ∨
      (stack.sockets fd).listenTcp = some slot → stack.ticket slot ∈ stack.history.own fd
  connecting : ∀ fd slot, Call.connecting fd slot ∈ stack.calls →
    stack.ticket slot ∈ stack.history.own fd ∧ (stack.sockets fd).used = true
  closing : ∀ fd slot ticket, Call.closing fd slot ticket ∈ stack.calls → stack.ticket slot = ticket
  owner : ∀ fd other, ∀ ticket ∈ stack.history.own fd,
    ∀ ticket' ∈ stack.history.own other, ticket.1 = ticket'.1 → fd = other
  unowned : ∀ slot, unaccepted (stack.conns slot) → ∀ fd, ∀ ticket ∈ stack.history.own fd,
      ticket.1 ≠ stack.history.ids slot

variable {stack : Stack}

theorem Sound.isolated (sound : stack.Sound) : stack.Isolated where
  own fd slot _ points := sound.pointed fd slot points
  closing := sound.closing
  apart fd other slot _ _ first second :=
    sound.owner fd other _ (sound.pointed fd slot (Or.inl first)) _
      (sound.pointed other slot (Or.inl second)) rfl

/-- The connection is still the same one, and it does not start to wait to be
accepted. -/
structure SameConnection (before after : Conn) : Prop where
  tuple : after.tuple = before.tuple
  accepted : unaccepted after → unaccepted before

theorem SameConnection.of_continues {before after : Conn} (goesOn : Continues before after) :
    SameConnection before after := by
  refine ⟨goesOn.tuple, fun waits => ?_⟩
  rcases waits with pending | received
  · exact goesOn.pending pending
  · have same := goesOn.opening (by rw [received]; rfl)
    exact Or.inr (same.trans received)

variable {slot : Slot}

theorem ticket_put {endpoint : Endpoint}
    (sameTuple : endpoint.conn.tuple = (stack.conns slot).tuple) (other : Slot) :
    (stack.put slot endpoint).ticket other = stack.ticket other := by
  unfold ticket Stack.put
  dsimp only
  by_cases same : other = slot
  · subst same
    rw [update_self, sameTuple]
  · rw [update_of_ne same]

theorem Sound.put (sound : stack.Sound)
    {endpoint : Endpoint} (same : SameConnection (stack.conns slot) endpoint.conn) :
    (stack.put slot endpoint).Sound := by
  obtain ⟨sameTuple, accepted⟩ := same
  have tickets := ticket_put sameTuple
  refine ⟨sound.numbered, sound.distinct, sound.ownNumbered, ?_, ?_, ?_, sound.owner, ?_⟩
  · intro fd other points
    rw [tickets]
    exact sound.pointed fd other points
  · intro fd other inProgress
    rw [tickets]
    exact sound.connecting fd other inProgress
  · intro fd other ticket inProgress
    rw [tickets]
    exact sound.closing fd other ticket inProgress
  · intro other waits
    refine sound.unowned other ?_
    change unaccepted (update stack.conns slot endpoint.conn other) at waits
    by_cases same : other = slot
    · subst same
      rw [update_self] at waits
      exact accepted waits
    · rw [update_of_ne same] at waits
      exact waits

theorem Sound.place (sound : stack.Sound)
    (fresh : ¬ stack.Referenced slot) (conn : Conn) : (stack.place slot conn).Sound := by
  have tickets : ∀ other, other ≠ slot →
      (stack.place slot conn).ticket other = stack.ticket other := by
    intro other different
    unfold ticket Stack.place
    dsimp only
    rw [update_of_ne different, update_of_ne different]
  have ids : ∀ other, other ≠ slot →
      (stack.place slot conn).history.ids other = stack.history.ids other :=
    fun other different => update_of_ne different _ _
  have newId : (stack.place slot conn).history.ids slot = stack.history.next := update_self _ _ _
  refine ⟨?_, ?_, ?_, ?_, ?_, ?_, sound.owner, ?_⟩
  · intro other
    change _ < stack.history.next + 1
    by_cases same : other = slot
    · rw [same, newId]
      exact Nat.lt_succ_self _
    · rw [ids other same]
      exact Nat.lt_succ_of_lt (sound.numbered other)
  · intro first second sameId
    by_cases firstNew : first = slot
    · by_cases secondNew : second = slot
      · rw [firstNew, secondNew]
      · rw [firstNew, newId, ids second secondNew] at sameId
        exact absurd sameId.symm (Nat.ne_of_lt (sound.numbered second))
    · by_cases secondNew : second = slot
      · rw [secondNew, newId, ids first firstNew] at sameId
        exact absurd sameId (Nat.ne_of_lt (sound.numbered first))
      · rw [ids first firstNew, ids second secondNew] at sameId
        exact sound.distinct sameId
  · intro fd ticket member
    exact Nat.lt_succ_of_lt (sound.ownNumbered fd ticket member)
  · intro fd other points
    rw [tickets other]
    · exact sound.pointed fd other points
    · rintro rfl
      exact fresh (Or.inl ⟨fd, points⟩)
  · intro fd other inProgress
    rw [tickets other]
    · exact sound.connecting fd other inProgress
    · rintro rfl
      exact fresh (Or.inr ⟨_, inProgress, rfl⟩)
  · intro fd other ticket inProgress
    rw [tickets other]
    · exact sound.closing fd other ticket inProgress
    · rintro rfl
      exact fresh (Or.inr ⟨_, inProgress, rfl⟩)
  · intro other waits fd ticket member
    have older := sound.ownNumbered fd ticket member
    by_cases same : other = slot
    · rw [same, newId]
      exact Nat.ne_of_lt older
    · rw [ids other same]
      change unaccepted (update stack.conns slot conn other) at waits
      rw [update_of_ne same] at waits
      exact sound.unowned other waits fd ticket member

theorem Sound.of_eq {after : Stack} (sound : stack.Sound) (conns : after.conns = stack.conns)
    (sockets : after.sockets = stack.sockets) (calls : after.calls = stack.calls)
    (history : after.history = stack.history) : after.Sound := by
  obtain ⟨_, _, _, _, _, _, _, _, _⟩ := after
  dsimp only at conns sockets calls history
  subst conns sockets calls history
  exact ⟨sound.numbered, sound.distinct, sound.ownNumbered, sound.pointed, sound.connecting,
    sound.closing, sound.owner, sound.unowned⟩

theorem Sound.setSocket {stack : Stack} (sound : stack.Sound) {fd : Fd}
    {socket : Socket} (points : ∀ slot, socket.tcp = some slot ∨ socket.listenTcp = some slot →
      stack.ticket slot ∈ stack.history.own fd)
    (inUse : socket.used = true ∨ stack.NotConnecting fd) : (stack.setSocket fd socket).Sound := by
  refine ⟨sound.numbered, sound.distinct, sound.ownNumbered, ?_, ?_,
    sound.closing, sound.owner, sound.unowned⟩
  · intro other slot
    change (update stack.sockets fd socket other).tcp = some slot ∨
      (update stack.sockets fd socket other).listenTcp = some slot →
        stack.ticket slot ∈ stack.history.own other
    by_cases same : other = fd
    · subst same
      rw [update_self]
      exact points slot
    · rw [update_of_ne same]
      exact sound.pointed other slot
  · intro other slot inProgress
    have before := sound.connecting other slot inProgress
    refine ⟨before.1, ?_⟩
    change (update stack.sockets fd socket other).used = true
    by_cases same : other = fd
    · subst same
      rw [update_self]
      rcases inUse with used | notConnecting
      · exact used
      · exact absurd inProgress (notConnecting slot)
    · rw [update_of_ne same]
      exact before.2

variable {fd : Fd}

theorem Sound.forget (sound : stack.Sound)
    (noTcp : (stack.sockets fd).tcp = none) (noListen : (stack.sockets fd).listenTcp = none)
    (notConnecting : stack.NotConnecting fd) : (stack.setOwn fd []).Sound := by
  have fewer : ∀ other, ∀ ticket ∈ (stack.setOwn fd []).history.own other,
      ticket ∈ stack.history.own other := by
    intro other ticket
    change ticket ∈ update stack.history.own fd [] other → _
    by_cases same : other = fd
    · subst same
      rw [update_self]
      intro member
      cases member
    · rw [update_of_ne same]
      exact id
  have kept : ∀ other, other ≠ fd →
      (stack.setOwn fd []).history.own other = stack.history.own other :=
    fun other different => update_of_ne different _ _
  refine ⟨sound.numbered, sound.distinct, ?_, ?_, ?_, sound.closing, ?_, ?_⟩
  · intro other ticket member
    exact sound.ownNumbered other ticket (fewer other ticket member)
  · intro other slot points
    by_cases same : other = fd
    · subst same
      change (stack.sockets other).tcp = some slot ∨
        (stack.sockets other).listenTcp = some slot at points
      rw [noTcp, noListen] at points
      rcases points with impossible | impossible <;> cases impossible
    · rw [kept other same]
      exact sound.pointed other slot points
  · intro other slot inProgress
    by_cases same : other = fd
    · subst same
      exact absurd inProgress (notConnecting slot)
    · rw [kept other same]
      exact sound.connecting other slot inProgress
  · intro first second ticket member ticket' member'
    exact sound.owner first second ticket (fewer first ticket member) ticket'
      (fewer second ticket' member')
  · intro slot waits other ticket member
    exact sound.unowned slot waits other ticket (fewer other ticket member)

theorem mem_addOwn_iff {stack : Stack} {fd other : Fd} {slot : Slot} {ticket : Ticket} :
    ticket ∈ (stack.addOwn fd slot).history.own other ↔
      ticket ∈ stack.history.own other ∨ other = fd ∧ ticket = stack.ticket slot := by
  unfold Stack.addOwn setOwn
  by_cases same : other = fd
  · subst same
    simp [or_comm]
  · simp [same]

theorem Sound.addOwn {stack : Stack} (sound : stack.Sound) {fd : Fd}
    {slot : Slot} (accepted : ¬ unaccepted (stack.conns slot))
    (others : ∀ other, other ≠ fd → ∀ ticket ∈ stack.history.own other,
      ticket.1 ≠ stack.history.ids slot) : (stack.addOwn fd slot).Sound := by
  refine ⟨sound.numbered, sound.distinct, ?_, ?_, ?_, sound.closing, ?_, ?_⟩
  · intro other ticket member
    rcases mem_addOwn_iff.mp member with old | ⟨_, rfl⟩
    · exact sound.ownNumbered other ticket old
    · exact sound.numbered slot
  · intro other place points
    exact mem_addOwn_iff.mpr (Or.inl (sound.pointed other place points))
  · intro other place inProgress
    have before := sound.connecting other place inProgress
    exact ⟨mem_addOwn_iff.mpr (Or.inl before.1), before.2⟩
  · intro first second ticket member ticket' member' same
    rcases mem_addOwn_iff.mp member with old | ⟨rfl, rfl⟩
    · rcases mem_addOwn_iff.mp member' with old' | ⟨rfl, rfl⟩
      · exact sound.owner first second ticket old ticket' old' same
      · by_contra different
        exact others first different ticket old same
    · rcases mem_addOwn_iff.mp member' with old' | ⟨rfl, rfl⟩
      · by_contra different
        exact others second (Ne.symm different) ticket' old' same.symm
      · rfl
  · intro place waits other ticket member
    rcases mem_addOwn_iff.mp member with old | ⟨_, rfl⟩
    · exact sound.unowned place waits other ticket old
    · intro sameId
      have samePlace := sound.distinct sameId
      rw [← samePlace] at waits
      exact accepted waits

theorem mem_addOwn (stack : Stack) (fd : Fd) (slot : Slot) : (stack.addOwn fd slot).ticket slot ∈
    (stack.addOwn fd slot).history.own fd :=
  mem_addOwn_iff.mpr (Or.inr ⟨rfl, rfl⟩)

variable (sound : stack.Sound)
include sound

theorem Sound.eraseCall (index : Nat) : Sound { stack with calls := stack.calls.eraseIdx index } :=
  ⟨sound.numbered, sound.distinct, sound.ownNumbered, sound.pointed, fun fd slot inProgress =>
      sound.connecting fd slot (List.mem_of_mem_eraseIdx inProgress),
    fun fd slot ticket inProgress =>
      sound.closing fd slot ticket (List.mem_of_mem_eraseIdx inProgress),
    sound.owner, sound.unowned⟩

theorem Sound.addCall {call : Call} (connecting : ∀ fd slot, .connecting fd slot = call →
      stack.ticket slot ∈ stack.history.own fd ∧ (stack.sockets fd).used = true)
    (closing : ∀ fd slot ticket, .closing fd slot ticket = call → stack.ticket slot = ticket) :
    Sound { stack with calls := stack.calls ++ [call] } := by
  refine ⟨sound.numbered, sound.distinct, sound.ownNumbered, sound.pointed,
    ?_, ?_, sound.owner, sound.unowned⟩
  · intro fd slot inProgress
    rcases List.mem_append.mp inProgress with old | new
    · exact sound.connecting fd slot old
    · exact connecting fd slot (List.mem_singleton.mp new)
  · intro fd slot ticket inProgress
    rcases List.mem_append.mp inProgress with old | new
    · exact sound.closing fd slot ticket old
    · exact closing fd slot ticket (List.mem_singleton.mp new)

theorem Sound.placePut
    (fresh : ¬ stack.Referenced slot) (conn : Conn) (isn : UInt32) (endpoint : Endpoint) :
    (Stack.put { stack.place slot conn with nextIsn := isn } slot endpoint).Sound := by
  refine (sound.place fresh endpoint.conn).of_eq ?_ rfl rfl rfl
  exact update_idem _ _ _

omit sound

theorem Entered.accepted {tuple : FourTuple} {state : TcpState} {conn : Conn}
    (entered : Entered tuple state conn) (different : state ≠ .synReceived) :
    ¬ unaccepted conn := by
  rintro (pending | received)
  · rw [entered.pending] at pending
    cases pending
  · exact different (entered.state.symm.trans received)

theorem Sound.noOwner_place (sound : stack.Sound) (slot : Slot) (conn : Conn) :
    ∀ fd, ∀ ticket ∈ (stack.place slot conn).history.own fd,
      ticket.1 ≠ (stack.place slot conn).history.ids slot := by
  intro fd ticket member
  have newId : (stack.place slot conn).history.ids slot = stack.history.next := update_self _ _ _
  rw [newId]
  exact Nat.ne_of_lt (sound.ownNumbered fd ticket member)

theorem Sound.packet (sound : stack.Sound) (srcIp destIp : UInt32) (segment : Segment)
    (permitted : stack.Permits (.packet srcIp destIp segment)) :
    (stack.tcpHandlePacket srcIp destIp segment).Sound := by
  rcases tcpHandlePacket_cases srcIp destIp segment stack with
    same | ⟨slot, _, _, isNext⟩ | ⟨slot, _, _, free, opens, _, isNext⟩
  · rw [same]
    exact sound
  · rw [isNext]
    exact sound.put (.of_continues (.handleSegment segment (stack.focus slot)))
  · rw [isNext]
    exact sound.placePut (permitted opens slot free) _ _ _

theorem Sound.timers (sound : stack.Sound) : stack.tcpProcessTimers.Sound :=
  List.foldlRecOn _ _ sound fun stack sound slot _ =>
    sound.put (.of_continues (.processTimers (stack.focus slot)))

theorem socketAlloc_cases (stack : Stack) : stack.socketAlloc = (none, stack) ∨
    ∃ fd, (stack.sockets fd).used = false ∧ stack.socketAlloc = (some fd, (stack.setSocket fd
          { socketReset with used := true }).setOwn fd []) := by
  unfold socketAlloc
  cases found : (List.finRange 64).find? fun fd => !(stack.sockets fd).used with
  | none => exact Or.inl rfl
  | some fd =>
    have free := List.find?_some found
    rw [Bool.not_eq_true'] at free
    exact Or.inr ⟨fd, free, rfl⟩

variable (sound : stack.Sound)
include sound

theorem Sound.notConnecting (free : (stack.sockets fd).used = false) : stack.NotConnecting fd := by
  intro slot inProgress
  rw [(sound.connecting fd slot inProgress).2] at free
  cases free

theorem Sound.reset (notConnecting : stack.NotConnecting fd) (socket : Socket)
    (noTcp : socket.tcp = none) (noListen : socket.listenTcp = none) :
    ((stack.setSocket fd socket).setOwn fd []).Sound := by
  have emptied : (stack.setSocket fd socket).Sound := by
    refine sound.setSocket ?_ (Or.inr notConnecting)
    intro slot points
    rw [noTcp, noListen] at points
    rcases points with impossible | impossible <;> cases impossible
  have atFd : (stack.setSocket fd socket).sockets fd = socket := update_self _ _ _
  exact emptied.forget (by rw [atFd]; exact noTcp) (by rw [atFd]; exact noListen) notConnecting

theorem Sound.create (type : SocketType) : (stack.socketCreate type).2.Sound := by
  unfold socketCreate
  rcases socketAlloc_cases stack with full | taken
  · rw [full]
    exact sound
  · obtain ⟨fd, free, allocated⟩ := taken
    rw [allocated]
    have taken := sound.reset (sound.notConnecting free) { socketReset with used := true } rfl rfl
    refine taken.setSocket ?_ (Or.inl ?_)
    · exact taken.pointed fd
    · change (update stack.sockets fd _ fd).used = true
      rw [update_self]

theorem Sound.rename {socket : Socket} (tcp : socket.tcp = (stack.sockets fd).tcp)
    (listenTcp : socket.listenTcp = (stack.sockets fd).listenTcp)
    (used : socket.used = (stack.sockets fd).used) : (stack.setSocket fd socket).Sound := by
  refine sound.setSocket ?_ ?_
  · intro slot points
    rw [tcp, listenTcp] at points
    exact sound.pointed fd slot points
  · cases inUse : (stack.sockets fd).used with
    | true => exact Or.inl (used.trans inUse)
    | false => exact Or.inr (sound.notConnecting inUse)

theorem Sound.bind (fd : Fd)
    (port : UInt16) (address : UInt32) : (stack.socketBind fd port address).Sound := by
  unfold socketBind
  dsimp only
  split
  · exact sound
  · split
    · exact sound
    · exact sound.rename rfl rfl rfl

theorem Sound.listen (fd : Fd)
    (permitted : stack.Permits (.listen fd)) : (stack.socketListen fd).Sound := by
  unfold socketListen
  dsimp only
  split
  · exact sound
  · rename_i accepted
    simp only [Bool.or_eq_true, Bool.not_eq_true', decide_eq_true_eq,
      not_or, Bool.not_eq_false, Bool.not_eq_true, Option.isSome_eq_false_iff,
      Option.isNone_iff_eq_none] at accepted
    obtain ⟨⟨⟨used, _⟩, _⟩, noListen⟩ := accepted
    rcases tcpListen_cases (stack.sockets fd).localPort stack with
      refused | ⟨slot, conn, free, _, entered, listening⟩
    · rw [refused]
      exact sound
    · rw [listening]
      have placed := sound.place (permitted used noListen slot free) conn
      have owned : ((stack.place slot conn).addOwn fd slot).Sound := by
        refine placed.addOwn ?_ ?_
        · change ¬ unaccepted (update stack.conns slot conn slot)
          rw [update_self]
          exact entered.accepted (by decide)
        · intro other _
          exact sound.noOwner_place slot conn other
      have final : (((stack.place slot conn).addOwn fd slot).setSocket fd
          { stack.sockets fd with
            listenTcp := some slot, listening := true }).Sound := by
        refine owned.setSocket ?_ (Or.inl used)
        rintro place (tcp | listenTcp)
        · exact owned.pointed fd place (Or.inl tcp)
        · cases listenTcp
          exact mem_addOwn (stack.place slot conn) fd slot
      exact final

theorem Sound.takeAccepted (established : (stack.conns slot).state = .established)
    (waits : (stack.conns slot).pendingAccept = true) (listener : Socket) :
    (((stack.put slot ((stack.focus slot).setConn
        { stack.conns slot with pendingAccept := false })).setSocket fd
      (acceptedSocket listener slot
        { stack.conns slot with pendingAccept := false })).addOwn fd slot).Sound := by
  have taken : (stack.put slot ((stack.focus slot).setConn
      { stack.conns slot with pendingAccept := false })).Sound :=
    sound.put ⟨rfl, fun _ => Or.inl waits⟩
  have owned := @Sound.addOwn _ taken fd slot (by
      change ¬ unaccepted (update stack.conns slot _ slot)
      rw [update_self]
      rintro (pending | received)
      · cases pending
      · change (stack.conns slot).state = .synReceived at received
        rw [established] at received
        cases received)
    (fun other _ ticket member =>
      sound.unowned slot (Or.inl waits) other ticket member)
  refine @Sound.setSocket _ owned fd (acceptedSocket listener slot
    { stack.conns slot with pendingAccept := false }) ?_ (Or.inl rfl)
  rintro place (tcp | listenTcp)
  · cases tcp
    exact mem_addOwn _ fd slot
  · cases listenTcp

theorem Sound.accept (fd : Fd) : (stack.acceptRound fd).2.Sound := by
  unfold acceptRound
  dsimp only
  split
  · rename_i listenConn _ _ _
    cases pending : stack.tcpConnectionAcceptPending (stack.sockets fd).localPort listenConn with
    | none => exact sound
    | some slot =>
      dsimp only
      have found := List.find?_some pending
      simp only [Bool.and_eq_true, decide_eq_true_eq] at found
      obtain ⟨⟨⟨⟨_, established⟩, _⟩, _⟩, waits⟩ := found
      rcases socketAlloc_cases stack with full | taken
      · rw [full]
        exact sound
      · obtain ⟨newFd, free, allocated⟩ := taken
        rw [allocated]
        have base := sound.reset (sound.notConnecting free)
          { socketReset with used := true } rfl rfl
        exact base.takeAccepted established waits _
  · exact sound

omit sound

theorem Referenced.of_setSocket {socket : Socket}
    (referenced : (stack.setSocket fd socket).Referenced slot)
    (tcp : socket.tcp = (stack.sockets fd).tcp)
    (listenTcp : socket.listenTcp = (stack.sockets fd).listenTcp) : stack.Referenced slot := by
  rcases referenced with ⟨other, points⟩ | calls
  · refine Or.inl ⟨other, ?_⟩
    change (update stack.sockets fd socket other).tcp = some slot ∨
      (update stack.sockets fd socket other).listenTcp = some slot at points
    by_cases same : other = fd
    · subst same
      rw [update_self, tcp, listenTcp] at points
      exact points
    · rw [update_of_ne same] at points
      exact points
  · exact Or.inr calls

theorem Sound.connect (sound : stack.Sound) (fd : Fd)
    (address : UInt32) (port : UInt16) (permitted : stack.Permits (.connect fd address port)) :
    (stack.socketConnect fd address port).Sound := by
  unfold socketConnect
  dsimp only
  split
  · exact sound
  · rename_i accepted
    simp only [Bool.or_eq_true, Bool.not_eq_true', decide_eq_true_eq,
      not_or, Bool.not_eq_false] at accepted
    obtain ⟨⟨⟨used, _⟩, _⟩, _⟩ := accepted
    have named : (stack.setSocket fd
        { stack.sockets fd with
          peerIp := address, peerPort := port, hasPeer := true }).Sound :=
      sound.rename rfl rfl rfl
    split
    · exact named
    · rename_i noTcp
      rw [Bool.not_eq_true, Option.isSome_eq_false_iff, Option.isNone_iff_eq_none] at noTcp
      have fresh := permitted used noTcp
      set namedStack := stack.setSocket fd
        { stack.sockets fd with
          peerIp := address, peerPort := port, hasPeer := true } with namedEq
      rcases tcpConnect_cases address port namedStack with
        ⟨refused, _⟩ | ⟨slot, conn, endpoint, free, entered, connecting⟩
      · rw [refused]
        exact named
      · rw [connecting]
        have notReferenced : ¬ namedStack.Referenced slot := fun referenced =>
          fresh slot free (referenced.of_setSocket rfl rfl)
        have placed := named.placePut notReferenced conn (namedStack.nextIsn + 1) endpoint
        have owned := @Sound.addOwn _ placed fd slot (by
            change ¬ unaccepted (update (update namedStack.conns slot conn) slot endpoint.conn slot)
            rw [update_self]
            exact entered.accepted (by decide))
          (fun other _ => named.noOwner_place slot conn other)
        refine owned.addCall ?_ nofun
        rintro _ _ ⟨⟩
        refine ⟨mem_addOwn _ fd slot, ?_⟩
        change (update stack.sockets fd _ fd).used = true
        rw [update_self]
        exact used

theorem NotConnecting.closeValid (notConnecting : stack.NotConnecting fd) (slot : Slot) :
    (stack.closeValid slot).NotConnecting fd := by
  unfold Stack.closeValid
  split
  · exact notConnecting
  · exact notConnecting

variable (sound : stack.Sound)
include sound

theorem Sound.closeValid (slot : Slot) : (stack.closeValid slot).Sound := by
  unfold Stack.closeValid
  split
  · exact sound.put (.of_continues (.close (stack.conns slot)))
  · exact sound

theorem Sound.finishClose
    (notConnecting : stack.NotConnecting fd) : (stack.finishClose fd).Sound := by
  unfold Stack.finishClose
  dsimp only
  cases listening : (stack.sockets fd).listenTcp with
  | none => exact sound.reset notConnecting socketReset rfl rfl
  | some slot =>
    exact (sound.put (.of_continues (.close (stack.conns slot)))).reset
      notConnecting socketReset rfl rfl

theorem Sound.connectRound (index : Nat) (isLast : Bool) :
    (stack.connectRound index isLast).Sound := by
  unfold Stack.connectRound
  split
  · rename_i fd slot call
    have inProgress := List.mem_of_getElem? call
    obtain ⟨owned, used⟩ := sound.connecting fd slot inProgress
    have left := sound.eraseCall index
    dsimp only
    split
    · refine left.setSocket ?_ (Or.inl used)
      rintro place (tcp | listenTcp)
      · cases tcp
        exact owned
      · exact sound.pointed fd place (Or.inr listenTcp)
    · split
      · exact left.closeValid slot
      · exact sound
  · exact sound

theorem Sound.send (fd : Fd) (data : List UInt8) : (stack.socketSend fd data).2.Sound := by
  unfold socketSend
  dsimp only
  split
  · rename_i slot _ _ _
    split
    · exact sound
    · exact sound.put (.of_continues (.tcpSendData (stack.focus slot) data))
  · exact sound

theorem Sound.recv (fd : Fd) (maxLen : Nat) : (stack.socketTcpTryRecv fd maxLen).2.Sound := by
  unfold socketTcpTryRecv
  dsimp only
  split
  · rename_i slot _ _ _
    have left : (stack.put slot ((stack.focus slot).setConn
        (tcpConnectionReceive (stack.conns slot) maxLen).2)).Sound :=
      sound.put ⟨rfl, id⟩
    split
    · exact left
    · split
      · exact left
      · exact left
  · exact sound

theorem Sound.close (fd : Fd)
    (permitted : stack.Permits (.close fd)) : (stack.socketClose fd).Sound := by
  unfold socketClose
  split
  · exact sound
  · cases pointer : (stack.sockets fd).tcp with
    | none => exact sound.finishClose permitted
    | some slot =>
      dsimp only
      split
      · rename_i established
        have goesOn := continues_sendFin (stack.focus slot) established
        have sent : (stack.put slot (sendFin (stack.focus slot))).Sound :=
          sound.put (.of_continues goesOn)
        refine sent.addCall nofun ?_
        rintro _ _ _ ⟨⟩
        exact ticket_put goesOn.tuple slot
      · exact (sound.closeValid slot).finishClose (permitted.closeValid slot)

theorem Sound.closeRound (index : Nat) (isLast : Bool)
    (permitted : stack.Permits (.closeRound index isLast)) :
    (stack.closeRound index isLast).Sound := by
  unfold Stack.closeRound
  split
  · rename_i fd slot ticket call
    have left := sound.eraseCall index
    have before : stack.NotConnecting fd := by
      change stack.RoundPermits index at permitted
      unfold RoundPermits at permitted
      rw [call] at permitted
      exact permitted
    have notConnecting : NotConnecting
      { stack with calls := stack.calls.eraseIdx index } fd := fun place inProgress =>
      before place (List.mem_of_mem_eraseIdx inProgress)
    dsimp only
    split
    · exact left.finishClose notConnecting
    · split
      · exact (left.closeValid slot).finishClose (notConnecting.closeValid slot)
      · exact sound
  · exact sound

theorem Sound.step (event : StackEvent)
    (permitted : stack.Permits event) : (stack.step event).Sound := by
  cases event with
  | address ourIp => exact sound.of_eq rfl rfl rfl rfl
  | packet srcIp destIp segment =>
    exact sound.packet srcIp destIp segment permitted
  | timers => exact sound.timers
  | create type => exact sound.create type
  | bind fd port address => exact sound.bind fd port address
  | listen fd => exact sound.listen fd permitted
  | accept fd => exact sound.accept fd
  | connect fd address port => exact sound.connect fd address port permitted
  | connectRound index isLast => exact sound.connectRound index isLast
  | send fd data => exact sound.send fd data
  | recv fd maxLen => exact sound.recv fd maxLen
  | close fd => exact sound.close fd permitted
  | closeRound index isLast => exact sound.closeRound index isLast permitted

omit sound

theorem sound_init (clock : Nat → UInt32) : (Stack.init clock).Sound := by
  refine ⟨fun slot => slot.isLt, Fin.val_injective, ?_, ?_, ?_, ?_, ?_, ?_⟩
  · intro fd ticket member
    cases member
  · rintro fd slot (tcp | listenTcp)
    · cases tcp
    · cases listenTcp
  · intro fd slot inProgress
    cases inProgress
  · intro fd slot ticket inProgress
    cases inProgress
  · intro fd other ticket member
    cases member
  · intro slot waits fd ticket member
    cases member

/-- The sockets are isolated in every run in which each new connection gets a
place that nothing points to and no socket is closed while it connects. -/
theorem isolated_of_permitted (clock : Nat → UInt32)
    {events : List StackEvent}
    (permitted : AlongRun Stack.step Stack.Permits (Stack.init clock) events) :
    (runFrom Stack.step (Stack.init clock) events).Isolated :=
  (permitted.invariant (fun _ event sound permitted =>
    sound.step event permitted) (sound_init clock)).isolated

end Stack

/-- The answer of a peer to the SYN with initial sequence number `isn`. -/
def answerSyn (isn : UInt32) : Segment :=
  { srcPort := 80, destPort := 49152 + (isn % 16384).toUInt16, seqNum := 7
    ackNum := isn + 1, flags := tcpFlagSyn ||| tcpFlagAck, window := 4096
    payload := [] }

/-- A socket connects to the peer 2. -/
def connectFirst : List StackEvent :=
  [.address 1, .create .stream, .connect 0 2 80, .packet 2 1 (answerSyn 1000),
    .connectRound 0 false]

theorem isolated_of_first : (runFrom Stack.step (Stack.init fun _ => 0) (connectFirst ++
      [.send 0 [1], .recv 0 10, .close 0])).Isolated :=
  Stack.isolated_of_permitted (fun _ => 0) (by decide +kernel)

/-- The peer 2 resets the connection, another socket connects to the peer 3,
and the peer 3 sends a byte. -/
def connectSecond : List StackEvent :=
  [.packet 2 1 { answerSyn 1000 with flags := tcpFlagRst },
    .create .stream, .connect 1 3 80, .packet 3 1 (answerSyn 1001),
    .connectRound 0 false,
    .packet 3 1 { answerSyn 1001 with
      seqNum := 8, flags := tcpFlagAck, payload := [42] }]

/-- The first socket points to the connection of the second one and reads what
the peer 3 sent to it. -/
theorem not_isolated_of_reset :
    let stack := runFrom Stack.step (Stack.init fun _ => 0)
      (connectFirst ++ connectSecond)
    ¬ stack.Isolated ∧ (stack.socketTcpTryRecv 0 10).1 = some [42] := by
  refine ⟨?_, by decide +kernel⟩
  intro isolated
  have own := isolated.own 0 0 (by decide +kernel)
    (Or.inl (by decide +kernel))
  revert own
  decide +kernel

end KnitOS.Net
