import KnitOS.Ssh.ExchangeHash

/-!
# Sessions are authenticated

A session starts only after a request with the right password, and with the ids
computed for its user.  Every request overwrites the ids, but the loop ends
with the first right password.
-/

namespace KnitOS.Ssh

open Lib Lib.Command

/-- The packet of a payload in a buffer with the given contents. -/
def packetOf (memory : Memory) (payload : List UInt8) : Br :=
  ⟨memory.store payload, UInt32.ofNat payload.length, 0⟩

/-- In the buffer and at the clock of the state in which it is asked, the payload
is a request with the right password, and the ids are those computed for the
user it names. -/
def Grants (world : SshWorld) (asked : Sshd) (payload : List UInt8) (uid gid : UInt16) : Prop :=
  let packet := packetOf (asked.pkt .userauth) payload
  packet.memory 0 = msgUserauthRequest ∧
    (∃ password, (authRequest packet).password = some password ∧
      verifyPassword (world.shadow (asked.clock + 1)) (cString (authRequest packet).user)
        (cString password) = true) ∧
    (uid, gid) = shellIds (world.passwd asked.clock) (authRequest packet).user

section

variable (world : SshWorld)

/-- Requests that are answered with a failure. -/
def refusedRequests : Nat → Command Sshd Unit
  | 0 => pure ()
  | refused + 1 => do
      let ok ← userauthRound world
      require (ok = false)
      refusedRequests refused

/-- `do_userauth` up to the request behind the given number of refused ones. -/
def userauthUntil (refused : Nat) : Command Sshd Unit := do
  userauthService world
  refusedRequests world refused

/-- `serve` up to the request behind the given number of refused ones. -/
def serveUntil (line : List UInt8) (refused : Nat) : Command Sshd Unit := do
  let _ ← handshake world line
  userauthUntil world refused

end

/-- Payloads may have been taken; no session was started. -/
structure Quiet (sshd reached : Sshd) : Prop where
  sessions : reached.sessions = sshd.sessions
  incoming : reached.incoming <:+ sshd.incoming

/-- The ids of the shell are unchanged as well. -/
structure Undisturbed (sshd reached : Sshd) : Prop extends Quiet sshd reached where
  shellUid : reached.shellUid = sshd.shellUid
  shellGid : reached.shellGid = sshd.shellGid

instance : Std.Refl Quiet where
  refl _ := ⟨rfl, List.suffix_rfl⟩

instance : IsTrans Sshd Quiet where
  trans _ _ _ first second :=
    ⟨second.sessions.trans first.sessions,
      second.incoming.trans first.incoming⟩

instance : Std.Refl Undisturbed where
  refl _ := ⟨⟨rfl, List.suffix_rfl⟩, rfl, rfl⟩

instance : IsTrans Sshd Undisturbed where
  trans _ _ _ first second :=
    ⟨⟨second.sessions.trans first.sessions,
      second.incoming.trans first.incoming⟩,
      second.shellUid.trans first.shellUid,
      second.shellGid.trans first.shellGid⟩

theorem Undisturbed.quiet {α : Type} {command : Command Sshd α}
    (stays : Stays Undisturbed command) : Stays Quiet command :=
  stays.mono fun _ _ undisturbed => undisturbed.toQuiet

theorem undisturbed_ask {α : Type} (answer : Nat → α) : Stays Undisturbed (ask answer) :=
  fun _ => ⟨⟨rfl, List.suffix_rfl⟩, rfl, rfl⟩

theorem undisturbed_sshRecv (stage : Stage) : Stays Undisturbed (sshRecv stage) := by
  intro sshd
  unfold sshRecv
  dsimp only
  split
  · exact Std.Refl.refl sshd
  · rename_i payload rest arrived
    exact ⟨⟨rfl, by rw [arrived]; exact List.suffix_cons payload rest⟩, rfl, rfl⟩

section

variable (world : SshWorld)

theorem undisturbed_sshSend (payload : List UInt8) : Stays Undisturbed (sshSend world payload) := by
  unfold sshSend
  exact stays_bind (undisturbed_ask _) fun _ =>
    stays_bind (stays_require _) fun _ =>
      stays_modify fun _ => ⟨⟨rfl, List.suffix_rfl⟩, rfl, rfl⟩

theorem undisturbed_exchangeValues : Stays Undisturbed (exchangeValues world) := by
  unfold exchangeValues
  refine stays_bind (undisturbed_sshRecv .kex) fun _ => ?_
  refine stays_bind (stays_require _) fun _ => ?_
  refine stays_bind (stays_modify fun _ => ⟨⟨rfl, List.suffix_rfl⟩, rfl, rfl⟩) fun _ => ?_
  refine stays_bind (undisturbed_ask _) fun _ => ?_
  refine stays_bind (stays_modify fun _ => ⟨⟨rfl, List.suffix_rfl⟩, rfl, rfl⟩) fun _ => ?_
  refine stays_bind (undisturbed_sshSend world _) fun _ => ?_
  refine stays_bind (undisturbed_sshRecv .kex) fun _ => ?_
  refine stays_bind (stays_require _) fun _ => ?_
  refine stays_bind (stays_require _) fun _ => ?_
  refine stays_bind (undisturbed_ask _) fun _ => ?_
  refine stays_bind (stays_modify fun _ => ⟨⟨rfl, List.suffix_rfl⟩, rfl, rfl⟩) fun _ => ?_
  exact stays_reads _

theorem undisturbed_finishKex (exchange : Exchange) (hash : List UInt8) :
    Stays Undisturbed (finishKex world exchange hash) := by
  unfold finishKex
  refine stays_bind (stays_modify fun _ => ⟨⟨rfl, List.suffix_rfl⟩, rfl, rfl⟩) fun _ => ?_
  refine stays_bind (stays_reads _) fun _ => ?_
  refine stays_bind (undisturbed_sshSend world _) fun _ => ?_
  refine stays_bind (undisturbed_sshSend world _) fun _ => ?_
  refine stays_bind (undisturbed_sshRecv .kex) fun _ => ?_
  refine stays_bind (stays_require _) fun _ => ?_
  exact stays_modify fun _ => ⟨⟨rfl, List.suffix_rfl⟩, rfl, rfl⟩

theorem undisturbed_handshake (line : List UInt8) : Stays Undisturbed (handshake world line) := by
  unfold handshake doKex
  refine stays_bind (stays_modify fun _ => ⟨⟨rfl, List.suffix_rfl⟩, rfl, rfl⟩) fun _ => ?_
  refine stays_bind (undisturbed_ask _) fun _ => ?_
  refine stays_bind (stays_require _) fun _ => ?_
  refine stays_bind (stays_modify fun _ => ⟨⟨rfl, List.suffix_rfl⟩, rfl, rfl⟩) fun _ => ?_
  refine stays_bind (stays_require _) fun _ => ?_
  refine stays_bind (stays_modify fun _ => ⟨⟨rfl, List.suffix_rfl⟩, rfl, rfl⟩) fun _ => ?_
  refine stays_bind (undisturbed_exchangeValues world) fun exchange => ?_
  refine stays_bind (undisturbed_finishKex world exchange _) fun _ => ?_
  exact stays_pure exchange

theorem undisturbed_checkPassword (request : AuthRequest) :
    Stays Undisturbed (checkPassword world request) := by
  unfold checkPassword
  split
  · exact stays_pure false
  · exact stays_bind (undisturbed_ask _) fun _ => stays_pure _

theorem undisturbed_answerRequest (ok : Bool) : Stays Undisturbed (answerRequest world ok) := by
  unfold answerRequest authFailure
  split
  · exact undisturbed_sshSend world _
  · exact undisturbed_sshSend world _

theorem quiet_userauthRound : Stays Quiet (userauthRound world) := by
  unfold userauthRound
  refine stays_bind (Undisturbed.quiet (undisturbed_sshRecv _)) fun _ => ?_
  refine stays_bind (stays_require _) fun _ => ?_
  refine stays_bind (Undisturbed.quiet (undisturbed_ask _)) fun _ => ?_
  refine stays_bind (stays_modify fun _ => ⟨rfl, List.suffix_rfl⟩) fun _ => ?_
  refine stays_bind (Undisturbed.quiet (undisturbed_checkPassword world _)) fun ok => ?_
  exact stays_bind (Undisturbed.quiet (undisturbed_answerRequest world ok)) fun _ => stays_pure ok

theorem quiet_userauthLoop (rounds : Nat) : Stays Quiet (userauthLoop world rounds) := by
  induction rounds with
  | zero => exact stays_fail
  | succ rounds ih =>
    unfold userauthLoop
    refine stays_bind (quiet_userauthRound world) fun ok => ?_
    split
    · exact stays_pure ()
    · exact ih

variable {world} {sshd reached : Sshd}

theorem checkPassword_true {request : AuthRequest}
    (checked : (checkPassword world request).run sshd = (some true, reached)) :
    ∃ password, request.password = some password ∧
      verifyPassword (world.shadow sshd.clock) (cString request.user)
        (cString password) = true := by
  unfold checkPassword at checked
  split at checked
  · cases checked
  · rename_i password given
    rw [run_bind_of_some (run_ask _ _), run_pure] at checked
    refine ⟨password, given, ?_⟩
    exact Option.some.inj (congrArg Prod.fst checked)

theorem userauthRound_true (returned : (userauthRound world).run sshd = (some true, reached)) :
    ∃ payload rest, sshd.incoming = payload :: rest ∧
      reached.incoming <:+ rest ∧ reached.sessions = sshd.sessions ∧
      Grants world sshd payload reached.shellUid reached.shellGid := by
  unfold userauthRound at returned
  obtain ⟨_, _, received, returned⟩ := run_bind_eq_some_iff.mp returned
  obtain ⟨payload, rest, arrived, rfl, rfl⟩ := run_sshRecv_eq_some_iff.mp received
  obtain ⟨_, _, required, returned⟩ := run_bind_eq_some_iff.mp returned
  obtain ⟨request, rfl⟩ := run_require_eq_some_iff.mp required
  rw [run_bind_of_some (run_ask _ _), run_modify_bind] at returned
  obtain ⟨ok, checkedState, checked, returned⟩ := run_bind_eq_some_iff.mp returned
  obtain ⟨_, sentState, sent, returned⟩ := run_bind_eq_some_iff.mp returned
  have isOk : ok = true := Option.some.inj (congrArg Prod.fst returned)
  have same : sentState = reached := congrArg Prod.snd returned
  subst isOk same
  have verified := checkPassword_true checked
  have checkedFrame := (undisturbed_checkPassword world _).of_some checked
  have sentFrame := (undisturbed_answerRequest world true).of_some sent
  refine ⟨payload, rest, arrived, sentFrame.incoming.trans checkedFrame.incoming,
    sentFrame.sessions.trans checkedFrame.sessions, ?_⟩
  exact ⟨request, verified,
    Prod.ext (sentFrame.shellUid.trans checkedFrame.shellUid)
      (sentFrame.shellGid.trans checkedFrame.shellGid)⟩

/-- What a connection has seen when its authentication succeeded: behind some
refused requests, a request that grants the ids in the state reached there, and
before all that is still to arrive. -/
def Authenticated (world : SshWorld) (untilRequest : Nat → Command Sshd Unit)
    (sshd reached : Sshd) : Prop :=
  reached.sessions = sshd.sessions ∧
    ∃ refused asked payload after,
      (untilRequest refused).run sshd = (some (), asked) ∧
      asked.incoming = payload :: after ∧
      asked.incoming <:+ sshd.incoming ∧
      reached.incoming <:+ after ∧
      Grants world asked payload reached.shellUid reached.shellGid

variable {first second third : Sshd} {untilRequest : Nat → Command Sshd Unit}

theorem Authenticated.after_quiet {α : Type} {command : Command Sshd α} {value : α}
    (ran : command.run first = (some value, second)) (quiet : Quiet first second)
    (authenticated : Authenticated world untilRequest second third) :
    Authenticated world (fun refused => command >>= fun _ => untilRequest refused)
      first third := by
  obtain ⟨sessions, refused, asked, payload, after, run, incoming, later, remaining, grants⟩ :=
    authenticated
  refine ⟨sessions.trans quiet.sessions, refused, asked, payload, after, ?_, incoming,
    later.trans quiet.incoming, remaining, grants⟩
  rw [run_bind_of_some ran, run]

theorem Authenticated.before_undisturbed
    (authenticated : Authenticated world untilRequest first second)
    (undisturbed : Undisturbed second third) :
    Authenticated world untilRequest first third := by
  obtain ⟨sessions, refused, asked, payload, after, run, incoming, later, remaining, grants⟩ :=
    authenticated
  refine ⟨undisturbed.sessions.trans sessions, refused, asked, payload, after, run, incoming,
    later, undisturbed.incoming.trans remaining, ?_⟩
  rw [undisturbed.shellUid, undisturbed.shellGid]
  exact grants

/-- By induction on the rounds: those that fail are quiet, and the last one
finds the right password. -/
theorem userauthLoop_authenticates {rounds : Nat}
    {value : Unit} (returned : (userauthLoop world rounds).run sshd = (some value, reached)) :
    Authenticated world (refusedRequests world) sshd reached := by
  induction rounds generalizing sshd with
  | zero => cases returned
  | succ rounds ih =>
    unfold userauthLoop at returned
    obtain ⟨ok, middle, round, rest⟩ := run_bind_eq_some_iff.mp returned
    cases ok with
    | false =>
      have quiet := (quiet_userauthRound world).of_some round
      obtain ⟨sessions, refused, asked, payload, after, run, incoming, later, remaining, grants⟩ :=
        ih rest
      refine ⟨sessions.trans quiet.sessions, refused + 1, asked, payload, after, ?_, incoming,
        later.trans quiet.incoming, remaining, grants⟩
      rw [refusedRequests, run_bind_of_some round]
      exact run
    | true =>
      have same : middle = reached := congrArg Prod.snd rest
      subst same
      obtain ⟨payload, later, incoming, remaining, sessions, grants⟩ := userauthRound_true round
      exact ⟨sessions, 0, sshd, payload, later, rfl, incoming, List.suffix_rfl, remaining, grants⟩

theorem undisturbed_requireService (packet : Br) (name : List UInt8) :
    Stays Undisturbed (requireService packet name) := stays_require _

variable (world) in
theorem undisturbed_userauthDone : Stays Undisturbed (userauthDone world) := by
  unfold userauthDone
  refine stays_bind (undisturbed_sshRecv _) fun _ => ?_
  dsimp only
  split
  · exact stays_bind (undisturbed_requireService _ _) fun _ =>
      undisturbed_sshSend world _
  · exact stays_modify fun _ => ⟨⟨rfl, List.suffix_rfl⟩, rfl, rfl⟩

variable (world) in
theorem undisturbed_userauthService : Stays Undisturbed (userauthService world) := by
  unfold userauthService
  refine stays_bind (undisturbed_sshRecv _) fun _ => ?_
  refine stays_bind (stays_require _) fun _ => ?_
  refine stays_bind (undisturbed_requireService _ _) fun _ => ?_
  exact undisturbed_sshSend world _

variable (world) in
theorem quiet_doUserauth : Stays Quiet (doUserauth world) := by
  unfold doUserauth
  refine stays_bind (Undisturbed.quiet (undisturbed_userauthService world)) fun _ => ?_
  refine stays_bind (stays_reads _) fun rounds => ?_
  refine stays_bind (quiet_userauthLoop world rounds) fun _ => ?_
  exact Undisturbed.quiet (undisturbed_userauthDone world)

theorem doUserauth_authenticates {value : Unit}
    (returned : (doUserauth world).run sshd = (some value, reached)) :
    Authenticated world (userauthUntil world) sshd reached := by
  unfold doUserauth at returned
  obtain ⟨_, _, accepted, requests⟩ := run_bind_eq_some_iff.mp returned
  rw [run_reads_bind] at requests
  obtain ⟨_, _, looped, finished⟩ := run_bind_eq_some_iff.mp requests
  have authenticated := (userauthLoop_authenticates looped).before_undisturbed
    ((undisturbed_userauthDone world).of_some finished)
  exact Authenticated.after_quiet accepted
    ((undisturbed_userauthService world).of_some accepted).toQuiet authenticated

variable (world)

theorem undisturbed_firstPacket : Stays Undisturbed firstPacket := by
  intro sshd
  unfold firstPacket
  dsimp only
  split
  · exact ⟨⟨rfl, List.suffix_rfl⟩, rfl, rfl⟩
  · exact undisturbed_sshRecv .connection sshd

theorem undisturbed_openChannel (packet : Br) : Stays Undisturbed (openChannel world packet) := by
  unfold openChannel
  exact stays_bind (stays_modify fun _ => ⟨⟨rfl, List.suffix_rfl⟩, rfl, rfl⟩)
    fun _ => undisturbed_sshSend world _

theorem undisturbed_connectionRound : Stays Undisturbed (connectionRound world) := by
  unfold connectionRound
  refine stays_bind (undisturbed_sshRecv _) fun _ => ?_
  dsimp only
  split
  · refine stays_bind (stays_reads _) fun _ => ?_
    refine stays_bind (stays_whenever _ ?_) fun _ => stays_pure _
    exact stays_bind (fun sshd => undisturbed_sshSend world _ sshd) fun _ => stays_pure ()
  · exact stays_bind (stays_require _) fun _ => stays_pure none

theorem undisturbed_connectionLoop (rounds : Nat) :
    Stays Undisturbed (connectionLoop world rounds) := by
  induction rounds with
  | zero => exact stays_fail
  | succ rounds ih =>
    unfold connectionLoop
    refine stays_bind (undisturbed_connectionRound world) fun starts => ?_
    cases starts with
    | none => exact ih
    | some command => exact stays_pure command

/-- The sessions after a connection: at most one more, with the ids of the
shell. -/
def Opens (sshd reached : Sshd) : Prop :=
  reached.incoming <:+ sshd.incoming ∧
    (reached.sessions = sshd.sessions ∨
      ∃ command, reached.sessions =
        sshd.sessions ++ [⟨sshd.shellUid, sshd.shellGid, command⟩])

theorem Opens.after
    (undisturbed : Undisturbed first second) (opens : Opens second third) : Opens first third := by
  refine ⟨opens.1.trans undisturbed.incoming, ?_⟩
  rw [← undisturbed.sessions, ← undisturbed.shellUid, ← undisturbed.shellGid]
  exact opens.2

theorem opens_bind {α β : Type} {command : Command Sshd α}
    {next : α → Command Sshd β} (first : Stays Undisturbed command)
    (second : ∀ value, Stays Opens (next value)) : Stays Opens (command >>= next) := by
  intro sshd
  have undisturbed := first sshd
  rw [run_bind]
  split
  · rename_i value middle ran
    rw [ran] at undisturbed
    exact Opens.after undisturbed (second value middle)
  · rename_i middle failed
    rw [failed] at undisturbed
    exact ⟨undisturbed.incoming, Or.inl undisturbed.sessions⟩

theorem opens_runSession (command : Option (List UInt8)) :
    Stays Opens (runSession world command) := by
  unfold runSession
  refine opens_bind (undisturbed_ask _) fun _ => ?_
  refine opens_bind (stays_require _) fun _ => ?_
  exact stays_modify fun _ => ⟨List.suffix_rfl, Or.inr ⟨command, rfl⟩⟩

theorem opens_doConnection : Stays Opens (doConnection world) := by
  unfold doConnection
  refine opens_bind undisturbed_firstPacket fun _ => ?_
  refine opens_bind (stays_require _) fun _ => ?_
  refine opens_bind (undisturbed_openChannel world _) fun _ => ?_
  refine opens_bind (stays_reads _) fun rounds => ?_
  refine opens_bind (undisturbed_connectionLoop world rounds) fun command => ?_
  exact opens_runSession world command

/-- Whatever the client sends and whatever the global variables hold, a
connection starts no session, or one session after a request with the right
password, with the ids of the user of that request.  The request stands behind
requests that were all refused, and it is judged as the server has it: in the
buffer and at the time at which it arrives. -/
theorem session_authenticated (line : List UInt8) (sshd : Sshd) :
    ((serve world line).run sshd).2.sessions = sshd.sessions ∨
      ∃ session refused asked payload after,
        ((serve world line).run sshd).2.sessions = sshd.sessions ++ [session] ∧
          (serveUntil world line refused).run sshd = (some (), asked) ∧
          asked.incoming = payload :: after ∧
          asked.incoming <:+ sshd.incoming ∧
          ((serve world line).run sshd).2.incoming <:+ after ∧
          Grants world asked payload session.uid session.gid := by
  have handshaken := undisturbed_handshake world line sshd
  unfold serve
  rw [run_bind]
  split
  · rename_i exchange greeted ran
    rw [ran] at handshaken
    have quiet := quiet_doUserauth world greeted
    rw [run_bind]
    split
    · rename_i value authState authenticated
      obtain ⟨sessions, refused, asked, payload, after, run, incoming, later, remaining, grants⟩ :=
        Authenticated.after_quiet ran handshaken.toQuiet (doUserauth_authenticates authenticated)
      obtain ⟨taken, opened⟩ := opens_doConnection world authState
      rcases opened with none | ⟨command, started⟩
      · exact Or.inl (none.trans sessions)
      · refine Or.inr ⟨⟨authState.shellUid, authState.shellGid, command⟩, refused, asked,
          payload, after, ?_, run, incoming, later, taken.trans remaining, grants⟩
        rw [started, sessions]
    · rename_i refused failed
      rw [failed] at quiet
      exact Or.inl (quiet.sessions.trans handshaken.sessions)
  · rename_i refused failed
    rw [failed] at handshaken
    exact Or.inl handshaken.sessions

end

/-- A request with the method `password`. -/
def passwordRequest (user password : List UInt8) : List UInt8 :=
  msgUserauthRequest :: sshString user ++ sshString (ascii "ssh-connection") ++
    sshString (ascii "password") ++ 0 :: sshString password

/-- The packets of a client that logs in as root after a wrong password and
asks for a shell. -/
def loginPackets : List (List UInt8) :=
  kexPackets 16 ++
    [msgServiceRequest :: sshString (ascii "ssh-userauth"),
      passwordRequest (ascii "root") (ascii "no"),
      passwordRequest (ascii "root") (ascii "pw"),
      msgChannelOpen :: sshString (ascii "session") ++ List.replicate 12 0,
      msgChannelRequest :: [0, 0, 0, 0] ++ sshString (ascii "shell") ++ [0]]

/-- A login starts a shell, which a request of its packets grants. -/
theorem session_authenticated_of_login :
    ((serve plainWorld clientLine).run (freshSshd loginPackets)).2.sessions = [⟨0, 0, none⟩] ∧
      ∃ refused asked payload after,
        (serveUntil plainWorld clientLine refused).run (freshSshd loginPackets) =
            (some (), asked) ∧
          asked.incoming = payload :: after ∧
          Grants plainWorld asked payload 0 0 := by
  have started : ((serve plainWorld clientLine).run
      (freshSshd loginPackets)).2.sessions = [⟨0, 0, none⟩] := by
    decide +kernel
  refine ⟨started, ?_⟩
  rcases session_authenticated plainWorld clientLine (freshSshd loginPackets)
    with none | ⟨session, refused, asked, payload, after, sessions, run, incoming, _, _, grants⟩
  · rw [started] at none
    cases none
  · rw [started] at sessions
    cases sessions
    exact ⟨refused, asked, payload, after, run, incoming, grants⟩

end KnitOS.Ssh
