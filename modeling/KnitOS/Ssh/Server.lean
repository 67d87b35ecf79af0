import KnitOS.Lib.CommandFrames
import KnitOS.Lib.Lines
import KnitOS.Ssh.Wire

/-!
# The SSH server

`serve` of `sshd.c` on one connection.  Packets are the payloads `ssh_recv`
returns and `ssh_send` is given; a connection that ends or sends a bad packet
has no further payloads.  What comes from outside, and the cryptographic
functions, are answers of the world.
-/

namespace KnitOS.Ssh

open Lib Lib.Command

structure SshWorld where
  sha256 : List UInt8 → List UInt8
  x25519 : Bytes 32 → Bytes 32 → Bytes 32
  ed25519Sign : List UInt8 → Bytes 64 → Bytes 64
  random : Nat → (size : Nat) → Bytes size
  delivers : Nat → Bool
  shadow : Nat → Option (List UInt8)
  passwd : Nat → Option (List UInt8)
  opensPty : Nat → Bool

/-- The functions with a packet buffer of their own. -/
inductive Stage where
  | kex
  | userauth
  | connection
deriving DecidableEq

/-- A shell or command that `run_session` started. -/
structure Session where
  uid : UInt16
  gid : UInt16
  command : Option (List UInt8)
deriving DecidableEq

/-- The global variables, the payloads that are still to arrive, those sent,
and the sessions started. -/
structure Sshd where
  clock : Nat
  incoming : List (List UInt8)
  sent : List (List UInt8)
  encrypted : Bool
  vc : List UInt8
  vs : List UInt8
  ic : List UInt8
  is : List UInt8
  k : Bytes 32
  sid : List UInt8
  keyC2s : List UInt8
  keyS2c : List UInt8
  hostPk : Bytes 32
  hostSk : Bytes 64
  pkt : Stage → Memory
  user : List UInt8
  shellUid : UInt16
  shellGid : UInt16
  pending : List UInt8
  hasPending : Bool
  chan : UInt32
  maxpkt : UInt32
  sessions : List Session

/-! ## Messages -/

abbrev msgDisconnect : UInt8 := 1
abbrev msgServiceRequest : UInt8 := 5
abbrev msgServiceAccept : UInt8 := 6
abbrev msgKexinit : UInt8 := 20
abbrev msgNewkeys : UInt8 := 21
abbrev msgKexEcdhInit : UInt8 := 30
abbrev msgKexEcdhReply : UInt8 := 31
abbrev msgUserauthRequest : UInt8 := 50
abbrev msgUserauthFailure : UInt8 := 51
abbrev msgUserauthSuccess : UInt8 := 52
abbrev msgChannelOpen : UInt8 := 90
abbrev msgChannelOpenConfirmation : UInt8 := 91
abbrev msgChannelData : UInt8 := 94
abbrev msgChannelEof : UInt8 := 96
abbrev msgChannelClose : UInt8 := 97
abbrev msgChannelRequest : UInt8 := 98
abbrev msgChannelSuccess : UInt8 := 99
abbrev msgChannelFailure : UInt8 := 100

/-- Ask the world for something. -/
def ask {α : Type} (answer : Nat → α) : Command Sshd α := do
  let clock ← reads Sshd.clock
  modify fun sshd => { sshd with clock := clock + 1 }
  pure (answer clock)

@[simp]
theorem run_ask {α : Type} (answer : Nat → α) (sshd : Sshd) : (ask answer).run sshd =
      (some (answer sshd.clock), { sshd with clock := sshd.clock + 1 }) := rfl

/-- The packet buffers after a payload was received by a stage. -/
def Sshd.receive (stage : Stage) (payload : List UInt8) (sshd : Sshd) : Stage → Memory :=
  fun other =>
    if other = stage then (sshd.pkt stage).store payload else sshd.pkt other

/-- `ssh_recv`: a reader of the payload at its first byte, and that byte as
the buffer has it, also when the payload is empty. -/
def sshRecv (stage : Stage) : Command Sshd (UInt8 × Br) :=
  ⟨fun sshd =>
    match sshd.incoming with
    | [] => (none, sshd)
    | payload :: rest =>
      let pkt := sshd.receive stage payload
      (some (pkt stage 0, ⟨pkt stage, UInt32.ofNat payload.length, 0⟩),
        { sshd with incoming := rest, pkt := pkt })⟩

theorem run_sshRecv_eq_some_iff {stage : Stage} {sshd reached : Sshd}
    {result : UInt8 × Br} : (sshRecv stage).run sshd = (some result, reached) ↔
      ∃ payload rest, sshd.incoming = payload :: rest ∧
        result = (sshd.receive stage payload stage 0,
          ⟨sshd.receive stage payload stage, UInt32.ofNat payload.length, 0⟩) ∧ reached =
          { sshd with
            incoming := rest
            pkt := sshd.receive stage payload } := by
  unfold sshRecv
  dsimp only
  cases arrived : sshd.incoming with
  | nil =>
    constructor
    · intro returned
      cases returned
    · rintro ⟨_, _, absent, _⟩
      cases absent
  | cons payload rest =>
    constructor
    · intro returned
      cases returned
      exact ⟨payload, rest, rfl, rfl, rfl⟩
    · rintro ⟨_, _, same, rfl, rfl⟩
      cases same
      rfl

/-- The reader behind the message number. -/
def Br.body (reader : Br) : Br := { reader with pos := 1 }

section

variable (world : SshWorld)

def sshSend (payload : List UInt8) : Command Sshd Unit := do
  let delivered ← ask world.delivers
  require (delivered = true)
  modify fun sshd => { sshd with sent := sshd.sent ++ [payload] }

variable {world} in
theorem run_sshSend_eq_some_iff {payload : List UInt8} {sshd reached : Sshd}
    {value : Unit} : (sshSend world payload).run sshd = (some value, reached) ↔
      world.delivers sshd.clock = true ∧ reached =
          { sshd with
            clock := sshd.clock + 1
            sent := sshd.sent ++ [payload] } := by
  unfold sshSend
  simp only [run_bind_eq_some_iff, run_require_eq_some_iff, run_ask,
    run_modify, Prod.mk.injEq, Option.some.injEq]
  constructor
  · rintro ⟨_, _, ⟨rfl, rfl⟩, _, _, ⟨delivered, rfl⟩, _, rfl⟩
    exact ⟨delivered, rfl⟩
  · rintro ⟨delivered, rfl⟩
    exact ⟨_, _, ⟨rfl, rfl⟩, (), _, ⟨delivered, rfl⟩, trivial, rfl⟩

/-! ## Key exchange -/

abbrev sshv : List UInt8 := ascii "SSH-2.0-KnitOS_1.0"

abbrev hostKeyAlg : List UInt8 := ascii "ssh-ed25519"

def buildKexinit (cookie : Bytes 16) : List UInt8 :=
  let kex := ascii "curve25519-sha256"
  let enc := ascii "chacha20-poly1305@openssh.com"
  let mac := ascii "hmac-sha2-256"
  let comp := ascii "none"
  let named := bwStr hostKeyAlg (bwStr kex
    (bwRaw cookie.1 (bwU8 msgKexinit (Buf.empty 1024))))
  let ciphers := bwStr mac (bwStr mac (bwStr enc (bwStr enc named)))
  let languages := bwStr [] (bwStr [] (bwStr comp (bwStr comp ciphers)))
  (bwU32 0 (bwU8 0 languages)).bytes

/-- The values `do_kex` hashes. -/
structure Exchange where
  vc : List UInt8
  vs : List UInt8
  ic : List UInt8
  is : List UInt8
  ksb : List UInt8
  qc : Bytes 32
  spub : Bytes 32
  k : Bytes 32

/-- What the accumulator holds when `sha_final` is called. -/
def Exchange.hashed (exchange : Exchange) : List UInt8 :=
  let versions := shaAddStr exchange.vs (shaAddStr exchange.vc [])
  let kexinits := shaAddStr exchange.is (shaAddStr exchange.ic versions)
  let keys := shaAddStr exchange.spub.1 (shaAddStr exchange.qc.1
    (shaAddStr exchange.ksb kexinits))
  shaAddMpint exchange.k.1 keys

def clampScalar (scalar : Bytes 32) : Bytes 32 :=
  ⟨(scalar.1.modify 0 (· &&& 248)).modify 31 fun byte => byte &&& 127 ||| 64,
    by simp [scalar.2]⟩

def basePoint : Bytes 32 := ⟨9 :: List.replicate 31 0, rfl⟩

def hostKeyBlob (hostPk : Bytes 32) : List UInt8 :=
  (bwStr hostPk.1 (bwStr hostKeyAlg (Buf.empty 128))).bytes

/-- The two messages of the client, and the values of the exchange. -/
def exchangeValues : Command Sshd Exchange := do
  let (first, kexinit) ← sshRecv .kex
  require (first = msgKexinit)
  modify fun sshd =>
    { sshd with ic := (kexinit.memory.slice 0 kexinit.len.toNat).1 }
  let cookie ← ask fun clock => world.random clock 16
  modify fun sshd => { sshd with is := buildKexinit cookie }
  sshSend world (buildKexinit cookie)
  let (_, message) ← sshRecv .kex
  let type := brU8 message
  require (type.1 = msgKexEcdhInit)
  let qcLen := brU32 type.2
  let qcStart := brRaw qcLen.1 qcLen.2
  require (qcLen.1 = 32)
  let qc := message.memory.slice qcStart.1 32
  let scalar ← ask fun clock => world.random clock 32
  let spriv := clampScalar scalar
  modify fun sshd => { sshd with k := world.x25519 spriv qc }
  reads fun sshd =>
    { vc := sshd.vc, vs := sshd.vs, ic := sshd.ic, is := sshd.is
      ksb := hostKeyBlob sshd.hostPk, qc := qc
      spub := world.x25519 spriv basePoint, k := sshd.k }

def deriveKey (sshd : Sshd) (hash : List UInt8) (letter : UInt8) : List UInt8 :=
  let start := shaAdd hash (shaAddMpint sshd.k.1 [])
  let first := world.sha256 (shaAdd sshd.sid (shaAdd [letter] start))
  first ++ world.sha256 (shaAdd first start)

/-- The reply with the signature of the hash. -/
def ecdhReply (exchange : Exchange) (signature : Bytes 64) : List UInt8 :=
  let sigblob := (bwStr signature.1 (bwStr hostKeyAlg (Buf.empty 128))).bytes
  (bwStr sigblob (bwStr exchange.spub.1 (bwStr exchange.ksb
    (bwU8 msgKexEcdhReply (Buf.empty 256))))).bytes

/-- The second half of `do_kex`, once the hash is known. -/
def finishKex (exchange : Exchange) (hash : List UInt8) : Command Sshd Unit := do
  modify fun sshd => { sshd with sid := hash }
  let hostSk ← reads Sshd.hostSk
  sshSend world (ecdhReply exchange (world.ed25519Sign hash hostSk))
  sshSend world [msgNewkeys]
  let (first, _) ← sshRecv .kex
  require (first = msgNewkeys)
  modify fun sshd =>
    { sshd with
      keyC2s := deriveKey world sshd hash 67
      keyS2c := deriveKey world sshd hash 68
      encrypted := true }

/-- `do_kex`; the values of the exchange are returned for the statements about
it. -/
def doKex : Command Sshd Exchange := do
  let exchange ← exchangeValues world
  finishKex world exchange (world.sha256 exchange.hashed)
  pure exchange

/-! ## Users and passwords -/

def serviceAccept (name : List UInt8) : Command Sshd Unit :=
  sshSend world
    (bwStr name (bwU8 msgServiceAccept (Buf.empty 128))).bytes

def fnv1aPw (salt pass : List UInt8) : UInt32 :=
  (salt ++ pass).foldl
    (fun hash byte => (hash ^^^ byte.toUInt32) * 16777619) 2166136261

/-- The salt and the hash of a line `name|salt|hash` of the given user. -/
def shadowEntry (user line : List UInt8) : Option (List UInt8 × List UInt8) :=
  let name := line.takeWhile (· ≠ bar)
  let fields := line.drop (name.length + 1)
  let salt := fields.takeWhile (· ≠ bar)
  if name.length < line.length ∧ name = user ∧ salt.length < fields.length then
    some (salt.take 39, (fields.drop (salt.length + 1)).take 15)
  else
    none

/-- The loop over the lines of `/etc/shadow`; every round moves on, so as many
rounds as there are bytes are enough. -/
def shadowLoop (user pass : List UInt8) : Nat → List UInt8 → Bool
  | 0, _ => false
  | _, [] => false
  | rounds + 1, text =>
    match shadowEntry user (text.takeWhile (· ≠ lineFeed)) with
    | some (salt, want) => hex8 (fnv1aPw salt pass) = want
    | none =>
      shadowLoop user pass rounds
        ((text.dropWhile (· ≠ lineFeed)).drop 1)

/-- `verify_password`, given what `/etc/shadow` holds. -/
def verifyPassword (shadow : Option (List UInt8)) (user pass : List UInt8) : Bool :=
  match shadow with
  | none => false
  | some contents =>
    let text := cString (contents.take 4095)
    shadowLoop user pass text.length text

/-- A byte as a `char`, which is signed, in 32-bit arithmetic. -/
def charWord (byte : UInt8) : UInt32 :=
  if byte < 128 then byte.toUInt32 else byte.toUInt32 - 256

def decimal (digits : List UInt8) : UInt32 :=
  digits.foldl (fun value digit => value * 10 + (charWord digit - 48)) 0

/-- The ids of a line `name:x:uid:gid:...` of the given user. -/
def passwdEntry (name line : List UInt8) : Option (UInt32 × UInt32) :=
  let first := line.takeWhile (· ≠ colon)
  let afterName := line.drop (first.length + 1)
  let second := afterName.takeWhile (· ≠ colon)
  let afterPassword := afterName.drop (second.length + 1)
  let third := afterPassword.takeWhile (· ≠ colon)
  let afterUid := afterPassword.drop (third.length + 1)
  if first.length < line.length ∧ first = name ∧
      second.length < afterName.length ∧
      third.length < afterPassword.length then
    some (decimal third, decimal (afterUid.takeWhile (· ≠ colon)))
  else
    none

def passwdLoop (name : List UInt8) : Nat → List UInt8 → Option (UInt32 × UInt32)
  | 0, _ => none
  | _, [] => none
  | rounds + 1, text =>
    match passwdEntry name (text.takeWhile (· ≠ lineFeed)) with
    | some ids => some ids
    | none =>
      passwdLoop name rounds ((text.dropWhile (· ≠ lineFeed)).drop 1)

/-- `lookup_user`, given what `/etc/passwd` holds. -/
def lookupUser (passwd : Option (List UInt8)) (name : List UInt8) : Option (UInt32 × UInt32) :=
  match passwd with
  | none => none
  | some contents =>
    let text := cString (contents.take 2047)
    passwdLoop name text.length text

/-- The ids of the shell for the bytes stored in `g_user`. -/
def shellIds (passwd : Option (List UInt8)) (user : List UInt8) : UInt16 × UInt16 :=
  match lookupUser passwd (cString user) with
  | some (uid, gid) => (uid.toUInt16, gid.toUInt16)
  | none => if user = ascii "root" then (0, 0) else (1000, 1000)

/-- What `do_userauth` reads from a request: the bytes stored in `g_user`, and
for the method `password` the bytes stored in `pw`. -/
structure AuthRequest where
  user : List UInt8
  password : Option (List UInt8)

/-- The strings of a request of which bytes are used. -/
structure AuthFields where
  user : Field
  method : Field
  password : Field

def authFields (packet : Br) : AuthFields :=
  let user := brStr packet.body
  let service := brStr user.2
  let method := brStr service.2
  let change := brU8 method.2
  let password := brStr change.2
  ⟨user.1, method.1, password.1⟩

def authRequest (packet : Br) : AuthRequest :=
  let fields := authFields packet
  { user := packet.copied fields.user 63
    password :=
      if packet.fieldIs fields.method (ascii "password") then
        some (packet.copied fields.password 127)
      else
        none }

def authFailure : Command Sshd Unit :=
  sshSend world
    (bwU8 0 (bwStr (ascii "password,publickey")
      (bwU8 msgUserauthFailure (Buf.empty 64)))).bytes

/-- `verify_password` on the password of a request, if it has one. -/
def checkPassword (request : AuthRequest) : Command Sshd Bool :=
  match request.password with
  | none => pure false
  | some password => do
      let shadow ← ask world.shadow
      pure (verifyPassword shadow (cString request.user) (cString password))

def answerRequest (ok : Bool) : Command Sshd Unit :=
  if ok then sshSend world [msgUserauthSuccess] else authFailure world

/-- One round of the request loop: whether the password was right. -/
def userauthRound : Command Sshd Bool := do
  let (first, packet) ← sshRecv .userauth
  require (first = msgUserauthRequest)
  let request := authRequest packet
  let passwd ← ask world.passwd
  modify fun sshd =>
    { sshd with
      user := request.user
      shellUid := (shellIds passwd request.user).1
      shellGid := (shellIds passwd request.user).2 }
  let ok ← checkPassword world request
  answerRequest world ok
  pure ok

/-- The request loop.  Every round takes a payload, and a round without one
fails. -/
def userauthLoop : Nat → Command Sshd Unit
  | 0 => fail
  | rounds + 1 => do
      let ok ← userauthRound world
      if ok then pure () else userauthLoop rounds

/-- A service request for the given service. -/
def requireService (packet : Br) (name : List UInt8) : Command Sshd Unit :=
  require (packet.fieldIs (brStr packet.body).1 name = true)

/-- The packet after a successful authentication: a service request, or the
first one of the connection, which is kept. -/
def userauthDone : Command Sshd Unit := do
  let (first, packet) ← sshRecv .userauth
  if first = msgServiceRequest then do
    requireService packet (ascii "ssh-connection")
    serviceAccept world (ascii "ssh-connection")
  else
    modify fun sshd =>
      { sshd with
        pending := (packet.memory.slice 0 packet.len.toNat).1
        hasPending := true }

/-- `do_userauth` up to its request loop. -/
def userauthService : Command Sshd Unit := do
  let (first, packet) ← sshRecv .userauth
  require (first = msgServiceRequest)
  requireService packet (ascii "ssh-userauth")
  serviceAccept world (ascii "ssh-userauth")

def doUserauth : Command Sshd Unit := do
  userauthService world
  let rounds ← reads fun sshd => sshd.incoming.length + 1
  userauthLoop world rounds
  userauthDone world

/-- `run_session` up to the start of the shell, which runs with the ids in the
global variables. -/
def runSession (command : Option (List UInt8)) : Command Sshd Unit := do
  let opened ← ask world.opensPty
  require (opened = true)
  modify fun sshd =>
    { sshd with
      sessions :=
        sshd.sessions ++ [⟨sshd.shellUid, sshd.shellGid, command⟩] }

/-- The data of a packet that the relay writes to the terminal. -/
def relayData (packet : Br) : Field :=
  (brStr (brU32 packet.body).2).1

/-- One packet of the relay of `run_session`: what is written to the terminal, or
`none` when the relay ends. -/
def relayWrites (type : UInt8) (packet : Br) : Option (List UInt8) :=
  if type = msgChannelData then
    some (packet.copied (relayData packet) (relayData packet).size.toNat)
  else if type = msgChannelEof then
    some [4]
  else if type = msgChannelClose ∨ type = msgDisconnect then
    none
  else
    some []

/-- The first packet of the connection, which may have been kept. -/
def firstPacket : Command Sshd (UInt8 × Br) :=
  ⟨fun sshd =>
    if sshd.hasPending then
      let pkt := sshd.receive .connection sshd.pending
      (some (pkt .connection 0,
          ⟨pkt .connection, UInt32.ofNat sshd.pending.length, 0⟩),
        { sshd with pkt := pkt, hasPending := false })
    else
      (sshRecv .connection).run sshd⟩

def openChannel (packet : Br) : Command Sshd Unit := do
  let type := brStr packet.body
  let chan := brU32 type.2
  let win := brU32 chan.2
  let maxpkt := (brU32 win.2).1
  modify fun sshd =>
    { sshd with
      chan := chan.1
      maxpkt :=
        if 64 ≤ maxpkt ∧ maxpkt < sshd.maxpkt then maxpkt else sshd.maxpkt }
  sshSend world (bwU32 32768 (bwU32 0x100000 (bwU32 0 (bwU32 chan.1
    (bwU8 msgChannelOpenConfirmation (Buf.empty 64)))))).bytes

/-- What a channel request asks for. -/
inductive ChannelRequest where
  | accepted
  | shell
  | exec (command : List UInt8)
  | unknown

/-- The kind of a channel request, and whether a reply is wanted. -/
def channelRequest (packet : Br) : ChannelRequest × Bool :=
  let recipient := brU32 packet.body
  let req := brStr recipient.2
  let wantReply := brU8 req.2
  let cmd := brStr wantReply.2
  let kind :=
    if packet.fieldIs req.1 (ascii "pty-req") then
      .accepted
    else if packet.fieldIs req.1 (ascii "shell") then
      .shell
    else if packet.fieldIs req.1 (ascii "exec") then
      .exec (cString (packet.copied cmd.1 511))
    else if packet.fieldIs req.1 (ascii "env") then
      .accepted
    else
      .unknown
  (kind, wantReply.1 ≠ 0)

def ChannelRequest.reply : ChannelRequest → UInt8
  | .unknown => msgChannelFailure
  | _ => msgChannelSuccess

/-- The command of the session a request starts. -/
def ChannelRequest.starts : ChannelRequest → Option (Option (List UInt8))
  | .shell => some none
  | .exec command => some (some command)
  | _ => none

/-- One round of the request loop of `do_connection`: the session that is to
be started, if any.  The outcome of sending the reply is ignored. -/
def connectionRound : Command Sshd (Option (Option (List UInt8))) := do
  let (type, packet) ← sshRecv .connection
  if type = msgChannelRequest then do
    let request := channelRequest packet
    let chan ← reads Sshd.chan
    whenever request.2 (do
      let _ ← attempt (sshSend world
        (bwU32 chan (bwU8 request.1.reply (Buf.empty 5))).bytes)
      pure ())
    pure request.1.starts
  else do
    require (type ≠ msgChannelClose)
    pure none

def connectionLoop : Nat → Command Sshd (Option (List UInt8))
  | 0 => fail
  | rounds + 1 => do
      let starts ← connectionRound world
      match starts with
      | some command => pure command
      | none => connectionLoop rounds

def doConnection : Command Sshd Unit := do
  let (first, packet) ← firstPacket
  require (first = msgChannelOpen)
  openChannel world packet
  let rounds ← reads fun sshd => sshd.incoming.length + 1
  let command ← connectionLoop world rounds
  runSession world command

/-- `read_version` on what the client sends first: the C string it stores. -/
def readVersion (stream : List UInt8) : List UInt8 :=
  cString (((stream.takeWhile (· ≠ lineFeed)).filter
    (· ≠ carriageReturn)).take 63)

/-- `serve` up to the end of the key exchange, for a client that first sends
the given line. -/
def handshake (line : List UInt8) : Command Sshd Exchange := do
  modify fun sshd => { sshd with encrypted := false, chan := 0 }
  let delivered ← ask world.delivers
  require (delivered = true)
  modify fun sshd => { sshd with vc := readVersion line }
  require ((ascii "SSH-").isPrefixOf (readVersion line) = true)
  modify fun sshd => { sshd with vs := sshv }
  doKex world

def serve (line : List UInt8) : Command Sshd Unit := do
  let _ ← handshake world line
  doUserauth world
  doConnection world

end

end KnitOS.Ssh
