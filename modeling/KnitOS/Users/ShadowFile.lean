import KnitOS.Users.Accounts

/-!
# The password lines

`g_shadow` is a text of lines `name|salt|hash`.  While every line belongs to a
user of the table, it is a list of credentials.  `user_mod` leaves the lines
alone, so a user whose name it changes loses its password.
-/

namespace KnitOS.Users

open Lib

structure Credential where
  name : List UInt8
  salt : UInt32
  hashed : UInt32
deriving DecidableEq

/-- A name that can start a password line. -/
def LineName (name : List UInt8) : Prop :=
  0 ∉ name ∧ bar ∉ name ∧ lineFeed ∉ name ∧ name.head? ≠ some hash ∧
    name.length < unameMax

instance decidableLineName (name : List UInt8) : Decidable (LineName name) :=
  inferInstanceAs (Decidable (_ ∧ _))

def Credential.line (credential : Credential) : List UInt8 :=
  credential.name ++ bar :: (hex8 credential.salt ++
    bar :: hex8 credential.hashed)

def credentialText (credentials : List Credential) : List UInt8 :=
  credentials.flatMap fun credential => credential.line ++ [lineFeed]

theorem credentialText_cons (credential : Credential) (credentials : List Credential) :
    credentialText (credential :: credentials) =
      credential.line ++ [lineFeed] ++ credentialText credentials := List.flatMap_cons

theorem credentialText_append (first second : List Credential) : credentialText (first ++ second) =
      credentialText first ++ credentialText second := List.flatMap_append

theorem Credential.length_line (credential : Credential) :
    credential.line.length = credential.name.length + 18 := by
  simp only [Credential.line, List.length_append, List.length_cons, length_hex8]

theorem not_mem_hex8 {char : UInt8} (other : char ∉ ascii "0123456789abcdef") (word : UInt32) :
    char ∉ hex8 word := fun member =>
  other (mem_hex8 member)

variable {credential : Credential}

theorem Credential.lineOf_iff (plain : LineName credential.name) (name : List UInt8) :
    LineOf name credential.line ↔ credential.name = name := by
  unfold LineOf Credential.line
  rw [takeWhile_append_delimiter plain.2.1]

theorem Credential.lineFeed_not_mem
    (plain : LineName credential.name) : lineFeed ∉ credential.line := by
  have digits : ∀ word : UInt32, lineFeed ∉ hex8 word := not_mem_hex8 (by decide)
  simp only [Credential.line, List.mem_append, List.mem_cons, not_or]
  exact ⟨plain.2.2.1, by decide, digits _, by decide, digits _⟩

theorem Credential.line_starts (plain : LineName credential.name) :
    credential.line ≠ [] ∧ credential.line.head? ≠ some hash := by
  unfold Credential.line
  cases name : credential.name with
  | nil =>
    have notHash : some bar ≠ some hash := by decide
    exact ⟨List.cons_ne_nil _ _, notHash⟩
  | cons first rest =>
    have notHash := plain.2.2.2.1
    rw [name] at notHash
    exact ⟨List.cons_ne_nil _ _, notHash⟩

variable {credentials : List Credential}

theorem lines_credentialText (plain : ∀ credential ∈ credentials, LineName credential.name) :
    lines (credentialText credentials) = credentials.map Credential.line :=
  lines_flatMap fun credential member =>
    Credential.lineFeed_not_mem (plain credential member)

theorem putBytes_eq {cap : Nat} {out data : List UInt8} (room : out.length + data.length < cap) :
    putBytes cap out data = out ++ data := by
  induction data generalizing out with
  | nil => exact (List.append_nil out).symm
  | cons byte rest ih =>
    rw [List.length_cons] at room
    have laterRoom : (out ++ [byte]).length + rest.length < cap := by
      rw [List.length_append, List.length_singleton]
      omega
    have later := ih laterRoom
    unfold putBytes at later ⊢
    rw [List.foldl_cons, if_pos (by omega), later, List.append_assoc, List.singleton_append]

variable {name : List UInt8}

theorem shadowLine_eq (short : name.length < unameMax) (salt hashed : UInt32) :
    shadowLine name salt hashed (uhashLen + 48) = Credential.line ⟨name, salt, hashed⟩ := by
  have small : name.length < 32 := short
  simp (disch := simp only [List.length_append, List.length_cons,
    List.length_nil, length_hex8, uhashLen]; omega) only [shadowLine, putBytes_eq,
    Credential.line, List.nil_append, List.append_assoc, List.cons_append]

theorem checkLine_line (plain : LineName credential.name) (rest password : List UInt8) :
    checkLine (credential.line ++ rest) password =
      decide (hashPassword (hex8 credential.salt) password = credential.hashed) := by
  have inName : ∀ byte ∈ credential.name, (decide (byte ≠ 0) && decide (byte ≠ bar)) = true := by
    intro byte member
    have notNul : byte ≠ 0 := fun same => plain.1 (same ▸ member)
    have notBar : byte ≠ bar := fun same => plain.2.1 (same ▸ member)
    simp [notNul, notBar]
  have inDigits : ∀ (word : UInt32), ∀ byte ∈ hex8 word,
      byte ≠ 0 ∧ byte ≠ bar ∧ byte ≠ lineFeed := by
    intro word byte member
    exact ⟨fun same => not_mem_hex8 (by decide) word (same ▸ member),
      fun same => not_mem_hex8 (by decide) word (same ▸ member),
      fun same => not_mem_hex8 (by decide) word (same ▸ member)⟩
  have salt := inDigits credential.salt
  have digits := inDigits credential.hashed
  have nameRead : (credential.line ++ rest).dropWhile
        (fun byte => decide (byte ≠ 0) && decide (byte ≠ bar)) = bar :: (hex8 credential.salt ++
        bar :: (hex8 credential.hashed ++ rest)) := by
    unfold Credential.line
    rw [List.append_assoc, List.dropWhile_append_of_pos inName,
      List.cons_append, List.dropWhile_cons]
    simp
  have saltRead : ((hex8 credential.salt ++
          bar :: (hex8 credential.hashed ++ rest)).take 8).takeWhile
        (fun byte => decide (byte ≠ 0) && decide (byte ≠ bar)) = hex8 credential.salt := by
    rw [List.take_left' (length_hex8 _), List.takeWhile_eq_self_iff]
    intro byte member
    simp [salt byte member]
  have digitsRead : ((hex8 credential.hashed ++ rest).take 8).takeWhile
        (fun byte => decide (byte ≠ 0) && decide (byte ≠ bar) && decide (byte ≠ lineFeed)) =
      hex8 credential.hashed := by
    rw [List.take_left' (length_hex8 _), List.takeWhile_eq_self_iff]
    intro byte member
    simp [digits byte member]
  have someDigits : hex8 credential.hashed ≠ [] :=
    List.ne_nil_of_length_pos (by rw [length_hex8]; decide)
  unfold checkLine
  simp only [nameRead, List.head?_cons, if_true, List.drop_one, List.tail_cons,
    saltRead, List.drop_left, digitsRead, if_neg someDigits, hexWord_hex8]

theorem shadowScan_append {before : List Credential}
    (plain : ∀ credential ∈ before, LineName credential.name)
    (others : ∀ credential ∈ before, credential.name ≠ name)
    (offset : Nat) (rest : List (List UInt8)) :
    shadowScan name offset (before.map Credential.line ++ rest) =
      shadowScan name (offset + (credentialText before).length) rest := by
  induction before generalizing offset with
  | nil => rfl
  | cons credential before ih =>
    have notHere : ¬ LineOf name credential.line := fun here =>
      others credential List.mem_cons_self
        ((Credential.lineOf_iff (plain credential List.mem_cons_self) name).mp here)
    have later := ih (List.forall_mem_cons.mp plain).2 (List.forall_mem_cons.mp others).2
      (offset + credential.line.length + 1)
    rw [List.map_cons, List.cons_append, shadowScan,
      if_neg fun found => notHere found.2.2, later, credentialText_cons]
    simp only [List.length_append, List.length_cons, List.length_nil]
    congr 1
    omega

/-- A text that is a list of credentials answers a look-up with the line of
the first credential of the name. -/
theorem shadowFor_of_text {shadow : ShadowBuffer} {before later : List Credential}
    (text : shadow.text = credentialText (before ++ credential :: later))
    (plain : ∀ other ∈ before ++ credential :: later, LineName other.name)
    (others : ∀ other ∈ before, other.name ≠ credential.name) :
    ∃ rest, shadowFor credential.name shadow = some (credential.line ++ rest) := by
  have plainHere : LineName credential.name :=
    plain credential (List.mem_append_right _ List.mem_cons_self)
  have starts := Credential.line_starts plainHere
  have found : shadowScan credential.name 0 (lines shadow.text) =
      some ((credentialText before).length,
        (credentialText before).length + credential.line.length) := by
    rw [text, lines_credentialText plain, List.map_append, shadowScan_append (fun other member =>
        plain other (List.mem_append_left _ member)) others,
      List.map_cons, shadowScan, if_pos ⟨starts.1, starts.2,
        (Credential.lineOf_iff plainHere _).mpr rfl⟩, Nat.zero_add]
  have bytes : shadow.bytes = credentialText before ++ (credential.line ++
      ([lineFeed] ++ credentialText later ++ shadow.bytes.drop shadow.len)) := by
    have whole : shadow.bytes = shadow.text ++ shadow.bytes.drop shadow.len :=
      (List.take_append_drop shadow.len shadow.bytes).symm
    rw [text, credentialText_append, credentialText_cons] at whole
    simpa only [List.append_assoc] using whole
  refine ⟨([lineFeed] ++ credentialText later ++ shadow.bytes.drop shadow.len).set 0 lineFeed, ?_⟩
  rw [shadowFor, found, Option.map_some]
  congr 1
  rw [List.drop_set, if_neg (by omega)]
  have dropped : shadow.bytes.drop (credentialText before).length =
      credential.line ++ ([lineFeed] ++ credentialText later ++ shadow.bytes.drop shadow.len) := by
    conv_lhs => rw [bytes]
    exact List.drop_left
  rw [dropped, Nat.add_sub_cancel_left, List.set_append_right _ _ (Nat.le_refl _), Nat.sub_self]

theorem shadowFor_eq_none {shadow : ShadowBuffer} (text : shadow.text = credentialText credentials)
    (plain : ∀ credential ∈ credentials, LineName credential.name)
    (absent : ∀ credential ∈ credentials, credential.name ≠ name) :
    shadowFor name shadow = none := by
  have scanned := shadowScan_append plain absent 0 []
  rw [List.append_nil] at scanned
  rw [shadowFor, text, lines_credentialText plain, scanned]
  rfl

theorem copyOthers_credentials (plain : ∀ credential ∈ credentials, LineName credential.name)
    {tmp : List UInt8} (room : tmp.length + (credentialText credentials).length < shadowBuf) :
    copyOthers name tmp (credentials.map Credential.line) =
      tmp ++ credentialText (credentials.filter (·.name ≠ name)) := by
  induction credentials generalizing tmp with
  | nil => exact (List.append_nil tmp).symm
  | cons credential credentials ih =>
    have isLine := Credential.lineOf_iff (plain credential List.mem_cons_self) name
    have plainLater : ∀ other ∈ credentials, LineName other.name :=
      (List.forall_mem_cons.mp plain).2
    rw [credentialText_cons] at room
    simp only [List.length_append, List.length_cons, List.length_nil] at room
    rw [List.map_cons, copyOthers, List.foldl_cons, ← copyOthers, copyOther]
    by_cases same : credential.name = name
    · rw [if_neg fun copied => copied.1 (isLine.mpr same),
        List.filter_cons_of_neg (by simpa using same)]
      exact ih plainLater (by omega)
    · have laterRoom : (tmp ++ credential.line ++ [lineFeed]).length +
          (credentialText credentials).length < shadowBuf := by
        simp only [List.length_append, List.length_cons, List.length_nil]
        omega
      have later := ih plainLater laterRoom
      rw [if_pos ⟨fun isOf => same (isLine.mp isOf), by omega⟩, later,
        List.filter_cons_of_pos (by simpa using same), credentialText_cons]
      simp only [List.append_assoc]

def names (users : List UserRecord) : List (List UInt8) :=
  users.map (·.name.bytes)

/-- The users have names of their own that can start a line, and the lines are
credentials of users, at most one for each. -/
structure Accounts.Kept (accounts : Accounts) (credentials : List Credential) : Prop where
  valid : ∀ user ∈ accounts.users, user.valid = true
  plain : ∀ name ∈ names accounts.users, LineName name
  distinct : (names accounts.users).Nodup
  text : accounts.shadow.text = credentialText credentials
  single : (credentials.map Credential.name).Nodup
  owned : credentials.map Credential.name ⊆ names accounts.users

namespace Accounts.Kept

variable {accounts : Accounts} {credentials : List Credential} (kept : accounts.Kept credentials)
include kept

theorem plainCredential : ∀ credential ∈ credentials, LineName credential.name :=
  fun _ member => kept.plain _ (kept.owned (List.mem_map_of_mem member))

theorem length_text_le : (credentialText credentials).length ≤ 800 := by
  have few : credentials.length ≤ 16 := by
    have counted := (kept.single.subperm kept.owned).length_le
    rw [List.length_map, names, List.length_map] at counted
    exact counted.trans accounts.users_fit
  have short : ∀ some : List Credential, (∀ credential ∈ some, LineName credential.name) →
        (credentialText some).length ≤ 50 * some.length := by
    intro some
    induction some with
    | nil =>
      intro _
      exact Nat.le_refl _
    | cons credential rest ih =>
      intro plain
      have here : credential.name.length < 32 := (plain credential List.mem_cons_self).2.2.2.2
      have later := ih (List.forall_mem_cons.mp plain).2
      have length := credential.length_line
      rw [credentialText_cons]
      simp only [List.length_append, List.length_cons, List.length_nil]
      omega
  have bound := short credentials kept.plainCredential
  omega

theorem isSome_userByName_iff (name : List UInt8) :
    (userByName name accounts).isSome ↔ name ∈ names accounts.users := by
  unfold userByName names
  rw [List.find?_isSome, List.mem_map]
  constructor
  · rintro ⟨user, member, named⟩
    exact ⟨user, member, (of_decide_eq_true named).2⟩
  · rintro ⟨user, member, named⟩
    exact ⟨user, member, decide_eq_true ⟨kept.valid user member, named⟩⟩

theorem userCheckPassword_eq
    {name : CStr} (member : name.bytes ∈ names accounts.users) (password : CStr) :
    userCheckPassword name password accounts = match credentials.find? (·.name = name.bytes) with
      | none => decide (password.bytes = [])
      | some credential =>
        decide (hashPassword (hex8 credential.salt) password.bytes = credential.hashed) := by
  rw [userCheckPassword, if_pos ((kept.isSome_userByName_iff _).mpr member)]
  cases found : credentials.find? (·.name = name.bytes) with
  | none =>
    have absent : ∀ credential ∈ credentials, credential.name ≠ name.bytes := by
      intro credential credentialMember
      simpa using List.find?_eq_none.mp found credential credentialMember
    rw [shadowFor_eq_none kept.text kept.plainCredential absent]
  | some credential =>
    obtain ⟨named, before, later, split, others⟩ := List.find?_eq_some_iff_append.mp found
    have sameName : credential.name = name.bytes := of_decide_eq_true named
    have othersBefore : ∀ other ∈ before, other.name ≠ credential.name := by
      intro other otherMember
      have different := others other otherMember
      rw [sameName]
      simpa using different
    have plain := kept.plainCredential
    have text := kept.text
    rw [split] at plain text
    obtain ⟨rest, lineFound⟩ := shadowFor_of_text text plain othersBefore
    rw [← sameName, lineFound]
    exact checkLine_line (plain credential (List.mem_append_right _ List.mem_cons_self)) _ _

end Accounts.Kept

theorem ShadowBuffer.text_replaced (shadow : ShadowBuffer) (tmp : List UInt8)
    (small : tmp.length < shadowBuf) : (shadow.replaced tmp small).text = tmp := List.take_left

/-- The credentials without those of a name. -/
def without (name : List UInt8) (credentials : List Credential) : List Credential :=
  credentials.filter (·.name ≠ name)

theorem find?_without {other : List UInt8} (different : other ≠ name)
    (credentials : List Credential) : (without name credentials).find? (·.name = other) =
      credentials.find? (·.name = other) := by
  unfold without
  rw [List.find?_filter]
  congr 1
  funext credential
  by_cases same : credential.name = other
  · simp [same, different]
  · simp [same]

theorem mem_names_without
    {other : List UInt8} (member : other ∈ (without name credentials).map Credential.name) :
    other ∈ credentials.map Credential.name ∧ other ≠ name := by
  obtain ⟨credential, credentialMember, named⟩ := List.mem_map.mp member
  obtain ⟨inAll, different⟩ := List.mem_filter.mp credentialMember
  rw [← named]
  exact ⟨List.mem_map_of_mem inAll, by simpa using different⟩

theorem names_eraseP {users : List UserRecord}
    (valid : ∀ user ∈ users, user.valid = true) (name : List UInt8) :
    names (users.eraseP (·.Named name)) = (names users).erase name := by
  induction users with
  | nil => rfl
  | cons user users ih =>
    have later := ih (List.forall_mem_cons.mp valid).2
    by_cases same : user.name.bytes = name
    · have named : user.Named name := ⟨valid user List.mem_cons_self, same⟩
      rw [List.eraseP_cons_of_pos (by simpa using named)]
      simp [names, same]
    · have notNamed : ¬ user.Named name := fun named => same named.2
      rw [List.eraseP_cons_of_neg (by simpa using notNamed)]
      unfold names at later ⊢
      rw [List.map_cons, List.map_cons, later, List.erase_cons_tail (by simpa using same)]

namespace Accounts.Kept

variable {accounts : Accounts} {credentials : List Credential} (kept : accounts.Kept credentials)
include kept

theorem copyOthers_eq (name : List UInt8) : copyOthers name [] (lines accounts.shadow.text) =
    credentialText (without name credentials) := by
  have short := kept.length_text_le
  have room : ([] : List UInt8).length + (credentialText credentials).length < shadowBuf := by
    rw [List.length_nil]
    show _ < 4096
    omega
  rw [kept.text, lines_credentialText kept.plainCredential,
    copyOthers_credentials kept.plainCredential room, List.nil_append, without]

theorem single_without (name : List UInt8) :
    ((without name credentials).map Credential.name).Nodup :=
  kept.single.sublist (List.Sublist.map _ List.filter_sublist)

theorem removeUser (surroundings : Surroundings) (name : List UInt8) :
    (removeUser surroundings name accounts).2.Kept (without name credentials) := by
  have remaining : names (accounts.users.eraseP (·.Named name)) =
    (names accounts.users).erase name := names_eraseP kept.valid name
  have text : (Users.removeUser surroundings name accounts).2.shadow.text =
      credentialText (without name credentials) :=
    (ShadowBuffer.text_replaced _ _ _).trans (kept.copyOthers_eq name)
  refine ⟨fun user member => kept.valid user (List.mem_of_mem_eraseP member),
    ?_, ?_, text, kept.single_without name, ?_⟩
  · intro other member
    have inErased : other ∈ (names accounts.users).erase name := remaining ▸ member
    exact kept.plain other (List.mem_of_mem_erase inErased)
  · have nodup : (names (accounts.users.eraseP (·.Named name))).Nodup := by
      rw [remaining]
      exact kept.distinct.erase name
    exact nodup
  · intro other member
    obtain ⟨inAll, different⟩ := mem_names_without member
    have inErased : other ∈ (names accounts.users).erase name :=
      (List.mem_erase_of_ne different).mpr (kept.owned inAll)
    exact remaining ▸ inErased

theorem userSetPassword (surroundings : Surroundings) {name : CStr} (password : CStr)
    (member : name.bytes ∈ names accounts.users) :
    let salt := genSalt surroundings.timerMs accounts.saltCounter
    (userSetPassword surroundings name password accounts).2.Kept (without name.bytes credentials ++
        [⟨name.bytes, salt, hashPassword (hex8 salt) password.bytes⟩]) := by
  intro salt
  have plainName := kept.plain name.bytes member
  have shortOthers : (credentialText (without name.bytes credentials)).length ≤
      800 := (kept.removeUser surroundings name.bytes).length_text_le
  have line := shadowLine_eq plainName.2.2.2.2 salt (hashPassword (hex8 salt) password.bytes)
  have lineLength := Credential.length_line
    ⟨name.bytes, salt, hashPassword (hex8 salt) password.bytes⟩
  have small : name.bytes.length < 32 := plainName.2.2.2.2
  have written : withLine name.bytes
        (shadowLine name.bytes salt (hashPassword (hex8 salt) password.bytes)
          (uhashLen + 48)) accounts.shadow = credentialText (without name.bytes credentials ++
        [⟨name.bytes, salt, hashPassword (hex8 salt) password.bytes⟩]) := by
    rw [withLine, kept.copyOthers_eq, line, credentialText_append]
    simp only at lineLength
    have room : (credentialText (without name.bytes credentials)).length +
        (Credential.line ⟨name.bytes, salt,
          hashPassword (hex8 salt) password.bytes⟩).length + 1 < shadowBuf := by
      show _ < 4096
      omega
    rw [if_pos room, List.take_of_length_le]
    · simp [credentialText]
    · simp only [List.length_append, List.length_cons, List.length_nil]
      exact Nat.le_pred_of_lt room
  rw [Users.userSetPassword, if_pos ((kept.isSome_userByName_iff _).mpr member)]
  refine ⟨kept.valid, kept.plain, kept.distinct,
    (ShadowBuffer.text_replaced _ _ _).trans written, ?_, ?_⟩
  · rw [List.map_append, List.nodup_append]
    refine ⟨kept.single_without name.bytes, List.nodup_singleton _, ?_⟩
    intro first firstMember second secondMember
    rw [List.map_singleton, List.mem_singleton] at secondMember
    rw [secondMember]
    exact (mem_names_without firstMember).2
  · rw [List.map_append, List.map_singleton]
    intro other otherMember
    rcases List.mem_append.mp otherMember with isOld | isNew
    · exact kept.owned (mem_names_without isOld).1
    · rw [List.mem_singleton.mp isNew]
      exact member

end Accounts.Kept

end KnitOS.Users
