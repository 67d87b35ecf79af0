import KnitOS.Users.Accounts

/-!
# `/etc/passwd` read back

`write_passwd_db` writes a line for each user and `users_init` splits the lines
at the colons, so a colon or a line feed in a text, or a name that starts a
comment, is not read back.
-/

namespace KnitOS.Users

open Lib

def PlainField (text : List UInt8) : Prop :=
  colon ∉ text ∧ lineFeed ∉ text

def PlainName (text : List UInt8) : Prop :=
  PlainField text ∧ text.head? ≠ some hash

instance decidablePlainField (text : List UInt8) : Decidable (PlainField text) :=
  inferInstanceAs (Decidable (_ ∧ _))

instance decidablePlainName (text : List UInt8) : Decidable (PlainName text) :=
  inferInstanceAs (Decidable (_ ∧ _))

structure UserRecord.Plain (user : UserRecord) : Prop where
  valid : user.valid = true
  name : PlainName user.name.bytes
  home : PlainField user.home.bytes
  shell : lineFeed ∉ user.shell.bytes

variable {text start : List UInt8}

theorem PlainField.of_initial
    (plain : PlainField text) (isStart : start <+: text) : PlainField start :=
  ⟨fun member => plain.1 (isStart.subset member), fun member => plain.2 (isStart.subset member)⟩

theorem head?_ne_of_initial {byte : UInt8}
    (other : text.head? ≠ some byte) (isStart : start <+: text) : start.head? ≠ some byte := by
  obtain ⟨rest, rfl⟩ := isStart
  cases start with
  | nil => simp
  | cons first start => exact other

theorem PlainName.of_initial
    (plain : PlainName text) (isStart : start <+: text) : PlainName start :=
  ⟨plain.1.of_initial isStart, head?_ne_of_initial plain.2 isStart⟩

theorem strncpy_initial (capacity : Nat) (text : CStr) :
    (strncpy capacity text).bytes <+: text.bytes := List.take_prefix _ _

/-- The line of a user, without its line feed. -/
def userLine (user : UserRecord) : List UInt8 :=
  user.name.bytes ++ colon :: ([120] ++ colon ::
    (decimalText user.uid.toNat ++ colon ::
      (decimalText user.gid.toNat ++ colon ::
        (user.name.bytes ++ colon ::
          (user.home.bytes ++ colon :: user.shell.bytes)))))

theorem UserRecord.lengths_le (user : UserRecord) :
    user.name.bytes.length ≤ 31 ∧ user.home.bytes.length ≤ 63 ∧ user.shell.bytes.length ≤ 31 ∧
      (decimalText user.uid.toNat).length ≤ 5 ∧ (decimalText user.gid.toNat).length ≤ 5 :=
  ⟨user.name.fits, user.home.fits, user.shell.fits, length_decimalText_le user.uid.toNat_lt,
    length_decimalText_le user.gid.toNat_lt⟩

theorem length_userLine_le (user : UserRecord) : (userLine user).length ≤ 173 := by
  obtain ⟨name, home, shell, uid, gid⟩ := user.lengths_le
  simp only [userLine, List.length_append, List.length_cons, List.length_nil]
  omega

variable {out : List UInt8}

theorem putField_eq {k : Nat} (room : out.length + k + 2 * text.length < 4096) :
    putField k out text = (out ++ text, k + text.length) := by
  induction text generalizing k out with
  | nil => simp [putField]
  | cons byte rest ih =>
    rw [List.length_cons] at room
    have later : (out ++ [byte]).length + (k + 1) + 2 * rest.length < 4096 := by
      rw [List.length_append, List.length_singleton]
      omega
    have here : out.length + k + 1 < shadowBuf - 1 := by
      show out.length + k + 1 < 4095
      omega
    rw [putField, if_pos here, ih later,
      List.append_assoc, List.singleton_append, List.length_cons, Nat.add_assoc, Nat.add_comm 1]

theorem putByte_eq (room : out.length + 1 < 4096)
    (byte : UInt8) : putByte out byte = out ++ [byte] := if_pos room

theorem putNumber_eq {number : UInt16} (room : out.length + 5 < 4096) :
    putNumber out number = out ++ decimalText number.toNat := by
  have short := length_decimalText_le number.toNat_lt
  have fits : out.length + (decimalText number.toNat).length < 4096 := by
    omega
  exact if_pos fits

variable {user : UserRecord}

theorem putUser_eq (valid : user.valid = true) (room : out.length + 300 < 4096) :
    putUser out user = out ++ (userLine user ++ [lineFeed]) := by
  obtain ⟨name, home, shell, uid, gid⟩ := user.lengths_le
  have fieldsWritten : putUser out user =
        if (out ++ userLine user).length + user.shell.bytes.length + 1 < shadowBuf then
          out ++ userLine user ++ [lineFeed]
        else
          out ++ userLine user := by
    -- every write finds room, the innermost one first
    simp (disch := (try simp only [List.length_append, List.length_cons,
      List.length_nil]); omega) only [putUser, if_pos valid, putField_eq,
      putByte_eq, putNumber_eq, userLine, Nat.zero_add, List.append_assoc,
      List.cons_append, List.nil_append]
  have lastByte : (out ++ userLine user).length + user.shell.bytes.length + 1 < shadowBuf := by
    have short := length_userLine_le user
    rw [List.length_append]
    show _ < 4096
    omega
  rw [fieldsWritten, if_pos lastByte, List.append_assoc]

/-- What `write_passwd_db` writes for a table of valid users. -/
def passwdLines (users : List UserRecord) : List UInt8 :=
  users.flatMap fun user => userLine user ++ [lineFeed]

theorem passwdLines_cons (user : UserRecord) (users : List UserRecord) :
    passwdLines (user :: users) = userLine user ++ [lineFeed] ++ passwdLines users :=
  List.flatMap_cons

theorem length_passwdLines_le (users : List UserRecord) :
    (passwdLines users).length ≤ 174 * users.length := by
  induction users with
  | nil => exact Nat.le_refl _
  | cons user users ih =>
    have short := length_userLine_le user
    rw [passwdLines_cons]
    simp only [List.length_append, List.length_cons, List.length_nil]
    omega

variable {users : List UserRecord}

theorem foldl_putUser (valid : ∀ user ∈ users, user.valid = true)
    (room : out.length + 174 * users.length < 3700) :
    users.foldl putUser out = out ++ passwdLines users := by
  induction users generalizing out with
  | nil => exact (List.append_nil out).symm
  | cons user users ih =>
    have short := length_userLine_le user
    rw [List.length_cons] at room
    have written : putUser out user = out ++ (userLine user ++ [lineFeed]) :=
      putUser_eq (valid user List.mem_cons_self) (by omega)
    have laterRoom : (out ++ (userLine user ++ [lineFeed])).length + 174 * users.length < 3700 := by
      simp only [List.length_append, List.length_cons, List.length_nil]
      omega
    have later := ih (List.forall_mem_cons.mp valid).2 laterRoom
    rw [List.foldl_cons, written, later, passwdLines_cons, List.append_assoc]

theorem passwdText_eq (fit : users.length ≤ umaxUsers)
    (valid : ∀ user ∈ users, user.valid = true) : passwdText users = passwdLines users := by
  have atMost : users.length ≤ 16 := fit
  have room : ([] : List UInt8).length + 174 * users.length < 3700 := by
    rw [List.length_nil]
    omega
  exact foldl_putUser valid room

theorem UserRecord.Plain.userLine_noNul (user : UserRecord) : 0 ∉ userLine user := by
  have digits : ∀ number : Nat, 0 ∉ decimalText number := by
    intro number member
    have isDigit := isDigit_of_mem_decimalText member
    revert isDigit
    decide
  have name := user.name.noNul
  have home := user.home.noNul
  have shell := user.shell.noNul
  simp only [userLine, List.mem_append, List.mem_cons, List.not_mem_nil, or_false, not_or]
  exact ⟨name, by decide, by decide, by decide, digits _, by decide,
    digits _, by decide, name, by decide, home, by decide, shell⟩

theorem not_mem_decimalText {byte : UInt8} (other : ¬ IsDigit byte)
    (number : Nat) : byte ∉ decimalText number := fun member =>
  other (isDigit_of_mem_decimalText member)

theorem UserRecord.Plain.fields_userLine (plain : user.Plain) :
    fields colon 6 (userLine user) = [user.name.bytes, [120], decimalText user.uid.toNat,
        decimalText user.gid.toNat, user.name.bytes, user.home.bytes, user.shell.bytes] := by
  have digits : ∀ number : Nat, colon ∉ decimalText number := not_mem_decimalText (by decide)
  unfold userLine
  rw [fields_append plain.name.1.1, fields_append (by decide),
    fields_append (digits _), fields_append (digits _),
    fields_append plain.name.1.1, fields_append plain.home.1, fields]

theorem CharArray.strncpy_bytes {capacity : Nat} (array : CharArray capacity) :
    strncpy capacity (CStr.ofBytes array.bytes) = array := by
  apply CharArray.ext_bytes
  have copied : (CStr.ofBytes array.bytes).bytes = array.bytes :=
    cString_eq_self_iff.mpr array.noNul
  rw [strncpy_bytes_of_fits (by rw [copied]; exact array.fits), copied]

theorem decimalWord_uint16 (number : UInt16) : decimalWord (decimalText number.toNat) = number := by
  have read : decimalWord (decimalText number.toNat ++ []) =
    UInt16.ofNat number.toNat := decimalWord_decimalText (by simp)
  rw [List.append_nil] at read
  rw [read, UInt16.ofNat_toNat]

theorem UserRecord.Plain.recordOf_fields
    (plain : user.Plain) : recordOf (fields colon 6 (userLine user)) = user := by
  have valid := plain.valid
  rw [plain.fields_userLine]
  obtain ⟨name, uid, gid, home, shell, isValid⟩ := user
  simp only at valid
  subst valid
  simp only [recordOf, List.length_cons, List.length_nil, List.getD_cons_zero,
    List.getD_cons_succ, List.getElem?_cons_succ, List.getElem?_cons_zero,
    CharArray.strncpy_bytes, decimalWord_uint16]
  simp [CharArray.strncpy_bytes]

theorem UserRecord.Plain.lineFeed_not_mem (plain : user.Plain) : lineFeed ∉ userLine user := by
  have digits : ∀ number : Nat, lineFeed ∉ decimalText number := not_mem_decimalText (by decide)
  simp only [userLine, List.mem_append, List.mem_cons, List.not_mem_nil, or_false, not_or]
  exact ⟨plain.name.1.2, by decide, by decide, by decide, digits _, by decide,
    digits _, by decide, plain.name.1.2, by decide, plain.home.2, by decide, plain.shell⟩

theorem UserRecord.Plain.userOn_userLine
    (plain : user.Plain) : userOn (userLine user) = some user := by
  have short := length_userLine_le user
  have whole : cString ((userLine user).take 255) = userLine user := by
    rw [List.take_of_length_le (by omega),
      cString_eq_self_iff.mpr (UserRecord.Plain.userLine_noNul user)]
  have starts : userLine user ≠ [] ∧ (userLine user).head? ≠ some hash := by
    unfold userLine
    cases name : user.name.bytes with
    | nil =>
      have notHash : some colon ≠ some hash := by decide
      exact ⟨List.cons_ne_nil _ _, notHash⟩
    | cons first rest =>
      have notHash := plain.name.2
      rw [name] at notHash
      simpa using notHash
  rw [userOn, if_pos starts]
  simp only [whole, plain.recordOf_fields]
  rw [plain.fields_userLine]
  rfl

theorem parsePasswd_passwdLines
    (fit : users.length ≤ umaxUsers) (plain : ∀ user ∈ users, user.Plain) :
    parsePasswd (passwdLines users) = users := by
  unfold parsePasswd passwdLines
  rw [lines_flatMap fun user member => (plain user member).lineFeed_not_mem, List.filterMap_map]
  have each : ∀ user ∈ users, (userOn ∘ userLine) user = some user :=
    fun user member => (plain user member).userOn_userLine
  rw [List.filterMap_congr each, List.filterMap_some, List.take_of_length_le fit]

theorem fields_head_initial (delimiter : UInt8) (cuts : Nat)
    (line : List UInt8) : (fields delimiter cuts line).getD 0 [] <+: line := by
  cases cuts with
  | zero => exact List.prefix_rfl
  | succ cuts =>
    rw [fields]
    split
    · exact List.takeWhile_prefix _
    · exact List.prefix_rfl

variable {line : List UInt8}

theorem plainField_of_columns (oneLine : lineFeed ∉ line)
    {position : Nat} (early : position < 6) {fallback : List UInt8}
    (plainFallback : PlainField fallback) :
    PlainField ((fields colon 6 line).getD position fallback) := by
  rw [List.getD_eq_getElem?_getD]
  cases found : (fields colon 6 line)[position]? with
  | none => exact plainFallback
  | some field =>
    have member : field ∈ fields colon 6 line := List.mem_of_getElem? found
    exact ⟨not_mem_of_mem_fields found early,
      fun isFeed => oneLine (subset_of_mem_fields member isFeed)⟩

theorem strncpy_ofBytes_initial (capacity : Nat) (buffer : List UInt8) :
    (strncpy capacity (CStr.ofBytes buffer)).bytes <+: buffer :=
  (strncpy_initial capacity _).trans (cString_initial buffer)

theorem recordOf_plain (oneLine : lineFeed ∉ line)
    (noComment : line.head? ≠ some hash) : (recordOf (fields colon 6 line)).Plain := by
  have name : PlainName ((fields colon 6 line).getD 0 []) :=
    ⟨plainField_of_columns oneLine (by decide) ⟨by decide, by decide⟩,
      head?_ne_of_initial noComment (fields_head_initial colon 6 line)⟩
  have home : ∀ position < 6, PlainField ((fields colon 6 line).getD position (ascii "/home/")) :=
    fun position early =>
      plainField_of_columns oneLine early ⟨by decide, by decide⟩
  have shell : ∀ position : Nat,
      lineFeed ∉ ((fields colon 6 line)[position]?).getD (ascii "/bin/sh") := by
    intro position
    cases found : (fields colon 6 line)[position]? with
    | none => decide
    | some field =>
      exact fun isFeed => oneLine (subset_of_mem_fields (List.mem_of_getElem? found) isFeed)
  refine ⟨rfl, name.of_initial (strncpy_ofBytes_initial _ _), ?_, ?_⟩
  · refine PlainField.of_initial (home _ ?_) (strncpy_ofBytes_initial _ _)
    split
    · decide
    · decide
  · refine fun isFeed => ?_
    have inText := (strncpy_ofBytes_initial _ _).subset isFeed
    split at inText
    · exact shell 5 inText
    · split at inText
      · exact absurd inText (by decide)
      · exact shell 6 inText

theorem userOn_plain
    (oneLine : lineFeed ∉ line) (found : userOn line = some user) : user.Plain := by
  unfold userOn at found
  split at found
  · rename_i starts
    have isStart : cString (line.take 255) <+: line :=
      (cString_initial _).trans (List.take_prefix _ _)
    simp only at found
    split at found
    · rw [← Option.some.inj found]
      exact recordOf_plain (fun isFeed => oneLine (isStart.subset isFeed))
        (head?_ne_of_initial starts.2 isStart)
    · cases found
  · cases found

theorem parsePasswd_plain (member : user ∈ parsePasswd text) : user.Plain := by
  obtain ⟨line, lineMember, found⟩ := List.mem_filterMap.mp (List.mem_of_mem_take member)
  exact userOn_plain (not_mem_of_mem_lines lineMember) found

variable {accounts : Accounts}

theorem loadUsers_plain (cleared : accounts.users = []) :
    ∀ user ∈ (loadUsers accounts).2.users, user.Plain := by
  intro user member
  unfold loadUsers at member
  split at member
  · rw [cleared] at member
    cases member
  · exact parsePasswd_plain member

theorem usersInit_plain (surroundings : Surroundings) (accounts : Accounts) :
    ∀ user ∈ (usersInit surroundings accounts).2.users, user.Plain := by
  unfold usersInit
  dsimp only
  split
  · exact loadUsers_plain rfl
  · exact loadUsers_plain rfl

/-- The call passes on no text that breaks a line of `/etc/passwd`, and it does
not delete the last user. -/
def Call.KeepsLines (accounts : Accounts) : Surroundings × Call → Prop
  | (_, .userAdd name _ _ home) => PlainName name.bytes ∧ PlainField home.bytes
  | (_, .userMod _ newname _ _ home) =>
    PlainName newname.bytes ∧ PlainField home.bytes
  | (_, .userDel _) => 1 < accounts.users.length
  | (_, .userSetPassword _ _) => True

instance decidableKeepsLines (accounts : Accounts) :
    ∀ call : Surroundings × Call, Decidable (Call.KeepsLines accounts call)
  | (_, .userAdd _ _ _ _) => inferInstanceAs (Decidable (_ ∧ _))
  | (_, .userMod _ _ _ _ _) => inferInstanceAs (Decidable (_ ∧ _))
  | (_, .userDel _) => inferInstanceAs (Decidable (_ < _))
  | (_, .userSetPassword _ _) => inferInstanceAs (Decidable True)

/-- The table can be written to `/etc/passwd` and read back. -/
structure Accounts.Storable (accounts : Accounts) : Prop where
  plain : ∀ user ∈ accounts.users, user.Plain
  inhabited : accounts.users ≠ []

variable {home : CStr}

theorem newRecord_plain {name : CStr} (uid gid : UInt16)
    (accounts : Accounts) (plainName : PlainName name.bytes) (plainHome : PlainField home.bytes) :
    (newRecord name uid gid home accounts).Plain := by
  have shell : lineFeed ∉ (strncpy ushellMax (CStr.ofText "/bin/sh")).bytes := by
    decide
  refine ⟨rfl, plainName.of_initial (strncpy_initial _ _), ?_, shell⟩
  refine PlainField.of_initial ?_ (strncpy_initial _ _)
  split
  · exact plainHome
  · exact ⟨by decide, by decide⟩

theorem changedRecord_plain {newname : CStr} (uid gid : UInt16)
    (plainName : PlainName newname.bytes)
    (plainHome : PlainField home.bytes) (plain : user.Plain) :
    (changedRecord newname uid gid home user).Plain := by
  refine ⟨plain.valid, ?_, ?_, plain.shell⟩
  · simp only [changedRecord]
    split
    · exact plainName.of_initial (strncpy_initial _ _)
    · exact plain.name
  · simp only [changedRecord]
    split
    · exact plainHome.of_initial (strncpy_initial _ _)
    · exact plain.home

variable (storable : accounts.Storable)
include storable

theorem Accounts.Storable.userAdd (surroundings : Surroundings)
    {name : CStr} (uid gid : UInt16) (plainName : PlainName name.bytes)
    (plainHome : PlainField home.bytes) :
    (userAdd surroundings name uid gid home accounts).2.Storable := by
  unfold Users.userAdd
  split
  · split
    · exact storable
    · simp only
      split
      · exact ⟨storable.plain, storable.inhabited⟩
      · refine ⟨?_, by simp [writePasswdDb]⟩
        exact List.forall_mem_append.mpr ⟨storable.plain, List.forall_mem_singleton.mpr
          (newRecord_plain uid gid accounts plainName plainHome)⟩
  · exact storable

theorem Accounts.Storable.userMod (surroundings : Surroundings)
    (name : CStr) {newname : CStr} (uid gid : UInt16)
    (plainName : PlainName newname.bytes) (plainHome : PlainField home.bytes) :
    (userMod surroundings name newname uid gid home accounts).2.Storable := by
  unfold Users.userMod
  split
  · exact storable
  · split
    · exact storable
    · split
      · exact storable
      · refine ⟨forall_mem_changeFirst
          (fun user plain => changedRecord_plain uid gid plainName plainHome plain)
          storable.plain, ?_⟩
        apply List.ne_nil_of_length_pos
        simp only [writePasswdDb, length_changeFirst]
        exact List.length_pos_of_ne_nil storable.inhabited

theorem Accounts.Storable.userDel (surroundings : Surroundings)
    (name : CStr) (others : 1 < accounts.users.length) :
    (userDel surroundings name accounts).2.Storable := by
  unfold Users.userDel
  split
  · exact storable
  · split
    · refine ⟨fun user member =>
        storable.plain user (List.mem_of_mem_eraseP member), ?_⟩
      apply List.ne_nil_of_length_pos
      have shorter : accounts.users.length - 1 ≤
        (accounts.users.eraseP (·.Named name.bytes)).length := List.le_length_eraseP
      exact Nat.lt_of_lt_of_le (by omega) shorter
    · exact storable

theorem Accounts.Storable.userSetPassword (surroundings : Surroundings) (name password : CStr) :
    (userSetPassword surroundings name password accounts).2.Storable := by
  unfold Users.userSetPassword
  split
  · exact ⟨storable.plain, storable.inhabited⟩
  · exact storable

theorem Accounts.Storable.step {call : Surroundings × Call}
    (keepsLines : Call.KeepsLines accounts call) : (step accounts call).Storable := by
  obtain ⟨surroundings, call⟩ := call
  cases call with
  | userAdd name uid gid home =>
    exact storable.userAdd surroundings uid gid keepsLines.1 keepsLines.2
  | userMod name newname uid gid home =>
    exact storable.userMod surroundings name uid gid keepsLines.1 keepsLines.2
  | userDel name => exact storable.userDel surroundings name keepsLines
  | userSetPassword name password =>
    exact storable.userSetPassword surroundings name password

/-- What the round trip keeps of a user. -/
structure Account where
  name : List UInt8
  uid : UInt16
  gid : UInt16
  home : List UInt8
deriving DecidableEq

def UserRecord.account (user : UserRecord) : Account where
  name := user.name.bytes
  uid := user.uid
  gid := user.gid
  home := user.home.bytes

/-- The table after `write_passwd_db`, which the disk accepts, and
`users_init`. -/
def reload (surroundings : Surroundings) (accounts : Accounts) : List UserRecord :=
  (usersInit surroundings
    (writePasswdDb { surroundings with passwd := .stores } accounts).2).2.users

def SameAccounts (first second : List UserRecord) : Prop :=
  first.map UserRecord.account ⊆ second.map UserRecord.account ∧
    second.map UserRecord.account ⊆ first.map UserRecord.account

instance decidableSameAccounts (first second : List UserRecord) :
    Decidable (SameAccounts first second) :=
  inferInstanceAs (Decidable (_ ∧ _))

theorem Accounts.Storable.reload_eq (surroundings : Surroundings) :
    reload surroundings accounts = accounts.users := by
  have written : passwdText accounts.users = passwdLines accounts.users :=
    passwdText_eq accounts.users_fit fun user member =>
      (storable.plain user member).valid
  have read : fsRead (some (passwdLines accounts.users)) = passwdLines accounts.users := by
    have short := length_passwdLines_le accounts.users
    have few : accounts.users.length ≤ 16 := accounts.users_fit
    have fits : (passwdLines accounts.users).length ≤ 4095 := by omega
    exact List.take_of_length_le fits
  have nonempty : passwdLines accounts.users ≠ [] := by
    obtain ⟨first, rest, users⟩ := List.exists_cons_of_ne_nil storable.inhabited
    rw [users, passwdLines_cons]
    simp
  unfold reload usersInit loadUsers
  simp only [writePasswdDb, WriteOutcome.file, clearUsers, written, read, if_neg nonempty]
  exact parsePasswd_passwdLines accounts.users_fit storable.plain

omit storable

/-- In every run from a loaded table with a user on it, as long as no call
passes on a text that breaks a line of `/etc/passwd` and no call deletes the
last user, writing the table and loading it again gives the same users. -/
theorem reload_sameAccounts (booted : Surroundings) (passwdFile shadowFile : Option (List UInt8))
    (calls : List (Surroundings × Call)) (someUser :
      (usersInit booted (unloaded passwdFile shadowFile)).2.users ≠ [])
    (keepLines : AlongRun step Call.KeepsLines
      (usersInit booted (unloaded passwdFile shadowFile)).2 calls) (surroundings : Surroundings) :
    let reached := runFrom step (usersInit booted (unloaded passwdFile shadowFile)).2 calls
    SameAccounts (reload surroundings reached) reached.users := by
  intro reached
  have storable : reached.Storable :=
    AlongRun.invariant (fun _ _ holds allowed => holds.step allowed) keepLines
      ⟨usersInit_plain booted _, someUser⟩
  rw [storable.reload_eq]
  exact ⟨List.Subset.refl _, List.Subset.refl _⟩

def addEve : Surroundings × Call :=
  (calm, .userAdd (CStr.ofText "eve") 1001 1001 (CStr.ofText "/home/eve"))

theorem reload_sameAccounts_addEve :
    AlongRun step Call.KeepsLines (usersInit calm (unloaded none none)).2 [addEve] ∧ SameAccounts
        (reload calm (runFrom step (usersInit calm (unloaded none none)).2 [addEve]))
        (runFrom step (usersInit calm (unloaded none none)).2 [addEve]).users :=
  ⟨by decide +kernel, reload_sameAccounts calm none none [addEve]
    (by decide +kernel) (by decide +kernel) calm⟩

/-- A home directory with a line feed in it. -/
def addMallory : Surroundings × Call :=
  (calm, .userAdd (CStr.ofText "eve") 1001 1001
    (CStr.ofText "/\nmallory:x:0:0:::"))

/-- `user_add` accepts the home directory, and the reloaded table has a user
with uid 0 that was never added. -/
theorem reload_adds_user :
    let booted := (usersInit calm (unloaded none none)).2
    let reached := step booted addMallory
    (perform calm addMallory.2 booted).1 = 1001 ∧
      ¬ SameAccounts (reload calm reached) reached.users ∧
      ⟨ascii "mallory", 0, 0, []⟩ ∈
        (reload calm reached).map UserRecord.account := by
  decide +kernel

end KnitOS.Users
