import KnitOS.Lib.Lines
import KnitOS.Lib.Runs

/-!
# The account database

The user table and the password lines of `user_auth.cpp`, with the two files
they are kept in.  The table is the list of the slots below `g_user_count`;
what a failing `fs_write` leaves in a file is arbitrary.
-/

namespace KnitOS.Users

open Lib

abbrev umaxUsers : Nat := 16
abbrev unameMax : Nat := 32
abbrev uhomeMax : Nat := 64
abbrev ushellMax : Nat := 32
abbrev uhashLen : Nat := 17
abbrev shadowBuf : Nat := 4096

abbrev hash : UInt8 := 35

structure UserRecord where
  name : CharArray unameMax
  uid : UInt16
  gid : UInt16
  home : CharArray uhomeMax
  shell : CharArray ushellMax
  valid : Bool
deriving DecidableEq

/-- `g_shadow` and `g_shadow_len`: the bytes behind the length are stale. -/
structure ShadowBuffer where
  bytes : List UInt8
  len : Nat
  whole : bytes.length = shadowBuf
  inside : len < shadowBuf

def ShadowBuffer.text (shadow : ShadowBuffer) : List UInt8 :=
  shadow.bytes.take shadow.len

structure Accounts where
  users : List UserRecord
  users_fit : users.length ≤ umaxUsers
  shadow : ShadowBuffer
  saltCounter : UInt32
  passwdFile : Option (List UInt8)
  shadowFile : Option (List UInt8)

/-- What becomes of an `fs_write`: it stores the data and returns 0, or it
returns -1. -/
inductive WriteOutcome where
  | stores
  | fails (contents : Option (List UInt8))

def WriteOutcome.file (outcome : WriteOutcome) (data : List UInt8) : Option (List UInt8) :=
  match outcome with
  | .stores => some data
  | .fails contents => contents

def WriteOutcome.status : WriteOutcome → Int
  | .stores => 0
  | .fails _ => -1

/-- What a call meets: the outcomes of its two writes, and the timer. -/
structure Surroundings where
  passwd : WriteOutcome
  shadow : WriteOutcome
  timerMs : UInt32

/-- A disk that takes every write. -/
def calm : Surroundings where
  passwd := .stores
  shadow := .stores
  timerMs := 0

/-- `fs_read` of a file into a buffer of `shadowBuf` bytes, one kept free. -/
def fsRead (file : Option (List UInt8)) : List UInt8 :=
  (file.getD []).take (shadowBuf - 1)

/-- The salt that `gen_salt` makes of the timer and its counter. -/
def genSalt (timerMs counter : UInt32) : UInt32 :=
  let mixed := timerMs ^^^ (counter * 2654435761)
  mixed ^^^ ((mixed >>> 13) * 2654435761)

def hashPassword (salt password : List UInt8) : UInt32 :=
  (salt ++ password).foldl
    (fun value byte => (value ^^^ byte.toUInt32) * 16777619) 2166136261

/-- The loop that copies bytes while more than one byte of room is left. -/
def putBytes (cap : Nat) (out data : List UInt8) : List UInt8 :=
  data.foldl
    (fun out byte => if out.length + 1 < cap then out ++ [byte] else out) out

def shadowLine (name : List UInt8) (salt hashed : UInt32) (cap : Nat) : List UInt8 :=
  let out := putBytes cap [] name
  let out := putBytes cap out [bar]
  let out := putBytes cap out (hex8 salt)
  let out := putBytes cap out [bar]
  putBytes cap out (hex8 hashed)

/-- The name at the start of a password line is the given one. -/
def LineOf (name line : List UInt8) : Prop :=
  line.takeWhile (· ≠ bar) = name

instance decidableLineOf (name line : List UInt8) : Decidable (LineOf name line) :=
  inferInstanceAs (Decidable (_ = _))

/-- The loop of `shadow_for`: the first and the last offset of the line. -/
def shadowScan (name : List UInt8) : Nat → List (List UInt8) → Option (Nat × Nat)
  | _, [] => none
  | offset, line :: later =>
    if line ≠ [] ∧ line.head? ≠ some hash ∧ LineOf name line then
      some (offset, offset + line.length)
    else
      shadowScan name (offset + line.length + 1) later

/-- The bytes of `g_shadow` from the line of a name on; `shadow_for` writes the
line feed behind the line again. -/
def shadowFor (name : List UInt8) (shadow : ShadowBuffer) : Option (List UInt8) :=
  (shadowScan name 0 (lines shadow.text)).map fun found =>
    (shadow.bytes.set found.2 lineFeed).drop found.1

/-- One round of the loop that copies the password lines of the other names
to `tmp`. -/
def copyOther (name tmp line : List UInt8) : List UInt8 :=
  if ¬ LineOf name line ∧ tmp.length + line.length + 1 < shadowBuf then
    tmp ++ line ++ [lineFeed]
  else
    tmp

def copyOthers (name tmp : List UInt8) (shadowLines : List (List UInt8)) : List UInt8 :=
  shadowLines.foldl (copyOther name) tmp

theorem length_copyOthers_lt (name : List UInt8) {tmp : List UInt8}
    (small : tmp.length < shadowBuf) (shadowLines : List (List UInt8)) :
    (copyOthers name tmp shadowLines).length < shadowBuf := by
  induction shadowLines generalizing tmp with
  | nil => exact small
  | cons line later ih =>
    refine ih ?_
    unfold copyOther
    split
    · rename_i copied
      simp only [List.length_append, List.length_cons, List.length_nil]
      omega
    · exact small

/-- `memcpy(g_shadow, tmp, tn)` with the new length. -/
def ShadowBuffer.replaced (shadow : ShadowBuffer) (tmp : List UInt8)
    (small : tmp.length < shadowBuf) : ShadowBuffer where
  bytes := tmp ++ shadow.bytes.drop tmp.length
  len := tmp.length
  whole := by
    rw [List.length_append, List.length_drop, shadow.whole]
    omega
  inside := small

/-- `g_shadow` after `fs_read` read the text into it. -/
def ShadowBuffer.loaded (shadow : ShadowBuffer) (text : List UInt8)
    (small : text.length < shadowBuf) : ShadowBuffer where
  bytes := text ++ 0 :: shadow.bytes.drop (text.length + 1)
  len := text.length
  whole := by
    rw [List.length_append, List.length_cons, List.length_drop, shadow.whole]
    omega
  inside := small

/-- The record is valid and has the name. -/
def UserRecord.Named (name : List UInt8) (user : UserRecord) : Prop :=
  user.valid = true ∧ user.name.bytes = name

instance decidableNamed (name : List UInt8) (user : UserRecord) : Decidable (user.Named name) :=
  inferInstanceAs (Decidable (_ ∧ _))

def userByName (name : List UInt8) (accounts : Accounts) : Option UserRecord :=
  accounts.users.find? (·.Named name)

def usersNextUid (accounts : Accounts) : UInt16 :=
  accounts.users.foldl
    (fun best user =>
      if user.valid ∧ best ≤ user.uid ∧ user.uid < 65000 then
        user.uid + 1
      else
        best)
    1000

/-- The copying loops of `write_passwd_db`: both the offset and the index `k`
advance. -/
def putField : Nat → List UInt8 → List UInt8 → List UInt8 × Nat
  | k, out, [] => (out, k)
  | k, out, byte :: rest =>
    if out.length + k + 1 < shadowBuf - 1 then
      putField (k + 1) (out ++ [byte]) rest
    else
      (out, k)

def putByte (out : List UInt8) (byte : UInt8) : List UInt8 :=
  if out.length + 1 < shadowBuf then out ++ [byte] else out

def putNumber (out : List UInt8) (number : UInt16) : List UInt8 :=
  let digits := decimalText number.toNat
  if out.length + digits.length < shadowBuf then out ++ digits else out

/-- One round of `write_passwd_db`. -/
def putUser (out : List UInt8) (user : UserRecord) : List UInt8 :=
  if user.valid then
    let out := (putField 0 out user.name.bytes).1
    let out := putByte (putByte (putByte out colon) 120) colon
    let out := putByte (putNumber out user.uid) colon
    let out := putByte (putNumber out user.gid) colon
    let out := putByte (putField 0 out user.name.bytes).1 colon
    let out := putByte (putField 0 out user.home.bytes).1 colon
    let shell := putField 0 out user.shell.bytes
    if shell.1.length + shell.2 + 1 < shadowBuf then
      shell.1 ++ [lineFeed]
    else
      shell.1
  else
    out

def passwdText (users : List UserRecord) : List UInt8 :=
  users.foldl putUser []

def writePasswdDb (surroundings : Surroundings) (accounts : Accounts) : Int × Accounts :=
  (surroundings.passwd.status,
    { accounts with
      passwdFile := surroundings.passwd.file (passwdText accounts.users) })

def newRecord (name : CStr) (uid gid : UInt16) (home : CStr) (accounts : Accounts) : UserRecord :=
  let uid := if uid ≠ 0 then uid else usersNextUid accounts
  { name := strncpy unameMax name
    uid
    gid := if gid ≠ 0 then gid else uid
    home := strncpy uhomeMax
      (if home.bytes ≠ [] then home else CStr.ofText "/home/")
    shell := strncpy ushellMax (CStr.ofText "/bin/sh")
    valid := true }

def userAdd (surroundings : Surroundings) (name : CStr) (uid gid : UInt16)
    (home : CStr) (accounts : Accounts) : Int × Accounts :=
  if room : name.bytes ≠ [] ∧ accounts.users.length < umaxUsers then
    if (userByName name.bytes accounts).isSome then
      (-1, accounts)
    else
      let user := newRecord name uid gid home accounts
      let added : Accounts :=
        { accounts with
          users := accounts.users ++ [user]
          users_fit := by
            rw [List.length_append]
            exact room.2 }
      let written := writePasswdDb surroundings added
      if written.1 ≠ 0 then
        (-1, { written.2 with
          users := accounts.users
          users_fit := accounts.users_fit })
      else
        (user.uid.toNat, written.2)
  else
    (-1, accounts)

/-- `user_del` from the password lines on. -/
def removeUser (surroundings : Surroundings) (name : List UInt8)
    (accounts : Accounts) : Int × Accounts :=
  let tmp := copyOthers name [] (lines accounts.shadow.text)
  let shadow := accounts.shadow.replaced tmp
    (length_copyOthers_lt name (by decide) _)
  writePasswdDb surroundings
    { accounts with
      users := accounts.users.eraseP (·.Named name)
      users_fit := Nat.le_trans List.length_eraseP_le accounts.users_fit
      shadow
      shadowFile := surroundings.shadow.file shadow.text }

def userDel (surroundings : Surroundings) (name : CStr) (accounts : Accounts) : Int × Accounts :=
  if name.bytes = [] ∨ name.bytes = ascii "root" then
    (-1, accounts)
  else if (userByName name.bytes accounts).isSome then
    removeUser surroundings name.bytes accounts
  else
    (-1, accounts)

/-- The list with its first item that meets the test changed. -/
def changeFirst {α : Type} (test : α → Bool) (change : α → α) : List α → List α
  | [] => []
  | item :: rest =>
    if test item then
      change item :: rest
    else
      item :: changeFirst test change rest

@[simp]
theorem length_changeFirst {α : Type} (test : α → Bool) (change : α → α) (items : List α) :
    (changeFirst test change items).length = items.length := by
  induction items with
  | nil => rfl
  | cons item rest ih =>
    rw [changeFirst]
    split
    · rfl
    · rw [List.length_cons, ih, List.length_cons]

theorem forall_mem_changeFirst {α : Type} {Holds : α → Prop} {test : α → Bool} {change : α → α}
    (keeps : ∀ item, Holds item → Holds (change item)) {items : List α}
    (holds : ∀ item ∈ items, Holds item) : ∀ item ∈ changeFirst test change items, Holds item := by
  induction items with
  | nil => exact holds
  | cons first rest ih =>
    have firstHolds := holds first List.mem_cons_self
    have restHolds : ∀ item ∈ rest, Holds item := (List.forall_mem_cons.mp holds).2
    rw [changeFirst]
    split
    · exact List.forall_mem_cons.mpr ⟨keeps first firstHolds, restHolds⟩
    · exact List.forall_mem_cons.mpr ⟨firstHolds, ih restHolds⟩

/-- What `user_mod` does to the record: an empty string or a zero means no
change. -/
def changedRecord (newname : CStr) (uid gid : UInt16) (home : CStr)
    (user : UserRecord) : UserRecord :=
  { user with
    name := if newname.bytes ≠ [] then strncpy unameMax newname else user.name
    uid := if uid ≠ 0 then uid else user.uid
    gid := if gid ≠ 0 then gid else user.gid
    home := if home.bytes ≠ [] then strncpy uhomeMax home else user.home }

def userMod (surroundings : Surroundings) (name newname : CStr)
    (uid gid : UInt16) (home : CStr) (accounts : Accounts) : Int × Accounts :=
  if name.bytes = [] then
    (-1, accounts)
  else if (userByName name.bytes accounts).isNone then
    (-1, accounts)
  else if newname.bytes ≠ [] ∧ (userByName newname.bytes accounts).isSome then
    (-1, accounts)
  else
    writePasswdDb surroundings
      { accounts with
        users := changeFirst (·.Named name.bytes)
          (changedRecord newname uid gid home) accounts.users
        users_fit := by
          rw [length_changeFirst]
          exact accounts.users_fit }

/-- `tmp` in `user_set_password`: the lines of the other names, then the new
one if there is room. -/
def withLine (name line : List UInt8) (shadow : ShadowBuffer) : List UInt8 :=
  let tmp := copyOthers name [] (lines shadow.text)
  let tmp :=
    if tmp.length + line.length + 1 < shadowBuf then
      tmp ++ line ++ [lineFeed]
    else
      tmp
  tmp.take (shadowBuf - 1)

theorem length_withLine_lt (name line : List UInt8) (shadow : ShadowBuffer) :
    (withLine name line shadow).length < shadowBuf :=
  Nat.lt_of_le_of_lt (List.length_take_le _ _) (by decide)

def userSetPassword (surroundings : Surroundings) (name password : CStr)
    (accounts : Accounts) : Int × Accounts :=
  if (userByName name.bytes accounts).isSome then
    let salt := genSalt surroundings.timerMs accounts.saltCounter
    let hashed := hashPassword (hex8 salt) password.bytes
    let line := shadowLine name.bytes salt hashed (uhashLen + 48)
    let shadow := accounts.shadow.replaced
      (withLine name.bytes line accounts.shadow) (length_withLine_lt _ _ _)
    (0, { accounts with
      shadow
      saltCounter := accounts.saltCounter + 1
      shadowFile := surroundings.shadow.file shadow.text })
  else
    (-1, accounts)

/-- The check against the bytes from a password line on. -/
def checkLine (line password : List UInt8) : Bool :=
  let within (byte : UInt8) : Bool := byte ≠ 0 && byte ≠ bar
  let fromBar := line.dropWhile within
  if fromBar.head? = some bar then
    let salted := fromBar.drop 1
    let salt := (salted.take 8).takeWhile within
    let afterSalt := salted.drop salt.length
    if afterSalt.head? = some bar then
      let digits := ((afterSalt.drop 1).take 8).takeWhile fun byte =>
        within byte && byte ≠ lineFeed
      if digits = [] then
        false
      else
        hashPassword salt password = hexWord digits
    else
      false
  else
    false

def userCheckPassword (name password : CStr) (accounts : Accounts) : Bool :=
  if (userByName name.bytes accounts).isSome then
    match shadowFor name.bytes accounts.shadow with
    | none => password.bytes = []
    | some line => checkLine line password.bytes
  else
    false

def defaultPasswd : List UInt8 :=
  ascii "root:x:0:0:root:/root:/bin/sh" ++ [lineFeed] ++
    ascii "demo:x:1000:1000:demo:/home/demo:/bin/sh" ++ [lineFeed]

def createDefaultUsers (surroundings : Surroundings) (accounts : Accounts) : Accounts :=
  let salt := genSalt surroundings.timerMs accounts.saltCounter
  let hashed := hashPassword (hex8 salt) (ascii "demo")
  let line := shadowLine (ascii "demo") salt hashed (uhashLen + 48)
  { accounts with
    saltCounter := accounts.saltCounter + 1
    passwdFile := surroundings.passwd.file defaultPasswd
    shadowFile := surroundings.shadow.file (line ++ [lineFeed]) }

/-- The record that `users_init` makes of the fields of a line, in the formats
of seven, six, five and four fields. -/
def recordOf (columns : List (List UInt8)) : UserRecord :=
  let homeIndex := if columns.length = 6 ∨ columns.length = 5 then 4 else 5
  let shell :=
    if columns.length = 6 then columns[5]?
    else if columns.length = 5 then none
    else columns[6]?
  { name := strncpy unameMax (CStr.ofBytes (columns.getD 0 []))
    uid := decimalWord (columns.getD 2 [])
    gid := decimalWord (columns.getD 3 [])
    home := strncpy uhomeMax
      (CStr.ofBytes (columns.getD homeIndex (ascii "/home/")))
    shell := strncpy ushellMax (CStr.ofBytes (shell.getD (ascii "/bin/sh")))
    valid := true }

/-- The user on a line of `/etc/passwd`: blank lines, comments and lines of
fewer than four fields name none. -/
def userOn (line : List UInt8) : Option UserRecord :=
  if line ≠ [] ∧ line.head? ≠ some hash then
    let columns := fields colon 6 (cString (line.take 255))
    if 4 ≤ columns.length then some (recordOf columns) else none
  else
    none

/-- The users of `/etc/passwd`; the table takes no more than `umaxUsers`. -/
def parsePasswd (text : List UInt8) : List UserRecord :=
  ((lines text).filterMap userOn).take umaxUsers

theorem length_fsRead_lt (file : Option (List UInt8)) : (fsRead file).length < shadowBuf :=
  Nat.lt_of_le_of_lt (List.length_take_le _ _) (by decide)

/-- `users_init` once `/etc/passwd` is there. -/
def loadUsers (accounts : Accounts) : Int × Accounts :=
  if fsRead accounts.passwdFile = [] then
    (-1, accounts)
  else
    let users := parsePasswd (fsRead accounts.passwdFile)
    (users.length, { accounts with
      users
      users_fit := List.length_take_le _ _
      shadow := accounts.shadow.loaded (fsRead accounts.shadowFile)
        (length_fsRead_lt _) })

def clearUsers (accounts : Accounts) : Accounts :=
  { accounts with
    users := []
    users_fit := Nat.zero_le _
    shadow := accounts.shadow.loaded [] (by decide) }

def usersInit (surroundings : Surroundings) (accounts : Accounts) : Int × Accounts :=
  let cleared := clearUsers accounts
  if fsRead cleared.passwdFile = [] then
    loadUsers (createDefaultUsers surroundings cleared)
  else
    loadUsers cleared

inductive Call where
  | userAdd (name : CStr) (uid gid : UInt16) (home : CStr)
  | userMod (name newname : CStr) (uid gid : UInt16) (home : CStr)
  | userDel (name : CStr)
  | userSetPassword (name password : CStr)

def perform (surroundings : Surroundings) : Call → Accounts → Int × Accounts
  | .userAdd name uid gid home => userAdd surroundings name uid gid home
  | .userMod name newname uid gid home =>
    userMod surroundings name newname uid gid home
  | .userDel name => userDel surroundings name
  | .userSetPassword name password =>
    userSetPassword surroundings name password

def step (accounts : Accounts) (call : Surroundings × Call) : Accounts :=
  (perform call.1 call.2 accounts).2

/-- The memory before `users_init` first runs, with what the disk holds. -/
def unloaded (passwdFile shadowFile : Option (List UInt8)) : Accounts where
  users := []
  users_fit := Nat.zero_le _
  shadow :=
    { bytes := List.replicate shadowBuf 0
      len := 0
      whole := List.length_replicate
      inside := by decide }
  saltCounter := 0
  passwdFile
  shadowFile

end KnitOS.Users
