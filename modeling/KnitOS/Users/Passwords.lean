import KnitOS.Users.ShadowFile

/-!
# Passwords along runs

A password given with `user_set_password` is watched until it is given anew or
its user is deleted, under the name the user then has.
-/

namespace KnitOS.Users

open Lib Function

theorem names_changeFirst_of_kept_name {newname : CStr}
    (keepsName : newname.bytes = []) (test : UserRecord → Bool)
    (uid gid : UInt16) (home : CStr) (users : List UserRecord) :
    names (changeFirst test (changedRecord newname uid gid home) users) = names users := by
  induction users with
  | nil => rfl
  | cons user users ih =>
    unfold names at ih ⊢
    rw [changeFirst]
    split
    · simp [changedRecord, keepsName]
    · rw [List.map_cons, ih, List.map_cons]

theorem names_changeFirst {name : List UInt8} {newname : CStr}
    (short : newname.bytes.length < unameMax) (given : newname.bytes ≠ [])
    (uid gid : UInt16) (home : CStr) {users : List UserRecord}
    (valid : ∀ user ∈ users, user.valid = true) (distinct : (names users).Nodup) :
    names (changeFirst (·.Named name) (changedRecord newname uid gid home) users) =
      (names users).map fun old => if old = name then newname.bytes else old := by
  induction users with
  | nil => rfl
  | cons user users ih =>
    have copied : (strncpy unameMax newname).bytes = newname.bytes :=
      strncpy_bytes_of_fits (Nat.le_pred_of_lt short)
    have split : names (user :: users) = user.name.bytes :: names users := rfl
    rw [split, List.nodup_cons] at distinct
    rw [split, List.map_cons, changeFirst]
    by_cases same : user.name.bytes = name
    · have named : user.Named name := ⟨valid user List.mem_cons_self, same⟩
      have others : ∀ old ∈ names users, (if old = name then newname.bytes else old) = old := by
        intro old member
        refine if_neg fun isName => ?_
        exact distinct.1 (same.trans isName.symm ▸ member)
      rw [if_pos (by simpa using named), if_pos same, List.map_congr_left others, List.map_id']
      simp [names, changedRecord, given, copied]
    · have notNamed : ¬ user.Named name := fun named => same named.2
      have later := ih (List.forall_mem_cons.mp valid).2 distinct.2
      rw [if_neg (by simpa using notNamed), if_neg same, ← later]
      rfl

namespace Accounts.Kept

variable {accounts : Accounts} {credentials : List Credential} (kept : accounts.Kept credentials)
include kept

theorem userAdd (surroundings : Surroundings) {name : CStr} (uid gid : UInt16)
    (home : CStr) (plain : LineName name.bytes) :
    (userAdd surroundings name uid gid home accounts).2.Kept credentials := by
  unfold Users.userAdd
  split
  · split
    · exact kept
    · rename_i fresh
      have notNamed : name.bytes ∉ names accounts.users := fun member =>
        fresh ((kept.isSome_userByName_iff _).mpr member)
      have copied : (strncpy unameMax name).bytes = name.bytes :=
        strncpy_bytes_of_fits (Nat.le_pred_of_lt plain.2.2.2.2)
      simp only
      split
      · exact ⟨kept.valid, kept.plain, kept.distinct, kept.text, kept.single, kept.owned⟩
      · have added : names (accounts.users ++ [newRecord name uid gid home accounts]) =
              names accounts.users ++ [name.bytes] := by
          simp [names, newRecord, copied]
        refine ⟨?_, ?_, ?_, kept.text, kept.single, ?_⟩
        · exact List.forall_mem_append.mpr ⟨kept.valid, List.forall_mem_singleton.mpr rfl⟩
        · rw [writePasswdDb, added]
          exact List.forall_mem_append.mpr ⟨kept.plain, List.forall_mem_singleton.mpr plain⟩
        · rw [writePasswdDb, added]
          rw [← List.concat_eq_append]
          exact List.Nodup.concat notNamed kept.distinct
        · rw [writePasswdDb, added]
          exact fun other member => List.mem_append_left _ (kept.owned member)
  · exact kept

theorem shadowFor_eq_none_iff (name : List UInt8) :
    shadowFor name accounts.shadow = none ↔ name ∉ credentials.map Credential.name := by
  constructor
  · intro absent member
    obtain ⟨credential, credentialMember, named⟩ := List.mem_map.mp member
    obtain ⟨before, later, split⟩ := List.append_of_mem credentialMember
    have single := kept.single
    have plain := kept.plainCredential
    have text := kept.text
    rw [split] at single plain text
    have others : ∀ other ∈ before, other.name ≠ credential.name := by
      rw [List.map_append, List.nodup_append] at single
      exact fun other otherMember => single.2.2 _
        (List.mem_map_of_mem otherMember) _ List.mem_cons_self
    obtain ⟨rest, found⟩ := shadowFor_of_text text plain others
    rw [named, absent] at found
    cases found
  · intro absent
    exact shadowFor_eq_none kept.text kept.plainCredential fun credential member named =>
        absent (named ▸ List.mem_map_of_mem member)

theorem userMod (surroundings : Surroundings) {name newname : CStr} (uid gid : UInt16) (home : CStr)
    (keepsLine : newname.bytes = [] ∨ LineName newname.bytes ∧
      shadowFor name.bytes accounts.shadow = none) :
    (userMod surroundings name newname uid gid home accounts).2.Kept credentials := by
  unfold Users.userMod
  split
  · exact kept
  · split
    · exact kept
    · split
      · exact kept
      · rename_i fresh
        have valid : ∀ user ∈ changeFirst (·.Named name.bytes)
            (changedRecord newname uid gid home) accounts.users, user.valid = true := by
          refine forall_mem_changeFirst ?_ kept.valid
          exact fun _ isValid => isValid
        by_cases given : newname.bytes = []
        · have same := names_changeFirst_of_kept_name given
            (·.Named name.bytes) uid gid home accounts.users
          refine ⟨valid, ?_, ?_, kept.text, kept.single, ?_⟩
          · rw [writePasswdDb, same]
            exact kept.plain
          · rw [writePasswdDb, same]
            exact kept.distinct
          · rw [writePasswdDb, same]
            exact kept.owned
        · obtain ⟨plain, noLine⟩ := keepsLine.resolve_left given
          have notNamed : newname.bytes ∉ names accounts.users := fun member =>
            fresh ⟨given, (kept.isSome_userByName_iff _).mpr member⟩
          have noCredential := (kept.shadowFor_eq_none_iff _).mp noLine
          have renamed := @names_changeFirst name.bytes newname
            plain.2.2.2.2 given uid gid home _ kept.valid kept.distinct
          refine ⟨valid, ?_, ?_, kept.text, kept.single, ?_⟩
          · rw [writePasswdDb, renamed]
            intro other member
            obtain ⟨old, oldMember, isOther⟩ := List.mem_map.mp member
            rw [← isOther]
            split
            · exact plain
            · exact kept.plain old oldMember
          · rw [writePasswdDb, renamed]
            refine kept.distinct.map_on ?_
            intro first firstMember second secondMember same
            split at same
            · rename_i firstIs
              split at same
              · rename_i secondIs
                rw [firstIs, secondIs]
              · exact absurd (same ▸ secondMember) notNamed
            · split at same
              · exact absurd (same ▸ firstMember) notNamed
              · exact same
          · rw [writePasswdDb, renamed]
            intro other member
            have different : other ≠ name.bytes := fun isName =>
              noCredential (isName ▸ member)
            exact List.mem_map.mpr ⟨other, kept.owned member, if_neg different⟩

end Accounts.Kept

/-- The salt and the password that `user_set_password` last gave each name. -/
abbrev Grants : Type := List UInt8 → Option (UInt32 × List UInt8)

structure Watched where
  accounts : Accounts
  grants : Grants

/-- What a call means for the passwords given: a new password replaces the old
one, a rename carries it along, and it ends with its user. -/
def Watched.granted (watched : Watched) : Surroundings × Call → Grants
  | (surroundings, .userSetPassword name password) =>
    if (userByName name.bytes watched.accounts).isSome then
      update watched.grants name.bytes
        (some (genSalt surroundings.timerMs watched.accounts.saltCounter,
          password.bytes))
    else
      watched.grants
  | (_, .userDel name) =>
    if name.bytes ≠ [] ∧ name.bytes ≠ ascii "root" then
      update watched.grants name.bytes none
    else
      watched.grants
  | (_, .userMod name newname _ _ _) =>
    if name.bytes ≠ [] ∧ (userByName name.bytes watched.accounts).isSome ∧
        newname.bytes ≠ [] ∧
        (userByName newname.bytes watched.accounts).isNone then
      update (update watched.grants name.bytes none)
        (strncpy unameMax newname).bytes (watched.grants name.bytes)
    else
      watched.grants
  | (surroundings, .userAdd name uid gid home) =>
    if 0 ≤ (userAdd surroundings name uid gid home watched.accounts).1 then
      update watched.grants (strncpy unameMax name).bytes none
    else
      watched.grants

def Watched.step (watched : Watched) (call : Surroundings × Call) : Watched where
  accounts := Users.step watched.accounts call
  grants := watched.granted call

/-- Whoever was given a password is let in with exactly the passwords of the
same hash. -/
def Watched.Honours (watched : Watched) : Prop :=
  ∀ user ∈ watched.accounts.users, ∀ (salt : UInt32) (password : List UInt8),
    watched.grants user.name.bytes = some (salt, password) →
      ∀ tried : CStr,
        userCheckPassword user.name.toCStr tried watched.accounts = true ↔
          hashPassword (hex8 salt) tried.bytes =
            hashPassword (hex8 salt) password

/-- The user that a call is about. -/
def Call.target : Call → List UInt8
  | .userAdd name _ _ _ => name.bytes
  | .userMod name _ _ _ _ => name.bytes
  | .userDel name => name.bytes
  | .userSetPassword name _ => name.bytes

/-- The call changes the passwords of no other user. -/
def Call.SparesOthers (accounts : Accounts) (call : Surroundings × Call) : Prop :=
  ∀ user ∈ accounts.users, user.name.bytes ≠ call.2.target →
    ∀ tried : CStr,
      userCheckPassword user.name.toCStr tried (step accounts call) =
        userCheckPassword user.name.toCStr tried accounts

/-- The call gives no name that breaks a password line, and it does not rename
a user that has one. -/
def Call.KeepsPasswords (accounts : Accounts) : Surroundings × Call → Prop
  | (_, .userAdd name _ _ _) => LineName name.bytes
  | (_, .userMod name newname _ _ _) =>
    newname.bytes = [] ∨ LineName newname.bytes ∧
      shadowFor name.bytes accounts.shadow = none
  | (_, .userDel _) => True
  | (_, .userSetPassword _ _) => True

/-- Every password given has its credential. -/
def Grants.Backed (grants : Grants) (credentials : List Credential) : Prop :=
  ∀ name salt password, grants name = some (salt, password) →
    ⟨name, salt, hashPassword (hex8 salt) password⟩ ∈ credentials

variable {credentials : List Credential}

theorem Grants.Backed.update_none {grants : Grants} (backed : grants.Backed credentials)
    (name : List UInt8) :
    Grants.Backed (update grants name none) credentials := by
  intro other salt password given
  by_cases same : other = name
  · rw [same, update_self] at given
    cases given
  · rw [update_of_ne same] at given
    exact backed other salt password given

theorem find?_eq_some_of_mem (single : (credentials.map Credential.name).Nodup)
    {credential : Credential} (member : credential ∈ credentials) :
    credentials.find? (·.name = credential.name) = some credential := by
  induction credentials with
  | nil => cases member
  | cons first rest ih =>
    rw [List.map_cons, List.nodup_cons] at single
    rcases List.mem_cons.mp member with isFirst | isLater
    · rw [isFirst, List.find?_cons_of_pos (by simp)]
    · have different : first.name ≠ credential.name := fun same =>
        single.1 (same ▸ List.mem_map_of_mem isLater)
      rw [List.find?_cons_of_neg (by simpa using different)]
      exact ih single.2 isLater

variable {watched : Watched}

theorem Accounts.Kept.honours (kept : watched.accounts.Kept credentials)
    (backed : watched.grants.Backed credentials) : watched.Honours := by
  intro user member salt password given tried
  have credentialMember := backed user.name.bytes salt password given
  have named : user.name.toCStr.bytes ∈ names watched.accounts.users := List.mem_map_of_mem member
  have found := find?_eq_some_of_mem kept.single credentialMember
  rw [kept.userCheckPassword_eq named, found]
  simp only [decide_eq_true_eq]

/-- Where the passwords of a run stand. -/
def Watched.Sound (watched : Watched) : Prop :=
  ∃ credentials, watched.accounts.Kept credentials ∧
    watched.grants.Backed credentials

theorem mem_changeFirst_of_not {α : Type} {test : α → Bool}
    {change : α → α} {items : List α} {item : α} (member : item ∈ items)
    (untouched : test item = false) : item ∈ changeFirst test change items := by
  induction items with
  | nil => cases member
  | cons first rest ih =>
    rw [changeFirst]
    rcases List.mem_cons.mp member with isFirst | isLater
    · rw [← isFirst, untouched]
      exact List.mem_cons_self
    · split
      · exact List.mem_cons_of_mem _ isLater
      · exact List.mem_cons_of_mem _ (ih isLater)

variable {call : Surroundings × Call}

theorem mem_users_step {accounts : Accounts}
    {user : UserRecord} (member : user ∈ accounts.users) (other : user.name.bytes ≠ call.2.target) :
    user ∈ (step accounts call).users := by
  have notNamed : ∀ name : CStr, user.name.bytes ≠ name.bytes →
      decide (user.Named name.bytes) = false := fun name different =>
    decide_eq_false fun named => different named.2
  obtain ⟨surroundings, call⟩ := call
  cases call with
  | userAdd name uid gid home =>
    simp only [step, perform, userAdd]
    split
    · split
      · exact member
      · split
        · exact member
        · exact List.mem_append_left _ member
    · exact member
  | userMod name newname uid gid home =>
    simp only [step, perform, userMod]
    split
    · exact member
    · split
      · exact member
      · split
        · exact member
        · exact mem_changeFirst_of_not member (notNamed name other)
  | userDel name =>
    simp only [step, perform, userDel]
    split
    · exact member
    · split
      · refine (List.mem_eraseP_of_neg ?_).mpr member
        rw [notNamed name other]
        exact Bool.false_ne_true
      · exact member
  | userSetPassword name password =>
    simp only [step, perform, userSetPassword]
    split
    · exact member
    · exact member

theorem Accounts.Kept.sparesOthers {accounts : Accounts} {credentials' : List Credential}
    (kept : accounts.Kept credentials) (kept' : (step accounts call).Kept credentials')
    (same : ∀ other, other ≠ call.2.target → credentials'.find? (·.name = other) =
        credentials.find? (·.name = other)) : Call.SparesOthers accounts call := by
  intro user member different tried
  have member' := mem_users_step member different
  rw [kept.userCheckPassword_eq (List.mem_map_of_mem member),
    kept'.userCheckPassword_eq (List.mem_map_of_mem member'), same _ different]

variable (sound : watched.Sound)
include sound

theorem Watched.Sound.userAdd (surroundings : Surroundings) {name : CStr} (uid gid : UInt16)
    (home : CStr) (plain : LineName name.bytes) :
    (watched.step (surroundings, .userAdd name uid gid home)).Sound ∧
      Call.SparesOthers watched.accounts (surroundings, .userAdd name uid gid home) := by
  obtain ⟨credentials, kept, backed⟩ := sound
  have kept' := kept.userAdd surroundings uid gid home plain
  refine ⟨⟨credentials, kept', ?_⟩, kept.sparesOthers kept' fun _ _ => rfl⟩
  simp only [Watched.step, Watched.granted]
  split
  · exact backed.update_none _
  · exact backed

theorem Watched.Sound.userMod
    (surroundings : Surroundings) {name newname : CStr} (uid gid : UInt16) (home : CStr)
    (keepsLine : newname.bytes = [] ∨ LineName newname.bytes ∧
      shadowFor name.bytes watched.accounts.shadow = none) :
    (watched.step (surroundings, .userMod name newname uid gid home)).Sound ∧
      Call.SparesOthers watched.accounts (surroundings, .userMod name newname uid gid home) := by
  obtain ⟨credentials, kept, backed⟩ := sound
  have kept' := kept.userMod surroundings uid gid home keepsLine
  refine ⟨⟨credentials, kept', ?_⟩, kept.sparesOthers kept' fun _ _ => rfl⟩
  simp only [Watched.step, Watched.granted]
  split
  · rename_i renames
    have noCredential := (kept.shadowFor_eq_none_iff _).mp (keepsLine.resolve_left renames.2.2.1).2
    -- a user without a line was given no password
    have noGrant : watched.grants name.bytes = none := by
      cases grant : watched.grants name.bytes with
      | none => rfl
      | some given =>
        exact absurd (List.mem_map_of_mem (backed name.bytes given.1 given.2 grant)) noCredential
    rw [noGrant]
    exact (backed.update_none _).update_none _
  · exact backed

theorem Watched.Sound.userDel (surroundings : Surroundings) (name : CStr) :
    (watched.step (surroundings, .userDel name)).Sound ∧
      Call.SparesOthers watched.accounts (surroundings, .userDel name) := by
  obtain ⟨credentials, kept, backed⟩ := sound
  have backedSame : (watched.granted (surroundings, .userDel name)).Backed credentials := by
    simp only [Watched.granted]
    split
    · exact backed.update_none _
    · exact backed
  by_cases deletes : ¬ (name.bytes = [] ∨ name.bytes = ascii "root") ∧
      (userByName name.bytes watched.accounts).isSome
  · have performed : Users.step watched.accounts (surroundings, .userDel name) =
        (removeUser surroundings name.bytes watched.accounts).2 := by
      simp only [Users.step, perform, Users.userDel]
      rw [if_neg deletes.1, if_pos deletes.2]
    have kept' : (Users.step watched.accounts (surroundings, .userDel name)).Kept
        (without name.bytes credentials) := performed ▸ kept.removeUser surroundings name.bytes
    refine ⟨⟨without name.bytes credentials, kept', ?_⟩,
      kept.sparesOthers kept' fun other different =>
        find?_without different credentials⟩
    intro other salt password given
    have different : other ≠ name.bytes := by
      intro same
      simp only [Watched.step, Watched.granted] at given
      rw [if_pos (not_or.mp deletes.1), same, update_self] at given
      cases given
    exact List.mem_filter.mpr ⟨backedSame other salt password given, by simpa using different⟩
  · have performed : Users.step watched.accounts (surroundings, .userDel name) =
        watched.accounts := by
      simp only [Users.step, perform, Users.userDel]
      split
      · rfl
      · rename_i allowed
        rw [if_neg fun found => deletes ⟨allowed, found⟩]
    have kept' : (Users.step watched.accounts (surroundings, .userDel name)).Kept credentials := by
      rw [performed]
      exact kept
    exact ⟨⟨credentials, kept', backedSame⟩, kept.sparesOthers kept' fun _ _ => rfl⟩

theorem Watched.Sound.userSetPassword (surroundings : Surroundings) (name password : CStr) :
    (watched.step (surroundings, .userSetPassword name password)).Sound ∧
      Call.SparesOthers watched.accounts (surroundings, .userSetPassword name password) := by
  obtain ⟨credentials, kept, backed⟩ := sound
  by_cases known : (userByName name.bytes watched.accounts).isSome
  · have kept' := kept.userSetPassword surroundings password
      ((kept.isSome_userByName_iff _).mp known)
    simp only at kept'
    refine ⟨⟨_, kept', ?_⟩, kept.sparesOthers kept' ?_⟩
    · simp only [Watched.step, Watched.granted]
      rw [if_pos known]
      intro other salt tried given
      by_cases same : other = name.bytes
      · rw [same, update_self, Option.some.injEq, Prod.mk.injEq] at given
        rw [same, given.1, given.2]
        exact List.mem_append_right _ (List.mem_singleton_self _)
      · rw [update_of_ne same] at given
        exact List.mem_append_left _ (List.mem_filter.mpr
          ⟨backed other salt tried given, by simpa using same⟩)
    · intro other different
      have notName : other ≠ name.bytes := different
      rw [List.find?_append, find?_without notName]
      simp [Ne.symm notName]
  · have performed : Users.step watched.accounts (surroundings, .userSetPassword name password) =
          watched.accounts := by
      simp only [Users.step, perform, Users.userSetPassword]
      rw [if_neg known]
    have kept' : (Users.step watched.accounts
        (surroundings, .userSetPassword name password)).Kept credentials := by
      rw [performed]
      exact kept
    refine ⟨⟨credentials, kept', ?_⟩, kept.sparesOthers kept' fun _ _ => rfl⟩
    simp only [Watched.step, Watched.granted]
    rw [if_neg known]
    exact backed

theorem Watched.Sound.step (keeps : Call.KeepsPasswords watched.accounts call) :
    (watched.step call).Sound ∧ Call.SparesOthers watched.accounts call := by
  obtain ⟨surroundings, call⟩ := call
  cases call with
  | userAdd name uid gid home =>
    exact sound.userAdd surroundings uid gid home keeps
  | userMod name newname uid gid home =>
    exact sound.userMod surroundings uid gid home keeps
  | userDel name => exact sound.userDel surroundings name
  | userSetPassword name password =>
    exact sound.userSetPassword surroundings name password

omit sound

/-- In every run from a kept table, as long as every new name can start a
password line and no user with a password line is renamed, the passwords given
are those accepted, and no call changes the passwords of another user. -/
theorem passwords_kept (start : Accounts) (credentials : List Credential)
    (kept : start.Kept credentials) (calls : List (Surroundings × Call))
    (keep : AlongRun Watched.step (fun watched call => Call.KeepsPasswords watched.accounts call)
      ⟨start, fun _ => none⟩ calls) : AlongRun Watched.step
      (fun watched call => (watched.step call).Honours ∧ Call.SparesOthers watched.accounts call)
      ⟨start, fun _ => none⟩ calls := by
  have sound : Watched.Sound ⟨start, fun _ => none⟩ :=
    ⟨credentials, kept, fun _ _ _ given => by cases given⟩
  refine AlongRun.of_invariant (fun _ _ holds allowed => (holds.step allowed).1) ?_ keep sound
  intro watched call holds allowed
  obtain ⟨⟨reached, keptReached, backed⟩, spares⟩ := holds.step allowed
  exact ⟨keptReached.honours backed, spares⟩

/-- What `users_init` makes of a disk without `/etc/passwd`. -/
def freshAccounts : Accounts :=
  (usersInit calm (unloaded none none)).2

def demoCredential : Credential where
  name := ascii "demo"
  salt := genSalt 0 0
  hashed := hashPassword (hex8 (genSalt 0 0)) (ascii "demo")

def setDemo : Surroundings × Call :=
  (calm, .userSetPassword (CStr.ofText "demo") (CStr.ofText "secret"))

def resetDemo : Surroundings × Call :=
  (calm, .userSetPassword (CStr.ofText "demo") (CStr.ofText "other"))

theorem freshAccounts_kept : freshAccounts.Kept [demoCredential] := by
  refine ⟨?_, ?_, ?_, ?_, ?_, ?_⟩
  · decide +kernel
  · decide +kernel
  · decide +kernel
  · decide +kernel
  · decide +kernel
  · decide +kernel

/-- The password of `demo` is set and set again. -/
theorem passwords_kept_fresh : AlongRun Watched.step
      (fun watched call => (watched.step call).Honours ∧ Call.SparesOthers watched.accounts call)
      ⟨freshAccounts, fun _ => none⟩ [setDemo, resetDemo] :=
  passwords_kept freshAccounts [demoCredential] freshAccounts_kept [setDemo, resetDemo]
    ⟨trivial, trivial, trivial⟩

def renameDemo : Surroundings × Call :=
  (calm, .userMod (CStr.ofText "demo") (CStr.ofText "dave") 0 0
    (CStr.ofText ""))

/-- `demo` is given a password and renamed to `dave`: the rename succeeds, and
`dave` is let in with the empty password and not with the one given. -/
theorem userMod_drops_password :
    let before := runFrom Watched.step ⟨freshAccounts, fun _ => none⟩ [setDemo]
    let after := before.step renameDemo
    (perform calm renameDemo.2 before.accounts).1 = 0 ∧
      ¬ after.Honours ∧
      after.grants (ascii "dave") =
        some (genSalt 0 1, ascii "secret") ∧
      userCheckPassword (CStr.ofText "dave") (CStr.ofText "secret")
        after.accounts = false ∧
      userCheckPassword (CStr.ofText "dave") (CStr.ofText "")
        after.accounts = true := by
  intro before after
  have granted : after.grants (ascii "dave") =
      some (genSalt 0 1, ascii "secret") := by
    decide +kernel
  have refused : userCheckPassword (CStr.ofText "dave")
      (CStr.ofText "secret") after.accounts = false := by
    decide +kernel
  refine ⟨by decide +kernel, ?_, granted, refused, by decide +kernel⟩
  intro honours
  have listed : ∃ user ∈ after.accounts.users,
      user.name.toCStr = CStr.ofText "dave" := by
    decide +kernel
  obtain ⟨user, member, named⟩ := listed
  have bytes : user.name.bytes = ascii "dave" := by
    rw [named]
    decide
  have accepted := (honours user member _ _ (bytes ▸ granted)
    (CStr.ofText "secret")).mpr (by decide +kernel)
  rw [named, refused] at accepted
  cases accepted

end KnitOS.Users
