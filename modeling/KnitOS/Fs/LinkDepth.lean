import KnitOS.Fs.Naming

/-!
# Path resolution ends

`fs_resolve_component` and `fs_follow_if_link` call each other.  They are run
for a number of steps without a bound on the depth; no call is cut off, and
none expands more than `FS_SYMLINK_MAX` links inside each other.
-/

namespace KnitOS.Fs

open Lib Lib.Program Storage

/-- How a call that was given a number of steps ends: it returned, where
`none` is -1, and the longest chain of links expanded inside each other was
this long; or it needs more steps. -/
inductive Ended (α : Type) where
  | returned (result : Option α) (nested : Nat)
  | cutOff

/-- `fs_resolve_component`, given its loop. -/
def resolveWith (loop : Bool → Nat → List UInt8 → Nat → Nat → Nat → FsProgram (Ended Nat))
    (path : List UInt8) (isFollowing : Bool) (depth : Nat) : FsProgram (Ended Nat) :=
  if path = [] then
    pure (.returned none 0)
  else if path = [slash] then
    pure (.returned (some rootIno) 0)
  else do
    let ended ← loop isFollowing depth (dropSlash (truncatePath path)) rootIno
      rootIno 0
    match ended with
    | .cutOff => pure .cutOff
    | .returned none nested => pure (.returned none nested)
    | .returned (some last) nested =>
      -- the result is an `int`
      pure (.returned (if last < 2147483648 then some last else none) nested)

/-- `fs_follow_if_link`, given `fs_resolve_component`. -/
def followWith (resolve : List UInt8 → Bool → Nat → FsProgram (Ended Nat)) (index : Nat)
    (isFollowing : Bool) (depth : Nat) : FsProgram (Ended Nat) := do
  let inode ← inodeAt index
  if isFollowing && inode.isSymlink then
    if symlinkMax ≤ depth then
      pure (.returned none 0)
    else do
      let target ← attempt (linkTarget index)
      match target with
      | none => pure (.returned none 0)
      | some target => do
          let ended ← resolve target true (depth + 1)
          match ended with
          | .cutOff => pure .cutOff
          | .returned result nested => pure (.returned result (nested + 1))
  else
    pure (.returned (some index) 0)

/-- The loop of `fs_resolve_component`: one step for every round, also for
those of the loops inside. -/
def walkWithin : Nat → Bool → Nat → List UInt8 → Nat → Nat → Nat → FsProgram (Ended Nat)
  | 0, _, _, _, _, _, _ => pure .cutOff
  | steps + 1, isFollowing, depth, path, parent, last, deepest =>
    if path.isEmpty then
      pure (.returned (some last) deepest)
    else
      let name := (nextComponent path).1
      let rest := (nextComponent path).2
      let more := !rest.isEmpty
      if name = [] ∨ name = [dot] then
        walkWithin steps isFollowing depth rest parent last deepest
      else if name = [dot, dot] then
        if parent = rootIno then
          walkWithin steps isFollowing depth rest parent last deepest
        else do
          let up ← parentOf parent
          walkWithin steps isFollowing depth rest up up deepest
      else do
        let found ← attempt (dirFindName parent name)
        match found with
        | none => pure (.returned none deepest)
        | some found => do
            let ended ← followWith (resolveWith (walkWithin steps)) found
              (isFollowing && (more || isFollowing)) depth
            match ended with
            | .cutOff => pure .cutOff
            | .returned none nested =>
              pure (.returned none (max deepest nested))
            | .returned (some index) nested => do
                let inode ← inodeAt index
                if more && !inode.isDirectory then
                  pure (.returned none (max deepest nested))
                else
                  walkWithin steps isFollowing depth rest
                    (if more then index else parent) index
                    (max deepest nested)

/-- `fs_resolve_component` when every loop may make this many rounds. -/
def resolveWithin (steps : Nat) (path : List UInt8) (isFollowing : Bool)
    (depth : Nat) : FsProgram (Ended Nat) :=
  resolveWith (walkWithin steps) path isFollowing depth

/-- A call that is not cut off, expands at most `bound` links inside each
other, and does what the program does. -/
def Agrees (bound : Nat) (stepped : FsProgram (Ended Nat)) (program : FsProgram Nat) : Prop :=
  ∀ (δ : Type) (device : Device δ DiskRequest (Option Sector)) (fs : FsState)
    (dev : δ), ∃ nested, nested ≤ bound ∧
      stepped.run device fs dev =
        (some (.returned (program.run device fs dev).1 nested),
          (program.run device fs dev).2)

theorem agrees_pure (value bound : Nat) (nested : Nat) (small : nested ≤ bound) :
    Agrees bound (pure (.returned (some value) nested)) (pure value) :=
  fun _ _ _ _ => ⟨nested, small, rfl⟩

theorem agrees_fail (bound nested : Nat) (small : nested ≤ bound) :
    Agrees bound (pure (.returned none nested)) fail := fun _ _ _ _ => ⟨nested, small, rfl⟩

variable {stepped : FsProgram (Ended Nat)} {bound : Nat} {α : Type}

theorem Agrees.assoc {β : Type} {first : FsProgram α}
    {next : α → FsProgram β} {last : β → FsProgram Nat} (agrees : Agrees bound stepped
      (first >>= fun value => next value >>= last)) :
    Agrees bound stepped ((first >>= next) >>= last) := by
  intro δ device fs dev
  rw [run_bind_assoc]
  exact agrees δ device fs dev

theorem agrees_attempt_bind {nested : Nat} (small : nested ≤ bound) (first : FsProgram α)
    {next : Option α → FsProgram (Ended Nat)} {program : α → FsProgram Nat}
    (fails : next none = pure (.returned none nested))
    (returns : ∀ value, Agrees bound (next (some value)) (program value)) :
    Agrees bound (attempt first >>= next) (first >>= program) := by
  intro δ device fs dev
  rw [run_attempt_bind]
  rcases ran : first.run device fs dev with ⟨outcome, fs', dev'⟩
  cases outcome with
  | none =>
    rw [run_bind_of_none ran, fails]
    exact ⟨nested, small, rfl⟩
  | some value =>
    rw [run_bind_of_some ran]
    exact returns value δ device fs' dev'

theorem agrees_reads_bind (field : FsState → α)
    {stepped : α → FsProgram (Ended Nat)} {program : α → FsProgram Nat}
    (then_ : ∀ value, Agrees bound (stepped value) (program value)) :
    Agrees bound (reads field >>= stepped) (reads field >>= program) := by
  intro δ device fs dev
  exact then_ (field fs) δ device fs dev

theorem Agrees.bind {inner : Nat}
    {program : FsProgram Nat} {next : Ended Nat → FsProgram (Ended Nat)}
    {then_ : Nat → FsProgram Nat} (agrees : Agrees inner stepped program)
    (fails : ∀ nested, nested ≤ inner → ∃ nested', nested' ≤ bound ∧
      next (.returned none nested) = pure (.returned none nested'))
    (returns : ∀ nested value, nested ≤ inner →
      Agrees bound (next (.returned (some value) nested)) (then_ value)) :
    Agrees bound (stepped >>= next) (program >>= then_) := by
  intro δ device fs dev
  obtain ⟨nested, small, ranStepped⟩ := agrees δ device fs dev
  rcases ran : program.run device fs dev with ⟨outcome, fs', dev'⟩
  rw [ran] at ranStepped
  rw [run_bind_of_some ranStepped]
  cases outcome with
  | none =>
    obtain ⟨nested', small', nextEq⟩ := fails nested small
    rw [run_bind_of_none ran, nextEq]
    exact ⟨nested', small', rfl⟩
  | some value =>
    rw [run_bind_of_some ran]
    exact returns nested value small δ device fs' dev'

theorem Agrees.deeper
    {program : FsProgram Nat} (agrees : Agrees bound stepped program) : Agrees (bound + 1)
      (stepped >>= fun ended =>
        match ended with
        | .cutOff => pure .cutOff
        | .returned result nested => pure (.returned result (nested + 1)))
      program := by
  intro δ device fs dev
  obtain ⟨nested, small, ran⟩ := agrees δ device fs dev
  rw [run_bind_of_some ran]
  exact ⟨nested + 1, by omega, rfl⟩

/-- How `fs_follow_if_link` resolves targets when so many links may still be
followed. -/
def resolverFor : Nat → Option (List UInt8 → FsProgram Nat)
  | 0 => none
  | budget + 1 => some (fsResolveComponent budget true)

theorem fsResolveComponent_eq (budget : Nat) (isFollowing : Bool) (path : List UInt8) :
    fsResolveComponent budget isFollowing path =
      walkPath (followIfLink isFollowing (resolverFor budget)) path := by
  cases budget with
  | zero => rfl
  | succ budget => rfl

section

variable {isFollowing : Bool} {depth budget : Nat}

theorem agrees_followWith (left : symlinkMax - depth = budget)
    {resolve : List UInt8 → Bool → Nat → FsProgram (Ended Nat)}
    (agrees : ∀ smaller, budget = smaller + 1 → ∀ target,
      Agrees smaller (resolve target true (depth + 1))
        (fsResolveComponent smaller true target)) (index : Nat) :
    Agrees budget (followWith resolve index isFollowing depth)
      (followIfLink isFollowing (resolverFor budget) index) := by
  unfold followWith followIfLink inodeAt
  apply agrees_reads_bind
  intro inode
  split
  · cases budget with
    | zero =>
      rw [if_pos (by omega)]
      exact agrees_fail _ _ (Nat.zero_le _)
    | succ smaller =>
      rw [if_neg (by omega)]
      simp only [resolverFor]
      refine agrees_attempt_bind (Nat.zero_le _) (linkTarget index) rfl ?_
      intro target
      exact (agrees smaller rfl target).deeper
  · exact agrees_pure _ _ _ (Nat.zero_le _)

/-- The loop, when links are followed as they should be by any loop that may
make `enough` rounds. -/
theorem agrees_walkWithin {enough : Nat} (follows : ∀ steps, enough ≤ steps → ∀ index, Agrees budget
        (followWith (resolveWith (walkWithin steps)) index isFollowing depth)
        (followIfLink isFollowing (resolverFor budget) index)) :
    ∀ (rounds : Nat) (path : List UInt8) (parent last deepest steps : Nat),
      path.length ≤ rounds → enough + rounds < steps → deepest ≤ budget → Agrees budget
          (walkWithin steps isFollowing depth path parent last deepest)
          (walk (followIfLink isFollowing (resolverFor budget)) rounds path parent last) := by
  intro rounds
  induction rounds with
  | zero =>
    intro path parent last deepest steps short sufficient small
    obtain ⟨fewer, rfl⟩ : ∃ fewer, steps = fewer + 1 := ⟨steps - 1, by omega⟩
    have empty : path = [] := List.eq_nil_of_length_eq_zero (by omega)
    rw [empty]
    exact agrees_pure last budget deepest small
  | succ rounds ih =>
    intro path parent last deepest steps short sufficient small
    obtain ⟨fewer, rfl⟩ : ∃ fewer, steps = fewer + 1 := ⟨steps - 1, by omega⟩
    rw [walkWithin, walk]
    by_cases empty : path.isEmpty = true
    · rw [if_pos empty, if_pos empty]
      exact agrees_pure last budget deepest small
    have nonempty : path ≠ [] := by
      intro isNil
      rw [isNil] at empty
      exact empty rfl
    have shorter := nextComponent_shorter nonempty
    rw [if_neg empty, if_neg empty]
    dsimp only
    by_cases stays : (nextComponent path).1 = [] ∨ (nextComponent path).1 = [dot]
    · rw [if_pos stays, if_pos stays]
      exact ih _ _ _ _ _ (by omega) (by omega) small
    rw [if_neg stays, if_neg stays]
    by_cases ups : (nextComponent path).1 = [dot, dot]
    · rw [if_pos ups, if_pos ups]
      by_cases isRoot : parent = rootIno
      · rw [if_pos isRoot, if_pos isRoot]
        exact ih _ _ _ _ _ (by omega) (by omega) small
      · rw [if_neg isRoot, if_neg isRoot]
        unfold parentOf inodeAt
        apply agrees_reads_bind
        intro inode
        exact ih _ _ _ _ _ (by omega) (by omega) small
    rw [if_neg ups, if_neg ups]
    have follow : (isFollowing &&
        (!(nextComponent path).2.isEmpty || isFollowing)) = isFollowing := by
      cases isFollowing <;> simp
    rw [follow]
    unfold stepInto
    apply Agrees.assoc
    refine agrees_attempt_bind small (dirFindName parent (nextComponent path).1) rfl ?_
    intro found
    apply Agrees.assoc
    refine (follows fewer (by omega) found).bind ?_ ?_
    · intro nested inside
      exact ⟨max deepest nested, by omega, rfl⟩
    · intro nested index inside
      unfold inodeAt
      apply Agrees.assoc
      apply agrees_reads_bind
      intro inode
      by_cases stuck : (!(nextComponent path).2.isEmpty && !inode.isDirectory) = true
      · rw [if_pos stuck, require_of_not (by simpa using stuck)]
        exact agrees_fail _ _ (by omega)
      · have goesOn : (!(nextComponent path).2.isEmpty) = false ∨ inode.isDirectory = true := by
          cases isLast : (nextComponent path).2.isEmpty <;> simp_all
        have parentEq : (if (nextComponent path).2.isEmpty = true then parent
            else index) = if (!(nextComponent path).2.isEmpty) = true then index
              else parent := by
          cases (nextComponent path).2.isEmpty <;> rfl
        rw [if_neg stuck, require_of goesOn]
        have continued := ih (nextComponent path).2
          (if (!(nextComponent path).2.isEmpty) = true then index
            else parent) index (max deepest nested) fewer (by omega) (by omega) (by omega)
        rw [← parentEq] at continued ⊢
        exact continued

end

theorem agrees_resolveWithin (budget : Nat) : ∀ depth, symlinkMax - depth = budget →
    ∀ steps, 256 * (budget + 1) ≤ steps → ∀ (path : List UInt8) (isFollowing : Bool),
        Agrees budget (resolveWithin steps path isFollowing depth)
          (fsResolveComponent budget isFollowing path) := by
  induction budget using Nat.strong_induction_on with
  | h budget ih =>
    intro depth left steps enough path isFollowing
    -- the loops inside have one level less and 256 rounds less
    have follows : ∀ steps, 256 * budget ≤ steps → ∀ index, Agrees budget
          (followWith (resolveWith (walkWithin steps)) index isFollowing depth)
          (followIfLink isFollowing (resolverFor budget) index) := by
      intro fewer sufficient index
      apply agrees_followWith left
      intro smaller budgetEq target
      exact ih smaller (by omega) (depth + 1) (by omega) fewer (by omega) target true
    have short : (dropSlash (truncatePath path)).length ≤ 255 := by
      have dropped := length_dropSlash_le (truncatePath path)
      have truncated : (truncatePath path).length ≤ 255 := List.length_take_le 255 path
      omega
    have walks := agrees_walkWithin follows
      (dropSlash (truncatePath path)).length (dropSlash (truncatePath path))
      rootIno rootIno 0 steps (Nat.le_refl _) (by omega) (Nat.zero_le _)
    rw [fsResolveComponent_eq]
    unfold resolveWithin resolveWith walkPath
    by_cases isEmpty : path = []
    · rw [if_pos isEmpty, require_of_not (not_not.mpr isEmpty)]
      exact agrees_fail _ _ (Nat.zero_le _)
    rw [if_neg isEmpty, require_of isEmpty]
    change Agrees budget _ (if path = [slash] then _ else _)
    by_cases isRoot : path = [slash]
    · rw [if_pos isRoot, if_pos isRoot]
      exact agrees_pure _ _ _ (Nat.zero_le _)
    rw [if_neg isRoot, if_neg isRoot]
    refine walks.bind ?_ ?_
    · intro nested small
      exact ⟨nested, small, rfl⟩
    · intro nested last small
      unfold asIndex
      dsimp only
      by_cases fits : last < 2147483648
      · rw [if_pos fits, require_of fits]
        exact agrees_pure _ _ _ small
      · rw [if_neg fits, require_of_not fits]
        exact agrees_fail _ _ small

/-- Whatever the inode table, the directories and the links hold, and however
the disk answers, `fs_resolve_component` returns after finitely many steps,
and never expands more than `FS_SYMLINK_MAX` links inside each other. -/
theorem fsResolveComponent_returns (path : List UInt8) (isFollowing : Bool) (depth : Nat) :
    ∃ steps, ∀ (more : Nat) (δ : Type)
      (device : Device δ DiskRequest (Option Sector)) (fs : FsState) (dev : δ),
      ∃ result nested fs' dev', (resolveWithin (steps + more) path isFollowing depth).run device fs
          dev = (some (.returned result nested), fs', dev') ∧ nested ≤ symlinkMax - depth ∧
        (fsResolveComponent (symlinkMax - depth) isFollowing path).run device
          fs dev = (result, fs', dev') := by
  refine ⟨256 * (symlinkMax - depth + 1), ?_⟩
  intro more δ device fs dev
  obtain ⟨nested, small, ran⟩ := agrees_resolveWithin (symlinkMax - depth)
    depth rfl _ (Nat.le_add_right _ more) path isFollowing δ device fs dev
  exact ⟨_, nested, _, _, ran, small, rfl⟩

end KnitOS.Fs
