import KnitOS.Tasks.Family
import Mathlib.Data.Finset.Lattice.Fold

/-!
# Killing a task and its descendants

`task_kill_children` goes down from living child to living child and ends each
child after its own children.  It does not pass a zombie, and does not return
from a cycle of parents.
-/

namespace KnitOS.Tasks.Family

open Lib Relation

/-- A living child. -/
def Child (table : TaskTable) (slot child : Fin taskMax) : Prop :=
  (table child).Alive ∧ (table child).parentPid = (table slot).id

/-- A living task below `pid`, with only living tasks between. -/
def LiveUnder (table : TaskTable) (pid : Int) (slot : Fin taskMax) : Prop :=
  ∃ child, ((table child).Alive ∧ (table child).parentPid = pid) ∧
    ReflTransGen (Child table) child slot

/-- The chain of parents gets to `pid` through entries that are used. -/
def Under (table : TaskTable) (pid : Int) (slot : Fin taskMax) : Prop :=
  ∃ child, (table child).parentPid = pid ∧
    ReflTransGen (fun parent child => (table parent).state ≠ .unused ∧
      (table child).parentPid = (table parent).id) child slot

/-- Living tasks that all have a child among them, and one below `pid`. -/
def Endless (table : TaskTable) (family : Fin taskMax → Prop) : Prop :=
  ∀ slot, family slot →
    (table slot).Alive ∧ ∃ child, family child ∧
      (table child).parentPid = (table slot).id

/-- Going down from `pid` comes to a cycle. -/
def Loops (table : TaskTable) (pid : Int) : Prop :=
  ∃ family, Endless table family ∧
    ∃ child, family child ∧ (table child).parentPid = pid

variable {current : Fin taskMax}

open Classical in
/-- Tasks other than the caller are ended. -/
noncomputable def zombify (current : Fin taskMax) (ended : Fin taskMax → Prop)
    (table : TaskTable) : TaskTable := fun slot =>
  if ended slot ∧ slot ≠ current then { table slot with state := .zombie }
  else table slot

variable (table : TaskTable)
include table

theorem zombify_zombify (first second : Fin taskMax → Prop) :
    zombify current second (zombify current first table) =
      zombify current (fun slot => first slot ∨ second slot) table := by
  funext slot
  simp only [zombify]
  by_cases first slot <;> by_cases second slot <;> by_cases slot = current <;> simp [*]

theorem zombify_none : zombify current (fun _ => False) table = table := by
  funext slot
  simp [zombify]

theorem zombify_one (slot : Fin taskMax) :
    (if slot = current then table else setState slot .zombie table) =
      zombify current (fun other => other = slot) table := by
  funext other
  by_cases here : other = slot
  · subst here
    by_cases same : other = current <;> simp [zombify, setState, same]
  · by_cases same : slot = current <;> simp [zombify, setState, same, here]

@[simp] theorem zombify_id (ended : Fin taskMax → Prop)
    (slot : Fin taskMax) : (zombify current ended table slot).id = (table slot).id := by
  unfold zombify
  split <;> rfl

@[simp] theorem zombify_parentPid (ended : Fin taskMax → Prop) (slot : Fin taskMax) :
    (zombify current ended table slot).parentPid = (table slot).parentPid := by
  unfold zombify
  split <;> rfl

omit table

variable {slot : Fin taskMax} {ended : Fin taskMax → Prop} {table : TaskTable}

theorem alive_zombify_iff : (zombify current ended table slot).Alive ↔
    (table slot).Alive ∧ ¬ (ended slot ∧ slot ≠ current) := by
  unfold zombify
  split
  · simp [Entry.Alive, *]
  · simp only [*, not_false_eq_true, and_true]

/-- A descendant is ended already, if the ended tasks have no children left,
or is still below. -/
theorem descends_zombify
    (closed : ∀ {slot child}, ended slot → Child table slot child → ended child)
    {other : Fin taskMax} (below : ReflTransGen (Child table) slot other) :
    ended other ∨ ReflTransGen (Child (zombify current ended table)) slot other := by
  induction below with
  | refl => exact Or.inr .refl
  | tail _ isChild ih =>
    rcases ih with isEnded | below
    · exact Or.inl (closed isEnded isChild)
    · rename_i child _
      by_cases isEnded : ended child
      · exact Or.inl isEnded
      · exact Or.inr (below.tail ⟨alive_zombify_iff.mpr ⟨isChild.1, fun both =>
          isEnded both.1⟩, by simpa using isChild.2⟩)

theorem liveUnder_or_eq_iff {other : Fin taskMax} :
    (LiveUnder table (table slot).id other ∨ other = slot) ↔
      ReflTransGen (Child table) slot other := by
  constructor
  · rintro (⟨child, isChild, below⟩ | rfl)
    · exact .head isChild below
    · exact .refl
  · intro below
    rcases below.cases_head with same | ⟨child, isChild, rest⟩
    · exact Or.inr same.symm
    · exact Or.inl ⟨child, isChild, rest⟩

/-- The tasks that the rounds on some slots end. -/
def EndedBy (table : TaskTable) (pid : Int) (slots : List (Fin taskMax))
    (slot : Fin taskMax) : Prop :=
  ∃ child ∈ slots, ((table child).Alive ∧ (table child).parentPid = pid) ∧
    ReflTransGen (Child table) child slot

variable {pid : Int}

theorem EndedBy.closed {slots : List (Fin taskMax)}
    {child : Fin taskMax} (ended : EndedBy table pid slots slot)
    (isChild : Child table slot child) : EndedBy table pid slots child := by
  obtain ⟨top, member, isTop, below⟩ := ended
  exact ⟨top, member, isTop, below.tail isChild⟩

theorem endedBy_concat {slots : List (Fin taskMax)} {last other : Fin taskMax} :
    EndedBy table pid (slots ++ [last]) other ↔ EndedBy table pid slots other ∨
      ((table last).Alive ∧ (table last).parentPid = pid) ∧
        ReflTransGen (Child table) last other := by
  simp [EndedBy, or_and_right, exists_or]

variable {fuel : Nat}

/-- `task_kill_children` ends what is below `pid`, apart from the caller. -/
theorem taskKillChildren_eq {killed : TaskTable}
    (returned : taskKillChildren current fuel pid table = some killed) :
    killed = zombify current (LiveUnder table pid) table := by
  induction fuel generalizing pid table killed with
  | zero => cases returned
  | succ fuel ih =>
    -- The rounds that are left, from the table that the rounds before have made.
    have rounds : ∀ done rest reached killed,
        reached = zombify current (EndedBy table pid done) table →
        rest.foldlM (killRound current (taskKillChildren current fuel) pid) reached = some killed →
        killed = zombify current (EndedBy table pid (done ++ rest)) table := by
      intro done rest
      induction rest generalizing done with
      | nil =>
        intro reached killed isReached isKilled
        simp only [List.foldlM_nil, Option.pure_def, Option.some.injEq] at isKilled
        rw [← isKilled, List.append_nil, isReached]
      | cons slot rest restHypothesis =>
        intro reached killed isReached isKilled
        rw [List.foldlM_cons] at isKilled
        obtain ⟨next, isNext, restKilled⟩ := Option.bind_eq_some_iff.mp isKilled
        rw [List.append_cons]
        refine restHypothesis _ next killed ?_ restKilled
        unfold killRound at isNext
        split at isNext
        · rename_i isChild
          obtain ⟨below, isBelow, rfl⟩ := Option.map_eq_some_iff.mp isNext
          rw [zombify_one, ih isBelow, isReached, zombify_zombify, zombify_zombify]
          congr 1
          funext other
          rw [isReached, alive_zombify_iff, zombify_parentPid] at isChild
          apply propext
          rw [liveUnder_or_eq_iff, endedBy_concat, and_iff_right ⟨isChild.1.1, isChild.2⟩]
          constructor
          · exact Or.imp_right (ReflTransGen.mono (fun _ _ below =>
              ⟨(alive_zombify_iff.mp below.1).1, by simpa using below.2⟩) _ _)
          · rintro (isEnded | descends)
            · exact Or.inl isEnded
            · exact descends_zombify EndedBy.closed descends
        · rename_i notChild
          rw [← Option.some.inj isNext, isReached]
          congr 1
          funext other
          apply propext
          rw [endedBy_concat]
          refine (or_iff_left_of_imp ?_).symm
          rintro ⟨isTop, descends⟩
          rw [isReached, alive_zombify_iff, zombify_parentPid] at notChild
          have ended : EndedBy table pid done slot := by
            by_contra alive
            exact notChild ⟨⟨isTop.1, fun both => alive both.1⟩, isTop.2⟩
          obtain ⟨first, member, isFirst, before⟩ := ended
          exact ⟨first, member, isFirst, before.trans descends⟩
    have nothing : table = zombify current (EndedBy table pid []) table := by
      have none : EndedBy table pid [] = fun _ => False := by
        funext slot
        simp [EndedBy]
      rw [none, zombify_none]
    rw [rounds [] (List.finRange taskMax) table killed nothing returned]
    congr 1
    funext slot
    simp [EndedBy, LiveUnder]

/-- A task above an endless family belongs to one. -/
theorem Endless.above {family : Fin taskMax → Prop}
    (endless : Endless table family) : Endless table fun slot => (table slot).Alive ∧
      ∃ below, family below ∧ ReflTransGen (Child table) slot below := by
  rintro slot ⟨alive, below, member, descends⟩
  refine ⟨alive, ?_⟩
  rcases descends.cases_head with rfl | ⟨child, isChild, rest⟩
  · obtain ⟨_, child, isMember, isChild⟩ := endless slot member
    exact ⟨child, ⟨(endless child isMember).1, child, isMember, .refl⟩, isChild⟩
  · exact ⟨child, ⟨isChild.1, below, member, rest⟩, isChild.2⟩

theorem taskKillChildren_of_loops
    (loops : Loops table pid) : taskKillChildren current fuel pid table = none := by
  induction fuel generalizing pid table with
  | zero => rfl
  | succ fuel ih =>
    obtain ⟨family, endless, child, member, isChild⟩ := loops
    -- The family stays alive until its round comes.
    have rounds : ∀ (slots : List (Fin taskMax)) reached, Endless reached family → child ∈ slots →
        (reached child).parentPid = pid →
        slots.foldlM (killRound current (taskKillChildren current fuel) pid) reached = none := by
      intro slots
      induction slots with
      | nil => intro _ _ none; cases none
      | cons slot rest restHypothesis =>
        intro reached endless listed isChild
        rw [List.foldlM_cons]
        have alive := (endless child member).1
        unfold killRound
        split
        · cases nested : taskKillChildren current fuel (reached slot).id reached with
          | none => rfl
          | some killed =>
            have away : ∀ other, family other → ¬ ReflTransGen (Child reached) slot other := by
              intro other isMember descends
              have above := endless.above slot ⟨‹_ ∧ _›.1, other, isMember, descends⟩
              rw [ih ⟨_, endless.above, above.2⟩] at nested
              cases nested
            have different : child ≠ slot := by
              rintro rfl
              exact away child member .refl
            rw [Option.map_some, Option.bind_eq_bind, Option.bind_some, zombify_one,
              taskKillChildren_eq nested, zombify_zombify]
            refine restHypothesis _ ?_ ((List.mem_cons.mp listed).resolve_left different)
              (by simpa using isChild)
            intro other isMember
            obtain ⟨isAlive, below, belowMember, isBelow⟩ := endless other isMember
            refine ⟨alive_zombify_iff.mpr ⟨isAlive, fun both => away other isMember
              (liveUnder_or_eq_iff.mp both.1)⟩, below, belowMember, by simpa using isBelow⟩
        · rename_i notChild
          have different : child ≠ slot := by
            rintro rfl
            exact notChild ⟨alive, isChild⟩
          exact restHypothesis reached endless
            ((List.mem_cons.mp listed).resolve_left different) isChild
    exact rounds _ table endless (List.mem_finRange child) isChild

theorem foldlM_of_le {α β : Type} {step step' : α → β → Option α}
    (le : ∀ state item result, step state item = some result →
      step' state item = some result) {items : List β} {state result : α}
    (returned : items.foldlM step state = some result) :
    items.foldlM step' state = some result := by
  induction items generalizing state with
  | nil => exact returned
  | cons item rest ih =>
    rw [List.foldlM_cons] at returned ⊢
    obtain ⟨next, isNext, restReturned⟩ := Option.bind_eq_some_iff.mp returned
    rw [le state item next isNext]
    exact ih restReturned

theorem taskKillChildren_succ {killed : TaskTable}
    (returned : taskKillChildren current fuel pid table = some killed) :
    taskKillChildren current (fuel + 1) pid table = some killed := by
  induction fuel generalizing pid table killed with
  | zero => cases returned
  | succ fuel ih =>
    refine foldlM_of_le ?_ returned
    intro reached slot next isNext
    unfold killRound at *
    split at isNext
    · rename_i isChild
      obtain ⟨below, isBelow, isResult⟩ := Option.map_eq_some_iff.mp isNext
      rw [if_pos isChild, ih isBelow, Option.map_some, isResult]
    · rename_i noChild
      rwa [if_neg noChild]

theorem taskKillChildren_of_le {more : Nat} (le : fuel ≤ more)
    (returns : (taskKillChildren current fuel pid table).isSome) :
    (taskKillChildren current more pid table).isSome := by
  induction le with
  | refl => exact returns
  | step _ ih =>
    obtain ⟨killed, isKilled⟩ := Option.isSome_iff_exists.mp ih
    rw [taskKillChildren_succ isKilled]
    rfl

/-- Some number of nested calls is enough, also when tasks have been ended. -/
def Settles (current : Fin taskMax) (table : TaskTable) (pid : Int) : Prop :=
  ∃ fuel, ∀ ended,
    (taskKillChildren current fuel pid (zombify current ended table)).isSome

theorem settles_of_children (children : ∀ slot, (table slot).Alive → (table slot).parentPid = pid →
    Settles current table (table slot).id) : Settles current table pid := by
  have bound : ∀ slot, ∃ fuel, ∀ more ≥ fuel,
      (table slot).Alive → (table slot).parentPid = pid → ∀ ended,
      (taskKillChildren current more (table slot).id (zombify current ended table)).isSome := by
    intro slot
    by_cases isChild : (table slot).Alive ∧ (table slot).parentPid = pid
    · obtain ⟨fuel, returns⟩ := children slot isChild.1 isChild.2
      exact ⟨fuel, fun more le _ _ ended => taskKillChildren_of_le le (returns ended)⟩
    · exact ⟨0, fun _ _ alive isParent => absurd ⟨alive, isParent⟩ isChild⟩
  choose fuel enough using bound
  refine ⟨Finset.univ.sup fuel + 1, ?_⟩
  have rounds : ∀ (slots : List (Fin taskMax)) ended, (slots.foldlM (killRound current
        (taskKillChildren current (Finset.univ.sup fuel)) pid)
        (zombify current ended table)).isSome := by
    intro slots
    induction slots with
    | nil => exact fun _ => rfl
    | cons slot rest ih =>
      intro ended
      rw [List.foldlM_cons]
      unfold killRound
      split
      · rename_i isChild
        rw [alive_zombify_iff, zombify_parentPid] at isChild
        obtain ⟨killed, isKilled⟩ := Option.isSome_iff_exists.mp
          (enough slot _ (Finset.le_sup (Finset.mem_univ slot)) isChild.1.1 isChild.2 ended)
        rw [zombify_id, isKilled, Option.map_some, Option.bind_eq_bind, Option.bind_some,
          zombify_one, taskKillChildren_eq isKilled, zombify_zombify, zombify_zombify]
        exact ih _
      · exact ih ended
  exact fun ended => rounds _ ended

/-- `task_kill_children` returns unless it comes to a cycle. -/
theorem returns_iff_not_loops {table : TaskTable} {pid : Int} :
    (∃ fuel, (taskKillChildren current fuel pid table).isSome) ↔ ¬ Loops table pid := by
  constructor
  · rintro ⟨fuel, returns⟩ loops
    rw [taskKillChildren_of_loops loops] at returns
    cases returns
  · intro straight
    have settles : Settles current table pid := by
      by_contra stuck
      have child : ∀ pid, ¬ Settles current table pid → ∃ slot,
          ((table slot).Alive ∧ ¬ Settles current table (table slot).id) ∧
            (table slot).parentPid = pid := by
        intro pid stuck
        by_contra none
        apply stuck
        apply settles_of_children
        intro slot alive isChild
        by_contra stuckChild
        exact none ⟨slot, ⟨alive, stuckChild⟩, isChild⟩
      exact straight ⟨_, fun slot member => ⟨member.1, child _ member.2⟩, child pid stuck⟩
    obtain ⟨fuel, returns⟩ := settles
    refine ⟨fuel, ?_⟩
    have returned := returns fun _ => False
    rwa [zombify_none] at returned

/-- The boot task has the first slot, no parent, and never ends; ids are counted
from 0. -/
structure Booted (table : TaskTable) : Prop where
  alive : (table 0).Alive
  parent : (table 0).parentPid < 0
  ids : ∀ slot, (table slot).state ≠ .unused → 0 ≤ (table slot).id

/-- `task_kill` does not refuse the task. -/
def Killable (table : TaskTable) (id : Int) (slot : Fin taskMax) : Prop :=
  taskFindById id table = some slot ∧ id ≠ 0 ∧ (table slot).isIdle = false

/-- `task_kill` ends, and of the tasks below `id` at most the caller is alive. -/
def KillReaches (current : Fin taskMax) (table : TaskTable) (id : Int) : Prop :=
  ∃ fuel result reached, taskKill current fuel id table = some (result, reached) ∧
    ∀ slot, slot ≠ current → (reached slot).Alive → ¬ Under reached id slot

/-- The parent links and the slots in use are the same. -/
structure SameLinks (table reached : TaskTable) : Prop where
  id : ∀ slot, (reached slot).id = (table slot).id
  parentPid : ∀ slot, (reached slot).parentPid = (table slot).parentPid
  used : ∀ slot, (reached slot).state = .unused ↔ (table slot).state = .unused

theorem SameLinks.under_iff {reached : TaskTable} (same : SameLinks table reached) :
    Under reached pid slot ↔ Under table pid slot := by
  unfold Under
  simp only [same.id, same.parentPid, ne_eq, same.used]

theorem SameLinks.trans {middle reached : TaskTable}
    (first : SameLinks table middle) (second : SameLinks middle reached) :
    SameLinks table reached where
  id slot := (second.id slot).trans (first.id slot)
  parentPid slot := (second.parentPid slot).trans (first.parentPid slot)
  used slot := (second.used slot).trans (first.used slot)

theorem sameLinks_setState
    (used : (table slot).state ≠ .unused) {state : TaskState} (isUsed : state ≠ .unused) :
    SameLinks table (setState slot state table) := by
  have entry : ∀ other, setState slot state table other =
      if other = slot then { table other with state } else table other := by
    intro other
    by_cases here : other = slot <;> simp [setState, here]
  constructor <;> intro other <;> rw [entry other] <;> split
  all_goals simp [*]

theorem LiveUnder.alive (below : LiveUnder table pid slot) : (table slot).Alive := by
  obtain ⟨child, ⟨alive, _⟩, descends⟩ := below
  rcases descends.cases_tail with same | ⟨_, _, isChild⟩
  · rwa [same]
  · exact isChild.1

theorem sameLinks_zombify (table : TaskTable) (pid : Int) :
    SameLinks table (zombify current (LiveUnder table pid) table) where
  id slot := zombify_id table _ slot
  parentPid slot := zombify_parentPid table _ slot
  used slot := by
    unfold zombify
    split
    · simp [(LiveUnder.alive ‹_ ∧ _›.1).1]
    · rfl

theorem not_liveUnder_boot (booted : Booted table)
    (positive : 0 ≤ pid) : ¬ LiveUnder table pid 0 := by
  have parent := booted.parent
  rintro ⟨child, isChild, descends⟩
  have steps : ∀ {slot}, ReflTransGen (Child table) child slot → 0 ≤ (table slot).parentPid := by
    intro slot below
    induction below with
    | refl => omega
    | tail _ isNext _ =>
      rename_i before after _ _
      rw [isNext.2]
      rcases ‹ReflTransGen _ _ before›.cases_tail with same | ⟨_, _, above⟩
      · exact booted.ids _ (same ▸ isChild.1.1)
      · exact booted.ids _ above.1.1
  have boot := steps descends
  omega

/-- A task that ends changes no other task from dead to alive or back. -/
theorem taskExit_spec {table : TaskTable} (boot : (table 0).Alive)
    (used : (table current).state ≠ .unused) :
    SameLinks table (taskExit current table).2 ∧ ∀ slot, slot ≠ current →
      (((taskExit current table).2 slot).Alive ↔ (table slot).Alive) := by
  have ended := sameLinks_setState used (show TaskState.zombie ≠ .unused by decide)
  have other : ∀ slot, slot ≠ current → setState current .zombie table slot = table slot := by
    intro slot away
    simp [setState, away]
  have nextAlive : (pickNext current (setState current .zombie table)).getD 0 = current ∨
      (table ((pickNext current (setState current .zombie table)).getD 0)).Alive := by
    cases picked : pickNext current (setState current .zombie table) with
    | none => exact Or.inr boot
    | some next =>
      have ready := ready_of_pickReady picked
      rcases eq_or_ne next current with same | away
      · exact Or.inl same
      · rw [other next away] at ready
        simp [Entry.Alive, ready]
  unfold taskExit
  dsimp only
  generalize (pickNext current (setState current .zombie table)).getD 0 = next at nextAlive
  have nextUsed : (setState current .zombie table next).state ≠ .unused := by
    rw [ne_eq, ended.used]
    rcases nextAlive with rfl | alive
    · exact used
    · exact alive.1
  refine ⟨ended.trans (sameLinks_setState nextUsed (by decide)), ?_⟩
  intro slot away
  by_cases here : slot = next
  · subst here
    simp only [setState, Function.update_self]
    exact iff_of_true ⟨nofun, nofun⟩ (nextAlive.resolve_left away)
  · simp [setState, here, away]

theorem killReaches_iff {table : TaskTable} {id : Int} {slot : Fin taskMax}
    (booted : Booted table) (killable : Killable table id slot) : KillReaches current table id ↔
      ((table slot).Alive → ¬ Loops table id) ∧
      ∀ other, other ≠ current → (table other).Alive → Under table id other →
        (table slot).Alive ∧ (other = slot ∨ LiveUnder table id other) := by
  obtain ⟨found, notBoot, notIdle⟩ := killable
  have positive : 0 ≤ id := by
    unfold taskFindById at found
    split at found
    · cases found
    · omega
  have target : (table slot).state ≠ .unused ∧ (table slot).id = id := by
    unfold taskFindById at found
    rw [if_neg (not_lt.mpr positive)] at found
    exact meets_of_firstIndex found
  unfold KillReaches taskKill
  simp only [found, target.2, notBoot, notIdle, Bool.false_eq_true, or_self, if_false]
  by_cases zombie : (table slot).state = .zombie
  · have dead : ¬ (table slot).Alive := fun alive => alive.2 zombie
    simp [zombie, dead]
  · have alive : (table slot).Alive := ⟨target.1, zombie⟩
    have boot : (zombify current (LiveUnder table id) table 0).Alive :=
      alive_zombify_iff.mpr ⟨booted.alive, fun both =>
        not_liveUnder_boot booted positive both.1⟩
    have links := @sameLinks_zombify current table id
    have slotUsed : (zombify current (LiveUnder table id) table slot).state ≠ .unused :=
      fun unused => target.1 ((links.used slot).mp unused)
    -- What is alive at the end, once the children have been killed.
    have ended : ∃ reached, (if slot = current then
          ((0 : Int), (taskExit current (zombify current (LiveUnder table id) table)).2)
        else (0, setState slot .zombie (zombify current (LiveUnder table id) table))) =
          (0, reached) ∧ SameLinks table reached ∧ ∀ other, other ≠ current →
        ((reached other).Alive ↔
          (table other).Alive ∧ ¬ (other = slot ∨ LiveUnder table id other)) := by
      by_cases self : slot = current
      · subst self
        have exits := @taskExit_spec slot _ boot slotUsed
        refine ⟨_, if_pos rfl, links.trans exits.1, ?_⟩
        intro other away
        rw [exits.2 other away, alive_zombify_iff]
        simp [away]
      · refine ⟨_, if_neg self, links.trans (sameLinks_setState slotUsed (by decide)), ?_⟩
        intro other away
        by_cases here : other = slot
        · subst here
          simp [setState, Entry.Alive]
        · have same : setState slot .zombie (zombify current (LiveUnder table id) table) other =
              zombify current (LiveUnder table id) table other := by
            simp [setState, here]
          rw [same, alive_zombify_iff]
          simp [away, here]
    obtain ⟨reached, isReached, same, aliveIff⟩ := ended
    rw [← @returns_iff_not_loops current table id]
    constructor
    · rintro ⟨fuel, result, final, isFinal, none⟩
      rw [if_neg zombie] at isFinal
      obtain ⟨killed, isKilled, isResult⟩ := Option.map_eq_some_iff.mp isFinal
      rw [taskKillChildren_eq isKilled, isReached] at isResult
      obtain rfl : reached = final := (Prod.mk.inj isResult).2
      refine ⟨fun _ => ⟨fuel, by rw [isKilled]; rfl⟩, ?_⟩
      intro other away isAlive under
      refine ⟨alive, ?_⟩
      by_contra kept
      exact none other away ((aliveIff other away).mpr ⟨isAlive, kept⟩) (same.under_iff.mpr under)
    · rintro ⟨returns, below⟩
      obtain ⟨fuel, returned⟩ := returns alive
      obtain ⟨killed, isKilled⟩ := Option.isSome_iff_exists.mp returned
      refine ⟨fuel, 0, reached, ?_, ?_⟩
      · rw [if_neg zombie, isKilled, Option.map_some, taskKillChildren_eq isKilled, isReached]
      · intro other away isAlive under
        obtain ⟨wasAlive, kept⟩ := (aliveIff other away).mp isAlive
        exact kept (below other away wasAlive (same.under_iff.mp under)).2

/-- A task whose child has ended and left a child of its own. -/
def orphanTable : TaskTable := fun slot =>
  if slot = 0 then ⟨0, .running, -1, false⟩
  else if slot = 1 then ⟨1, .ready, 0, false⟩
  else if slot = 2 then ⟨2, .zombie, 1, false⟩
  else if slot = 3 then ⟨3, .ready, 2, false⟩
  else ⟨0, .unused, -1, false⟩

theorem killReaches_iff_orphan : KillReaches 0 orphanTable 1 ↔
      ((orphanTable 1).Alive → ¬ Loops orphanTable 1) ∧
      ∀ other, other ≠ 0 → (orphanTable other).Alive → Under orphanTable 1 other →
        (orphanTable 1).Alive ∧ (other = 1 ∨ LiveUnder orphanTable 1 other) :=
  killReaches_iff ⟨by decide, by decide, by decide⟩ ⟨by decide, by decide, rfl⟩

/-- The grandchild lives on. -/
theorem kill_leaves_orphan : ¬ KillReaches 0 orphanTable 1 := by
  rintro ⟨fuel, result, reached, returned, none⟩
  cases fuel with
  | zero => cases returned
  | succ fuel =>
    have kills : taskKill 0 (fuel + 1) 1 orphanTable =
        some (0, setState 1 .zombie orphanTable) := rfl
    rw [kills] at returned
    obtain rfl := (Prod.mk.inj (Option.some.inj returned)).2
    refine none 3 (by decide) (by decide) ⟨2, rfl, .single ⟨by decide, rfl⟩⟩

end KnitOS.Tasks.Family
