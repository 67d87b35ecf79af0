import KnitOS.Tasks.Descriptors

/-!
# Parents and children

The task table as `task_kill`, `task_kill_children` and `task_exit` use it.
Resources of a task are released elsewhere.
-/

namespace KnitOS.Tasks.Family

open Lib

structure Entry where
  id : Int
  state : TaskState
  parentPid : Int
  isIdle : Bool

def Entry.Alive (entry : Entry) : Prop :=
  entry.state ≠ .unused ∧ entry.state ≠ .zombie

instance decidableAlive (entry : Entry) : Decidable entry.Alive :=
  inferInstanceAs (Decidable (_ ∧ _))

abbrev TaskTable := Fin taskMax → Entry

def setState (slot : Fin taskMax) (state : TaskState) (table : TaskTable) : TaskTable :=
  Function.update table slot { table slot with state }

def taskFindById (id : Int) (table : TaskTable) : Option (Fin taskMax) :=
  if id < 0 then
    none
  else
    slotById Entry.state Entry.id id table

/-- A round of the loop of `task_kill_children`; `nested` is the recursive call. -/
def killRound (current : Fin taskMax) (nested : Int → TaskTable → Option TaskTable)
    (pid : Int) (table : TaskTable) (slot : Fin taskMax) : Option TaskTable :=
  if (table slot).Alive ∧ (table slot).parentPid = pid then
    (nested (table slot).id table).map fun killed =>
      if slot = current then killed else setState slot .zombie killed
  else
    some table

/-- `task_kill_children`, or nothing when it needs more nested calls than
`fuel`. -/
def taskKillChildren (current : Fin taskMax) : Nat → Int → TaskTable → Option TaskTable
  | 0, _, _ => none
  | fuel + 1, pid, table =>
    (List.finRange taskMax).foldlM
      (killRound current (taskKillChildren current fuel) pid) table

def pickNext (current : Fin taskMax) (table : TaskTable) : Option (Fin taskMax) :=
  pickReady Entry.state Entry.isIdle current table

/-- `task_exit`: the task it switches to, the boot task if none is ready, and
the table. -/
def taskExit (current : Fin taskMax) (table : TaskTable) : Fin taskMax × TaskTable :=
  let ended := setState current .zombie table
  let next := (pickNext current ended).getD 0
  (next, setState next .running ended)

/-- What `task_kill` returns, and the table. -/
def taskKill (current : Fin taskMax) (fuel : Nat) (id : Int) (table : TaskTable) :
    Option (Int × TaskTable) :=
  match taskFindById id table with
  | none => some (-1, table)
  | some slot =>
    if (table slot).id = 0 ∨ (table slot).isIdle then
      some (-2, table)
    else if (table slot).state = .zombie then
      some (0, table)
    else
      (taskKillChildren current fuel id table).map fun killed =>
        if slot = current then (0, (taskExit current killed).2)
        else (0, setState slot .zombie killed)

end KnitOS.Tasks.Family
