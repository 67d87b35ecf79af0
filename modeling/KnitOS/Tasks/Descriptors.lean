import KnitOS.Lib.Runs
import KnitOS.Lib.Tables

/-!
# Tasks and their descriptors

The task table, the descriptor tables, the pipes and the open-file slots.
Tasks switch only where a call yields, so a call is one step.
-/

namespace KnitOS.Tasks

open Lib Function

abbrev taskMax : Nat := 32
abbrev taskFdMax : Nat := 16
abbrev kpipeMax : Nat := 8
abbrev kpipeBuf : Nat := 4096
abbrev fsOpenMax : Nat := 64
abbrev taskPidSystemd : Nat := 0

instance taskMax_neZero : NeZero taskMax := ⟨by decide⟩
instance fsOpenMax_neZero : NeZero fsOpenMax := ⟨by decide⟩

inductive FdType where
  | none
  | sock
  | file
  | pipeR
  | pipeW
  | ptyM
  | ptyS
deriving DecidableEq

/-- An entry of a descriptor table; the path of a file entry is a copy of the
open file's. -/
structure TaskFd where
  type : FdType
  handle : Int
deriving DecidableEq

def TaskFd.cleared : TaskFd where
  type := .none
  handle := -1

inductive TaskState where
  | unused
  | ready
  | running
  | blocked
  | zombie
deriving DecidableEq

structure Task where
  id : Nat
  state : TaskState
  isUser : Bool
  fds : Fin taskFdMax → TaskFd

def Task.cleared : Task where
  id := 0
  state := .unused
  isUser := false
  fds _ := TaskFd.cleared

section

variable {τ : Type} (state : τ → TaskState)

/-- The search of `task_find_by_id`: the first task that is not unused and has
the id. -/
def slotById {ι : Type} [DecidableEq ι] (idOf : τ → ι) (id : ι) (tasks : Fin taskMax → τ) :
    Option (Fin taskMax) :=
  firstIndex (fun task => state task ≠ .unused ∧ idOf task = id) tasks

/-- The search of `sched_pick_next`: the first task around from the current one
that is ready and not idle, and otherwise the first that is ready. -/
def pickReady (isIdle : τ → Bool) (current : Fin taskMax) (tasks : Fin taskMax → τ) :
    Option (Fin taskMax) :=
  (nextIndex (fun task => state task = .ready ∧ isIdle task = false)
    tasks (current.val + 1)).or
    (nextIndex (fun task => state task = .ready ∧ isIdle task = true)
      tasks (current.val + 1))

variable {state}

theorem ready_of_pickReady {isIdle : τ → Bool} {current next : Fin taskMax}
    {tasks : Fin taskMax → τ} (picked : pickReady state isIdle current tasks = some next) :
    state (tasks next) = .ready := by
  rcases Option.or_eq_some_iff.mp picked with found | ⟨_, found⟩
  · exact (meets_of_nextIndex found).1
  · exact (meets_of_nextIndex found).1

end

structure Kpipe where
  used : Bool
  data : List UInt8
  readers : Int
  writers : Int

structure OpenFile where
  used : Bool
  mosIndex : Int
  offset : UInt32
  flags : UInt32
  ramfs : Bool
  isDir : Bool
  path : List UInt8

structure System where
  tasks : Fin taskMax → Task
  nextId : Nat
  pipes : Fin kpipeMax → Kpipe
  ofiles : Fin fsOpenMax → OpenFile

/-- The table index of a handle, if it is in range. -/
def indexOf (size : Nat) (handle : Int) : Option (Fin size) :=
  if inside : 0 ≤ handle ∧ handle < size then
    some ⟨handle.toNat, by omega⟩
  else
    none

/-- The pipe of a handle that is in range and in use. -/
def pipeOf (handle : Int) (system : System) : Option (Fin kpipeMax) :=
  (indexOf kpipeMax handle).filter fun index => (system.pipes index).used

def setPipe (index : Fin kpipeMax) (pipe : Kpipe) (system : System) : System :=
  { system with pipes := update system.pipes index pipe }

def pipeCreate (system : System) : Option (Fin kpipeMax) × System :=
  match firstIndex (fun pipe : Kpipe => pipe.used = false) system.pipes with
  | none => (none, system)
  | some index =>
    (some index, setPipe index
      { used := true, data := [], readers := 1, writers := 1 } system)

/-- What `pipe_read` does before it yields or returns. -/
inductive ReadResult where
  | fails
  | waits
  | returns (bytes : List UInt8)
deriving DecidableEq

def pipeRead (handle : Int) (size : Nat) (system : System) : ReadResult × System :=
  match pipeOf handle system with
  | none => (.fails, system)
  | some index =>
    let pipe := system.pipes index
    if size = 0 then
      (.returns [], system)
    else if pipe.data = [] then
      if pipe.writers = 0 then (.returns [], system) else (.waits, system)
    else
      (.returns (pipe.data.take size),
        setPipe index { pipe with data := pipe.data.drop size } system)

/-- What `pipe_write` does before it yields or returns: the bytes that are left
when the buffer is full. -/
inductive WriteResult where
  | fails
  | waits (rest : List UInt8)
  | returns
deriving DecidableEq

def pipeWrite (handle : Int) (data : List UInt8) (system : System) : WriteResult × System :=
  match pipeOf handle system with
  | none => (.fails, system)
  | some index =>
    let pipe := system.pipes index
    if data = [] then
      (.returns, system)
    else if pipe.readers = 0 then
      (.fails, system)
    else
      let room := kpipeBuf - pipe.data.length
      let written := setPipe index
        { pipe with data := pipe.data ++ data.take room } system
      if data.length ≤ room then
        (.returns, written)
      else
        (.waits (data.drop room), written)

def pipeClose (handle : Int) (writeEnd : Bool) (system : System) : System :=
  match pipeOf handle system with
  | none => system
  | some index =>
    let pipe := system.pipes index
    let pipe :=
      if writeEnd then
        { pipe with writers :=
            if 0 < pipe.writers then pipe.writers - 1 else pipe.writers }
      else
        { pipe with readers :=
            if 0 < pipe.readers then pipe.readers - 1 else pipe.readers }
    setPipe index
      (if pipe.readers = 0 ∧ pipe.writers = 0 then
        { pipe with used := false }
      else
        pipe)
      system

def pipeRef (handle : Int) (writeEnd : Bool) (system : System) : System :=
  match pipeOf handle system with
  | none => system
  | some index =>
    let pipe := system.pipes index
    setPipe index
      (if writeEnd then
        { pipe with writers := pipe.writers + 1 }
      else
        { pipe with readers := pipe.readers + 1 })
      system

section

variable (slot : Fin taskMax)

def setFd (fd : Fin taskFdMax) (entry : TaskFd) (system : System) : System :=
  let task := system.tasks slot
  { system with
    tasks := update system.tasks slot
      { task with fds := update task.fds fd entry } }

def taskFdAlloc (entry : TaskFd) (system : System) : Option (Fin taskFdMax) × System :=
  match firstIndex (fun fd : TaskFd => fd.type = .none)
      (system.tasks slot).fds with
  | none => (none, system)
  | some fd => (some fd, setFd slot fd entry system)

def fsOfileRelease (handle : Int) (system : System) : System :=
  match indexOf fsOpenMax handle with
  | none => system
  | some index =>
    { system with
      ofiles := update system.ofiles index
        { system.ofiles index with used := false } }

/-- What closing an entry does to the pipe or open file behind it; sockets and
terminals are kept elsewhere. -/
def releaseEntry (entry : TaskFd) (system : System) : System :=
  match entry.type with
  | .file => if 0 ≤ entry.handle then fsOfileRelease entry.handle system else system
  | .pipeR => pipeClose entry.handle false system
  | .pipeW => pipeClose entry.handle true system
  | _ => system

/-- The reference that a copy of an entry takes; files have no count. -/
def refEntry (entry : TaskFd) (system : System) : System :=
  match entry.type with
  | .pipeR => pipeRef entry.handle false system
  | .pipeW => pipeRef entry.handle true system
  | _ => system

def taskFdGet (fd : Int) (system : System) : Option TaskFd :=
  ((indexOf taskFdMax fd).map (system.tasks slot).fds).filter
    fun entry => entry.type ≠ .none

def taskFdClose (fd : Int) (system : System) : Int × System :=
  match indexOf taskFdMax fd with
  | none => (-1, system)
  | some index =>
    let entry := (system.tasks slot).fds index
    if entry.type = .none then
      (-1, system)
    else
      (0, setFd slot index TaskFd.cleared (releaseEntry entry system))

/-- One round of `task_fd_close_all`; the handle of a file or socket is cleared,
that of a pipe stays. -/
def closeRound (system : System) (fd : Fin taskFdMax) : System :=
  let entry := (system.tasks slot).fds fd
  let handle :=
    if entry.type = .sock ∨ entry.type = .file then -1 else entry.handle
  setFd slot fd { type := .none, handle } (releaseEntry entry system)

def taskFdCloseAll (system : System) : System :=
  (List.finRange taskFdMax).foldl (closeRound slot) system

def taskFdDup2 (oldfd newfd : Int) (system : System) : Int × System :=
  match indexOf taskFdMax oldfd, indexOf taskFdMax newfd with
  | some old, some new =>
    if oldfd = newfd then
      (newfd, system)
    else
      let source := (system.tasks slot).fds old
      if source.type = .pipeR ∨ source.type = .pipeW ∨
          source.type = .ptyM ∨ source.type = .ptyS then
        let referred := refEntry source system
        let freed :=
          if ((referred.tasks slot).fds new).type = .sock then
            setFd slot new TaskFd.cleared referred
          else
            (taskFdClose slot newfd referred).2
        (newfd, setFd slot new source freed)
      else
        (-1, system)
  | _, _ => (-1, system)

/-- The file handle of a descriptor whose open-file slot is in use. -/
def openFileOf (fd : Int) (system : System) : Option (Fin fsOpenMax) :=
  match taskFdGet slot fd system with
  | none => none
  | some entry =>
    if entry.type = .file then
      (indexOf fsOpenMax entry.handle).filter
        fun index => (system.ofiles index).used
    else
      none

/-- The number a call answers with, -1 for none. -/
def answerOf {size : Nat} (index : Option (Fin size)) : Int :=
  match index with
  | none => -1
  | some index => index.val

def vfsDup (fd : Int) (system : System) : Int × System :=
  match openFileOf slot fd system with
  | none => (-1, system)
  | some handle =>
    let allocated := taskFdAlloc slot ⟨.file, handle.val⟩ system
    (answerOf allocated.1, allocated.2)

def vfsDup2 (oldfd newfd : Int) (system : System) : Int × System :=
  if oldfd = newfd then
    (newfd, system)
  else
    match taskFdGet slot oldfd system with
    | none => (-1, system)
    | some entry =>
      if entry.type = .file then
        vfsDup slot oldfd (taskFdClose slot newfd system).2
      else
        (-1, system)

def sysDup2 (oldfd newfd : Int) (system : System) : Int × System :=
  let duplicated := taskFdDup2 slot oldfd newfd system
  if 0 ≤ duplicated.1 then
    duplicated
  else
    vfsDup2 slot oldfd newfd duplicated.2

/-- `SYS_PIPE`; `copied` says whether the two numbers could be written to the
caller's memory. -/
def sysPipe (copied : Bool) (system : System) : Int × System :=
  match pipeCreate system with
  | (none, created) => (-1, created)
  | (some index, created) =>
    let reading := taskFdAlloc slot ⟨.pipeR, index.val⟩ created
    let writing := taskFdAlloc slot ⟨.pipeW, index.val⟩ reading.2
    if reading.1.isNone ∨ writing.1.isNone then
      (-1, writing.2)
    else
      (if copied then 0 else -1, writing.2)

/-- `SYS_CLOSE`: pipes and terminals are closed by `task_fd_close` too. -/
def sysClose (fd : Int) (system : System) : Int × System :=
  taskFdClose slot fd system

def setTask (task : Task) (system : System) : System :=
  { system with tasks := update system.tasks slot task }

def setState (state : TaskState) (system : System) : System :=
  setTask slot { system.tasks slot with state } system

def findTask (id : Nat) (system : System) : Option (Fin taskMax) :=
  slotById Task.state Task.id id system.tasks

/-- The descriptors' part of `task_resources_cleanup`. -/
def taskResourcesCleanup (id : Nat) (system : System) : System :=
  match findTask id system with
  | none => system
  | some slot => taskFdCloseAll slot system

def taskSlotClear (system : System) : System :=
  let task := system.tasks slot
  let cleaned :=
    if task.state ≠ .unused ∧ task.id ≠ taskPidSystemd then
      taskResourcesCleanup task.id system
    else
      system
  setTask slot Task.cleared cleaned

def taskAllocSlot (system : System) : Option (Fin taskMax) × System :=
  match firstIndex
      (fun task : Task => task.state = .zombie ∨ task.state = .unused)
      system.tasks with
  | none => (none, system)
  | some slot =>
    (some slot,
      if (system.tasks slot).state = .zombie then
        taskSlotClear slot system
      else
        system)

/-- A slot becomes a ready task with a new id. -/
def startTask (isUser : Bool) (system : System) : System :=
  { setTask slot
      { system.tasks slot with
        id := system.nextId
        state := .ready
        isUser }
      system with
    nextId := system.nextId + 1 }

/-- `task_create` and `task_spawn_user`; `granted` says whether the memory they
need is there. -/
def taskCreate (isUser granted : Bool) (system : System) : Int × System :=
  match taskAllocSlot system with
  | (none, allocated) => (-1, allocated)
  | (some child, allocated) =>
    if granted then
      let started := startTask child isUser allocated
      (allocated.nextId, setTask child
        { started.tasks child with fds := fun _ => TaskFd.cleared } started)
    else
      (-1, allocated)

/-- One round of the loop of `task_fork_user`. -/
def forkRound (child : Fin taskMax) (system : System) (fd : Fin taskFdMax) : System :=
  let entry := (system.tasks slot).fds fd
  refEntry entry (setFd child fd entry system)

def taskForkUser (granted : Bool) (system : System) : Int × System :=
  if (system.tasks slot).isUser then
    match taskAllocSlot system with
    | (none, allocated) => (-4, allocated)
    | (some child, allocated) =>
      if granted then
        (allocated.nextId,
          (List.finRange taskFdMax).foldl (forkRound slot child)
            (startTask child true allocated))
      else
        (-5, setState child .unused allocated)
  else
    (-1, system)

/-- `task_fork`: the descriptors are copied and no reference is taken. -/
def taskFork (granted : Bool) (system : System) : Int × System :=
  match taskAllocSlot system with
  | (none, allocated) => (-1, allocated)
  | (some child, allocated) =>
    if granted then
      let started := startTask child (system.tasks slot).isUser allocated
      (allocated.nextId, setTask child
        { started.tasks child with fds := (started.tasks slot).fds } started)
    else
      (-1, allocated)

/-- `task_exit`; `alone` says that no other task is ready, so that the first
slot has to run. -/
def taskExit (alone : Bool) (system : System) : System :=
  let task := system.tasks slot
  let cleaned :=
    if task.id ≠ taskPidSystemd then
      taskResourcesCleanup task.id system
    else
      system
  let exited := setState slot .zombie cleaned
  if alone ∧ ((exited.tasks 0).state = .zombie ∨
      (exited.tasks 0).state = .unused) then
    setState 0 .running exited
  else
    exited

end

/-- The calls on pipes and descriptors.  `other` stands for the calls that put a
socket, file or terminal into the table. -/
inductive Call where
  | pipe (copied : Bool)
  | dup2 (oldfd newfd : Int)
  | dup (fd : Int)
  | close (fd : Int)
  | read (fd : Int) (size : Nat)
  | write (fd : Int) (data : List UInt8)
  | other (type : FdType) (handle : Int)
  | create (isUser granted : Bool)
  | forkUser (granted : Bool)
  | fork (granted : Bool)
  | exec
  | exit (alone : Bool)

/-- A task runs calls only while it is live. -/
def Task.Live (task : Task) : Prop :=
  task.state ≠ .unused ∧ task.state ≠ .zombie

instance decidableLive (task : Task) : Decidable task.Live :=
  inferInstanceAs (Decidable (_ ∧ _))

def FdType.IsPipe (type : FdType) : Prop :=
  type = .pipeR ∨ type = .pipeW

instance decidableIsPipe (type : FdType) : Decidable type.IsPipe :=
  inferInstanceAs (Decidable (_ ∨ _))

def perform (slot : Fin taskMax) (call : Call) (system : System) : System :=
  match call with
  | .pipe copied => (sysPipe slot copied system).2
  | .dup2 oldfd newfd => (sysDup2 slot oldfd newfd system).2
  | .dup fd => (vfsDup slot fd system).2
  | .close fd => (sysClose slot fd system).2
  | .read fd size =>
    match taskFdGet slot fd system with
    | some ⟨.pipeR, handle⟩ => (pipeRead handle (min size 512) system).2
    | _ => system
  | .write fd data =>
    match taskFdGet slot fd system with
    | some ⟨.pipeW, handle⟩ => (pipeWrite handle data system).2
    | _ => system
  | .other type handle =>
    if type.IsPipe ∨ type = .none then
      system
    else
      (taskFdAlloc slot ⟨type, handle⟩ system).2
  | .create isUser granted => (taskCreate isUser granted system).2
  | .forkUser granted => (taskForkUser slot granted system).2
  | .fork granted => (taskFork slot granted system).2
  | .exec => system
  | .exit alone => taskExit slot alone system

def step (system : System) (input : Fin taskMax × Call) : System :=
  if (system.tasks input.1).Live then
    perform input.1 input.2 system
  else
    system

/-- The state that `sched_init` leaves. -/
def booted : System where
  tasks slot :=
    { id := 0
      state := if slot = 0 then .running else .unused
      isUser := false
      fds := fun _ => TaskFd.cleared }
  nextId := 1
  pipes _ := { used := false, data := [], readers := 0, writers := 0 }
  ofiles _ :=
    { used := false, mosIndex := 0, offset := 0, flags := 0, ramfs := false
      isDir := false, path := [] }

end KnitOS.Tasks
