import KnitOS.Fs.Format
import KnitOS.Fs.Repair

/-!
# Runs of calls

A machine is the file system over a device.  What a function leaves behind on
the flat disk, it leaves behind in the cache as well (`Leaves.cached`).
-/

namespace KnitOS.Fs

open Lib Lib.Program Storage

/-- What a program does over the flat disk, it does over the device. -/
theorem run_of_flat {α : Type} {program : FsProgram α} {fs fs' : FsState} {flat flat' : FlatDisk}
    {dev : CachedDisk} {outcome : Option α} (stands : flat.StandsFor dev)
    (ran : program.run flatDevice fs flat = (outcome, fs', flat')) (valid : flat' ≠ .broken) :
    (program.run cachedDevice fs dev).1 = outcome ∧ (program.run cachedDevice fs dev).2.1 = fs' ∧
      flat'.StandsFor (program.run cachedDevice fs dev).2.2 := by
  have same := flat_simulates.run_eq program fs stands
  rw [ran] at same
  exact same valid

theorem Leaves.cached {α : Type} {program : FsProgram α} {fs : FsState}
    {dev : CachedDisk} {post : Option α → FsState → (Nat → Sector) → Prop}
    (sound : dev.Sound) (leaves : Leaves program fs dev.view post) :
    (program.run cachedDevice fs dev).2.2.Sound ∧ post (program.run cachedDevice fs dev).1
        (program.run cachedDevice fs dev).2.1 (program.run cachedDevice fs dev).2.2.view := by
  obtain ⟨outcome, fs', disk', ran, holds⟩ := leaves
  have stands : (FlatDisk.running dev.view).StandsFor dev := ⟨sound, rfl⟩
  obtain ⟨sameOutcome, sameState, soundAfter, viewAfter⟩ :=
    run_of_flat stands ran FlatDisk.noConfusion
  rw [sameOutcome, sameState, viewAfter]
  exact ⟨soundAfter, holds⟩

/-- The variables of the file system and the device below it. -/
structure Machine (δ : Type) where
  fs : FsState
  dev : δ

/-- A function of the file system and the task it is called by. -/
structure Action where
  uid : Nat
  gid : Nat
  program : FsProgram Unit

/-- The variables when the current task has this identity. -/
def FsState.withCaller (fs : FsState) (uid gid : Nat) : FsState :=
  { fs with kernel := { fs.kernel with uid := uid, gid := gid } }

namespace Machine

variable {δ δ' : Type}

def exec {α : Type} (device : Device δ DiskRequest (Option Sector))
    (program : FsProgram α) (machine : Machine δ) : Machine δ :=
  let reached := program.run device machine.fs machine.dev
  ⟨reached.2.1, reached.2.2⟩

def result {α : Type} (device : Device δ DiskRequest (Option Sector))
    (program : FsProgram α) (machine : Machine δ) : Option α :=
  (program.run device machine.fs machine.dev).1

def withCaller (machine : Machine δ) (uid gid : Nat) : Machine δ :=
  { machine with fs := machine.fs.withCaller uid gid }

def act (device : Device δ DiskRequest (Option Sector))
    (machine : Machine δ) (action : Action) : Machine δ :=
  (machine.withCaller action.uid action.gid).exec device action.program

/-- The calls of a run, one after the other. -/
def after (device : Device δ DiskRequest (Option Sector))
    (machine : Machine δ) (actions : List Action) : Machine δ :=
  runFrom (Machine.act device) machine actions

section

variable {device : Device δ DiskRequest (Option Sector)}
  {model : Device δ' DiskRequest (Option Sector)}
  {Valid : δ' → Prop} {Related : δ → δ' → Prop}
  (simulates : Simulates device model Valid Related)

include simulates

theorem valid_of_after (actions : List Action) (machine : Machine δ')
    (valid : Valid (machine.after model actions).dev) : Valid machine.dev := by
  induction actions generalizing machine with
  | nil => exact valid
  | cons action rest ih =>
    exact simulates.valid_of_run action.program _ machine.dev (ih (machine.act model action) valid)

theorem after_simulates (actions : List Action) {machine : Machine δ}
    {machine' : Machine δ'} (same : machine.fs = machine'.fs)
    (related : Related machine.dev machine'.dev)
    (valid : Valid (machine'.after model actions).dev) :
    (machine.after device actions).fs = (machine'.after model actions).fs ∧
      Related (machine.after device actions).dev (machine'.after model actions).dev := by
  induction actions generalizing machine machine' with
  | nil => exact ⟨same, related⟩
  | cons action rest ih =>
    have validNext : Valid (machine'.act model action).dev := valid_of_after simulates rest _ valid
    obtain ⟨_, sameNext, relatedNext⟩ := simulates.run_eq action.program
      (machine'.fs.withCaller action.uid action.gid) related validNext
    have sameAct : (machine.act device action).fs = (machine'.act model action).fs := by
      unfold Machine.act Machine.withCaller
      rw [same]
      exact sameNext
    have relatedAct : Related (machine.act device action).dev (machine'.act model action).dev := by
      unfold Machine.act Machine.withCaller
      rw [same]
      exact relatedNext
    exact ih sameAct relatedAct valid

end

end Machine

/-- A kernel that has not mounted the disk yet, whose disk has no valid
superblock, and whose transfers succeed. -/
structure Unformatted (machine : Machine CachedDisk) : Prop where
  fresh : machine.dev.Fresh
  unmounted : machine.fs.initialized = false
  small : machine.fs.kernel.diskSizeSectors < 4294967296
  invalid : fsLayoutValid (BootSector.decode (machine.dev.disk.sectors 0)) = false

/-- The machine after `fs_init` has made a new file system. -/
structure FreshlyFormatted (machine : Machine CachedDisk) : Prop where
  formatted : ∃ start, Unformatted start ∧ start.result cachedDevice fsInit = some () ∧
    machine = start.exec cachedDevice fsInit

theorem run_createAll_outcome {δ : Type} (device : Device δ DiskRequest (Option Sector))
    (paths : List (List UInt8)) : ∀ (fs : FsState) (dev : δ),
      ((createAll paths).run device fs dev).1 = some () := by
  induction paths with
  | nil =>
    intro fs dev
    rfl
  | cons path rest ih =>
    intro fs dev
    rw [createAll, run_attempt_bind]
    exact ih _ _

theorem keeps_createAll (paths : List (List UInt8)) :
    ∀ {fs : FsState} {disk : Nat → Sector}, Intact fs disk →
      KeepsIntact (createAll paths) fs disk := by
  induction paths with
  | nil =>
    intro fs disk intact
    exact intact.keeps_pure ()
  | cons path rest ih =>
    intro fs disk intact
    apply Yields.attempt_bind (intact.keeps_fsCreateDir path)
    intro _ fs' disk' after
    exact ih after

namespace Unformatted

variable {start : Machine CachedDisk} (unformatted : Unformatted start)

include unformatted

theorem stands : (FlatDisk.fresh start.dev.disk.sectors).StandsFor start.dev :=
  ⟨unformatted.fresh, rfl⟩

theorem granted_of_result (returned : start.result cachedDevice fsInit = some ()) :
    start.fs.GrantsBitmap := by
  by_contra refused
  obtain ⟨fs', ran⟩ := run_fsInit_refused unformatted.unmounted unformatted.invalid refused
  obtain ⟨failed, _⟩ := run_of_flat unformatted.stands ran FlatDisk.noConfusion
  unfold Machine.result at returned
  rw [failed] at returned
  cases returned

theorem result_of_leaves (granted : start.fs.GrantsBitmap)
    {Good : FsState → (Nat → Sector) → Prop} (leaves : ∀ fs disk, NewFormat fs →
      Leaves (createAll standardDirs) fs disk fun _ fs' disk' =>
        Good fs' disk') :
    start.result cachedDevice fsInit = some () ∧ (start.exec cachedDevice fsInit).dev.Sound ∧
      Good (start.exec cachedDevice fsInit).fs (start.exec cachedDevice fsInit).dev.view := by
  obtain ⟨disk, ranInit, _⟩ := run_fsInit_granted unformatted.unmounted
    unformatted.invalid unformatted.small granted
  obtain ⟨outcome, fs', disk', ran, good⟩ :=
    leaves start.fs.newFormat disk (newFormat_new unformatted.small granted)
  have succeeded := run_createAll_outcome flatDevice standardDirs start.fs.newFormat (.running disk)
  rw [ran] at ranInit succeeded
  obtain ⟨sameOutcome, sameState, soundAfter, viewAfter⟩ :=
    run_of_flat unformatted.stands ranInit FlatDisk.noConfusion
  refine ⟨sameOutcome.trans succeeded, soundAfter, ?_⟩
  unfold Machine.exec
  dsimp only
  rw [sameState, viewAfter]
  exact good

theorem freshlyFormatted (granted : start.fs.GrantsBitmap) :
    FreshlyFormatted (start.exec cachedDevice fsInit) := by
  obtain ⟨returned, _⟩ := unformatted.result_of_leaves granted
    fun _ disk new => keeps_createAll _ (new.intact disk)
  exact ⟨start, unformatted, returned, rfl⟩

end Unformatted

theorem FreshlyFormatted.of_leaves {machine : Machine CachedDisk} (fresh : FreshlyFormatted machine)
    {Good : FsState → (Nat → Sector) → Prop} (leaves : ∀ fs disk, NewFormat fs →
      Leaves (createAll standardDirs) fs disk fun _ fs' disk' =>
        Good fs' disk') :
    machine.dev.Sound ∧ Good machine.fs machine.dev.view := by
  obtain ⟨start, unformatted, returned, machineEq⟩ := fresh.formatted
  rw [machineEq]
  exact (unformatted.result_of_leaves (unformatted.granted_of_result returned) leaves).2

theorem FreshlyFormatted.intact {machine : Machine CachedDisk} (fresh : FreshlyFormatted machine) :
    machine.dev.Sound ∧ Intact machine.fs machine.dev.view :=
  fresh.of_leaves fun _ disk new => keeps_createAll _ (new.intact disk)

/-! ## Evaluating runs

Once mounted, the file system reads nothing but data sectors.  A device that
forgets all others is enough to compute what calls do.
-/

/-- The data sectors alone; a request it cannot answer breaks the device. -/
def dataDevice (base : Nat) : Device (Option (Nat → Sector)) DiskRequest (Option Sector)
  | .read lba, some sectors =>
    if lba < base then (none, none) else (some (sectors lba), some sectors)
  | .write lba bytes, some sectors =>
    if lba < base then (some fun _ => 0, some sectors)
    else (some fun _ => 0, some (Function.update sectors lba bytes))
  | .sync, some sectors => (some fun _ => 0, some sectors)
  | _, _ => (none, none)

/-- The data sectors of a flat disk. -/
def HasData (base : Nat) (flat : FlatDisk) (data : Option (Nat → Sector)) : Prop :=
  ∀ sectors ∈ data, ∃ disk, flat = .running disk ∧
    ∀ sector, base ≤ sector → disk sector = sectors sector

theorem HasData.not_broken {base : Nat} {flat : FlatDisk}
    {data : Option (Nat → Sector)} (hasData : HasData base flat data)
    (valid : data.isSome = true) : flat ≠ .broken := by
  obtain ⟨sectors, isSectors⟩ := Option.isSome_iff_exists.mp valid
  obtain ⟨disk, isRunning, _⟩ := hasData sectors isSectors
  rw [isRunning]
  exact FlatDisk.noConfusion

theorem data_simulates (base : Nat) :
    Simulates flatDevice (dataDevice base) (fun data => data.isSome = true) (HasData base) := by
  constructor
  · intro message data valid
    cases data with
    | some sectors => rfl
    | none => cases message <;> exact valid
  · intro message flat data hasData valid
    cases data with
    | none => cases message <;> cases valid
    | some sectors =>
      obtain ⟨disk, isRunning, same⟩ := hasData sectors rfl
      subst isRunning
      cases message with
      | read lba =>
        unfold dataDevice at valid ⊢
        dsimp only at valid ⊢
        by_cases below : lba < base
        · rw [if_pos below] at valid
          cases valid
        · rw [if_neg below, ← same lba (Nat.not_lt.mp below)]
          refine ⟨rfl, ?_⟩
          rintro _ ⟨⟩
          exact ⟨disk, rfl, same⟩
      | write lba bytes =>
        unfold dataDevice
        dsimp only
        by_cases below : lba < base
        · rw [if_pos below]
          refine ⟨rfl, ?_⟩
          rintro _ ⟨⟩
          refine ⟨_, rfl, fun sector above => ?_⟩
          rw [Function.update_of_ne (by omega)]
          exact same sector above
        · rw [if_neg below]
          refine ⟨rfl, ?_⟩
          rintro _ ⟨⟩
          refine ⟨_, rfl, fun sector above => ?_⟩
          by_cases written : sector = lba
          · rw [written, Function.update_self, Function.update_self]
          · rw [Function.update_of_ne written, Function.update_of_ne written]
            exact same sector above
      | sync => exact ⟨rfl, hasData⟩
      | init => cases valid
      | invalidate => cases valid
      | rawRead lba => cases valid
      | rawWrite lba bytes => cases valid

/-- A new file system with the standard directories and what calls make of
it, on the data sectors alone. -/
def Machine.newData (start : Machine CachedDisk) (actions : List Action) :
    Machine (Option (Nat → Sector)) :=
  let device := dataDevice start.fs.newFormat.base
  (Machine.exec device (createAll standardDirs)
    ⟨start.fs.newFormat, some start.dev.disk.sectors⟩).after device actions

section

variable {start : Machine CachedDisk} (unformatted : Unformatted start)
  (granted : start.fs.GrantsBitmap) {actions : List Action}
  (valid : (start.newData actions).dev.isSome = true)

include unformatted granted valid

theorem after_fsInit_eq : ((start.exec cachedDevice fsInit).after cachedDevice actions).fs =
    (start.newData actions).fs ∧ ∃ flat : FlatDisk, flat.StandsFor
      ((start.exec cachedDevice fsInit).after cachedDevice actions).dev ∧
    HasData start.fs.newFormat.base flat (start.newData actions).dev := by
  obtain ⟨disk, ranInit, sameData⟩ := run_fsInit_granted
    unformatted.unmounted unformatted.invalid unformatted.small granted
  have simulates := data_simulates start.fs.newFormat.base
  have hasData : HasData start.fs.newFormat.base (.running disk) (some start.dev.disk.sectors) := by
    rintro _ ⟨⟩
    exact ⟨disk, rfl, sameData⟩
  have validInit := Machine.valid_of_after simulates actions _ valid
  obtain ⟨_, sameInit, dataInit⟩ :=
    simulates.run_eq (createAll standardDirs) start.fs.newFormat hasData validInit
  have notBrokenInit := dataInit.not_broken validInit
  rw [← ranInit] at sameInit dataInit notBrokenInit
  obtain ⟨_, sameCached, standsInit⟩ :=
    flat_simulates.run_eq fsInit start.fs unformatted.stands notBrokenInit
  -- the machine over the flat disk stands between the two
  let between : Machine FlatDisk := Machine.exec flatDevice fsInit
    ⟨start.fs, .fresh start.dev.disk.sectors⟩
  obtain ⟨sameFlat, dataFlat⟩ : (between.after flatDevice actions).fs = (start.newData actions).fs ∧
        HasData start.fs.newFormat.base (between.after flatDevice actions).dev
          (start.newData actions).dev :=
    Machine.after_simulates simulates actions sameInit dataInit valid
  have sameStart : (start.exec cachedDevice fsInit).fs = between.fs := sameCached
  have standsStart : between.dev.StandsFor (start.exec cachedDevice fsInit).dev := standsInit
  obtain ⟨sameAfter, standsAfter⟩ :=
    Machine.after_simulates flat_simulates actions sameStart standsStart (dataFlat.not_broken valid)
  exact ⟨sameAfter.trans sameFlat, _, standsAfter, dataFlat⟩

omit valid in
theorem result_after_fsInit_eq {α : Type} {program : FsProgram α}
    {uid gid : Nat} (validResult : (((start.newData actions).withCaller uid gid).exec
      (dataDevice start.fs.newFormat.base) program).dev.isSome = true) :
    (((start.exec cachedDevice fsInit).after cachedDevice
        actions).withCaller uid gid).result cachedDevice program =
      ((start.newData actions).withCaller uid gid).result
        (dataDevice start.fs.newFormat.base) program := by
  have simulates := data_simulates start.fs.newFormat.base
  have valid : (start.newData actions).dev.isSome = true :=
    simulates.valid_of_run program _ _ validResult
  obtain ⟨sameState, flat, stands, hasData⟩ := after_fsInit_eq unformatted granted valid
  obtain ⟨sameFlat, _, dataAfter⟩ :=
    simulates.run_eq program ((start.newData actions).fs.withCaller uid gid) hasData validResult
  obtain ⟨sameCached, _, _⟩ := flat_simulates.run_eq program
    ((start.newData actions).fs.withCaller uid gid) stands (dataAfter.not_broken validResult)
  unfold Machine.result Machine.withCaller
  rw [sameState]
  exact sameCached.trans sameFlat

end

/-- A kernel with this allocator and a zeroed disk of 400 sectors. -/
def blankMachine (heap : Nat → Nat → Bool) : Machine CachedDisk :=
  { fs :=
      { boot := BootSector.decode fun _ => 0
        inodes := fun _ => Inode.zero
        initialized := false
        bitmap := none
        bitmapSectors := 0
        kernel :=
          { uid := 0
            gid := 0
            diskSizeSectors := 400
            clock := fun _ => 0
            heap := heap
            stale := fun _ _ => 0
            asked := 0 } }
    dev := blankCachedDisk }

theorem blankMachine_unformatted (heap : Nat → Nat → Bool) : Unformatted (blankMachine heap) where
  fresh := blankCachedDisk_fresh
  unmounted := rfl
  small := (by decide : 400 < 4294967296)
  invalid := rfl

/-- An allocator that grants the bitmap but runs out of memory while the
standard directories are created. -/
def scarceHeap (asked _size : Nat) : Bool :=
  decide (asked < 2 ∨ 24 ≤ asked)

theorem scarceHeap_grants : (blankMachine scarceHeap).fs.GrantsBitmap := by
  refine ⟨?_, ?_, rfl⟩
  · decide
  · decide

end KnitOS.Fs
