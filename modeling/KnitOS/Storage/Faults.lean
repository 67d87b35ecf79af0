import KnitOS.Storage.Eviction

/-!
# Failing transfers

A call of the cache that fails should be as if it had not been made.  It is,
except that a read that fails in the transfer itself has used the buffer of a
slot that still counts as its old sector.
-/

namespace KnitOS.Storage

open Lib Lib.Command

namespace CachedDisk

/-- The same state over a disk with another fault schedule. -/
def withFaults (state : CachedDisk) (faults : Nat → Option Sector) : CachedDisk :=
  { state with disk := { state.disk with faults := faults } }

def healed (state : CachedDisk) : CachedDisk :=
  state.withFaults fun _ => none

theorem healed_healthy (state : CachedDisk) : state.healed.disk.Healthy := fun _ _ => rfl

variable {state : CachedDisk}

theorem Coherent.withFaults (coherent : state.Coherent)
    (faults : Nat → Option Sector) : (state.withFaults faults).Coherent :=
  ⟨coherent.unique, coherent.clean, coherent.unready⟩

theorem Coherent.healed (coherent : state.Coherent) : state.healed.Sound :=
  ⟨state.healed_healthy, coherent.withFaults _⟩

theorem coherent_of_healed (coherent : state.healed.Coherent) : state.Coherent :=
  ⟨coherent.unique, coherent.clean, coherent.unready⟩

theorem view_withFaults (state : CachedDisk) (faults : Nat → Option Sector) :
    (state.withFaults faults).view = state.view := rfl

end CachedDisk

/-- A run that succeeds met no fault, so that it is the same on a disk without
faults. -/
def Heals {α : Type} (command : Command CachedDisk α) : Prop :=
  ∀ state value reached, command.run state = (some value, reached) →
    command.run state.healed = (some value, reached.healed)

section

variable {α β : Type}

theorem heals_pure (value : α) : Heals (pure value) := by
  intro state value' reached ran
  cases ran
  rfl

theorem Heals.bind {command : Command CachedDisk α}
    {next : α → Command CachedDisk β} (first : Heals command)
    (then_ : ∀ value, Heals (next value)) : Heals (command >>= next) := by
  intro state value reached ran
  rw [run_bind] at ran
  rcases middle : command.run state with ⟨outcome, between⟩
  rw [middle] at ran
  cases outcome with
  | none => cases ran
  | some intermediate =>
    rw [run_bind_of_some (first state intermediate between middle)]
    exact then_ intermediate between value reached ran

theorem heals_reads {field : CachedDisk → α} (same : ∀ state, field state.healed = field state) :
    Heals (reads field) := by
  intro state value reached ran
  cases ran
  rw [run_reads, same]

theorem heals_modify {update : CachedDisk → CachedDisk}
    (same : ∀ state, update state.healed = (update state).healed) : Heals (modify update) := by
  intro state value reached ran
  cases ran
  rw [run_modify, same]

theorem heals_whenever (condition : Bool) {command : Command CachedDisk Unit}
    (heals : Heals command) : Heals (whenever condition command) := by
  cases condition with
  | false => exact heals_pure ()
  | true => exact heals

theorem heals_transfer {command : Command CachedDisk α} (fails : ∀ state garbage,
      state.disk.faults state.disk.transfers = some garbage → (command.run state).1 = none)
    (works : ∀ state, state.disk.faults state.disk.transfers = none → command.run state.healed =
        ((command.run state).1, (command.run state).2.healed)) : Heals command := by
  intro state value reached ran
  cases fault : state.disk.faults state.disk.transfers with
  | some garbage =>
    have failed := fails state garbage fault
    rw [ran] at failed
    cases failed
  | none => rw [works state fault, ran]

theorem heals_slotWriteBack (index : Fin cacheSlots) : Heals (slotWriteBack index) := by
  apply heals_transfer
  · intro state garbage fault
    simp [slotWriteBack, Disk.diskWriteSector, fault]
  · intro state works
    simp [slotWriteBack, Disk.diskWriteSector, works]
    rfl

theorem heals_slotFill (index : Fin cacheSlots) (lba : Nat) : Heals (slotFill index lba) := by
  apply heals_transfer
  · intro state garbage fault
    simp [slotFill, Disk.diskReadSector, fault]
  · intro state works
    simp [slotFill, Disk.diskReadSector, works]
    rfl

theorem heals_rawReadSector (lba : Nat) : Heals (rawReadSector lba) := by
  apply heals_transfer
  · intro state garbage fault
    simp [rawReadSector, Disk.diskReadSector, fault]
  · intro state works
    simp [rawReadSector, Disk.diskReadSector, works]
    rfl

theorem heals_rawWriteSector (lba : Nat) (bytes : Sector) : Heals (rawWriteSector lba bytes) := by
  apply heals_transfer
  · intro state garbage fault
    simp [rawWriteSector, Disk.diskWriteSector, fault]
  · intro state works
    simp [rawWriteSector, Disk.diskWriteSector, works]
    rfl

theorem heals_slotEvict : Heals slotEvict := by
  apply Heals.bind (heals_reads fun _ => rfl)
  intro cache
  cases cache.firstUnused with
  | some index => exact heals_pure index
  | none =>
    apply Heals.bind (heals_whenever _ (heals_slotWriteBack _))
    intro _
    exact heals_pure _

theorem heals_fsCacheReadSector (lba : Nat) : Heals (fsCacheReadSector lba) := by
  apply Heals.bind (heals_reads fun _ => rfl)
  intro cache
  cases cache.ready with
  | false => exact heals_rawReadSector lba
  | true =>
    rw [if_pos rfl]
    cases cache.slotFind lba with
    | some index =>
      refine Heals.bind (heals_modify ?_) fun _ =>
        Heals.bind (heals_modify ?_) fun _ => heals_pure _
      · intro state
        rfl
      · intro state
        rfl
    | none =>
      refine Heals.bind (heals_modify ?_) fun _ =>
        heals_slotEvict.bind fun index => heals_slotFill index lba
      intro state
      rfl

theorem heals_slotForWrite (lba : Nat) : Heals (slotForWrite lba) := by
  apply Heals.bind (heals_reads fun _ => rfl)
  intro cache
  cases cache.slotFind lba with
  | some index => exact heals_pure index
  | none => exact heals_slotEvict

theorem heals_fsCacheWriteSector (lba : Nat) (bytes : Sector) :
    Heals (fsCacheWriteSector lba bytes) := by
  apply Heals.bind (heals_reads fun _ => rfl)
  intro ready
  cases ready with
  | false => exact heals_rawWriteSector lba bytes
  | true =>
    rw [if_pos rfl]
    apply (heals_slotForWrite lba).bind
    intro index
    exact heals_modify fun _ => rfl

theorem heals_syncSlots (indices : List (Fin cacheSlots)) : Heals (syncSlots indices) := by
  induction indices with
  | nil => exact heals_pure ()
  | cons index rest ih =>
    apply Heals.bind (heals_reads fun _ => rfl)
    intro slot
    apply Heals.bind (heals_whenever _ (heals_slotWriteBack index))
    intro _
    exact ih

theorem heals_fsCacheSync : Heals fsCacheSync := by
  apply Heals.bind (heals_reads fun _ => rfl)
  intro ready
  cases ready with
  | false => exact heals_pure ()
  | true => exact heals_syncSlots _

end

/-- The call returns 0. -/
def CacheCall.Succeeds (state : CachedDisk) : CacheCall → Prop
  | .read lba => ((fsCacheReadSector lba).run state).1 ≠ none
  | .write lba bytes => ((fsCacheWriteSector lba bytes).run state).1 ≠ none
  | .sync => (fsCacheSync.run state).1 ≠ none

variable {state : CachedDisk}

theorem Heals.run_healed {α : Type} {command : Command CachedDisk α}
    (heals : Heals command) (succeeds : (command.run state).1 ≠ none) :
    command.run state.healed = ((command.run state).1, (command.run state).2.healed) := by
  rcases ran : command.run state with ⟨outcome, reached⟩
  rw [ran] at succeeds
  cases outcome with
  | none => exact absurd rfl succeeds
  | some value => exact heals state value reached ran

variable {call : CacheCall}

theorem CacheCall.perform_healed
    (succeeds : call.Succeeds state) : call.perform state.healed = (call.perform state).healed := by
  cases call with
  | read lba =>
    exact congrArg Prod.snd ((heals_fsCacheReadSector lba).run_healed succeeds)
  | write lba bytes =>
    exact congrArg Prod.snd ((heals_fsCacheWriteSector lba bytes).run_healed succeeds)
  | sync => exact congrArg Prod.snd (heals_fsCacheSync.run_healed succeeds)

theorem CacheCall.keeps_of_succeeds
    (coherent : state.Coherent) (succeeds : call.Succeeds state) : (call.perform state).Coherent ∧
      (call.perform state).view = call.apply state.view := by
  obtain ⟨sound, viewed⟩ := cacheCall_keeps state.healed state.view call ⟨coherent.healed, rfl⟩
  rw [CacheCall.perform_healed succeeds] at sound viewed
  exact ⟨CachedDisk.coherent_of_healed sound.coherent, viewed⟩

theorem read_of_succeeds (coherent : state.Coherent)
    {lba : Nat} {bytes : Sector} (returned : ((fsCacheReadSector lba).run state).1 = some bytes) :
    bytes = state.view lba := by
  have succeeds : ((fsCacheReadSector lba).run state).1 ≠ none := by
    rw [returned]
    exact Option.some_ne_none bytes
  have healed := (heals_fsCacheReadSector lba).run_healed succeeds
  obtain ⟨reached, ran, _, _⟩ := CachedDisk.fsCacheReadSector_spec coherent.healed lba
  rw [ran, returned] at healed
  exact (Option.some.inj (congrArg Prod.fst healed)).symm

namespace CachedDisk

variable {state : CachedDisk}

section

variable {state : CachedDisk} {index : Fin cacheSlots}
  (used : (state.cache.slots index).used = true)

include used

theorem Coherent.spoilt (coherent : state.Coherent)
    (dirty : (state.cache.slots index).dirty = true) (garbage : Sector) :
    (state.spoilt index garbage).Coherent := by
  refine ⟨coherent.unique, ?_, coherent.unready⟩
  intro other otherUsed otherClean
  change (state.cache.slots other).used = true at otherUsed
  change (state.cache.slots other).dirty = false at otherClean
  have different : (state.cache.slots other).lba ≠ (state.cache.slots index).lba := by
    intro equal
    have same := coherent.unique other index _ ⟨otherUsed, rfl⟩ ⟨used, equal.symm⟩
    rw [same, dirty] at otherClean
    cases otherClean
  change (state.cache.slots other).data = Function.update state.disk.sectors
    (state.cache.slots index).lba garbage (state.cache.slots other).lba
  rw [Function.update_of_ne different]
  exact coherent.clean other otherUsed otherClean

theorem view_spoilt (garbage : Sector) : (state.spoilt index garbage).view = state.view := by
  funext lba
  unfold view CachedDisk.spoilt
  dsimp only
  cases found : state.cache.slotFind lba with
  | some other => rfl
  | none =>
    have different : lba ≠ (state.cache.slots index).lba := by
      intro equal
      exact FsCache.not_holds_of_slotFind found index ⟨used, equal.symm⟩
    exact Function.update_of_ne different garbage state.disk.sectors

end

/-- A command that loses nothing when it fails. -/
def FailsSafely {α : Type} (command : Command CachedDisk α) (state : CachedDisk) : Prop :=
  (command.run state).1 = none →
    (command.run state).2.Coherent ∧ (command.run state).2.view = state.view

theorem Coherent.slotEvict_failsSafely
    (coherent : state.Coherent) : FailsSafely slotEvict state := by
  intro failed
  rcases slotEvict_run_cases state with
    ⟨index, _, evicted⟩ | ⟨full, ⟨_, evicted⟩ | ⟨dirty, ⟨_, evicted⟩ | ⟨garbage, _, evicted⟩⟩⟩
  · rw [evicted] at failed
    cases failed
  · rw [evicted] at failed
    cases failed
  · rw [evicted] at failed
    cases failed
  · rw [evicted]
    exact ⟨coherent.spoilt (full _) dirty garbage, view_spoilt (full _) garbage⟩

theorem syncSlots_failsSafely (indices : List (Fin cacheSlots)) :
    ∀ {state : CachedDisk}, state.Coherent → FailsSafely (syncSlots indices) state := by
  induction indices with
  | nil =>
    intro state _ failed
    cases failed
  | cons index rest ih =>
    intro state coherent failed
    rw [syncSlots, run_reads_bind] at failed ⊢
    cases flush : (state.cache.slots index).used && (state.cache.slots index).dirty with
    | false =>
      rw [flush, whenever_false, run_pure_bind] at failed
      rw [whenever_false, run_pure_bind]
      exact ih coherent failed
    | true =>
      obtain ⟨used, dirty⟩ := Bool.and_eq_true_iff.mp flush
      rw [flush] at failed
      rw [whenever_true, run_bind, slotWriteBack_run] at failed ⊢
      cases fault : state.disk.faults state.disk.transfers with
      | none =>
        rw [fault] at failed
        obtain ⟨coherentAfter, viewAfter⟩ := ih (coherent.writtenBack used) failed
        exact ⟨coherentAfter, viewAfter.trans (view_writtenBack coherent used)⟩
      | some garbage =>
        exact ⟨coherent.spoilt used dirty garbage, view_spoilt used garbage⟩

theorem Coherent.fsCacheSync_failsSafely
    (coherent : state.Coherent) : FailsSafely fsCacheSync state := by
  intro failed
  rw [fsCacheSync, run_reads_bind] at failed ⊢
  cases ready : state.cache.ready with
  | false =>
    rw [ready] at failed
    cases failed
  | true =>
    rw [ready] at failed
    exact syncSlots_failsSafely _ coherent failed

/-- What the transfer of a read miss leaves in the oldest slot of a full cache if
it fails. -/
def leftover (state : CachedDisk) : Option Sector :=
  if (state.cache.slots state.cache.oldestSlot).dirty then
    match state.disk.faults state.disk.transfers with
    | none => state.disk.faults (state.disk.transfers + 1)
    | some _ => none
  else
    state.disk.faults state.disk.transfers

/-- The call is a read miss of a full cache whose transfer fails and leaves other
bytes in the slot than those of the sector it still stands for. -/
def Spoils (state : CachedDisk) : CacheCall → Prop
  | .read lba =>
    state.cache.ready = true ∧ state.cache.slotFind lba = none ∧
      (∀ index, (state.cache.slots index).used = true) ∧
      ∃ garbage, state.leftover = some garbage ∧
        garbage ≠ (state.cache.slots state.cache.oldestSlot).data
  | .write _ _ => False
  | .sync => False

theorem slotFill_run (state : CachedDisk) (index : Fin cacheSlots) (lba : Nat) :
    ((slotFill index lba).run state).1 = none →
      ∃ garbage, state.disk.faults state.disk.transfers = some garbage ∧
        ((slotFill index lba).run state).2 = ({ state with disk := state.disk.tick }).setSlot index
            { state.cache.slots index with data := garbage } := by
  intro failed
  unfold slotFill Disk.diskReadSector at failed ⊢
  dsimp only at failed ⊢
  cases fault : state.disk.faults state.disk.transfers with
  | none =>
    rw [fault] at failed
    cases failed
  | some garbage => exact ⟨garbage, rfl, rfl⟩

def missed (state : CachedDisk) : CachedDisk :=
  { state with
    cache := { state.cache with misses := u32 (state.cache.misses + 1) } }

variable {lba : Nat}

theorem fsCacheReadSector_run_miss
    (ready : state.cache.ready = true) (missing : state.cache.slotFind lba = none) :
    (fsCacheReadSector lba).run state =
      (slotEvict >>= fun index => slotFill index lba).run state.missed := by
  rw [fsCacheReadSector, run_reads_bind, if_pos ready, missing, run_modify_bind]
  rfl

theorem Coherent.missed (coherent : state.Coherent) : state.missed.Coherent :=
  ⟨coherent.unique, coherent.clean, coherent.unready⟩

theorem sameUsed_refill {state : CachedDisk} {index : Fin cacheSlots}
    {data : Sector} (harmless : (state.cache.slots index).used = false ∨
      data = (state.cache.slots index).data) : SameUsed state
      (({ state with disk := state.disk.tick }).setSlot index
        { state.cache.slots index with data := data }) := by
  refine ⟨?_, ?_, rfl, rfl⟩
  · intro other
    by_cases same : other = index
    · rw [same]
      simp [setSlot]
    · simp [setSlot, same]
  · intro other used
    by_cases same : other = index
    · subst same
      rcases harmless with unused | unchanged
      · rw [unused] at used
        cases used
      · simp [setSlot, unchanged]
    · simp [setSlot, same]

theorem read_hit {index : Fin cacheSlots} (ready : state.cache.ready = true)
    (found : state.cache.slotFind lba = some index) : ((fsCacheReadSector lba).run state).1 =
      some (state.cache.slots index).data := by
  simp [fsCacheReadSector, ready, found]

theorem Coherent.read_failsSafely (coherent : state.Coherent)
    (harmless : ¬ state.Spoils (.read lba)) : FailsSafely (fsCacheReadSector lba) state := by
  intro failed
  cases ready : state.cache.ready with
  | false =>
    have raw : (fsCacheReadSector lba).run state = (rawReadSector lba).run state := by
      rw [fsCacheReadSector, run_reads_bind, ready]
      rfl
    have reached : ((rawReadSector lba).run state).2 = { state with disk := state.disk.tick } := by
      unfold rawReadSector Disk.diskReadSector
      dsimp only
      cases state.disk.faults state.disk.transfers with
      | none => rfl
      | some garbage => rfl
    rw [raw, reached]
    exact coherent.of_sameUsed ⟨fun _ => rfl, fun _ _ => ⟨rfl, rfl, rfl⟩, rfl, rfl⟩
  | true =>
    cases found : state.cache.slotFind lba with
    | some index =>
      rw [read_hit ready found] at failed
      cases failed
    | none =>
      rw [fsCacheReadSector_run_miss ready found] at failed ⊢
      have unspoilt : ∀ garbage, (∀ index, (state.cache.slots index).used = true) →
          state.leftover = some garbage →
            garbage = (state.cache.slots state.cache.oldestSlot).data := by
        intro garbage full isLeftover
        by_contra different
        exact harmless ⟨ready, found, full, garbage, isLeftover, different⟩
      rcases slotEvict_run_cases state.missed with
        ⟨index, unused, evicted⟩ | ⟨full, ⟨clean, evicted⟩ |
          ⟨dirty, ⟨written, evicted⟩ | ⟨garbage, _, evicted⟩⟩⟩
      · rw [run_bind_of_some evicted] at failed ⊢
        obtain ⟨garbage, _, reached⟩ := slotFill_run _ _ _ failed
        rw [reached]
        exact coherent.missed.of_sameUsed (sameUsed_refill (Or.inl unused))
      · rw [run_bind_of_some evicted] at failed ⊢
        obtain ⟨garbage, fault, reached⟩ := slotFill_run _ _ _ failed
        have unchanged := unspoilt garbage full (by
          unfold leftover
          rw [if_neg]
          · exact fault
          · exact Bool.eq_false_iff.mp clean)
        rw [reached]
        exact coherent.missed.of_sameUsed (sameUsed_refill (Or.inr unchanged))
      · rw [run_bind_of_some evicted] at failed ⊢
        obtain ⟨garbage, fault, reached⟩ := slotFill_run _ _ _ failed
        have unchanged := unspoilt garbage full (by
          unfold leftover
          rw [if_pos]
          · change state.disk.faults state.disk.transfers = none at written
            rw [written]
            exact fault
          · exact dirty)
        have coherentWritten := coherent.missed.writtenBack (full state.missed.cache.oldestSlot)
        have sameView := view_writtenBack coherent.missed (full state.missed.cache.oldestSlot)
        have sameUsed := @sameUsed_refill (state.missed.writtenBack state.missed.cache.oldestSlot)
          state.missed.cache.oldestSlot garbage (Or.inr (by
            rw [writtenBack_data]
            exact unchanged))
        rw [reached]
        obtain ⟨coherentAfter, viewAfter⟩ := coherentWritten.of_sameUsed sameUsed
        exact ⟨coherentAfter, viewAfter.trans sameView⟩
      · have failedSafely := coherent.missed.slotEvict_failsSafely
        unfold FailsSafely at failedSafely
        rw [evicted] at failedSafely
        rw [run_bind_of_none evicted]
        exact failedSafely rfl

theorem Coherent.write_fails (coherent : state.Coherent) {bytes : Sector}
    (failed : ((fsCacheWriteSector lba bytes).run state).1 = none) :
    ((fsCacheWriteSector lba bytes).run state).2.Coherent ∧ ∀ other, other ≠ lba →
        ((fsCacheWriteSector lba bytes).run state).2.view other = state.view other := by
  cases ready : state.cache.ready with
  | false =>
    have raw : (fsCacheWriteSector lba bytes).run state = (rawWriteSector lba bytes).run state := by
      rw [fsCacheWriteSector, run_reads_bind, ready]
      rfl
    have reached : ∃ left, ((rawWriteSector lba bytes).run state).2 =
        { state with disk := state.disk.put lba left } := by
      unfold rawWriteSector Disk.diskWriteSector
      dsimp only
      cases state.disk.faults state.disk.transfers with
      | none => exact ⟨bytes, rfl⟩
      | some garbage => exact ⟨garbage, rfl⟩
    obtain ⟨left, reachedEq⟩ := reached
    obtain ⟨coherentAfter, viewAfter⟩ := coherent.put_unready ready lba left
    rw [raw, reachedEq, viewAfter]
    exact ⟨coherentAfter, fun other different => Function.update_of_ne different left state.view⟩
  | true =>
    have stored : (fsCacheWriteSector lba bytes).run state = (slotForWrite lba >>= fun index =>
          modify fun state => state.stampSlot index
            { state.cache.slots index with
              used := true, dirty := true, lba := lba, data := bytes }).run
          state := by
      rw [fsCacheWriteSector, run_reads_bind, if_pos ready]
    rw [stored] at failed ⊢
    rcases chosen : (slotForWrite lba).run state with ⟨outcome, reached⟩
    cases outcome with
    | some index =>
      rw [run_bind_of_some chosen] at failed
      cases failed
    | none =>
      rw [run_bind_of_none chosen]
      rw [slotForWrite, run_reads_bind] at chosen
      cases found : state.cache.slotFind lba with
      | some index =>
        rw [found] at chosen
        cases chosen
      | none =>
        rw [found] at chosen
        have failedSafely := coherent.slotEvict_failsSafely
        unfold FailsSafely at failedSafely
        rw [show slotEvict.run state = (none, reached) from chosen] at failedSafely
        obtain ⟨coherentAfter, sameView⟩ := failedSafely rfl
        exact ⟨coherentAfter, fun other _ => congrFun sameView other⟩

end CachedDisk

/-- The sector that a call writes. -/
def CacheCall.target : CacheCall → Option Nat
  | .write lba _ => some lba
  | .read _ => none
  | .sync => none

/-- Every call of a run succeeds. -/
def AllSucceed (state : CachedDisk) (calls : List CacheCall) : Prop :=
  AlongRun CacheCall.perform (fun state call => call.Succeeds state) state
    calls

/-- What a later read returns of a sector that the call does not write is the
same as if the call had not been made, whatever calls come between and whatever
the disk does from then on. -/
def Unharmed (state : CachedDisk) (call : CacheCall) : Prop :=
  ∀ (later : List CacheCall) (lba : Nat), call.target ≠ some lba →
    ∀ (faults faults' : Nat → Option Sector) (bytes bytes' : Sector),
      AllSucceed ((call.perform state).withFaults faults) later →
      AllSucceed (state.withFaults faults') later →
      ((fsCacheReadSector lba).run
        (runFrom CacheCall.perform ((call.perform state).withFaults faults)
          later)).1 = some bytes →
      ((fsCacheReadSector lba).run
        (runFrom CacheCall.perform (state.withFaults faults') later)).1 =
          some bytes' →
      bytes = bytes'

open CachedDisk in
theorem CacheCall.keeps_others
    (coherent : state.Coherent) (harmless : ¬ state.Spoils call) : (call.perform state).Coherent ∧
      ∀ lba, call.target ≠ some lba → (call.perform state).view lba = state.view lba := by
  by_cases succeeds : call.Succeeds state
  · obtain ⟨coherentAfter, viewAfter⟩ := CacheCall.keeps_of_succeeds coherent succeeds
    refine ⟨coherentAfter, ?_⟩
    intro lba notTarget
    rw [viewAfter]
    cases call with
    | read _ => rfl
    | write target bytes =>
      exact Function.update_of_ne (fun same => notTarget (congrArg some same.symm)) bytes state.view
    | sync => rfl
  · cases call with
    | read lba =>
      have failed := Classical.not_not.mp succeeds
      obtain ⟨coherentAfter, sameView⟩ := coherent.read_failsSafely harmless failed
      exact ⟨coherentAfter, fun lba _ => congrFun sameView lba⟩
    | write target bytes =>
      have failed := Classical.not_not.mp succeeds
      obtain ⟨coherentAfter, sameView⟩ := coherent.write_fails failed
      refine ⟨coherentAfter, ?_⟩
      intro lba notTarget
      exact sameView lba fun same => notTarget (congrArg some same.symm)
    | sync =>
      have failed := Classical.not_not.mp succeeds
      obtain ⟨coherentAfter, sameView⟩ := coherent.fsCacheSync_failsSafely failed
      exact ⟨coherentAfter, fun lba _ => congrFun sameView lba⟩

theorem coherent_of_allSucceed (calls : List CacheCall) :
    ∀ {state : CachedDisk}, state.Coherent → AllSucceed state calls →
      (runFrom CacheCall.perform state calls).Coherent ∧
        (runFrom CacheCall.perform state calls).view =
          runFrom CacheCall.apply state.view calls := by
  induction calls with
  | nil =>
    intro state coherent _
    exact ⟨coherent, rfl⟩
  | cons call rest ih =>
    intro state coherent succeed
    obtain ⟨succeeds, restSucceed⟩ := succeed
    obtain ⟨coherentAfter, viewAfter⟩ := CacheCall.keeps_of_succeeds coherent succeeds
    rw [runFrom_cons, runFrom_cons, ← viewAfter]
    exact ih coherentAfter restSucceed

theorem runFrom_apply_congr (calls : List CacheCall) (lba : Nat) :
    ∀ {contents contents' : Nat → Sector}, contents lba = contents' lba →
      runFrom CacheCall.apply contents calls lba = runFrom CacheCall.apply contents' calls lba := by
  induction calls with
  | nil =>
    intro contents contents' same
    exact same
  | cons call rest ih =>
    intro contents contents' same
    rw [runFrom_cons, runFrom_cons]
    apply ih
    cases call with
    | read _ => exact same
    | write target bytes =>
      by_cases isTarget : lba = target
      · rw [isTarget]
        simp [CacheCall.apply]
      · simp [CacheCall.apply, isTarget, same]
    | sync => exact same

section

open CachedDisk

variable {state : CachedDisk} {index : Fin cacheSlots} {lba : Nat}

theorem Unharmed.data_eq {call : CacheCall} (unharmed : Unharmed state call)
    {index' : Fin cacheSlots} (notTarget : call.target ≠ some lba)
    (ready : state.cache.ready = true) (found : state.cache.slotFind lba = some index)
    (readyAfter : (call.perform state).cache.ready = true)
    (foundAfter : (call.perform state).cache.slotFind lba = some index') :
    ((call.perform state).cache.slots index').data = (state.cache.slots index).data :=
  unharmed [] lba notTarget (fun _ => none) (fun _ => none) _ _ trivial
    trivial (read_hit readyAfter foundAfter) (read_hit ready found)

theorem CachedDisk.Coherent.slotFind_of_holds (coherent : state.Coherent)
    (held : state.cache.Holds index lba) :
    state.cache.slotFind lba = some index := by
  cases search : state.cache.slotFind lba with
  | none => exact absurd held (FsCache.not_holds_of_slotFind search index)
  | some other =>
    rw [coherent.unique other index lba (FsCache.holds_of_slotFind search) held]

theorem slotFind_congr {cache cache' : FsCache}
    (used : ∀ index, (cache'.slots index).used = (cache.slots index).used)
    (lbas : ∀ index, (cache'.slots index).lba = (cache.slots index).lba)
    (lba : Nat) : cache'.slotFind lba = cache.slotFind lba := by
  simp only [FsCache.slotFind, used, lbas]

theorem writtenBack_identity (state : CachedDisk) (index other : Fin cacheSlots) :
    ((state.writtenBack index).cache.slots other).used = (state.cache.slots other).used ∧
      ((state.writtenBack index).cache.slots other).lba = (state.cache.slots other).lba := by
  by_cases same : other = index
  · rw [same]
    simp [CachedDisk.writtenBack]
  · simp [CachedDisk.writtenBack, same]

theorem setSlot_identity (cache : FsCache) (index other : Fin cacheSlots) (data : Sector) :
    ((cache.setSlot index
        { cache.slots index with data := data }).slots other).used = (cache.slots other).used ∧
      ((cache.setSlot index
        { cache.slots index with data := data }).slots other).lba = (cache.slots other).lba := by
  by_cases same : other = index
  · rw [same]
    simp
  · simp [same]

theorem perform_of_spoils {garbage : Sector} (ready : state.cache.ready = true)
    (missing : state.cache.slotFind lba = none)
    (full : ∀ index, (state.cache.slots index).used = true)
    (isLeftover : state.leftover = some garbage) :
    ((CacheCall.read lba).perform state).cache.ready = true ∧
      (∀ index, (((CacheCall.read lba).perform state).cache.slots index).used =
        (state.cache.slots index).used) ∧
      (∀ index, (((CacheCall.read lba).perform state).cache.slots index).lba =
        (state.cache.slots index).lba) ∧ (((CacheCall.read lba).perform state).cache.slots
        state.cache.oldestSlot).data = garbage := by
  -- the state in which the transfer fails differs from the first one in the
  -- dirty flag of the evicted slot at most
  have evicted : ∃ between, slotEvict.run state.missed =
        (some state.missed.cache.oldestSlot, between) ∧
      between.disk.faults between.disk.transfers = some garbage ∧ between.cache.ready = true ∧
      ∀ index, (between.cache.slots index).used = (state.cache.slots index).used ∧
        (between.cache.slots index).lba = (state.cache.slots index).lba := by
    have leftoverMissed : state.missed.leftover = some garbage := isLeftover
    unfold leftover at leftoverMissed
    rcases slotEvict_run_cases state.missed with
      ⟨index, unused, _⟩ | ⟨_, ⟨clean, evicted⟩ | ⟨dirty, ⟨written, evicted⟩ | ⟨spoilt, fault, _⟩⟩⟩
    · rw [show (state.missed.cache.slots index).used = true from full index] at unused
      cases unused
    · rw [if_neg (Bool.eq_false_iff.mp clean)] at leftoverMissed
      exact ⟨state.missed, evicted, leftoverMissed, ready, fun _ => ⟨rfl, rfl⟩⟩
    · rw [if_pos dirty, written] at leftoverMissed
      exact ⟨_, evicted, leftoverMissed, ready,
        fun index => writtenBack_identity state.missed _ index⟩
    · rw [if_pos dirty, fault] at leftoverMissed
      cases leftoverMissed
  obtain ⟨between, evictedTo, fault, readyBetween, identity⟩ := evicted
  have performed : (CacheCall.read lba).perform state =
      ({ between with disk := between.disk.tick }).setSlot state.missed.cache.oldestSlot
        { between.cache.slots state.missed.cache.oldestSlot with
          data := garbage } := by
    change ((fsCacheReadSector lba).run state).2 = _
    rw [fsCacheReadSector_run_miss ready missing, run_bind_of_some evictedTo]
    simp [slotFill, Disk.diskReadSector, fault]
  rw [performed]
  have slots := fun index => setSlot_identity between.cache
    state.missed.cache.oldestSlot index garbage
  refine ⟨readyBetween, fun index => (slots index).1.trans (identity index).1,
    fun index => (slots index).2.trans (identity index).2, ?_⟩
  change (Function.update between.cache.slots state.missed.cache.oldestSlot _
    state.missed.cache.oldestSlot).data = garbage
  rw [Function.update_self]

/-- A failing call harms no later read exactly when it does not spoil a slot. -/
theorem cacheCall_unharmed_iff (coherent : state.Coherent)
    (call : CacheCall) : Unharmed state call ↔ ¬ state.Spoils call := by
  constructor
  · intro unharmed spoils
    cases call with
    | read lba =>
      obtain ⟨ready, missing, full, garbage, isLeftover, different⟩ := spoils
      obtain ⟨readyAfter, used, lbas, data⟩ := perform_of_spoils ready missing full isLeftover
      let oldest := state.cache.oldestSlot
      have held : state.cache.Holds oldest (state.cache.slots oldest).lba := ⟨full oldest, rfl⟩
      have found := coherent.slotFind_of_holds held
      have foundAfter : ((CacheCall.read lba).perform state).cache.slotFind
          (state.cache.slots oldest).lba = some oldest := by
        rw [slotFind_congr used lbas, found]
      have same := unharmed.data_eq nofun
        ready found readyAfter foundAfter
      exact different (data.symm.trans same)
    | write _ _ => exact spoils
    | sync => exact spoils
  · intro harmless later lba notTarget faults faults' bytes bytes' succeed
      succeed' returned returned'
    obtain ⟨coherentAfter, sameView⟩ := CacheCall.keeps_others coherent harmless
    obtain ⟨coherentLater, viewLater⟩ := coherent_of_allSucceed later
      (coherentAfter.withFaults faults) succeed
    obtain ⟨coherentLater', viewLater'⟩ := coherent_of_allSucceed later
      (coherent.withFaults faults') succeed'
    rw [read_of_succeeds coherentLater returned,
      read_of_succeeds coherentLater' returned', viewLater, viewLater',
      view_withFaults, view_withFaults]
    exact runFrom_apply_congr later lba (sameView lba notTarget)

end

/-- A read that fails into an unused slot. -/
theorem cacheCall_unharmed_blank : Unharmed (blankCachedDisk.withFaults fun _ => some fun _ => 7)
      (.read 5) := by
  have coherent := blankCachedDisk_fresh.sound.1.coherent.withFaults fun _ => some fun _ => 7
  refine (cacheCall_unharmed_iff coherent (.read 5)).mpr ?_
  rintro ⟨_, _, full, _⟩
  cases full 0

/-- A full cache over a disk of zeros on which every transfer fails. -/
def failingCachedDisk : CachedDisk :=
  (fullCachedDisk false).withFaults fun _ => some fun _ => 7

theorem fullCachedDisk_lba (index : Fin cacheSlots) :
    ((fullCachedDisk false).cache.slots index).lba = index.val := by
  by_cases first : index = 0
  · rw [first]
    rfl
  · rw [fullCachedDisk_later false first]

theorem failingCachedDisk_coherent : failingCachedDisk.Coherent := by
  apply CachedDisk.Coherent.withFaults
  refine ⟨?_, ?_, ?_⟩
  · rintro first second lba ⟨_, firstLba⟩ ⟨_, secondLba⟩
    rw [fullCachedDisk_lba] at firstLba secondLba
    exact Fin.ext (firstLba.trans secondLba.symm)
  · intro index _ _
    by_cases first : index = 0
    · rw [first]
      rfl
    · rw [fullCachedDisk_later false first]
      rfl
  · intro unready
    cases unready

/-- A failed read of sector 300 changes what sector 0 reads as. -/
theorem failed_read_spoils_other_sector : failingCachedDisk.Coherent ∧
      ((fsCacheReadSector 300).run failingCachedDisk).1 = none ∧
      ((fsCacheReadSector 0).run failingCachedDisk).1 = some (fun _ => 0) ∧
      ((fsCacheReadSector 0).run ((CacheCall.read 300).perform failingCachedDisk)).1 =
          some (fun _ => 7) ∧ ¬ Unharmed failingCachedDisk (.read 300) := by
  have coherent := failingCachedDisk_coherent
  have missing : failingCachedDisk.cache.slotFind 300 = none := by
    rw [FsCache.slotFind, List.find?_eq_none]
    intro index _
    have small : index.val < 256 := index.isLt
    have isLba : (failingCachedDisk.cache.slots index).lba = index.val := fullCachedDisk_lba index
    simp [isLba]
    omega
  have full : ∀ index, (failingCachedDisk.cache.slots index).used = true :=
    fullCachedDisk_full false
  have oldest : failingCachedDisk.cache.oldestSlot = 0 := fullCachedDisk_oldest false
  have isLeftover : failingCachedDisk.leftover = some fun _ => 7 := by
    unfold CachedDisk.leftover
    rw [oldest]
    rfl
  obtain ⟨ready, used, lbas, data⟩ := perform_of_spoils rfl missing full isLeftover
  rw [oldest] at data
  have found : failingCachedDisk.cache.slotFind 0 = some 0 := coherent.slotFind_of_holds ⟨rfl, rfl⟩
  have foundAfter : ((CacheCall.read 300).perform failingCachedDisk).cache.slotFind 0 = some 0 := by
    rw [slotFind_congr used lbas, found]
  have before : ((fsCacheReadSector 0).run failingCachedDisk).1 =
      some (fun _ => 0) := CachedDisk.read_hit rfl found
  have after := CachedDisk.read_hit ready foundAfter
  rw [data] at after
  have failed : ((fsCacheReadSector 300).run failingCachedDisk).1 = none := by
    have evicted : slotEvict.run failingCachedDisk.missed = (some 0, failingCachedDisk.missed) := by
      have clean := slotEvict_run_clean
        (show ∀ index, (failingCachedDisk.missed.cache.slots index).used = true from full) (by
            rw [show failingCachedDisk.missed.cache.oldestSlot = 0 from oldest]
            rfl)
      rw [show failingCachedDisk.missed.cache.oldestSlot = 0 from oldest] at clean
      exact clean
    rw [CachedDisk.fsCacheReadSector_run_miss rfl missing, run_bind_of_some evicted]
    rfl
  refine ⟨coherent, failed, before, after, ?_⟩
  intro unharmed
  have same := unharmed.data_eq nofun rfl found ready foundAfter
  rw [data] at same
  exact absurd (congrFun same 0) (by decide)

end KnitOS.Storage
