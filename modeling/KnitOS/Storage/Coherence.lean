import KnitOS.Storage.Cache
import KnitOS.Lib.Runs

/-!
# The cache is a plain array of sectors

As long as the transfers succeed, the cache and the disk below it behave as one
array of sectors, `CachedDisk.view`.  The invariant is `Coherent`: no sector is
cached twice, and a clean slot holds the bytes that are on disk.
-/

namespace KnitOS.Storage

open Lib Lib.Command Function

namespace FsCache

/-- A used slot holds the sector. -/
def Holds (cache : FsCache) (index : Fin cacheSlots) (lba : Nat) : Prop :=
  (cache.slots index).used = true ∧ (cache.slots index).lba = lba

variable {cache : FsCache}

theorem holds_of_slotFind {lba : Nat}
    {index : Fin cacheSlots} (found : cache.slotFind lba = some index) : cache.Holds index lba := by
  have matched := List.find?_some found
  simpa [Holds] using matched

theorem not_holds_of_slotFind {lba : Nat}
    (missing : cache.slotFind lba = none) (index : Fin cacheSlots) : ¬ cache.Holds index lba := by
  have refuted := List.find?_eq_none.mp missing index (List.mem_finRange index)
  simpa [Holds] using refuted

theorem used_of_firstUnused_none (full : cache.firstUnused = none) (index : Fin cacheSlots) :
    (cache.slots index).used = true := by
  have refuted := List.find?_eq_none.mp full index (List.mem_finRange index)
  simpa using refuted

theorem unused_of_firstUnused {index : Fin cacheSlots}
    (found : cache.firstUnused = some index) : (cache.slots index).used = false := by
  have matched := List.find?_some found
  simpa using matched

@[simp]
theorem setSlot_slots (cache : FsCache) (index : Fin cacheSlots) (slot : CacheSlot) :
    (cache.setSlot index slot).slots = update cache.slots index slot := rfl

end FsCache

namespace CachedDisk

/-- The contents of a sector as the file system sees them. -/
def view (state : CachedDisk) (lba : Nat) : Sector :=
  match state.cache.slotFind lba with
  | some index => (state.cache.slots index).data
  | none => state.disk.sectors lba

/-- No sector is cached twice, clean slots agree with the disk, and an
uninitialised cache is empty. -/
structure Coherent (state : CachedDisk) : Prop where
  unique : ∀ first second lba, state.cache.Holds first lba → state.cache.Holds second lba →
      first = second
  clean : ∀ index, (state.cache.slots index).used = true → (state.cache.slots index).dirty = false →
      (state.cache.slots index).data = state.disk.sectors (state.cache.slots index).lba
  unready : state.cache.ready = false → ∀ index, (state.cache.slots index).used = false

variable {index : Fin cacheSlots} {state : CachedDisk}

theorem view_of_holds (coherent : state.Coherent) {lba : Nat} (held : state.cache.Holds index lba) :
    state.view lba = (state.cache.slots index).data := by
  unfold view
  cases found : state.cache.slotFind lba with
  | none => exact absurd held (FsCache.not_holds_of_slotFind found index)
  | some other =>
    have same : other = index := coherent.unique other index lba
      (FsCache.holds_of_slotFind found) held
    simp only [same]

theorem view_of_not_holds {lba : Nat} (absent : ∀ index, ¬ state.cache.Holds index lba) :
    state.view lba = state.disk.sectors lba := by
  unfold view
  cases found : state.cache.slotFind lba with
  | none => rfl
  | some index => exact absurd (FsCache.holds_of_slotFind found) (absent index)

theorem Coherent.not_holds (coherent : state.Coherent) (unready : state.cache.ready = false)
    (index : Fin cacheSlots) (lba : Nat) : ¬ state.cache.Holds index lba := by
  intro held
  have unused := coherent.unready unready index
  simp [FsCache.Holds, unused] at held

theorem Coherent.view_congr {other : CachedDisk} (coherent : state.Coherent)
    (coherentAfter : other.Coherent)
    (holds : ∀ index lba, other.cache.Holds index lba ↔ state.cache.Holds index lba)
    (data : ∀ index, (state.cache.slots index).used = true →
      (other.cache.slots index).data = (state.cache.slots index).data)
    (sectors : ∀ lba, (∀ index, ¬ state.cache.Holds index lba) →
      other.disk.sectors lba = state.disk.sectors lba) : other.view = state.view := by
  funext lba
  by_cases cached : ∃ index, state.cache.Holds index lba
  · obtain ⟨index, held⟩ := cached
    rw [view_of_holds coherentAfter ((holds index lba).mpr held), view_of_holds coherent held]
    exact data index held.1
  · have absent := not_exists.mp cached
    rw [view_of_not_holds fun index held => absent index ((holds index lba).mp held),
      view_of_not_holds absent, sectors lba absent]

/-- Before `fs_cache_init` a write goes to the disk. -/
theorem Coherent.put_unready (coherent : state.Coherent) (unready : state.cache.ready = false)
    (lba : Nat) (bytes : Sector) : ({ state with disk := state.disk.put lba bytes }).Coherent ∧
      ({ state with disk := state.disk.put lba bytes } : CachedDisk).view =
        update state.view lba bytes := by
  have absent := coherent.not_holds unready
  have viewed : ∀ disk, ({ state with disk := disk } : CachedDisk).view = disk.sectors :=
    fun disk => funext fun other => view_of_not_holds fun index => absent index other
  refine ⟨⟨coherent.unique, fun index used => ?_, coherent.unready⟩, ?_⟩
  · exact absurd ⟨used, rfl⟩ (absent index _)
  · rw [viewed, show state.view = state.disk.sectors from viewed state.disk]
    rfl

/-- Nothing but unused slots, stamps and counters differs. -/
structure SameUsed (state other : CachedDisk) : Prop where
  used : ∀ index, (other.cache.slots index).used = (state.cache.slots index).used
  slots : ∀ index, (state.cache.slots index).used = true →
    (other.cache.slots index).lba = (state.cache.slots index).lba ∧
      (other.cache.slots index).dirty = (state.cache.slots index).dirty ∧
      (other.cache.slots index).data = (state.cache.slots index).data
  ready : other.cache.ready = state.cache.ready
  sectors : other.disk.sectors = state.disk.sectors

theorem SameUsed.holds_iff {other : CachedDisk}
    (same : SameUsed state other) (index : Fin cacheSlots) (lba : Nat) :
    other.cache.Holds index lba ↔ state.cache.Holds index lba := by
  unfold FsCache.Holds
  rw [same.used]
  constructor
  · rintro ⟨used, isLba⟩
    exact ⟨used, (same.slots index used).1.symm.trans isLba⟩
  · rintro ⟨used, isLba⟩
    exact ⟨used, (same.slots index used).1.trans isLba⟩

theorem Coherent.of_sameUsed {other : CachedDisk}
    (coherent : state.Coherent) (same : SameUsed state other) :
    other.Coherent ∧ other.view = state.view := by
  have coherentAfter : other.Coherent := by
    refine ⟨?_, ?_, ?_⟩
    · intro first second lba firstHolds secondHolds
      rw [same.holds_iff] at firstHolds secondHolds
      exact coherent.unique first second lba firstHolds secondHolds
    · intro index used clean
      rw [same.used] at used
      obtain ⟨isLba, isDirty, isData⟩ := same.slots index used
      rw [isDirty] at clean
      rw [isData, isLba, same.sectors]
      exact coherent.clean index used clean
    · intro unready index
      rw [same.ready] at unready
      rw [same.used]
      exact coherent.unready unready index
  exact ⟨coherentAfter, coherent.view_congr coherentAfter same.holds_iff
    (fun index used => (same.slots index used).2.2) fun lba _ => congrFun same.sectors lba⟩

/-- Put a sector into a slot.  The slot must be free to lose its old sector,
no other slot may hold the new one, and the new bytes must be dirty or equal
to those on disk. -/
structure Storable (state : CachedDisk) (index : Fin cacheSlots) (slot : CacheSlot) : Prop where
  used : slot.used = true
  others : ∀ other, state.cache.Holds other slot.lba → other = index
  replaceable : (state.cache.slots index).used = false ∨ (state.cache.slots index).dirty = false ∨
    (state.cache.slots index).lba = slot.lba
  faithful : slot.dirty = true ∨ slot.data = state.disk.sectors slot.lba

theorem holds_setSlot_iff (state : CachedDisk) (index other : Fin cacheSlots)
    (slot : CacheSlot) (lba : Nat) : (state.setSlot index slot).cache.Holds other lba ↔
      if other = index then slot.used = true ∧ slot.lba = lba
      else state.cache.Holds other lba := by
  by_cases same : other = index
  · subst same
    simp [FsCache.Holds, setSlot]
  · simp [FsCache.Holds, setSlot, same]

variable {slot : CacheSlot}

theorem Coherent.setSlot (coherent : state.Coherent) (ready : state.cache.ready = true)
    (storable : state.Storable index slot) : (state.setSlot index slot).Coherent := by
  refine ⟨?_, ?_, ?_⟩
  · intro first second lba firstHolds secondHolds
    rw [holds_setSlot_iff] at firstHolds secondHolds
    split at firstHolds <;> split at secondHolds
    · simp_all
    · have := storable.others second (firstHolds.2 ▸ secondHolds)
      contradiction
    · have := storable.others first (secondHolds.2 ▸ firstHolds)
      contradiction
    · exact coherent.unique first second lba firstHolds secondHolds
  · intro other otherUsed otherClean
    by_cases same : other = index
    · subst same
      rcases storable.faithful with dirty | faithful
      · simp [CachedDisk.setSlot, dirty] at otherClean
      · simpa [CachedDisk.setSlot] using faithful
    · simp only [CachedDisk.setSlot, FsCache.setSlot_slots,
        update_of_ne same] at otherUsed otherClean ⊢
      exact coherent.clean other otherUsed otherClean
  · intro unready
    have : state.cache.ready = false := unready
    simp [ready] at this

theorem view_setSlot (coherent : state.Coherent) (ready : state.cache.ready = true)
    (storable : state.Storable index slot) : (state.setSlot index slot).view =
      update state.view slot.lba slot.data := by
  have stored := coherent.setSlot ready storable
  funext lba
  by_cases target : lba = slot.lba
  · subst target
    have held : (state.setSlot index slot).cache.Holds index slot.lba := by
      simp [holds_setSlot_iff, storable.used]
    rw [view_of_holds stored held]
    simp [CachedDisk.setSlot]
  · rw [update_of_ne target]
    by_cases cached : ∃ other, other ≠ index ∧ state.cache.Holds other lba
    · obtain ⟨other, different, held⟩ := cached
      have heldAfter : (state.setSlot index slot).cache.Holds other lba := by
        simpa [holds_setSlot_iff, different] using held
      rw [view_of_holds stored heldAfter, view_of_holds coherent held]
      simp [CachedDisk.setSlot, different]
    · -- the sector is now uncached: either it was before, or the slot that
      -- lost it was clean
      have absentAfter : ∀ other, ¬ (state.setSlot index slot).cache.Holds other lba := by
        intro other held
        rw [holds_setSlot_iff] at held
        split at held
        · exact target held.2.symm
        · exact cached ⟨other, by assumption, held⟩
      rw [view_of_not_holds absentAfter]
      change state.disk.sectors lba = state.view lba
      by_cases lost : state.cache.Holds index lba
      · rw [view_of_holds coherent lost]
        rcases storable.replaceable with unused | clean | same
        · simp [FsCache.Holds, unused] at lost
        · rw [coherent.clean index lost.1 clean, lost.2]
        · exact absurd (lost.2.symm.trans same) target
      · have absent : ∀ other, ¬ state.cache.Holds other lba := by
          intro other held
          by_cases same : other = index
          · exact lost (same ▸ held)
          · exact cached ⟨other, same, held⟩
        rw [view_of_not_holds absent]

/-- The state after the bytes of a slot reached the disk. -/
def writtenBack (state : CachedDisk) (index : Fin cacheSlots) : CachedDisk :=
  { cache :=
      state.cache.setSlot index
        { state.cache.slots index with dirty := false }
    disk :=
      state.disk.put (state.cache.slots index).lba
        (state.cache.slots index).data }

/-- The state after a transfer of a dirty slot failed. -/
def spoilt (state : CachedDisk) (index : Fin cacheSlots) (garbage : Sector) : CachedDisk :=
  { state with
    disk := state.disk.put (state.cache.slots index).lba garbage }

theorem slotWriteBack_run (state : CachedDisk) (index : Fin cacheSlots) :
    (slotWriteBack index).run state = match state.disk.faults state.disk.transfers with
      | none => (some (), state.writtenBack index)
      | some garbage => (none, state.spoilt index garbage) := by
  unfold slotWriteBack Disk.diskWriteSector
  dsimp only
  cases state.disk.faults state.disk.transfers with
  | none => rfl
  | some garbage => rfl

theorem slotWriteBack_of_healthy (healthy : state.disk.Healthy) (index : Fin cacheSlots) :
    (slotWriteBack index).run state = (some (), state.writtenBack index) := by
  rw [slotWriteBack_run, healthy _ (Nat.le_refl _)]

theorem writtenBack_holds_iff (state : CachedDisk) (index other : Fin cacheSlots) (lba : Nat) :
    (state.writtenBack index).cache.Holds other lba ↔ state.cache.Holds other lba := by
  by_cases same : other = index
  · subst same
    simp [FsCache.Holds, writtenBack]
  · simp [FsCache.Holds, writtenBack, same]

theorem writtenBack_data (state : CachedDisk) (index other : Fin cacheSlots) :
    ((state.writtenBack index).cache.slots other).data = (state.cache.slots other).data := by
  by_cases same : other = index
  · subst same
    simp [writtenBack]
  · simp [writtenBack, same]

theorem Coherent.writtenBack (coherent : state.Coherent)
    (used : (state.cache.slots index).used = true) : (state.writtenBack index).Coherent := by
  refine ⟨?_, ?_, ?_⟩
  · intro first second lba firstHolds secondHolds
    rw [writtenBack_holds_iff] at firstHolds secondHolds
    exact coherent.unique first second lba firstHolds secondHolds
  · intro other otherUsed otherClean
    by_cases same : other = index
    · subst same
      simp [CachedDisk.writtenBack, Disk.put]
    · have slotSame : (state.writtenBack index).cache.slots other = state.cache.slots other := by
        simp [CachedDisk.writtenBack, same]
      rw [slotSame] at otherUsed otherClean ⊢
      have different : (state.cache.slots other).lba ≠ (state.cache.slots index).lba := by
        intro equal
        exact same <| coherent.unique other index _ ⟨otherUsed, rfl⟩ ⟨used, equal.symm⟩
      rw [coherent.clean other otherUsed otherClean]
      simp [CachedDisk.writtenBack, Disk.put, different]
  · intro unready index'
    have unused := coherent.unready unready index
    simp [used] at unused

theorem view_writtenBack (coherent : state.Coherent)
    (used : (state.cache.slots index).used = true) :
    (state.writtenBack index).view = state.view := by
  refine coherent.view_congr (coherent.writtenBack used) (writtenBack_holds_iff state index)
    (fun other _ => writtenBack_data state index other) ?_
  intro lba absent
  have different : lba ≠ (state.cache.slots index).lba := by
    intro equal
    exact absent index ⟨used, equal.symm⟩
  simp [CachedDisk.writtenBack, Disk.put, different]

/-- Everything `slotEvict` can do: hand out an unused slot, or the oldest slot
of a full cache, after writing it back if it was dirty. -/
theorem slotEvict_run_cases (state : CachedDisk) :
    (∃ index, (state.cache.slots index).used = false ∧ slotEvict.run state = (some index, state)) ∨
    (∀ index, (state.cache.slots index).used = true) ∧
      ((state.cache.slots state.cache.oldestSlot).dirty = false ∧
        slotEvict.run state = (some state.cache.oldestSlot, state) ∨
      (state.cache.slots state.cache.oldestSlot).dirty = true ∧
        (state.disk.faults state.disk.transfers = none ∧ slotEvict.run state =
            (some state.cache.oldestSlot, state.writtenBack state.cache.oldestSlot) ∨
        ∃ garbage, state.disk.faults state.disk.transfers = some garbage ∧ slotEvict.run state =
            (none, state.spoilt state.cache.oldestSlot garbage))) := by
  rw [slotEvict, run_reads_bind]
  cases found : state.cache.firstUnused with
  | some index => exact Or.inl ⟨index, FsCache.unused_of_firstUnused found, rfl⟩
  | none =>
    refine Or.inr ⟨FsCache.used_of_firstUnused_none found, ?_⟩
    dsimp only
    cases dirty : (state.cache.slots state.cache.oldestSlot).dirty with
    | false => exact Or.inl ⟨rfl, rfl⟩
    | true =>
      refine Or.inr ⟨rfl, ?_⟩
      rw [whenever_true, run_bind, slotWriteBack_run]
      cases fault : state.disk.faults state.disk.transfers with
      | none => exact Or.inl ⟨rfl, rfl⟩
      | some garbage => exact Or.inr ⟨garbage, rfl, rfl⟩

theorem slotEvict_cases (healthy : state.disk.Healthy) :
    (∃ index, (state.cache.slots index).used = false ∧ slotEvict.run state = (some index, state)) ∨
    ((∀ index, (state.cache.slots index).used = true) ∧
      (state.cache.slots state.cache.oldestSlot).dirty = false ∧
      slotEvict.run state = (some state.cache.oldestSlot, state)) ∨
    ((∀ index, (state.cache.slots index).used = true) ∧
      (state.cache.slots state.cache.oldestSlot).dirty = true ∧ slotEvict.run state =
        (some state.cache.oldestSlot, state.writtenBack state.cache.oldestSlot)) := by
  rcases slotEvict_run_cases state with
    unused | ⟨full, ⟨clean, evicted⟩ | ⟨dirty, ⟨_, evicted⟩ | ⟨garbage, fault, _⟩⟩⟩
  · exact Or.inl unused
  · exact Or.inr (Or.inl ⟨full, clean, evicted⟩)
  · exact Or.inr (Or.inr ⟨full, dirty, evicted⟩)
  · rw [healthy _ (Nat.le_refl _)] at fault
    cases fault

theorem slotEvict_spec (healthy : state.disk.Healthy) (coherent : state.Coherent) : ∃ index reached,
    slotEvict.run state = (some index, reached) ∧ reached.disk.Healthy ∧ reached.Coherent ∧
    reached.view = state.view ∧ reached.cache.ready = state.cache.ready ∧ (∀ other lba,
      reached.cache.Holds other lba ↔ state.cache.Holds other lba) ∧
    ((reached.cache.slots index).used = false ∨ (reached.cache.slots index).dirty = false) := by
  rcases slotEvict_cases healthy with
    ⟨index, unused, evicted⟩ | ⟨_, clean, evicted⟩ | ⟨full, _, evicted⟩
  · exact ⟨index, state, evicted, healthy, coherent, rfl, rfl, fun _ _ => Iff.rfl, Or.inl unused⟩
  · exact ⟨_, state, evicted, healthy, coherent, rfl, rfl, fun _ _ => Iff.rfl, Or.inr clean⟩
  · refine ⟨_, _, evicted, healthy.put _ _, coherent.writtenBack (full _),
      view_writtenBack coherent (full _), rfl, writtenBack_holds_iff state _, Or.inr ?_⟩
    simp [CachedDisk.writtenBack]

theorem stampSlot_spec (coherent : state.Coherent)
    (ready : state.cache.ready = true) (storable : state.Storable index slot) :
    (state.stampSlot index slot).Coherent ∧ (state.stampSlot index slot).view =
        update state.view slot.lba slot.data := by
  let stamped : CacheSlot := { slot with stamp := state.cache.nextStamp }
  have stampedStorable : state.Storable index stamped :=
    ⟨storable.used, storable.others, storable.replaceable, storable.faithful⟩
  have stored := coherent.setSlot ready stampedStorable
  have viewed := view_setSlot coherent ready stampedStorable
  exact ⟨⟨stored.unique, stored.clean, stored.unready⟩, viewed⟩

/-- The states in which the cache is known to work: no pending faults and a
coherent cache. -/
structure Sound (state : CachedDisk) : Prop where
  healthy : state.disk.Healthy
  coherent : state.Coherent

variable (sound : state.Sound)
include sound

theorem Sound.of_same (other : CachedDisk) (sameSlots : other.cache.slots = state.cache.slots)
    (sameReady : other.cache.ready = state.cache.ready)
    (sameSectors : other.disk.sectors = state.disk.sectors) (healthy : other.disk.Healthy) :
    other.Sound ∧ other.view = state.view := by
  obtain ⟨coherent, viewed⟩ := sound.coherent.of_sameUsed
    ⟨fun _ => by rw [sameSlots], fun _ _ => by simp [sameSlots], sameReady, sameSectors⟩
  exact ⟨⟨healthy, coherent⟩, viewed⟩

theorem fsCacheReadSector_spec (lba : Nat) : ∃ reached,
    (fsCacheReadSector lba).run state = (some (state.view lba), reached) ∧
    reached.Sound ∧ reached.view = state.view := by
  cases ready : state.cache.ready with
  | false =>
    have absent := fun index => sound.coherent.not_holds ready index lba
    obtain ⟨soundAfter, viewAfter⟩ := sound.of_same { state with disk := state.disk.tick }
      rfl rfl rfl sound.healthy.tick
    refine ⟨_, ?_, soundAfter, viewAfter⟩
    simp [fsCacheReadSector, ready, rawReadSector, Disk.diskReadSector_of_healthy sound.healthy,
      view_of_not_holds absent]
  | true =>
    cases found : state.cache.slotFind lba with
    | some index =>
      have held := FsCache.holds_of_slotFind found
      let counted : CachedDisk :=
        { state with
          cache :=
            { state.cache with hits := u32 (state.cache.hits + 1) } }
      obtain ⟨countedSound, countedView⟩ := sound.of_same counted rfl rfl rfl sound.healthy
      have storable : counted.Storable index (state.cache.slots index) := by
        refine ⟨held.1, ?_, Or.inr (Or.inr rfl), ?_⟩
        · intro other otherHolds
          exact countedSound.coherent.unique other index _ otherHolds ⟨held.1, rfl⟩
        · cases dirty : (state.cache.slots index).dirty with
          | true => exact Or.inl rfl
          | false => exact Or.inr (sound.coherent.clean index held.1 dirty)
      obtain ⟨coherentAfter, viewAfter⟩ := stampSlot_spec countedSound.coherent ready storable
      refine ⟨counted.stampSlot index (state.cache.slots index), ?_,
        ⟨sound.healthy, coherentAfter⟩, ?_⟩
      · have bytes := view_of_holds sound.coherent held
        simp [fsCacheReadSector, ready, found, bytes, counted]
      · rw [viewAfter, countedView, held.2, ← view_of_holds sound.coherent held]
        exact update_eq_self lba state.view
    | none =>
      have absent := FsCache.not_holds_of_slotFind found
      let counted : CachedDisk :=
        { state with
          cache :=
            { state.cache with misses := u32 (state.cache.misses + 1) } }
      obtain ⟨countedSound, countedView⟩ := sound.of_same counted rfl rfl rfl sound.healthy
      obtain ⟨index, evicted, evictedTo, evictedHealthy,
          evictedCoherent, evictedView, evictedReady, sameHolds, replaceable⟩ :=
        slotEvict_spec countedSound.healthy countedSound.coherent
      let ticked : CachedDisk := { evicted with disk := evicted.disk.tick }
      obtain ⟨tickedSound, tickedView⟩ := (Sound.mk evictedHealthy evictedCoherent).of_same
        ticked rfl rfl rfl evictedHealthy.tick
      have absentAfter : ∀ other, ¬ evicted.cache.Holds other lba := by
        intro other held
        exact absent other ((sameHolds other lba).mp held)
      let filled : CacheSlot :=
        { evicted.cache.slots index with
          used := true
          dirty := false
          lba := lba
          data := evicted.disk.sectors lba }
      have storable : ticked.Storable index filled := by
        refine ⟨rfl, ?_, ?_, Or.inr rfl⟩
        · intro other held
          exact absurd held (absentAfter other)
        · rcases replaceable with unused | clean
          · exact Or.inl unused
          · exact Or.inr (Or.inl clean)
      obtain ⟨coherentAfter, viewAfter⟩ := stampSlot_spec tickedSound.coherent
        (evictedReady.trans ready) storable
      have bytes : state.view lba = evicted.disk.sectors lba := by
        rw [← countedView, ← evictedView, view_of_not_holds absentAfter]
      refine ⟨ticked.stampSlot index filled, ?_, ⟨evictedHealthy.tick, coherentAfter⟩, ?_⟩
      · have filledRead : (slotFill index lba).run evicted = (some (evicted.disk.sectors lba),
                ticked.stampSlot index filled) := by
          simp [slotFill, Disk.diskReadSector_of_healthy evictedHealthy, ticked, filled]
        rw [fsCacheReadSector, run_reads_bind, if_pos ready, found,
          run_modify_bind, run_bind_of_some evictedTo, filledRead, bytes]
      · rw [viewAfter, tickedView, evictedView, countedView]
        change update state.view lba (evicted.disk.sectors lba) = state.view
        rw [← bytes]
        exact update_eq_self lba state.view

/-- The slot of a cached sector is overwritten in place; any other sector
goes to the slot that eviction hands out. -/
theorem slotForWrite_spec (lba : Nat) : ∃ index chosen,
    (slotForWrite lba).run state = (some index, chosen) ∧ chosen.disk.Healthy ∧ chosen.Coherent ∧
    chosen.view = state.view ∧ chosen.cache.ready = state.cache.ready ∧
    (∀ other, chosen.cache.Holds other lba → other = index) ∧
    ((chosen.cache.slots index).used = false ∨ (chosen.cache.slots index).dirty = false ∨
      (chosen.cache.slots index).lba = lba) := by
  cases found : state.cache.slotFind lba with
  | some index =>
    have held := FsCache.holds_of_slotFind found
    refine ⟨index, state, by simp [slotForWrite, found], sound.healthy,
      sound.coherent, rfl, rfl, ?_, Or.inr (Or.inr held.2)⟩
    intro other otherHolds
    exact sound.coherent.unique other index lba otherHolds held
  | none =>
    have absent := FsCache.not_holds_of_slotFind found
    obtain ⟨index, evicted, evictedTo, evictedHealthy,
        evictedCoherent, evictedView, evictedReady, sameHolds, replaceable⟩ :=
      slotEvict_spec sound.healthy sound.coherent
    refine ⟨index, evicted, by simp [slotForWrite, found, evictedTo],
      evictedHealthy, evictedCoherent, evictedView, evictedReady, ?_, ?_⟩
    · intro other otherHolds
      exact absurd ((sameHolds other lba).mp otherHolds) (absent other)
    · rcases replaceable with unused | clean
      · exact Or.inl unused
      · exact Or.inr (Or.inl clean)

theorem fsCacheWriteSector_spec (lba : Nat) (bytes : Sector) : ∃ reached,
    (fsCacheWriteSector lba bytes).run state = (some (), reached) ∧ reached.Sound ∧
    reached.view = update state.view lba bytes := by
  cases ready : state.cache.ready with
  | false =>
    obtain ⟨coherentAfter, viewAfter⟩ := sound.coherent.put_unready ready lba bytes
    refine ⟨_, ?_, ⟨sound.healthy.put lba bytes, coherentAfter⟩, viewAfter⟩
    simp [fsCacheWriteSector, ready, rawWriteSector, Disk.diskWriteSector_of_healthy sound.healthy]
  | true =>
    obtain ⟨index, chosen, chosenTo, chosenHealthy, chosenCoherent,
      chosenView, chosenReady, others, replaceable⟩ := slotForWrite_spec sound lba
    let stored : CacheSlot :=
      { chosen.cache.slots index with
        used := true, dirty := true, lba := lba, data := bytes }
    have storable : chosen.Storable index stored := ⟨rfl, others, replaceable, Or.inl rfl⟩
    obtain ⟨coherentAfter, viewAfter⟩ :=
      stampSlot_spec chosenCoherent (chosenReady.trans ready) storable
    refine ⟨chosen.stampSlot index stored, ?_, ⟨chosenHealthy, coherentAfter⟩, ?_⟩
    · rw [fsCacheWriteSector, run_reads_bind, if_pos ready, run_bind_of_some chosenTo]
      rfl
    · rw [viewAfter, chosenView]

/-- One round of the sync loop on a healthy disk. -/
def flushSlot (state : CachedDisk) (index : Fin cacheSlots) : CachedDisk :=
  if (state.cache.slots index).used && (state.cache.slots index).dirty then
    state.writtenBack index
  else
    state

theorem Sound.flushSlot (index : Fin cacheSlots) :
    (state.flushSlot index).Sound ∧ (state.flushSlot index).view = state.view := by
  unfold CachedDisk.flushSlot
  split
  · rename_i flush
    have used : (state.cache.slots index).used = true := by
      simp only [Bool.and_eq_true] at flush
      exact flush.1
    exact ⟨⟨sound.healthy.put _ _, sound.coherent.writtenBack used⟩,
      view_writtenBack sound.coherent used⟩
  · exact ⟨sound, rfl⟩

omit sound

theorem flushSlot_slots (state : CachedDisk) (index other : Fin cacheSlots) :
    (state.flushSlot index).cache.slots other =
      { state.cache.slots other with
        dirty := (state.cache.slots other).dirty &&
            !(decide (other = index) && (state.cache.slots other).used) } := by
  unfold flushSlot
  by_cases same : other = index
  · subst same
    generalize hold : state.cache.slots other = slot
    rcases slot with ⟨used, dirty, lba, stamp, data⟩
    cases used <;> cases dirty <;> simp [writtenBack, hold]
  · split <;> simp [writtenBack, same]

variable (indices : List (Fin cacheSlots))
include indices

theorem syncSlots_of_sound : ∀ {state : CachedDisk}, state.Sound →
    (syncSlots indices).run state = (some (), runFrom flushSlot state indices) := by
  induction indices with
  | nil =>
    intro state _
    rfl
  | cons index rest ih =>
    intro state sound
    rw [runFrom_cons, ← ih (sound.flushSlot index).1]
    rw [syncSlots, run_reads_bind, flushSlot]
    cases (state.cache.slots index).used && (state.cache.slots index).dirty with
    | true =>
      exact run_bind_of_some (slotWriteBack_of_healthy sound.healthy index)
    | false => rfl

theorem Sound.runFrom_flushSlot :
    ∀ {state : CachedDisk}, state.Sound → (runFrom CachedDisk.flushSlot state indices).Sound ∧
        (runFrom CachedDisk.flushSlot state indices).view = state.view := by
  induction indices with
  | nil =>
    intro state sound
    exact ⟨sound, rfl⟩
  | cons index rest ih =>
    intro state sound
    obtain ⟨middleSound, middleView⟩ := sound.flushSlot index
    obtain ⟨reachedSound, reachedView⟩ := ih middleSound
    exact ⟨reachedSound, reachedView.trans middleView⟩

theorem runFrom_flushSlot_slots : ∀ (state : CachedDisk) (other : Fin cacheSlots),
      (runFrom flushSlot state indices).cache.slots other =
        { state.cache.slots other with
          dirty := (state.cache.slots other).dirty && !(decide (other ∈ indices) &&
                (state.cache.slots other).used) } := by
  induction indices with
  | nil =>
      intro state other
      simp
  | cons index rest ih =>
      intro state other
      rw [runFrom_cons, ih, flushSlot_slots]
      by_cases same : other = index
      · cases (state.cache.slots other).used <;> simp [same]
      · simp [same]

omit indices

theorem fsCacheSync_spec (sound : state.Sound) : ∃ reached,
    fsCacheSync.run state = (some (), reached) ∧ reached.Sound ∧ reached.view = state.view ∧
    reached.disk.sectors = state.view := by
  cases ready : state.cache.ready with
  | false =>
    refine ⟨state, by simp [fsCacheSync, ready], sound, rfl, ?_⟩
    funext lba
    exact (view_of_not_holds fun index => sound.coherent.not_holds ready index lba).symm
  | true =>
    let indices := List.finRange cacheSlots
    obtain ⟨reachedSound, reachedView⟩ := Sound.runFrom_flushSlot indices sound
    refine ⟨runFrom flushSlot state indices, ?_, reachedSound, reachedView, ?_⟩
    · rw [fsCacheSync, run_reads_bind, if_pos ready]
      exact syncSlots_of_sound indices sound
    · rw [← reachedView]
      funext lba
      by_cases cached : ∃ index, (runFrom flushSlot state indices).cache.Holds index lba
      · obtain ⟨index, held⟩ := cached
        have clean : ((runFrom flushSlot state indices).cache.slots index).dirty = false := by
          have used := held.1
          rw [runFrom_flushSlot_slots] at used ⊢
          have member : index ∈ indices := List.mem_finRange index
          change (state.cache.slots index).used = true at used
          simp [member, used]
        rw [view_of_holds reachedSound.coherent held,
          reachedSound.coherent.clean index held.1 clean, held.2]
      · refine (view_of_not_holds ?_).symm
        intro index held
        exact cached ⟨index, held⟩

end CachedDisk

/-- The calls the file system makes on the cache. -/
inductive CacheCall where
  | read (lba : Nat)
  | write (lba : Nat) (bytes : Sector)
  | sync

/-- The state a call leaves, whether it succeeds or fails. -/
def CacheCall.perform (state : CachedDisk) : CacheCall → CachedDisk
  | .read lba => ((fsCacheReadSector lba).run state).2
  | .write lba bytes => ((fsCacheWriteSector lba bytes).run state).2
  | .sync => (fsCacheSync.run state).2

/-- The plain array the cache stands for: a write replaces one sector. -/
def CacheCall.apply (contents : Nat → Sector) : CacheCall → Nat → Sector
  | .write lba bytes => update contents lba bytes
  | .read _ => contents
  | .sync => contents

/-- The last written bytes of every sector, or its initial bytes. -/
def lastWritten (initial : Nat → Sector) (calls : List CacheCall) : Nat → Sector :=
  runFrom CacheCall.apply initial calls

theorem cacheCall_keeps (state : CachedDisk) (contents : Nat → Sector) (call : CacheCall)
    (related : state.Sound ∧ state.view = contents) : (call.perform state).Sound ∧
      (call.perform state).view = call.apply contents := by
  obtain ⟨sound, viewed⟩ := related
  cases call with
  | read lba =>
    obtain ⟨reached, performed, reachedSound, reachedView⟩ :=
      CachedDisk.fsCacheReadSector_spec sound lba
    simp only [CacheCall.perform, CacheCall.apply, performed]
    exact ⟨reachedSound, reachedView.trans viewed⟩
  | write lba bytes =>
    obtain ⟨reached, performed, reachedSound, reachedView⟩ :=
      CachedDisk.fsCacheWriteSector_spec sound lba bytes
    simp only [CacheCall.perform, CacheCall.apply, performed]
    exact ⟨reachedSound, by rw [reachedView, viewed]⟩
  | sync =>
    obtain ⟨reached, performed, reachedSound, reachedView, _⟩ := CachedDisk.fsCacheSync_spec sound
    simp only [CacheCall.perform, CacheCall.apply, performed]
    exact ⟨reachedSound, reachedView.trans viewed⟩

/-- A cache no call has used yet, initialised or not, over a disk whose
transfers succeed. -/
structure CachedDisk.Fresh (state : CachedDisk) : Prop where
  healthy : state.disk.Healthy
  unused : ∀ index, (state.cache.slots index).used = false

theorem CachedDisk.Fresh.sound {state : CachedDisk} (fresh : state.Fresh) :
    state.Sound ∧ state.view = state.disk.sectors := by
  have absent : ∀ index lba, ¬ state.cache.Holds index lba := by
    intro index lba held
    simp [FsCache.Holds, fresh.unused index] at held
  refine ⟨⟨fresh.healthy, ⟨?_, ?_, fun _ => fresh.unused⟩⟩, ?_⟩
  · intro first second lba held
    exact absurd held (absent first lba)
  · intro index used
    simp [fresh.unused index] at used
  · funext lba
    exact CachedDisk.view_of_not_holds fun index => absent index lba

/-- In every state a sequence of calls can reach from an unused cache, no two
used slots hold the same sector, reading a sector succeeds with the bytes last
written to it, or its initial bytes, and a sync puts the last written bytes of
every sector on the disk. -/
theorem fsCache_refines_sectorArray
    (start : CachedDisk) (fresh : start.Fresh) (calls : List CacheCall) :
    let reached := runFrom CacheCall.perform start calls
    let contents := lastWritten start.disk.sectors calls
    (∀ lba, ((fsCacheReadSector lba).run reached).1 = some (contents lba)) ∧ (∀ first second lba,
      reached.cache.Holds first lba → reached.cache.Holds second lba → first = second) ∧
    (fsCacheSync.run reached).1 = some () ∧
    (fsCacheSync.run reached).2.disk.sectors = contents := by
  intro reached contents
  obtain ⟨sound, viewed⟩ : reached.Sound ∧ reached.view = contents :=
    runFrom_simulates cacheCall_keeps fresh.sound calls
  refine ⟨?_, sound.coherent.unique, ?_⟩
  · intro lba
    obtain ⟨after, performed, _⟩ := CachedDisk.fsCacheReadSector_spec sound lba
    rw [performed, viewed]
  · obtain ⟨after, performed, _, _, onDisk⟩ := CachedDisk.fsCacheSync_spec sound
    rw [performed]
    exact ⟨rfl, onDisk.trans viewed⟩

/-- An initialised cache over a zeroed disk without faults. -/
def blankCachedDisk : CachedDisk :=
  (fsCacheInit.run
    { cache :=
        { slots := fun _ => ⟨false, false, 0, 0, fun _ => 0⟩
          clock := 0
          hits := 0
          misses := 0
          ready := false }
      disk :=
        { sectors := fun _ _ => 0
          faults := fun _ => none
          transfers := 0
          history := [] } }).2

theorem blankCachedDisk_fresh : blankCachedDisk.Fresh := ⟨fun _ _ => rfl, fun _ => rfl⟩

theorem fsCache_refines_sectorArray_blank : blankCachedDisk.Fresh ∧ ((fsCacheReadSector 7).run
        (runFrom CacheCall.perform blankCachedDisk [.write 7 (fun _ => 5), .read 9, .sync])).1 =
        some (fun _ => 5) := ⟨blankCachedDisk_fresh,
    (fsCache_refines_sectorArray blankCachedDisk blankCachedDisk_fresh
      [.write 7 (fun _ => 5), .read 9, .sync]).1 7⟩

end KnitOS.Storage
