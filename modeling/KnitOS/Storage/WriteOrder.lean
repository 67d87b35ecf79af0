import KnitOS.Lib.Images
import KnitOS.Storage.Coherence
import Mathlib.Data.Fintype.Card

/-!
# The order in which cached writes reach the disk

While a burst of cached writes runs, eviction only writes back slots that the
burst has not touched; the sync then writes every dirty slot once.  The burst
must be smaller than the cache, and the 32-bit clock must not wrap around.
-/

namespace KnitOS.Storage

open Lib Lib.Command

namespace CachedDisk

/-- One cached write of the burst. -/
def burstStep (state : CachedDisk) (write : Nat × Sector) : CachedDisk :=
  ((fsCacheWriteSector write.1 write.2).run state).2

/-- The slots stamped after the clock value `since`. -/
def stampedSince (state : CachedDisk) (since : Nat) : Finset (Fin cacheSlots) :=
  Finset.univ.filter fun index => since < (state.cache.slots index).stamp

theorem oldestSlot_le_aux (cache : FsCache)
    (indices : List (Fin cacheSlots)) :
    ∀ (best : Fin cacheSlots),
      let chosen :=
        indices.foldl
          (fun best index =>
            if (cache.slots index).stamp < (cache.slots best).stamp then
              index
            else
              best)
          best
      (cache.slots chosen).stamp ≤ (cache.slots best).stamp ∧
        ∀ index, index ∈ indices →
          (cache.slots chosen).stamp ≤ (cache.slots index).stamp := by
  induction indices with
  | nil =>
    intro best
    simp
  | cons head rest ih =>
    intro best
    simp only [List.foldl_cons]
    by_cases smaller : (cache.slots head).stamp < (cache.slots best).stamp
    · rw [if_pos smaller]
      obtain ⟨leHead, leRest⟩ := ih head
      refine ⟨by omega, ?_⟩
      exact List.forall_mem_cons.mpr ⟨leHead, leRest⟩
    · rw [if_neg smaller]
      obtain ⟨leBest, leRest⟩ := ih best
      refine ⟨leBest, ?_⟩
      exact List.forall_mem_cons.mpr ⟨by omega, leRest⟩

theorem oldestSlot_le (cache : FsCache) (index : Fin cacheSlots) :
    (cache.slots cache.oldestSlot).stamp ≤ (cache.slots index).stamp := by
  have least := oldestSlot_le_aux cache (List.finRange cacheSlots).tail 0
  by_cases first : index = 0
  · subst first
    exact least.1
  · refine least.2 index ?_
    have member : index ∈ List.finRange cacheSlots := List.mem_finRange index
    rw [List.finRange_succ] at member ⊢
    exact (List.mem_cons.mp member).resolve_left first

/-- What holds after a part of the burst has run.  `origin` is the state
before the burst and `written` the writes made so far. -/
structure Burst (origin : CachedDisk) (written : List (Nat × Sector))
    (state : CachedDisk) : Prop where
  sound : state.Sound
  ready : state.cache.ready = true
  clock : state.cache.clock = origin.cache.clock + written.length
  stamps : ∀ index, (state.cache.slots index).stamp ≤ state.cache.clock
  few : (state.stampedSince origin.cache.clock).card ≤ written.length
  -- a slot the burst has not touched is as it was, up to its dirty flag
  old : ∀ index, (state.cache.slots index).stamp ≤ origin.cache.clock → ∃ dirty,
        state.cache.slots index = { origin.cache.slots index with dirty := dirty }
  fresh : ∀ write, write ∈ written → ∃ index, state.cache.Holds index write.1 ∧
      (state.cache.slots index).dirty = true ∧ origin.cache.clock < (state.cache.slots index).stamp
  view : state.view = imageAfter origin.view written
  history : ∃ evicted, state.disk.history = origin.disk.history ++ evicted ∧
    state.disk.sectors = imageAfter origin.disk.sectors evicted ∧
    ∀ write, write ∈ evicted → write.2 = origin.view write.1

variable {origin : CachedDisk}

theorem Burst.start (sound : origin.Sound) (ready : origin.cache.ready = true)
    (stamps : ∀ index, (origin.cache.slots index).stamp ≤ origin.cache.clock) :
    Burst origin [] origin := by
  refine ⟨sound, ready, rfl, stamps, ?_, ?_, by simp, rfl, ⟨[], by simp, rfl, by simp⟩⟩
  · have empty : origin.stampedSince origin.cache.clock = ∅ := by
      apply Finset.filter_eq_empty_iff.mpr
      intro index _
      have := stamps index
      omega
    simp [empty]
  · intro index _
    exact ⟨(origin.cache.slots index).dirty, rfl⟩

variable {written : List (Nat × Sector)} {state : CachedDisk}

theorem Burst.oldestSlot_untouched (burst : Burst origin written state)
    (small : written.length < cacheSlots) : (state.cache.slots state.cache.oldestSlot).stamp ≤
      origin.cache.clock := by
  have notAll : state.stampedSince origin.cache.clock ≠ Finset.univ := by
    intro all
    have few := burst.few
    rw [all, Finset.card_univ, Fintype.card_fin] at few
    omega
  obtain ⟨index, untouched⟩ : ∃ index, index ∉ state.stampedSince origin.cache.clock := by
    by_contra none
    push Not at none
    exact notAll (Finset.eq_univ_of_forall none)
  have indexOld : (state.cache.slots index).stamp ≤ origin.cache.clock := by
    simpa [stampedSince] using untouched
  exact (oldestSlot_le state.cache index).trans indexOld

variable (originSound : origin.Sound)
include originSound

theorem Burst.writtenBack (burst : Burst origin written state) {index : Fin cacheSlots}
    (used : (state.cache.slots index).used = true)
    (untouched : (state.cache.slots index).stamp ≤ origin.cache.clock) :
    Burst origin written (state.writtenBack index) := by
  have sameStamp : ∀ other, ((state.writtenBack index).cache.slots other).stamp =
        (state.cache.slots other).stamp := by
    intro other
    by_cases same : other = index
    · subst same
      simp [CachedDisk.writtenBack]
    · simp [CachedDisk.writtenBack, same]
  refine ⟨⟨burst.sound.healthy.put _ _,
    burst.sound.coherent.writtenBack used⟩, burst.ready, burst.clock, ?_, ?_, ?_, ?_, ?_, ?_⟩
  · intro other
    rw [sameStamp]
    exact burst.stamps other
  · have sameSet : (state.writtenBack index).stampedSince origin.cache.clock =
          state.stampedSince origin.cache.clock := by
      simp only [stampedSince, sameStamp]
    rw [sameSet]
    exact burst.few
  · intro other otherOld
    rw [sameStamp] at otherOld
    obtain ⟨dirty, otherSame⟩ := burst.old other otherOld
    by_cases same : other = index
    · subst same
      refine ⟨false, ?_⟩
      simp [CachedDisk.writtenBack, otherSame]
    · refine ⟨dirty, ?_⟩
      simp [CachedDisk.writtenBack, same, otherSame]
  · intro write member
    obtain ⟨other, held, dirty, recent⟩ := burst.fresh write member
    have different : other ≠ index := by
      intro same
      rw [same] at recent
      omega
    refine ⟨other, (writtenBack_holds_iff state index other _).mpr held, ?_, ?_⟩
    · simpa [CachedDisk.writtenBack, different] using dirty
    · rw [sameStamp]
      exact recent
  · rw [view_writtenBack burst.sound.coherent used]
    exact burst.view
  · obtain ⟨evicted, history, sectors, oldBytes⟩ := burst.history
    refine ⟨evicted ++ [((state.cache.slots index).lba,
      (state.cache.slots index).data)], ?_, ?_, ?_⟩
    · simp [CachedDisk.writtenBack, Disk.put, history]
    · rw [imageAfter_append, ← sectors]
      rfl
    · intro write member
      rcases List.mem_append.mp member with earlier | last
      · exact oldBytes write earlier
      · rw [List.mem_singleton] at last
        obtain ⟨dirty, indexSame⟩ := burst.old index untouched
        have originUsed : (origin.cache.slots index).used = true := by
          rw [indexSame] at used
          exact used
        have originHolds : origin.cache.Holds index (state.cache.slots index).lba := by
          rw [indexSame]
          exact ⟨originUsed, rfl⟩
        rw [last, view_of_holds originSound.coherent originHolds, indexSame]

theorem Burst.slotForWrite
    (burst : Burst origin written state) (small : written.length < cacheSlots) (lba : Nat) :
    ∃ index chosen, (slotForWrite lba).run state = (some index, chosen) ∧
      Burst origin written chosen ∧ (∀ other, chosen.cache.Holds index other →
        origin.cache.clock < (chosen.cache.slots index).stamp → other = lba) := by
  cases found : state.cache.slotFind lba with
  | some index =>
    have held := FsCache.holds_of_slotFind found
    refine ⟨index, state, by simp [Storage.slotForWrite, found], burst, ?_⟩
    intro other otherHeld _
    exact otherHeld.2.symm.trans held.2
  | none =>
    have oldest := burst.oldestSlot_untouched small
    have runs : (Storage.slotForWrite lba).run state = slotEvict.run state := by
      simp [Storage.slotForWrite, found]
    rw [runs]
    rcases slotEvict_cases burst.sound.healthy with
      ⟨index, unused, evicted⟩ | ⟨_, _, evicted⟩ | ⟨full, _, evicted⟩
    · refine ⟨index, state, evicted, burst, ?_⟩
      intro other held _
      simp [FsCache.Holds, unused] at held
    · refine ⟨_, state, evicted, burst, ?_⟩
      intro other _ recent
      omega
    · refine ⟨_, _, evicted, burst.writtenBack originSound (full _) oldest, ?_⟩
      intro other _ recent
      have stamp : ((state.writtenBack state.cache.oldestSlot).cache.slots
            state.cache.oldestSlot).stamp = (state.cache.slots state.cache.oldestSlot).stamp := by
        simp [CachedDisk.writtenBack]
      omega

theorem Burst.step (burst : Burst origin written state) (small : written.length < cacheSlots)
    (noWrap : origin.cache.clock + written.length + 1 < 4294967296)
    (write : Nat × Sector) :
    (fsCacheWriteSector write.1 write.2).run state = (some (), state.burstStep write) ∧
      Burst origin (written ++ [write]) (state.burstStep write) := by
  obtain ⟨reached, returned, reachedSound, reachedView⟩ :=
    fsCacheWriteSector_spec burst.sound write.1 write.2
  obtain ⟨index, chosen, chosenTo, chosenBurst, exclusive⟩ :=
    burst.slotForWrite originSound small write.1
  have reachedEq : state.burstStep write = reached := by
    rw [burstStep, returned]
  have stored : reached = chosen.stampSlot index
          { chosen.cache.slots index with
            used := true, dirty := true, lba := write.1, data := write.2 } := by
    have runs := returned
    rw [fsCacheWriteSector, run_reads_bind, if_pos burst.ready, run_bind_of_some chosenTo] at runs
    exact (congrArg Prod.snd runs).symm
  have nextStamp : chosen.cache.nextStamp = origin.cache.clock + written.length + 1 := by
    rw [FsCache.nextStamp, chosenBurst.clock, u32_of_lt noWrap]
  have slotAt : reached.cache.slots index =
      { chosen.cache.slots index with
        used := true, dirty := true, lba := write.1, data := write.2
        stamp := origin.cache.clock + written.length + 1 } := by
    rw [stored]
    simp [stampSlot, FsCache.stampSlot, FsCache.setSlot, nextStamp]
  have slotElse : ∀ other, other ≠ index →
      reached.cache.slots other = chosen.cache.slots other := by
    intro other different
    rw [stored]
    simp [stampSlot, FsCache.stampSlot, FsCache.setSlot, different]
  have clockAfter : reached.cache.clock = origin.cache.clock + written.length + 1 := by
    rw [stored]
    simp [stampSlot, FsCache.stampSlot, nextStamp]
  rw [reachedEq]
  refine ⟨returned, ⟨reachedSound, ?_, ?_, ?_, ?_, ?_, ?_, ?_, ?_⟩⟩
  · rw [stored]
    exact chosenBurst.ready
  · rw [clockAfter, List.length_append, List.length_singleton, Nat.add_assoc]
  · intro other
    by_cases same : other = index
    · rw [same, slotAt, clockAfter]
    · have before := chosenBurst.stamps other
      rw [chosenBurst.clock] at before
      rw [slotElse other same, clockAfter]
      omega
  · have subset : reached.stampedSince origin.cache.clock ⊆
          insert index (chosen.stampedSince origin.cache.clock) := by
      intro other member
      by_cases same : other = index
      · exact Finset.mem_insert.mpr (Or.inl same)
      · refine Finset.mem_insert.mpr (Or.inr ?_)
        simpa [stampedSince, slotElse other same] using member
    calc (reached.stampedSince origin.cache.clock).card
        ≤ (insert index (chosen.stampedSince origin.cache.clock)).card := Finset.card_le_card subset
      _ ≤ (chosen.stampedSince origin.cache.clock).card + 1 := Finset.card_insert_le _ _
      _ ≤ (written ++ [write]).length := by
          have few := chosenBurst.few
          simp only [List.length_append, List.length_singleton]
          omega
  · intro other otherOld
    by_cases same : other = index
    · rw [same, slotAt] at otherOld
      simp only at otherOld
      omega
    · rw [slotElse other same] at otherOld ⊢
      exact chosenBurst.old other otherOld
  · intro earlier member
    by_cases same : earlier.1 = write.1
    · refine ⟨index, ?_, ?_, ?_⟩
      · rw [FsCache.Holds, slotAt]
        exact ⟨rfl, same.symm⟩
      · rw [slotAt]
      · rw [slotAt]
        simp only
        omega
    · have earlierMember : earlier ∈ written := by
        rcases List.mem_append.mp member with before | last
        · exact before
        · rw [List.mem_singleton] at last
          exact absurd (congrArg Prod.fst last) same
      obtain ⟨other, held, dirty, recent⟩ := chosenBurst.fresh earlier earlierMember
      have different : other ≠ index := by
        intro otherSame
        rw [otherSame] at held recent
        exact same (exclusive earlier.1 held recent)
      refine ⟨other, ?_, ?_, ?_⟩
      · rw [FsCache.Holds, slotElse other different]
        exact held
      · rw [slotElse other different]
        exact dirty
      · rw [slotElse other different]
        exact recent
  · rw [reachedView, burst.view, imageAfter_append]
    rfl
  · obtain ⟨evicted, history, sectors, oldBytes⟩ := chosenBurst.history
    refine ⟨evicted, ?_, ?_, oldBytes⟩
    · rw [stored]
      exact history
    · rw [stored]
      exact sectors

theorem Burst.run
    (writes : List (Nat × Sector)) : ∀ {state : CachedDisk} {written : List (Nat × Sector)},
      Burst origin written state → written.length + writes.length < cacheSlots →
      origin.cache.clock + written.length + writes.length < 4294967296 →
        Burst origin (written ++ writes) (runFrom burstStep state writes) := by
  induction writes with
  | nil =>
    intro state written burst _ _
    rw [List.append_nil]
    exact burst
  | cons write rest ih =>
    intro state written burst small noWrap
    rw [List.length_cons] at small noWrap
    have stepped := (burst.step originSound (by omega) (by omega) write).2
    have finished := ih stepped (by rw [List.length_append, List.length_singleton]; omega)
      (by rw [List.length_append, List.length_singleton]; omega)
    rw [List.append_assoc] at finished
    exact finished

omit originSound

/-- The slots a sync writes to the disk, in slot order. -/
def dirtySlots (state : CachedDisk) : List (Fin cacheSlots) :=
  (List.finRange cacheSlots).filter fun index =>
    (state.cache.slots index).used && (state.cache.slots index).dirty

/-- The sector writes of a sync. -/
def syncWrites (state : CachedDisk) : List (Nat × Sector) :=
  state.dirtySlots.map fun index =>
    ((state.cache.slots index).lba, (state.cache.slots index).data)

/-- The sectors of the dirty slots among some, in their order. -/
def slotWrites (state : CachedDisk) (indices : List (Fin cacheSlots)) : List (Nat × Sector) :=
  (indices.filter fun index =>
    (state.cache.slots index).used && (state.cache.slots index).dirty).map fun index =>
      ((state.cache.slots index).lba, (state.cache.slots index).data)

theorem slotWrites_congr {other : CachedDisk} {indices : List (Fin cacheSlots)}
    (same : ∀ index ∈ indices, other.cache.slots index = state.cache.slots index) :
    other.slotWrites indices = state.slotWrites indices := by
  unfold slotWrites
  rw [List.filter_congr fun index member => by rw [same index member]]
  apply List.map_congr_left
  intro index member
  rw [same index (List.mem_of_mem_filter member)]

theorem runFrom_flushSlot_disk (indices : List (Fin cacheSlots)) :
    ∀ (state : CachedDisk), indices.Nodup → (runFrom flushSlot state indices).disk.history =
        state.disk.history ++ state.slotWrites indices ∧
      (runFrom flushSlot state indices).disk.sectors =
        imageAfter state.disk.sectors (state.slotWrites indices) := by
  induction indices with
  | nil =>
    intro state _
    exact ⟨(List.append_nil _).symm, rfl⟩
  | cons index rest ih =>
    intro state nodup
    obtain ⟨notInRest, restNodup⟩ := List.nodup_cons.mp nodup
    have restSame : (state.flushSlot index).slotWrites rest = state.slotWrites rest := by
      apply slotWrites_congr
      intro other member
      have different : other ≠ index := fun same => notInRest (same ▸ member)
      rw [flushSlot_slots]
      simp [different]
    obtain ⟨restHistory, restSectors⟩ := ih (state.flushSlot index) restNodup
    rw [runFrom_cons, restHistory, restSectors, restSame]
    cases flush : (state.cache.slots index).used && (state.cache.slots index).dirty with
    | true =>
      simp [flushSlot, flush, slotWrites, CachedDisk.writtenBack, Disk.put, imageAfter]
    | false => simp [flushSlot, flush, slotWrites]

theorem fsCacheSync_writes (sound : state.Sound)
    (ready : state.cache.ready = true) : (fsCacheSync.run state).2.disk.history =
        state.disk.history ++ state.syncWrites ∧ (fsCacheSync.run state).2.disk.sectors =
        imageAfter state.disk.sectors state.syncWrites := by
  have runs : (fsCacheSync.run state).2 = runFrom flushSlot state (List.finRange cacheSlots) := by
    rw [fsCacheSync, run_reads_bind, if_pos ready,
      syncSlots_of_sound (List.finRange cacheSlots) sound]
  rw [runs]
  exact runFrom_flushSlot_disk (List.finRange cacheSlots) state (List.nodup_finRange cacheSlots)

theorem used_of_mem_dirtySlots {index : Fin cacheSlots} (member : index ∈ state.dirtySlots) :
    (state.cache.slots index).used = true := by
  have flush := List.of_mem_filter member
  simp only [Bool.and_eq_true] at flush
  exact flush.1

theorem syncWrites_nodup (coherent : state.Coherent) : (state.syncWrites.map Prod.fst).Nodup := by
  rw [syncWrites, List.map_map]
  refine List.Nodup.map_on ?_ ((List.nodup_finRange cacheSlots).filter _)
  intro first firstMember second secondMember same
  exact coherent.unique first second _ ⟨used_of_mem_dirtySlots firstMember, same⟩
    ⟨used_of_mem_dirtySlots secondMember, rfl⟩

theorem syncWrites_view (coherent : state.Coherent)
    {write : Nat × Sector} (member : write ∈ state.syncWrites) : write.2 = state.view write.1 := by
  obtain ⟨index, dirtyMember, writeEq⟩ := List.mem_map.mp member
  rw [← writeEq]
  exact (view_of_holds coherent ⟨used_of_mem_dirtySlots dirtyMember, rfl⟩).symm

theorem mem_syncWrites_of_dirty (coherent : state.Coherent) {index : Fin cacheSlots} {lba : Nat}
    (held : state.cache.Holds index lba) (dirty : (state.cache.slots index).dirty = true) :
    (lba, state.view lba) ∈ state.syncWrites := by
  refine List.mem_map.mpr ⟨index, ?_, ?_⟩
  · refine List.mem_filter.mpr ⟨List.mem_finRange index, ?_⟩
    simp [held.1, dirty]
  · rw [held.2, view_of_holds coherent held]

/-- The disk writes of a burst followed by a sync: first old contents, from
evictions, then final contents, every sector at most once and every sector of
the burst at least once. -/
theorem burst_sync_writes (sound : origin.Sound)
    (ready : origin.cache.ready = true) (stamps : ∀ index,
      (origin.cache.slots index).stamp ≤ origin.cache.clock)
    {writes : List (Nat × Sector)} (small : writes.length < cacheSlots)
    (noWrap : origin.cache.clock + writes.length < 4294967296) : ∃ evicted synced,
      (fsCacheSync.run (runFrom burstStep origin writes)).2.disk.history =
        origin.disk.history ++ (evicted ++ synced) ∧
      (∀ write, write ∈ evicted → write.2 = origin.view write.1) ∧ (∀ write, write ∈ synced →
        write.2 = imageAfter origin.view writes write.1) ∧ (synced.map Prod.fst).Nodup ∧
      (∀ write, write ∈ writes → (write.1, imageAfter origin.view writes write.1) ∈ synced) := by
  have burst : Burst origin writes (runFrom burstStep origin writes) := by
    have finished := Burst.run sound writes (Burst.start sound ready stamps)
      (by simpa using small) (by simpa using noWrap)
    rwa [List.nil_append] at finished
  obtain ⟨evicted, history, _, oldBytes⟩ := burst.history
  obtain ⟨syncHistory, _⟩ := fsCacheSync_writes burst.sound burst.ready
  refine ⟨evicted, (runFrom burstStep origin writes).syncWrites, ?_,
    oldBytes, ?_, syncWrites_nodup burst.sound.coherent, ?_⟩
  · rw [syncHistory, history, List.append_assoc]
  · intro write member
    rw [← burst.view]
    exact syncWrites_view burst.sound.coherent member
  · intro write member
    obtain ⟨index, held, dirty, _⟩ := burst.fresh write member
    rw [← burst.view]
    exact mem_syncWrites_of_dirty burst.sound.coherent held dirty

end CachedDisk

end KnitOS.Storage
