import KnitOS.Storage.Coherence

/-!
# Which slot is evicted

`slot_evict` is meant to prefer clean slots, but its second scan starts over, so
that a clean slot is chosen only when it is the oldest of all.
-/

namespace KnitOS.Storage

open Lib.Command

section

variable {α : Type} [LinearOrder α] (key : α → Nat)

/-- The first item has the smaller key, or it comes first among equals. -/
def Before (first second : α) : Prop :=
  key first < key second ∨ key first = key second ∧ first ≤ second

theorem before_refl (item : α) : Before key item item := Or.inr ⟨rfl, le_refl item⟩

variable {key}

theorem Before.key_le {first second : α} (before : Before key first second) :
    key first ≤ key second := by
  rcases before with smaller | ⟨equal, _⟩
  · exact smaller.le
  · exact equal.le

theorem Before.trans {first second third : α}
    (left : Before key first second) (right : Before key second third) :
    Before key first third := by
  rcases left with smaller | ⟨equal, earlier⟩
  · exact Or.inl (smaller.trans_le right.key_le)
  · rcases right with smaller | ⟨equalAgain, earlierAgain⟩
    · exact Or.inl (equal.trans_lt smaller)
    · exact Or.inr ⟨equal.trans equalAgain, earlier.trans earlierAgain⟩

theorem foldl_before (items : List α) : ∀ (best : α), (best :: items).Pairwise (fun first second =>
      first < second) →
    ∀ item ∈ best :: items, Before key (items.foldl
          (fun best item => if key item < key best then item else best) best) item := by
  induction items with
  | nil =>
    intro best _ item member
    rw [List.mem_singleton.mp member]
    exact before_refl key best
  | cons next rest ih =>
    intro best ordered item member
    obtain ⟨bestFirst, orderedRest⟩ := List.pairwise_cons.mp ordered
    have bestNext : best < next := bestFirst next (by simp)
    rw [List.foldl_cons]
    by_cases smaller : key next < key best
    · rw [if_pos smaller]
      have scanned := ih next orderedRest
      rcases List.mem_cons.mp member with isBest | later
      · rw [isBest]
        exact (scanned next (by simp)).trans (Or.inl smaller)
      · exact scanned item later
    · rw [if_neg smaller]
      have orderedBest : (best :: rest).Pairwise (fun first second =>
          first < second) := by
        refine List.pairwise_cons.mpr ⟨?_, ?_⟩
        · intro other later
          exact bestFirst other (List.mem_cons_of_mem next later)
        · exact (List.pairwise_cons.mp orderedRest).2
      have scanned := ih best orderedBest
      have beforeNext : Before key best next := by
        rcases Nat.lt_or_ge (key best) (key next) with less | greater
        · exact Or.inl less
        · exact Or.inr ⟨by omega, bestNext.le⟩
      rcases List.mem_cons.mp member with isBest | later
      · rw [isBest]
        exact scanned best (by simp)
      · rcases List.mem_cons.mp later with isNext | laterStill
        · rw [isNext]
          exact (scanned best (by simp)).trans beforeNext
        · exact scanned item (List.mem_cons_of_mem best laterStill)

end

theorem oldestSlot_before (cache : FsCache) (index : Fin cacheSlots) :
    (cache.slots cache.oldestSlot).stamp < (cache.slots index).stamp ∨
      (cache.slots cache.oldestSlot).stamp = (cache.slots index).stamp ∧
        cache.oldestSlot ≤ index := by
  have split : List.finRange cacheSlots = 0 :: (List.finRange cacheSlots).tail := by
    rw [List.finRange_succ, List.tail_cons]
  have ordered := List.pairwise_lt_finRange cacheSlots
  have member := List.mem_finRange index
  rw [split] at ordered member
  exact @foldl_before _ _ (fun index => (cache.slots index).stamp) _ 0 ordered index member

theorem oldestSlot_stamp_le (cache : FsCache) (index : Fin cacheSlots) :
    (cache.slots cache.oldestSlot).stamp ≤ (cache.slots index).stamp := by
  rcases oldestSlot_before cache index with less | ⟨equal, _⟩
  · exact less.le
  · exact equal.le

/-- The slot is of a kind, and no slot of the kind is older. -/
def FsCache.OldestOf (cache : FsCache) (isDirty : Bool) (index : Fin cacheSlots) : Prop :=
  (cache.slots index).dirty = isDirty ∧
    ∀ other, (cache.slots other).dirty = isDirty →
      (cache.slots index).stamp ≤ (cache.slots other).stamp

/-- What `slot_evict` should do with a full cache: take the oldest clean slot
and touch nothing, and only without a clean slot write the oldest dirty one
back. -/
structure PrefersClean (state : CachedDisk) : Prop where
  clean : (∃ index, (state.cache.slots index).dirty = false) →
    ∃ index, slotEvict.run state = (some index, state) ∧ state.cache.OldestOf false index
  dirty : (∀ index, (state.cache.slots index).dirty = true) →
    ∃ index, state.cache.OldestOf true index ∧
      slotEvict.run state = (slotWriteBack index >>= fun _ => pure index).run state

/-- A clean slot is older than every dirty one; among slots of equal stamp, the
one with the smaller number counts as older. -/
def FsCache.CleanIsOldest (cache : FsCache) : Prop :=
  ∃ index, (cache.slots index).dirty = false ∧
    ∀ other, (cache.slots other).dirty = true →
      (cache.slots index).stamp < (cache.slots other).stamp ∨
        (cache.slots index).stamp = (cache.slots other).stamp ∧ index < other

theorem FsCache.cleanIsOldest_iff (cache : FsCache) :
    cache.CleanIsOldest ↔ (cache.slots cache.oldestSlot).dirty = false := by
  constructor
  · rintro ⟨index, clean, older⟩
    by_contra notClean
    have dirty : (cache.slots cache.oldestSlot).dirty = true := by
      simpa using notClean
    rcases oldestSlot_before cache index, older cache.oldestSlot dirty with
      ⟨less | ⟨equal, earlier⟩, less' | ⟨equal', earlier'⟩⟩
    · exact absurd less (Nat.lt_asymm less')
    · exact absurd less (by omega)
    · exact absurd less' (by omega)
    · exact absurd earlier' (not_lt.mpr earlier)
  · intro clean
    refine ⟨cache.oldestSlot, clean, ?_⟩
    intro other dirty
    have different : cache.oldestSlot ≠ other := by
      intro same
      rw [same, dirty] at clean
      cases clean
    rcases oldestSlot_before cache other with less | ⟨equal, earlier⟩
    · exact Or.inl less
    · exact Or.inr ⟨equal, lt_of_le_of_ne earlier different⟩

section

variable {state : CachedDisk}
  (full : ∀ index, (state.cache.slots index).used = true)

include full

theorem firstUnused_of_full : state.cache.firstUnused = none := by
  rw [FsCache.firstUnused, List.find?_eq_none]
  intro index _
  simp [full index]

theorem slotEvict_run_of_full : slotEvict.run state =
    (whenever (state.cache.slots state.cache.oldestSlot).dirty
        (slotWriteBack state.cache.oldestSlot) >>= fun _ =>
      pure state.cache.oldestSlot).run state := by
  rw [slotEvict, run_reads_bind, firstUnused_of_full full]

theorem slotEvict_run_clean (clean : (state.cache.slots state.cache.oldestSlot).dirty = false) :
    slotEvict.run state = (some state.cache.oldestSlot, state) := by
  rw [slotEvict_run_of_full full, clean, whenever_false]
  rfl

theorem slotEvict_run_dirty (dirty : (state.cache.slots state.cache.oldestSlot).dirty = true) :
    slotEvict.run state = (slotWriteBack state.cache.oldestSlot >>= fun _ =>
        pure state.cache.oldestSlot).run state := by
  rw [slotEvict_run_of_full full, dirty, whenever_true]

omit full in
theorem slotWriteBack_transfers (index : Fin cacheSlots) :
    ((slotWriteBack index).run state).2.disk.transfers = state.disk.transfers + 1 := by
  unfold slotWriteBack Disk.diskWriteSector
  dsimp only
  cases state.disk.faults state.disk.transfers with
  | none => rfl
  | some garbage => rfl

theorem slotEvict_transfers (dirty : (state.cache.slots state.cache.oldestSlot).dirty = true) :
    (slotEvict.run state).2.disk.transfers = state.disk.transfers + 1 := by
  rw [slotEvict_run_dirty full dirty, ← slotWriteBack_transfers state.cache.oldestSlot, run_bind]
  rcases (slotWriteBack state.cache.oldestSlot).run state with
    ⟨outcome, reached⟩
  cases outcome with
  | none => rfl
  | some value => rfl

/-- A full cache prefers clean slots exactly when a clean slot is the oldest, or
when there is none. -/
theorem slotEvict_prefersClean_iff : PrefersClean state ↔ state.cache.CleanIsOldest ∨
        ∀ index, (state.cache.slots index).dirty = true := by
  rw [FsCache.cleanIsOldest_iff]
  constructor
  · intro prefers
    by_contra neither
    rw [not_or] at neither
    obtain ⟨oldestNotClean, notAllDirty⟩ := neither
    have dirty : (state.cache.slots state.cache.oldestSlot).dirty = true := by
      simpa using oldestNotClean
    have someClean : ∃ index, (state.cache.slots index).dirty = false := by
      simpa using notAllDirty
    obtain ⟨index, evicted, _⟩ := prefers.clean someClean
    have transfers := slotEvict_transfers full dirty
    rw [evicted] at transfers
    exact absurd transfers (Nat.ne_of_lt (Nat.lt_succ_self _))
  · rintro (clean | allDirty)
    · refine ⟨fun _ => ?_, fun allDirty => ?_⟩
      · refine ⟨state.cache.oldestSlot, slotEvict_run_clean full clean, clean, ?_⟩
        intro other _
        exact oldestSlot_stamp_le state.cache other
      · rw [allDirty] at clean
        cases clean
    · refine ⟨fun someClean => ?_, fun _ => ?_⟩
      · obtain ⟨index, clean⟩ := someClean
        rw [allDirty] at clean
        cases clean
      · refine ⟨state.cache.oldestSlot, ⟨allDirty _, ?_⟩, slotEvict_run_dirty full (allDirty _)⟩
        intro other _
        exact oldestSlot_stamp_le state.cache other

end

/-- A full cache over a disk of zeros; the first slot is the oldest. -/
def fullCachedDisk (firstDirty : Bool) : CachedDisk :=
  { cache :=
      { slots := fun index =>
          if index = 0 then ⟨true, firstDirty, 0, 1, fun _ => 0⟩
          else ⟨true, false, index.val, 2, fun _ => 0⟩
        clock := 2
        hits := 0
        misses := 0
        ready := true }
    disk :=
      { sectors := fun _ _ => 0
        faults := fun _ => none
        transfers := 0
        history := [] } }

theorem fullCachedDisk_full (firstDirty : Bool) (index : Fin cacheSlots) :
    ((fullCachedDisk firstDirty).cache.slots index).used = true := by
  unfold fullCachedDisk
  dsimp only
  split
  · rfl
  · rfl

/-- A full cache whose oldest slot is clean. -/
theorem slotEvict_prefersClean_full : PrefersClean (fullCachedDisk false) := by
  refine (slotEvict_prefersClean_iff (fullCachedDisk_full false)).mpr (Or.inl ⟨0, rfl, ?_⟩)
  intro other dirty
  unfold fullCachedDisk at dirty
  dsimp only at dirty
  split at dirty
  · cases dirty
  · cases dirty

theorem fullCachedDisk_later (firstDirty : Bool) {index : Fin cacheSlots} (later : index ≠ 0) :
    (fullCachedDisk firstDirty).cache.slots index = ⟨true, false, index.val, 2, fun _ => 0⟩ :=
  if_neg later

theorem fullCachedDisk_oldest (firstDirty : Bool) :
    (fullCachedDisk firstDirty).cache.oldestSlot = 0 := by
  have least := oldestSlot_stamp_le (fullCachedDisk firstDirty).cache 0
  by_contra different
  rw [fullCachedDisk_later firstDirty different] at least
  change 2 ≤ 1 at least
  omega

/-- One dirty slot older than 255 clean ones: it is evicted and written. -/
theorem slotEvict_writes_past_clean :
    (∀ index, ((fullCachedDisk true).cache.slots index).used = true) ∧
      ((fullCachedDisk true).cache.slots 1).dirty = false ∧
      (slotEvict.run (fullCachedDisk true)).1 = some 0 ∧
      (slotEvict.run (fullCachedDisk true)).2.disk.history = [(0, fun _ => 0)] ∧
      ¬ PrefersClean (fullCachedDisk true) := by
  have dirty : ((fullCachedDisk true).cache.slots
      (fullCachedDisk true).cache.oldestSlot).dirty = true := by
    rw [fullCachedDisk_oldest]
    rfl
  have evicted := slotEvict_run_dirty (fullCachedDisk_full true) dirty
  rw [fullCachedDisk_oldest] at evicted
  refine ⟨fullCachedDisk_full true, rfl, ?_, ?_, ?_⟩
  · rw [evicted]
    rfl
  · rw [evicted]
    rfl
  · intro prefers
    obtain ⟨index, untouched, _⟩ := prefers.clean ⟨1, rfl⟩
    have transfers := slotEvict_transfers (fullCachedDisk_full true) dirty
    rw [untouched] at transfers
    exact absurd transfers (Nat.ne_of_lt (Nat.lt_succ_self _))

end KnitOS.Storage
