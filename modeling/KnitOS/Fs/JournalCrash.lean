import KnitOS.Fs.Journal
import KnitOS.Storage.WriteOrder

/-!
# Crashes during a journal commit

All writes of a commit stay in the cache until its final sync, when the cached
superblock already says that the log is empty, so recovery has nothing to
replay.  A crash is harmless exactly when the commit is rejected or changes at
most one home sector.
-/

namespace KnitOS.Fs

open Lib Lib.Program Storage

variable {dev : CachedDisk}

theorem dWrite_cached (sound : dev.Sound) (fs : FsState) (write : Nat × Sector) :
    (dWrite write.1 write.2).run cachedDevice fs dev = (some (), fs, dev.burstStep write) ∧
      (dev.burstStep write).Sound := by
  obtain ⟨reached, returned, reachedSound, _⟩ :=
    CachedDisk.fsCacheWriteSector_spec sound write.1 write.2
  have stepped : dev.burstStep write = reached := by
    rw [CachedDisk.burstStep, returned]
  have answered : cachedDevice (.write write.1 write.2) dev = (some fun _ => 0, reached) := by
    simp [cachedDevice, cachedDevice.acknowledge, returned]
  rw [stepped, dWrite, run_request_bind, answered]
  exact ⟨rfl, reachedSound⟩

theorem dWriteAll_cached (writes : List (Nat × Sector)) (fs : FsState) :
    ∀ {dev : CachedDisk}, dev.Sound → (dWriteAll writes).run cachedDevice fs dev =
          (some (), fs, runFrom CachedDisk.burstStep dev writes) ∧
        (runFrom CachedDisk.burstStep dev writes).Sound := by
  induction writes with
  | nil =>
    intro dev sound
    exact ⟨rfl, sound⟩
  | cons write rest ih =>
    intro dev sound
    obtain ⟨written, writtenSound⟩ := dWrite_cached sound fs write
    rw [dWriteAll, run_bind_of_some written]
    exact ih writtenSound

def BootSector.withLogNext (boot : BootSector) (logNext : Nat) : BootSector :=
  { boot with logNext := logNext }

theorem announceLog_cached (sound : dev.Sound) (fs : FsState) (logNext : Nat) :
    (announceLog logNext).run cachedDevice fs dev =
        (some (), { fs with boot := fs.boot.withLogNext logNext },
          dev.burstStep (0, (fs.boot.withLogNext logNext).encode)) ∧
      (dev.burstStep (0, (fs.boot.withLogNext logNext).encode)).Sound :=
  dWrite_cached sound { fs with boot := fs.boot.withLogNext logNext }
    (0, (fs.boot.withLogNext logNext).encode)

theorem cacheSync_cached (sound : dev.Sound) (fs : FsState) :
    cacheSync.run cachedDevice fs dev = (some (), fs, (fsCacheSync.run dev).2) := by
  obtain ⟨reached, returned, _⟩ := CachedDisk.fsCacheSync_spec sound
  have answered : cachedDevice .sync dev = (some fun _ => 0, reached) := by
    simp [cachedDevice, cachedDevice.acknowledge, returned]
  rw [cacheSync, run_request_bind, answered, returned]
  rfl

/-- The cached writes of a commit, in program order. -/
def commitWrites (boot : BootSector) (homes : List (Nat × Sector)) : List (Nat × Sector) :=
  logWrites boot homes ++
    (0, (boot.withLogNext (homes.length + 1)).encode) ::
      (homes ++ [(0, (boot.withLogNext 0).encode)])

/-- A commit that `fs_journal_commit` refuses before it writes anything. -/
def CommitRejected (boot : BootSector) (homes : List (Nat × Sector)) : Prop :=
  homes.length = 0 ∨ journalMax < homes.length ∨
    boot.logSize < homes.length + 1

variable {homes : List (Nat × Sector)}

theorem fsJournalCommit_rejected {fs : FsState} (rejected : CommitRejected fs.boot homes)
    (dev : CachedDisk) :
    (fsJournalCommit homes).run cachedDevice fs dev = (none, fs, dev) := by
  rw [fsJournalCommit, run_reads_bind]
  by_cases sized : homes.length ≠ 0 ∧ homes.length ≤ journalMax
  · have tooLarge : ¬ homes.length + 1 ≤ fs.boot.logSize := by
      rcases rejected with empty | long | full
      · exact absurd empty sized.1
      · exact absurd sized.2 (Nat.not_le.mpr long)
      · exact Nat.not_le.mpr full
    rw [require_of sized, run_pure_bind, require_of_not tooLarge, run_fail_bind]
  · rw [require_of_not sized, run_fail_bind]

theorem fsJournalCommit_accepted {fs : FsState} (accepted : ¬ CommitRejected fs.boot homes)
    (sound : dev.Sound) : (fsJournalCommit homes).run cachedDevice fs dev =
      (some (), { fs with boot := fs.boot.withLogNext 0 }, (fsCacheSync.run
          (runFrom CachedDisk.burstStep dev (commitWrites fs.boot homes))).2) := by
  have sized : homes.length ≠ 0 ∧ homes.length ≤ journalMax := by
    unfold CommitRejected at accepted
    omega
  have fits : homes.length + 1 ≤ fs.boot.logSize := by
    unfold CommitRejected at accepted
    omega
  obtain ⟨logged, loggedSound⟩ := dWriteAll_cached (logWrites fs.boot homes) fs sound
  obtain ⟨announced, announcedSound⟩ := announceLog_cached loggedSound fs (homes.length + 1)
  obtain ⟨copied, copiedSound⟩ := dWriteAll_cached homes
      { fs with boot := fs.boot.withLogNext (homes.length + 1) } announcedSound
  obtain ⟨retired, retiredSound⟩ := announceLog_cached copiedSound
      { fs with boot := fs.boot.withLogNext (homes.length + 1) } 0
  rw [fsJournalCommit, run_reads_bind, require_of sized, run_pure_bind,
    require_of fits, run_pure_bind, run_bind_of_some logged,
    run_bind_of_some announced, run_bind_of_some copied, run_bind_of_some retired]
  rw [cacheSync_cached retiredSound]
  simp only [commitWrites, runFrom_append, runFrom_cons, runFrom_nil]
  rfl

/-- The sector writes of a commit that reach the disk, in order. -/
def diskWrites (fs : FsState) (dev : CachedDisk)
    (homes : List (Nat × Sector)) : List (Nat × Sector) :=
  ((fsJournalCommit homes).run cachedDevice fs dev).2.2.disk.history.drop
    dev.disk.history.length

/-- The disk image when the crash comes after a number of disk writes. -/
def survivor (fs : FsState) (dev : CachedDisk)
    (homes : List (Nat × Sector)) (survived : Nat) : Nat → Sector :=
  imageAfter dev.disk.sectors ((diskWrites fs dev homes).take survived)

/-- A freshly initialised cache over a disk image. -/
def remounted (image : Nat → Sector) : CachedDisk :=
  (fsCacheInit.run
    { cache := blankCachedDisk.cache
      disk :=
        { sectors := image
          faults := fun _ => none
          transfers := 0
          history := [] } }).2

theorem remounted_sectors (image : Nat → Sector) : (remounted image).disk.sectors = image := rfl

theorem remounted_fresh (image : Nat → Sector) : (remounted image).Fresh :=
  ⟨fun _ _ => rfl, fun _ => rfl⟩

/-- The sectors seen after a crash that left a disk image: the superblock is
read again and the log is recovered. -/
def afterCrash (fs : FsState) (image : Nat → Sector) : Nat → Sector :=
  (fsRecover.run cachedDevice
    { fs with boot := BootSector.decode (image 0) }
    (remounted image)).2.2.view

/-- Whatever number of disk writes precedes the crash, the home sectors end up
all new or all old. -/
def CrashAtomic (fs : FsState) (dev : CachedDisk) (homes : List (Nat × Sector)) : Prop :=
  ∀ survived,
    (∀ home ∈ homes,
      afterCrash fs (survivor fs dev homes survived) home.1 = home.2) ∨
    (∀ home ∈ homes,
      afterCrash fs (survivor fs dev homes survived) home.1 =
        dev.view home.1)

theorem afterCrash_of_empty_log (fs : FsState) {image : Nat → Sector}
    (empty : (BootSector.decode (image 0)).logNext = 0) : afterCrash fs image = image := by
  rw [afterCrash, fsRecover, run_reads_bind, if_pos (Or.inr empty)]
  exact (remounted_fresh image).sound.2

/-- A cache in use and an array of distinct home sectors. -/
structure CommitReady (dev : CachedDisk) (homes : List (Nat × Sector)) : Prop where
  sound : dev.Sound
  ready : dev.cache.ready = true
  stamps : ∀ index, (dev.cache.slots index).stamp ≤ dev.cache.clock
  distinct : (homes.map Prod.fst).Nodup

/-- The part of the condition that is about the state before the commit: the log
is empty on the disk and in the cache, no home sector is the superblock or waits
in the cache, and the clock of the cache does not wrap around.  After a log that
`fs_recover` discards, the empty log is in the cache only. -/
structure LogIdle (dev : CachedDisk) (homes : List (Nat × Sector)) : Prop where
  logOnDisk : (BootSector.decode (dev.disk.sectors 0)).logNext = 0
  logInCache : (BootSector.decode (dev.view 0)).logNext = 0
  notSuperblock : ∀ home, home ∈ homes → home.1 ≠ 0
  settled : ∀ home, home ∈ homes → dev.view home.1 = dev.disk.sectors home.1
  noWrap : dev.cache.clock + (2 * homes.length + 3) < 4294967296

structure CommitIdle (dev : CachedDisk) (homes : List (Nat × Sector)) : Prop
    extends CommitReady dev homes, LogIdle dev homes

/-- No two home sectors get new contents. -/
def AtMostOneChanged (dev : CachedDisk) (homes : List (Nat × Sector)) : Prop :=
  ∀ first ∈ homes, ∀ second ∈ homes,
    first.2 ≠ dev.view first.1 → second.2 ≠ dev.view second.1 →
      first.1 = second.1

theorem commitWrites_length (boot : BootSector) (homes : List (Nat × Sector)) :
    (commitWrites boot homes).length = 2 * homes.length + 3 := by
  simp only [commitWrites, logWrites, List.length_append, List.length_cons,
    List.length_mapIdx, List.length_nil]
  omega

theorem imageAfter_commitWrites_superblock (boot : BootSector)
    (homes : List (Nat × Sector)) (image : Nat → Sector) :
    imageAfter image (commitWrites boot homes) 0 = (boot.withLogNext 0).encode := by
  have reordered : commitWrites boot homes = (logWrites boot homes ++
          (0, (boot.withLogNext (homes.length + 1)).encode) :: homes) ++
          [(0, (boot.withLogNext 0).encode)] := by
    simp [commitWrites]
  rw [reordered, imageAfter_append, imageAfter_cons, imageAfter_nil, Function.update_self]

section

variable {fs : FsState} {dev : CachedDisk} {homes : List (Nat × Sector)}
  (idle : CommitIdle dev homes)

include idle

theorem CommitIdle.final_home {home : Nat × Sector} (member : home ∈ homes) :
    imageAfter dev.view (commitWrites fs.boot homes) home.1 = home.2 := by
  have notSuper : home.1 ≠ 0 := idle.notSuperblock home member
  have reordered : commitWrites fs.boot homes = (logWrites fs.boot homes ++
          [(0, (fs.boot.withLogNext (homes.length + 1)).encode)]) ++
          (homes ++ [(0, (fs.boot.withLogNext 0).encode)]) := by
    simp [commitWrites]
  rw [reordered, imageAfter_append, imageAfter_append]
  rw [imageAfter_of_not_written [(0, (fs.boot.withLogNext 0).encode)]]
  · exact imageAfter_of_mem homes _ idle.distinct home member
  · intro write written
    rw [List.mem_singleton] at written
    rw [written]
    exact Ne.symm notSuper

variable (accepted : ¬ CommitRejected fs.boot homes)
include accepted

theorem CommitIdle.diskWrites_spec : ∃ evicted synced,
    diskWrites fs dev homes = evicted ++ synced ∧
    (∀ write ∈ evicted, write.2 = dev.view write.1) ∧ (∀ write ∈ synced, write.2 =
      imageAfter dev.view (commitWrites fs.boot homes) write.1) ∧ (synced.map Prod.fst).Nodup ∧
    (∀ home ∈ homes, home ∈ synced) := by
  have short : (commitWrites fs.boot homes).length < cacheSlots := by
    rw [commitWrites_length]
    unfold CommitRejected at accepted
    have slots : cacheSlots = 256 := rfl
    have most : journalMax = 32 := rfl
    omega
  have noWrap : dev.cache.clock + (commitWrites fs.boot homes).length < 4294967296 := by
    rw [commitWrites_length]
    exact idle.noWrap
  obtain ⟨evicted, synced, history, evictedOld, syncedFinal, nodup, covers⟩ :=
    CachedDisk.burst_sync_writes idle.sound idle.ready idle.stamps short noWrap
  refine ⟨evicted, synced, ?_, evictedOld, syncedFinal, nodup, ?_⟩
  · rw [diskWrites, fsJournalCommit_accepted accepted idle.sound]
    simp only [history, List.drop_left]
  · intro home member
    have committed : home ∈ commitWrites fs.boot homes := by
      simp [commitWrites, member]
    have covered := covers home committed
    rwa [idle.final_home member] at covered

/-- After a crash every sector has its bytes from the disk or the cache before
the commit, or its final bytes. -/
theorem CommitIdle.survivor_cases (survived lba : Nat) :
    survivor fs dev homes survived lba = dev.disk.sectors lba ∨
      survivor fs dev homes survived lba = dev.view lba ∨ survivor fs dev homes survived lba =
        imageAfter dev.view (commitWrites fs.boot homes) lba := by
  obtain ⟨evicted, synced, writes, evictedOld, syncedFinal, _⟩ := idle.diskWrites_spec accepted
  rw [survivor, writes]
  rcases imageAfter_cases ((evicted ++ synced).take survived)
    dev.disk.sectors lba with unchanged | written
  · exact Or.inl unchanged
  · rcases List.mem_append.mp (List.mem_of_mem_take written) with
      old | final
    · exact Or.inr (Or.inl (evictedOld _ old))
    · exact Or.inr (Or.inr (syncedFinal _ final))

/-- Every prefix of the writes leaves a superblock with an empty log, so that
recovery changes nothing. -/
theorem CommitIdle.afterCrash_eq (survived : Nat) :
    afterCrash fs (survivor fs dev homes survived) = survivor fs dev homes survived := by
  apply afterCrash_of_empty_log
  rcases idle.survivor_cases accepted survived 0 with
    onDisk | inCache | final
  · rw [onDisk]
    exact idle.logOnDisk
  · rw [inCache]
    exact idle.logInCache
  · rw [final, imageAfter_commitWrites_superblock, BootSector.decode_encode_logNext]
    rfl

theorem CommitIdle.survivor_home (survived : Nat) {home : Nat × Sector} (member : home ∈ homes) :
    survivor fs dev homes survived home.1 = dev.view home.1 ∨
      survivor fs dev homes survived home.1 = home.2 := by
  rcases idle.survivor_cases accepted survived home.1 with
    onDisk | inCache | final
  · exact Or.inl (onDisk.trans (idle.settled home member).symm)
  · exact Or.inl inCache
  · exact Or.inr (final.trans (idle.final_home member))

theorem CommitIdle.crashAtomic_of_atMostOne
    (few : AtMostOneChanged dev homes) : CrashAtomic fs dev homes := by
  intro survived
  rw [idle.afterCrash_eq accepted survived]
  by_cases allOld : ∀ home ∈ homes, survivor fs dev homes survived home.1 = dev.view home.1
  · exact Or.inr allOld
  · -- some home sector is already new; it is the one that changes
    left
    push Not at allOld
    obtain ⟨changed, changedMember, notOld⟩ := allOld
    have changedNew : survivor fs dev homes survived changed.1 = changed.2 :=
      (idle.survivor_home accepted survived changedMember).resolve_left notOld
    have changes : changed.2 ≠ dev.view changed.1 := by
      rw [← changedNew]
      exact notOld
    intro home member
    rcases idle.survivor_home accepted survived member with old | new
    · by_cases same : home.2 = dev.view home.1
      · exact old.trans same.symm
      · have sameSector : home.1 = changed.1 := few home member changed changedMember same changes
        have sameHome : home = changed :=
          List.inj_on_of_nodup_map idle.distinct member changedMember sameSector
        rw [sameHome]
        exact changedNew
    · exact new

/-- A crash in the middle of the sync, after the write of one changed home
sector and before that of another, leaves a mixture. -/
theorem CommitIdle.not_crashAtomic_of_split {evicted written pending : List (Nat × Sector)}
    (writes : diskWrites fs dev homes = evicted ++ (written ++ pending))
    (evictedOld : ∀ write ∈ evicted, write.2 = dev.view write.1)
    (nodup : (written.map Prod.fst).Nodup)
    {early late : Nat × Sector} (earlyMember : early ∈ homes) (lateMember : late ∈ homes)
    (earlyChanges : early.2 ≠ dev.view early.1) (lateChanges : late.2 ≠ dev.view late.1)
    (earlyWritten : early ∈ written) (latePending : ∀ write ∈ written, write.1 ≠ late.1) :
    ¬ CrashAtomic fs dev homes := by
  intro atomic
  have outcome := atomic (evicted ++ written).length
  have survivors : survivor fs dev homes (evicted ++ written).length =
        imageAfter (imageAfter dev.disk.sectors evicted) written := by
    rw [survivor, writes, ← List.append_assoc, List.take_left, imageAfter_append]
  rw [idle.afterCrash_eq accepted, survivors] at outcome
  have earlyNew : imageAfter (imageAfter dev.disk.sectors evicted) written early.1 = early.2 :=
    imageAfter_of_mem written _ nodup early earlyWritten
  have lateOld : imageAfter (imageAfter dev.disk.sectors evicted) written late.1 =
        dev.view late.1 := by
    rw [imageAfter_of_not_written written _ latePending]
    rcases imageAfter_cases evicted dev.disk.sectors late.1 with
      unchanged | evictedWrite
    · exact unchanged.trans (idle.settled late lateMember).symm
    · exact evictedOld _ evictedWrite
  rcases outcome with allNew | allOld
  · exact lateChanges ((allNew late lateMember).symm.trans lateOld)
  · exact earlyChanges (earlyNew.symm.trans (allOld early earlyMember))

theorem CommitIdle.not_crashAtomic_of_two
    {first second : Nat × Sector} (firstMember : first ∈ homes) (secondMember : second ∈ homes)
    (firstChanges : first.2 ≠ dev.view first.1) (secondChanges : second.2 ≠ dev.view second.1)
    (different : first.1 ≠ second.1) : ¬ CrashAtomic fs dev homes := by
  obtain ⟨evicted, synced, writes, evictedOld, _, nodup, covers⟩ := idle.diskWrites_spec accepted
  obtain ⟨before, after, split⟩ := List.append_of_mem (covers first firstMember)
  rw [split] at writes nodup
  rw [List.map_append, List.map_cons, List.nodup_append] at nodup
  obtain ⟨beforeNodup, _, apart⟩ := nodup
  have firstNotBefore : ∀ write ∈ before, write.1 ≠ first.1 := by
    intro write member
    exact apart write.1 (List.mem_map_of_mem member) first.1 List.mem_cons_self
  by_cases secondBefore : second ∈ before
  · exact idle.not_crashAtomic_of_split accepted writes evictedOld
      beforeNodup secondMember firstMember secondChanges firstChanges secondBefore firstNotBefore
  · have secondNotBefore : ∀ write ∈ before, write.1 ≠ second.1 := by
      intro write member same
      have secondSynced := covers second secondMember
      rw [split] at secondSynced
      have secondAfter : second ∈ first :: after :=
        (List.mem_append.mp secondSynced).resolve_left secondBefore
      exact apart write.1 (List.mem_map_of_mem member) second.1
        (List.mem_map_of_mem secondAfter) same
    have writtenNodup : ((before ++ [first]).map Prod.fst).Nodup := by
      rw [List.map_append, List.nodup_append]
      refine ⟨beforeNodup, List.nodup_singleton _, ?_⟩
      intro lba lbaBefore other otherFirst
      rw [List.map_singleton, List.mem_singleton] at otherFirst
      rw [otherFirst]
      exact apart lba lbaBefore first.1 List.mem_cons_self
    have regrouped : diskWrites fs dev homes = evicted ++ ((before ++ [first]) ++ after) := by
      rw [writes, List.append_assoc, List.singleton_append]
    refine idle.not_crashAtomic_of_split accepted regrouped evictedOld
      writtenNodup firstMember secondMember firstChanges secondChanges (by simp) ?_
    exact List.forall_mem_append.mpr ⟨secondNotBefore, List.forall_mem_singleton.mpr different⟩

end

/-- A file system of 1024 sectors, as `fs_init` makes it. -/
def smallFs : FsState :=
  { boot := formatBoot 1024
    inodes := fun _ => Inode.zero
    initialized := true
    bitmap := none
    bitmapSectors := 1
    kernel :=
      { uid := 0
        gid := 0
        diskSizeSectors := 1024
        clock := fun _ => 0
        heap := fun _ _ => true
        stale := fun _ _ => 0
        asked := 0 } }

/-- A disk that holds its superblock and zeros. -/
def smallDisk : CachedDisk :=
  remounted (Function.update (fun _ _ => 0) 0 smallFs.boot.encode)

theorem commitIdle_smallDisk (short : homes.length ≤ journalMax)
    (distinct : (homes.map Prod.fst).Nodup) (notSuperblock : ∀ home, home ∈ homes → home.1 ≠ 0) :
    CommitIdle smallDisk homes := by
  obtain ⟨sound, viewed⟩ : smallDisk.Sound ∧ smallDisk.view = smallDisk.disk.sectors :=
    (remounted_fresh _).sound
  have superblock : smallDisk.disk.sectors 0 = smallFs.boot.encode := by
    rw [smallDisk, remounted_sectors, Function.update_self]
  have emptyLog : (BootSector.decode (smallDisk.disk.sectors 0)).logNext = 0 := by
    rw [superblock, BootSector.decode_encode_logNext]
    rfl
  refine ⟨⟨sound, rfl, fun _ => Nat.zero_le _, distinct⟩, emptyLog, ?_, notSuperblock, ?_, ?_⟩
  · rw [viewed]
    exact emptyLog
  · intro home _
    rw [viewed]
  · have clock : smallDisk.cache.clock = 1 := rfl
    have most : journalMax = 32 := rfl
    omega

end KnitOS.Fs
