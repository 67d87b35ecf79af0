import KnitOS.Fs.Spared

/-!
# Barred inodes

Barred inodes are occupied, and `fs_access_ok` does not let the caller write to
them.  The calls leave them alone: they write to an inode only if the caller
may, fill one that was free, or change link count, parent and times.
-/

namespace KnitOS.Fs

open Lib.Program Storage Function

/-- The invariant, for a set of inodes that are barred to the caller. -/
structure Standing (barred : Nat → Prop) (fs : FsState) (disk : Nat → Sector) : Prop where
  intact : Intact fs disk
  occupied : ∀ index, barred index → (fs.inodes index).occupied = true
  inTable : ∀ index, barred index → index < maxInodes
  refused : ∀ index, barred index → fsAccessOk fs index true = false

def FsState.caller (fs : FsState) : Nat × Nat :=
  (fs.kernel.uid, fs.kernel.gid)

/-- The barred inodes are still barred, and unchanged. -/
structure Kept (barred : Nat → Prop) (fs : FsState) (disk : Nat → Sector)
    (fs' : FsState) (disk' : Nat → Sector) : Prop where
  standing : Standing barred fs' disk'
  caller : fs'.caller = fs.caller
  spared : ∀ index, barred index → Spared index fs disk fs' disk'

/-- A function that leaves barred inodes alone. -/
def KeepsOff (barred : Nat → Prop) {α : Type} (program : FsProgram α)
    (fs : FsState) (disk : Nat → Sector) : Prop :=
  Leaves program fs disk fun _ fs' disk' => Kept barred fs disk fs' disk'

section

variable {barred : Nat → Prop} {fs fs' : FsState}
  {disk disk' : Nat → Sector}

theorem Standing.of_spared (standing : Standing barred fs disk)
    (intact : Intact fs' disk') (caller : fs'.caller = fs.caller)
    (spared : ∀ index, barred index → Spared index fs disk fs' disk') :
    Standing barred fs' disk' := by
  refine ⟨intact, ?_, standing.inTable, ?_⟩
  · intro index isBarred
    rw [(spared index isBarred).occupied]
    exact standing.occupied index isBarred
  · intro index isBarred
    have uid : fs'.kernel.uid = fs.kernel.uid := congrArg Prod.fst caller
    have gid : fs'.kernel.gid = fs.kernel.gid := congrArg Prod.snd caller
    rw [(spared index isBarred).fsAccessOk uid gid]
    exact standing.refused index isBarred

variable {index : Nat}

theorem Standing.not_barred_of_access (standing : Standing barred fs disk)
    (access : fsAccessOk fs index true = true) : ∀ other, other = index → ¬ barred other := by
  rintro _ rfl isBarred
  rw [standing.refused _ isBarred] at access
  cases access

theorem Standing.not_barred_of_free (standing : Standing barred fs disk)
    (free : (fs.inodes index).occupied = false) : ¬ barred index := by
  intro isBarred
  rw [standing.occupied index isBarred] at free
  cases free

theorem Kept.trans {fs'' : FsState} {disk'' : Nat → Sector} (first : Kept barred fs disk fs' disk')
    (second : Kept barred fs' disk' fs'' disk'') : Kept barred fs disk fs'' disk'' :=
  ⟨second.standing, second.caller.trans first.caller, fun index isBarred =>
    (first.spared index isBarred).trans (second.spared index isBarred)⟩

variable {α : Type}

theorem KeepsOff.bind {β : Type} {program : FsProgram α}
    {next : α → FsProgram β} (first : KeepsOff barred program fs disk)
    (then_ : ∀ value fs' disk', Standing barred fs' disk' →
      KeepsOff barred (next value) fs' disk') : KeepsOff barred (program >>= next) fs disk := by
  apply Yields.bind first
  · intro fs' disk' kept
    exact kept
  · intro value fs' disk' kept
    exact (then_ value fs' disk' kept.standing).mono fun _ _ _ keptAfter => kept.trans keptAfter

theorem Kept.then {program : FsProgram α} (kept : Kept barred fs disk fs' disk')
    (keeps : KeepsOff barred program fs' disk') : Leaves program fs' disk' fun _ fs'' disk'' =>
      Kept barred fs disk fs'' disk'' :=
  keeps.mono fun _ _ _ keptAfter => kept.trans keptAfter

variable (standing : Standing barred fs disk)

include standing

theorem Standing.kept_of_spared (intact : Intact fs' disk') (caller : fs'.caller = fs.caller)
    (spared : ∀ index, barred index → Spared index fs disk fs' disk') :
    Kept barred fs disk fs' disk' := ⟨standing.of_spared intact caller spared, caller, spared⟩

theorem Standing.kept_refl : Kept barred fs disk fs disk :=
  ⟨standing, rfl, fun index _ => Spared.refl index fs disk⟩

theorem Standing.kept_of_worked {files : Nat → Prop} (worked : Worked files fs disk fs' disk')
    (allowed : ∀ index, files index → ¬ barred index) : Kept barred fs disk fs' disk' := by
  have caller : fs'.caller = fs.caller := by
    have uid := congrArg Kernel.uid worked.kernel
    have gid := congrArg Kernel.gid worked.kernel
    exact Prod.ext uid gid
  refine standing.kept_of_spared (standing.intact.of_worked worked) caller ?_
  intro index isBarred
  have unconcerned : ¬ (files index ∧ (fs.inodes index).occupied = true) :=
    fun both => allowed index both.1 isBarred
  exact Spared.of_unread (worked.inodes index unconcerned)
    (worked.sectors index unconcerned (standing.inTable index isBarred))

theorem Standing.kept_of_looked (looked : Looked fs fs') : Kept barred fs disk fs' disk :=
  standing.kept_of_worked (Worked.of_looked looked standing.intact.consistent fun _ => False)
    fun _ impossible => impossible.elim

theorem Standing.keepsOff_works {program : FsProgram α}
    {files : Nat → Prop} (works : Works files program fs disk)
    (allowed : ∀ index, files index → ¬ barred index) : KeepsOff barred program fs disk :=
  works.mono fun _ _ _ worked => standing.kept_of_worked worked allowed

theorem Standing.keepsOff_observes {program : FsProgram α}
    (observes : Observes program fs disk) : KeepsOff barred program fs disk :=
  standing.keepsOff_works (observes.works standing.intact.consistent fun _ => False)
    fun _ impossible => impossible.elim

theorem Standing.keepsOff_require (condition : Prop) [Decidable condition] :
    KeepsOff barred (require condition) fs disk :=
  standing.keepsOff_observes (observes_require condition fs disk)

theorem Standing.keepsOff_pure (value : α) : KeepsOff barred (pure value) fs disk :=
  standing.keepsOff_observes (observes_pure value fs disk)

theorem Standing.keepsOff_persist : KeepsOff barred fsPersistMeta fs disk := standing.keepsOff_works
    (standing.intact.consistent.works_fsPersistMeta fun _ => False)
    fun _ impossible => impossible.elim

variable {inode : Inode}

theorem Standing.kept_setInode (same : inode.lasting = (fs.inodes index).lasting) :
    Kept barred fs disk (fs.setInode index inode) disk := by
  have blocks : inode.SameBlocks (fs.inodes index) := by
    have direct := congrArg Inode.direct same
    have indirectLba := congrArg Inode.indirectLba same
    have xattrLba := congrArg Inode.xattrLba same
    exact ⟨direct, indirectLba, xattrLba⟩
  have flags := congrArg Inode.flags same
  exact standing.kept_of_spared (standing.intact.setInode blocks flags) rfl
    fun _ _ => Spared.of_setInode same

theorem Standing.kept_other (notBarred : ¬ barred index)
    (intact : Intact (fs.setInode index inode) disk) :
    Kept barred fs disk (fs.setInode index inode) disk := by
  refine standing.kept_of_spared intact rfl fun other isBarred => ?_
  refine Spared.of_other inode ?_
  rintro rfl
  exact notBarred isBarred

theorem Standing.kept_ask : Kept barred fs disk fs.ask disk :=
  standing.kept_of_spared standing.intact.ask rfl fun _ _ => ⟨rfl, fun _ _ => rfl⟩

theorem Standing.keepsOff_touchChanged (index : Nat) :
    KeepsOff barred (touchChanged index) fs disk := ⟨some (), _, disk, rfl,
    standing.kept_ask.trans (standing.kept_ask.standing.kept_setInode rfl)⟩

theorem Standing.keepsOff_fsIndexTruncate (index newSize : Nat) :
    KeepsOff barred (fsIndexTruncate index newSize) fs disk := by
  by_cases writable : fs.Writable index
  · exact standing.keepsOff_works (standing.intact.consistent.works_fsIndexTruncate index newSize)
      (standing.not_barred_of_access writable.2.2)
  · exact ⟨none, fs, disk, run_fsIndexTruncate_refused writable newSize _, standing.kept_refl⟩

theorem Standing.keepsOff_fsIndexWrite (index offset : Nat) (data : List UInt8) :
    KeepsOff barred (fsIndexWrite index offset data) fs disk := by
  by_cases accepted : fs.Accepts index ∧ offset ≤ u32 (offset + data.length)
  · exact standing.keepsOff_works (standing.intact.consistent.works_fsIndexWrite index offset data)
      (standing.not_barred_of_access accepted.1.1.2.2)
  · exact ⟨none, fs, disk, run_fsIndexWrite_refused accepted _, standing.kept_refl⟩

theorem Standing.keepsOff_requireAbsent (path : List UInt8) :
    KeepsOff barred (requireAbsent path) fs disk := by
  apply (standing.keepsOff_observes (standing.intact.consistent.observes_fsLookupIndex path
    false).attempt).bind
  intro existing fs' disk' after
  exact after.keepsOff_require _

theorem Standing.leaves_writableParent (path : List UInt8) :
    Leaves (writableParent path) fs disk fun outcome fs' disk' =>
      Kept barred fs disk fs' disk' ∧
      ∀ target ∈ outcome, fsAccessOk fs' target.1 true = true := by
  apply Yields.bind (standing.keepsOff_observes
    (standing.intact.consistent.observes_fsParentAndName path))
  · intro fs' disk' kept
    exact ⟨kept, nofun⟩
  intro target fs' disk' kept
  apply yields_reads_bind
  apply yields_require_bind
  · intro _
    exact ⟨kept, nofun⟩
  · intro access
    apply yields_pure
    refine ⟨kept, fun _ member => ?_⟩
    cases member
    exact access

theorem Standing.keepsOff_dirAddEntry {dir : Nat}
    (access : fsAccessOk fs dir true = true) (child : Nat) (name : List UInt8) :
    KeepsOff barred (dirAddEntry dir child name) fs disk := by
  exact standing.keepsOff_works (standing.intact.consistent.works_dirAddEntry dir child name)
    (standing.not_barred_of_access access)

theorem Standing.keepsOff_dirRemoveEntry {dir : Nat}
    (access : fsAccessOk fs dir true = true) (name : List UInt8) :
    KeepsOff barred (dirRemoveEntry dir name) fs disk := by
  exact standing.keepsOff_works (standing.intact.consistent.works_dirRemoveEntry dir name)
    (standing.not_barred_of_access access)

theorem Standing.keepsOff_enterNew {parent : Nat}
    (notRoot : index ≠ rootIno) (different : index ≠ parent)
    (blank : (fs.inodes index).Blank) (notBarred : ¬ barred index)
    (access : fsAccessOk fs parent true = true) (name : List UInt8) :
    KeepsOff barred (enterNew parent index name) fs disk := by
  apply (standing.intact.leaves_enterNew notRoot different blank name).mono
  rintro outcome fs' disk' ⟨intact, fs₁, worked, entered⟩
  have kept : Kept barred fs disk fs₁ disk' := by
    exact standing.kept_of_worked worked (standing.not_barred_of_access access)
  rcases entered with rfl | ⟨_, inode, rfl⟩
  · exact kept
  · exact kept.trans (kept.standing.kept_other notBarred intact)

theorem Standing.leaves_fsCreateFile (path : List UInt8) (mode : Nat) :
    Leaves (fsCreateFile path mode) fs disk fun outcome fs' disk' =>
      Kept barred fs disk fs' disk' ∧
      ∀ index ∈ outcome, ¬ barred index ∧ index ≠ rootIno ∧ index ≠ 0 := by
  have fails : ∀ {fs' : FsState} {disk' : Nat → Sector},
      Kept barred fs disk fs' disk' → Kept barred fs disk fs' disk' ∧ ∀ index ∈ (none : Option Nat),
          ¬ barred index ∧ index ≠ rootIno ∧ index ≠ 0 :=
    fun kept => ⟨kept, nofun⟩
  rw [fsCreateFile]
  apply yields_initialized standing.intact.consistent.formatted.initialized
  apply Yields.bind (standing.keepsOff_requireAbsent path)
  · intro fs' disk' kept
    exact fails kept
  intro _ fs₁ disk₁ kept₁
  apply Yields.bind (kept₁.standing.leaves_writableParent path)
  · rintro fs' disk' ⟨kept, _⟩
    exact fails (kept₁.trans kept)
  rintro target fs₂ disk₂ ⟨kept₂, access⟩
  have standing₂ := kept₂.standing
  have soFar := kept₁.trans kept₂
  rcases run_fsAllocInode fs₂ (.running disk₂) with
    full | ⟨index, allocated, positive, _, free⟩
  · exact ⟨none, fs₂, disk₂, run_bind_of_none full, fails soFar⟩
  apply Yields.bind_of_run allocated
  apply Yields.bind_of_run (run_initInode fs₂ index _ _ _ _)
  have notRoot := ne_of_free free standing₂.intact.root_occupied
  have notBarred : ¬ barred index := standing₂.not_barred_of_free free
  have parentAccess := access target rfl
  have different := ne_of_free free (occupied_of_fsAccessOk parentAccess)
  have intact₃ := standing₂.intact.ask.setBlank (newInode_blank fs₂.ask Inode.flagOccupied
      (if mode = 0 then modeFile else mode) target.1
      (u32 (fs₂.kernel.clock fs₂.kernel.asked))) notRoot
    (Or.inl ⟨newInode_occupied _ (by decide) _ _ _, by omega⟩)
  have kept₃ := standing₂.kept_ask.trans (standing₂.kept_ask.standing.kept_other notBarred intact₃)
  have stillAccess : fsAccessOk (fs₂.withNew index Inode.flagOccupied
      (if mode = 0 then modeFile else mode) target.1) target.1 true = true := by
    have spared : Spared target.1 fs₂.ask disk₂ (fs₂.withNew index Inode.flagOccupied
          (if mode = 0 then modeFile else mode) target.1) disk₂ :=
      Spared.of_other _ (Ne.symm different)
    exact (spared.fsAccessOk rfl rfl true).trans parentAccess
  apply Yields.bind (kept₃.standing.keepsOff_enterNew notRoot different
    (by rw [FsState.setInode_self]; exact newInode_blank _ _ _ _ _) notBarred stillAccess target.2)
  · intro fs' disk' kept
    exact fails (soFar.trans (kept₃.trans kept))
  intro _ fs₄ disk₄ kept₄
  have counted : Kept barred fs₄ disk₄
      { fs₄ with
        boot := fs₄.boot.withInodeCount (u32 (fs₄.boot.inodeCount + 1)) }
      disk₄ :=
    kept₄.standing.kept_of_spared (kept₄.standing.intact.withInodeCount _) rfl
      fun _ _ => ⟨rfl, fun _ _ => rfl⟩
  have beforePersist := soFar.trans (kept₃.trans (kept₄.trans counted))
  apply yields_modify_bind
  apply Yields.bind counted.standing.keepsOff_persist
  · intro fs' disk' kept
    exact fails (beforePersist.trans kept)
  intro _ fs₅ disk₅ kept₅
  apply yields_pure
  refine ⟨beforePersist.trans kept₅, fun _ member => ?_⟩
  cases member
  exact ⟨notBarred, notRoot, by omega⟩

theorem Standing.keepsOff_fsWrite (path data : List UInt8) :
    KeepsOff barred (fsWrite path data) fs disk := by
  have formatted := standing.intact.consistent.formatted
  apply yields_initialized formatted.initialized
  apply Yields.bind_of_run (formatted.run_fsLoadBitmap _)
  have target : KeepsOff barred (writeTarget path) fs disk := by
    apply (standing.keepsOff_observes (standing.intact.consistent.observes_fsLookupIndex path
      false).attempt).bind
    intro existing fs' disk' after
    cases existing with
    | some index => exact after.keepsOff_pure index
    | none =>
      exact (after.leaves_fsCreateFile path modeFile).mono fun _ _ _ holds => holds.1
  apply target.bind
  intro index fs₁ disk₁ standing₁
  apply (standing₁.keepsOff_observes (observes_reads _ fs₁ disk₁)).bind
  intro inode fs₂ disk₂ standing₂
  apply (standing₂.keepsOff_require _).bind
  intro _ fs₃ disk₃ standing₃
  apply (standing₃.keepsOff_fsIndexTruncate index _).bind
  intro _ fs₄ disk₄ standing₄
  apply yields_ite
  · intro _
    exact standing₄.keepsOff_pure ()
  · intro _
    apply (standing₄.keepsOff_fsIndexWrite index 0 data).bind
    intro written fs₅ disk₅ standing₅
    exact standing₅.keepsOff_require _

theorem Standing.keepsOff_fsTruncate (path : List UInt8) (newSize : Nat) :
    KeepsOff barred (fsTruncate path newSize) fs disk := by
  apply (standing.keepsOff_observes
    (standing.intact.consistent.observes_fsLookupIndex path true)).bind
  intro index fs' disk' after
  exact after.keepsOff_fsIndexTruncate index newSize

theorem Standing.keepsOff_storeTarget (notBarred : ¬ barred index) (target : List UInt8) :
    KeepsOff barred (storeTarget index target) fs disk := by
  apply yields_ite
  · intro _
    apply yields_modify_bind
    have stored : Kept barred fs disk (fs.setInode index
          { fs.inodes index with
            symlinkInline := inlineTarget (fs.inodes index).symlinkInline target
            sizeBytes := target.length }) disk :=
      standing.kept_other notBarred (standing.intact.setInode ⟨rfl, rfl, rfl⟩ rfl)
    exact stored.then stored.standing.keepsOff_persist
  · intro _
    apply (standing.keepsOff_fsIndexTruncate index _).bind
    intro _ fs₁ disk₁ standing₁
    apply (standing₁.keepsOff_fsIndexWrite index 0 target).bind
    intro written fs₂ disk₂ standing₂
    exact standing₂.keepsOff_require _

theorem Standing.keepsOff_fsSymlink (target linkPath : List UInt8) :
    KeepsOff barred (fsSymlink target linkPath) fs disk := by
  apply (standing.keepsOff_requireAbsent linkPath).bind
  intro _ fs₁ disk₁ standing₁
  apply Yields.bind (standing₁.leaves_fsCreateFile linkPath modeLink)
  · rintro fs' disk' ⟨kept, _⟩
    exact kept
  rintro index fs₂ disk₂ ⟨kept₂, isNew⟩
  obtain ⟨notBarred, notRoot, notZero⟩ := isNew index rfl
  apply yields_modify_bind
  have flagged := kept₂.standing.kept_other notBarred (kept₂.standing.intact.setFlags notRoot
    (Or.inl ⟨(by decide : (Inode.flagOccupied ||| Inode.flagSymlink) &&&
      Inode.flagOccupied ≠ 0), notZero⟩))
  exact (kept₂.trans flagged).then
    (flagged.standing.keepsOff_storeTarget notBarred target)

theorem Standing.keepsOff_fsLink (oldPath newPath : List UInt8) :
    KeepsOff barred (fsLink oldPath newPath) fs disk := by
  apply yields_initialized standing.intact.consistent.formatted.initialized
  apply (standing.keepsOff_observes
    (standing.intact.consistent.observes_fsLookupIndex oldPath false)).bind
  intro index fs₁ disk₁ standing₁
  apply (standing₁.keepsOff_observes (observes_reads _ fs₁ disk₁)).bind
  intro inode fs₂ disk₂ standing₂
  apply (standing₂.keepsOff_require _).bind
  intro _ fs₃ disk₃ standing₃
  apply (standing₃.keepsOff_requireAbsent newPath).bind
  intro _ fs₄ disk₄ standing₄
  apply Yields.bind (standing₄.leaves_writableParent newPath)
  · rintro fs' disk' ⟨kept, _⟩
    exact kept
  rintro target fs₅ disk₅ ⟨kept₅, access⟩
  refine kept₅.then ?_
  apply (kept₅.standing.keepsOff_dirAddEntry (access target rfl) index target.2).bind
  intro _ fs₆ disk₆ standing₆
  apply yields_modify_bind
  have linked : Kept barred fs₆ disk₆ (fs₆.setInode index
        { fs₆.inodes index with
          nlink := ((fs₆.inodes index).nlink + 1) % 65536 }) disk₆ :=
    standing₆.kept_setInode rfl
  refine linked.then ?_
  apply (linked.standing.keepsOff_touchChanged index).bind
  intro _ fs₇ disk₇ standing₇
  exact standing₇.keepsOff_persist

omit standing in
theorem leaves_requireWritable (dir : Nat) :
    Leaves (requireWritable dir) fs disk fun outcome fs' disk' =>
      (fs' = fs ∧ disk' = disk) ∧
      (outcome = some () → fsAccessOk fs dir true = true) := by
  apply yields_reads_bind
  apply yields_require
  · intro _
    exact ⟨⟨rfl, rfl⟩, nofun⟩
  · intro access
    exact ⟨⟨rfl, rfl⟩, fun _ => access⟩

theorem Standing.keepsOff_fsRename (oldPath newPath : List UInt8) :
    KeepsOff barred (fsRename oldPath newPath) fs disk := by
  apply yields_initialized standing.intact.consistent.formatted.initialized
  apply (standing.keepsOff_observes
    (standing.intact.consistent.observes_fsLookupIndex oldPath false)).bind
  intro index fs₁ disk₁ standing₁
  apply (standing₁.keepsOff_requireAbsent newPath).bind
  intro _ fs₂ disk₂ standing₂
  apply (standing₂.keepsOff_observes
    (standing₂.intact.consistent.observes_fsParentAndName oldPath)).bind
  intro source fs₃ disk₃ standing₃
  apply (standing₃.keepsOff_observes
    (standing₃.intact.consistent.observes_fsParentAndName newPath)).bind
  intro target fs₄ disk₄ standing₄
  apply Yields.bind (leaves_requireWritable source.1)
  · rintro _ _ ⟨⟨rfl, rfl⟩, _⟩
    exact standing₄.kept_refl
  rintro _ _ _ ⟨⟨rfl, rfl⟩, sourceAccess⟩
  apply Yields.bind (leaves_requireWritable target.1)
  · rintro _ _ ⟨⟨rfl, rfl⟩, _⟩
    exact standing₄.kept_refl
  rintro _ fs₅ disk₅ ⟨⟨rfl, rfl⟩, targetAccess⟩
  apply Yields.bind (standing₄.intact.consistent.works_dirAddEntry target.1 index target.2)
  · intro fs' disk' worked
    exact standing₄.kept_of_worked worked (standing₄.not_barred_of_access (targetAccess rfl))
  intro _ fs₆ disk₆ worked
  have kept₆ : Kept barred fs₅ disk₅ fs₆ disk₆ := by
    exact standing₄.kept_of_worked worked (standing₄.not_barred_of_access (targetAccess rfl))
  refine kept₆.then ?_
  have stillAccess : fsAccessOk fs₆ source.1 true = true :=
    (worked.fsAccessOk source.1 true).trans (sourceAccess rfl)
  apply (kept₆.standing.keepsOff_dirRemoveEntry stillAccess source.2).bind
  intro _ fs₇ disk₇ standing₇
  apply yields_modify_bind
  have moved : Kept barred fs₇ disk₇ (fs₇.setInode index
    { fs₇.inodes index with parent := target.1 }) disk₇ := standing₇.kept_setInode rfl
  refine moved.then ?_
  apply (moved.standing.keepsOff_touchChanged index).bind
  intro _ fs₈ disk₈ standing₈
  exact standing₈.keepsOff_persist

variable {path : List UInt8}

theorem Standing.keepsOff_changeInode {allowed : FsState → Inode → Bool} {update : Inode → Inode}
    (blocks : ∀ inode, (update inode).SameBlocks inode)
    (flags : ∀ inode, (update inode).flags = inode.flags)
    (notAllowed : ∀ fs' disk', Kept barred fs disk fs' disk' →
      ∀ index, barred index → allowed fs' (fs'.inodes index) = false) :
    KeepsOff barred (changeInode path allowed update) fs disk := by
  apply Yields.bind (standing.keepsOff_observes
    (standing.intact.consistent.observes_fsLookupIndex path false))
  · intro fs' disk' kept
    exact kept
  intro index fs₁ disk₁ kept₁
  refine kept₁.then ?_
  have standing₁ := kept₁.standing
  apply yields_reads_bind
  apply yields_require_bind
  · intro _
    exact standing₁.kept_refl
  intro isAllowed
  have notBarred : ¬ barred index := by
    intro isBarred
    have refused := notAllowed fs₁ disk₁ kept₁ index isBarred
    rw [id_eq, refused] at isAllowed
    cases isAllowed
  apply yields_modify_bind
  have changed : Kept barred fs₁ disk₁ (fs₁.setInode index (update (fs₁.inodes index))) disk₁ :=
    standing₁.kept_other notBarred (standing₁.intact.setInode (blocks _) (flags _))
  refine changed.then ?_
  apply (changed.standing.keepsOff_touchChanged index).bind
  intro _ fs₂ disk₂ standing₂
  exact standing₂.keepsOff_persist

def KeptOrFreed (barred : Nat → Prop) (fs : FsState) (disk : Nat → Sector)
    (fs' : FsState) (disk' : Nat → Sector) : Prop :=
  ∀ index, barred index →
    Spared index fs disk fs' disk' ∨ (fs'.inodes index).occupied = false

omit standing in
theorem Kept.keptOrFreed (kept : Kept barred fs disk fs' disk') :
    Intact fs' disk' ∧ KeptOrFreed barred fs disk fs' disk' :=
  ⟨kept.standing.intact, fun index isBarred => Or.inl (kept.spared index isBarred)⟩

omit standing in
theorem Kept.trans_freed {fs'' : FsState} {disk'' : Nat → Sector}
    (first : Kept barred fs disk fs' disk') (second : KeptOrFreed barred fs' disk' fs'' disk'') :
    KeptOrFreed barred fs disk fs'' disk'' := by
  intro index isBarred
  rcases second index isBarred with spared | freed
  · exact Or.inl ((first.spared index isBarred).trans spared)
  · exact Or.inr freed

theorem Standing.leaves_dropLink (inTable : index < maxInodes)
    (notRoot : index ≠ rootIno) : Leaves (dropLink index) fs disk fun _ fs' disk' =>
      Intact fs' disk' ∧ KeptOrFreed barred fs disk fs' disk' := by
  apply (standing.intact.leaves_dropLink inTable notRoot).mono
  rintro _ fs' disk' ⟨intact, spared⟩
  refine ⟨intact, ?_⟩
  intro other _
  rcases spared other with unchanged | ⟨_, freed⟩
  · exact Or.inl unchanged
  · exact Or.inr freed

theorem Standing.leaves_fsDelete (names : NamesInTable fs disk path) :
    Leaves (fsDelete path) fs disk fun _ fs' disk' =>
      Intact fs' disk' ∧ KeptOrFreed barred fs disk fs' disk' := by
  apply yields_initialized standing.intact.consistent.formatted.initialized
  apply Yields.bind (standing.keepsOff_observes
    (standing.intact.consistent.observes_fsLookupIndex path false)).with_outcome
  · rintro fs' disk' ⟨kept, _⟩
    exact kept.keptOrFreed
  rintro index fs₁ disk₁ ⟨kept₁, found⟩
  have inTable := names index found
  apply yields_require_bind
  · intro _
    exact kept₁.keptOrFreed
  intro notRoot
  apply Yields.bind (kept₁.standing.leaves_writableParent path)
  · rintro fs' disk' ⟨kept, _⟩
    exact (kept₁.trans kept).keptOrFreed
  rintro target fs₂ disk₂ ⟨kept₂, access⟩
  have beforeCheck := kept₁.trans kept₂
  apply Yields.bind (kept₂.standing.intact.consistent.observes_requireDeletable index)
  · rintro fs' _ ⟨looked, rfl⟩
    exact (beforeCheck.trans (kept₂.standing.kept_of_looked looked)).keptOrFreed
  rintro _ fs₃ _ ⟨looked, rfl⟩
  have kept₃ := beforeCheck.trans (kept₂.standing.kept_of_looked looked)
  have stillAccess : fsAccessOk fs₃ target.1 true = true :=
    (looked.fsAccessOk target.1 true).trans (access target rfl)
  apply Yields.bind (kept₃.standing.keepsOff_dirRemoveEntry stillAccess target.2)
  · intro fs' disk' kept
    exact (kept₃.trans kept).keptOrFreed
  intro _ fs₄ disk₄ kept₄
  have beforeDrop := kept₃.trans kept₄
  apply Yields.bind (kept₄.standing.leaves_dropLink inTable notRoot)
  · rintro fs' disk' ⟨after, freed⟩
    exact ⟨after, beforeDrop.trans_freed freed⟩
  rintro _ fs₅ disk₅ ⟨intact₅, freed⟩
  apply (intact₅.consistent.formatted.run_fsPersistMeta disk₅).mono
  rintro _ fs₆ disk₆ ⟨_, rfl, same⟩
  refine ⟨intact₅.of_worked (Worked.of_sameData intact₅.consistent same fun _ => False),
    beforeDrop.trans_freed fun other isBarred => ?_⟩
  rcases freed other isBarred with spared | isFree
  · left
    refine spared.trans ⟨rfl, fun sector member => same sector ?_⟩
    exact (intact₅.consistent.owned.inode_marked
      (kept₄.standing.inTable other isBarred) sector member).1
  · exact Or.inr isFree

omit standing in
def FsState.freeSector (fs : FsState) : Option Nat :=
  findFreeRun (fsBitmapTest fs) 1 0 fs.boot.allocBase
    (fs.boot.totalSectors - fs.boot.allocBase)

omit standing in
/-- The block `fs_setxattr` writes. -/
def attributeBlock (name value : List UInt8) : Sector :=
  sectorOf (bytesOf (name ++ 0 :: value))

omit standing in
/-- Setting an attribute gives the inode an attribute block, or changes the
one it has. -/
def XattrChanges (fs : FsState) (disk : Nat → Sector) (index : Nat)
    (name value : List UInt8) : Prop :=
  (fs.inodes index).xattrLba = 0 ∧ fs.freeSector ≠ none ∨
    (fs.inodes index).xattrLba ≠ 0 ∧
      u32 (name.length + 1 + value.length + 1) < sectorSize ∧
      disk (fs.inodes index).xattrLba ≠ attributeBlock name value

omit standing in
theorem Looked.fsBitmapTest (looked : Looked fs fs') : fsBitmapTest fs' = fsBitmapTest fs := by
  funext sector
  unfold KnitOS.Fs.fsBitmapTest
  rw [looked.bitmap, looked.boot]

omit standing in
theorem Looked.xattrChanges_iff (looked : Looked fs fs')
    (disk : Nat → Sector) (index : Nat) (name value : List UInt8) :
    XattrChanges fs' disk index name value ↔ XattrChanges fs disk index name value := by
  have lba := (Inode.sameBlocks_of_unread (looked.inodes index)).xattrLba
  unfold XattrChanges FsState.freeSector
  rw [lba, looked.fsBitmapTest, looked.boot]

omit standing in
theorem Formatted.run_fsAllocBlocks_one (formatted : Formatted fs) (flat : FlatDisk) :
    ((fsAllocBlocks 1).run flatDevice fs flat).1 = fs.freeSector := by
  unfold fsAllocBlocks FsState.freeSector
  rw [run_reads_bind, id, require_of ⟨formatted.bitmap, Nat.one_ne_zero⟩, run_pure_bind]
  dsimp only
  cases findFreeRun (KnitOS.Fs.fsBitmapTest fs) 1 0 fs.boot.allocBase
    (fs.boot.totalSectors - fs.boot.allocBase) with
  | none => rfl
  | some start => rfl

omit standing in
/-- The state after an inode took a free sector as its attribute block. -/
def FsState.withXattr (fs : FsState) (index block : Nat) : FsState :=
  (assignBits [block] true fs).setInode index
    { fs.inodes index with xattrLba := block }

omit standing in
/-- What `xattrSector` does: nothing, when the inode has an attribute block or
there is no free sector, or it takes a free one. -/
theorem Intact.run_xattrSector (intact : Intact fs disk) (index : Nat) :
    ((fs.inodes index).xattrLba ≠ 0 ∧ (xattrSector index).run flatDevice fs (.running disk) =
        (some (fs.inodes index).xattrLba, fs, .running disk)) ∨
    ((fs.inodes index).xattrLba = 0 ∧ fs.freeSector = none ∧
      (xattrSector index).run flatDevice fs (.running disk) = (none, fs, .running disk)) ∨
    ∃ block, (fs.inodes index).xattrLba = 0 ∧ fs.freeSector = some block ∧
      block ≠ 0 ∧ fsBitmapTest fs block = false ∧
      (xattrSector index).run flatDevice fs (.running disk) = (some block, fs.withXattr index block,
          .running (update disk block fun _ => 0)) := by
  have formatted := intact.consistent.formatted
  have base := formatted.base_eq
  rw [xattrSector, run_inodeAt_bind]
  by_cases absent : (fs.inodes index).xattrLba = 0
  · right
    rw [if_pos absent]
    have outcome := formatted.run_fsAllocBlocks_one (.running disk)
    rcases fsAllocBlocks_spec formatted Nat.one_ne_zero (.running disk) with
      failed | ⟨block, allocated, above, below, free⟩
    · left
      rw [failed] at outcome
      exact ⟨absent, outcome.symm, run_bind_of_none failed⟩
    · right
      rw [allocated] at outcome
      refine ⟨block, absent, outcome.symm, by omega,
        free block (List.mem_range'_1.mpr (by omega)), ?_⟩
      rw [run_bind_of_some allocated]
      rfl
  · left
    rw [if_neg absent]
    exact ⟨absent, rfl⟩

omit standing in
theorem Inode.mem_ownedSectors_xattr (disk : Nat → Sector)
    (present : inode.xattrLba ≠ 0) : inode.xattrLba ∈ inode.ownedSectors disk := by
  unfold Inode.ownedSectors Inode.xattrSectors
  rw [if_neg present]
  simp

theorem Standing.kept_withXattr {block : Nat} (notBarred : ¬ barred index)
    (free : fsBitmapTest fs block = false) (intact : Intact (fs.withXattr index block)
      (update disk block fun _ => 0)) : Kept barred fs disk (fs.withXattr index block)
      (update disk block fun _ => 0) := by
  refine standing.kept_of_spared intact rfl fun other isBarred => ?_
  have different : other ≠ index := by
    rintro rfl
    exact notBarred isBarred
  refine ⟨?_, fun sector member => ?_⟩
  · unfold FsState.withXattr
    rw [FsState.setInode_other _ _ _ different, assignBits_inodes]
  · apply update_of_ne
    rintro rfl
    have marked := (standing.intact.consistent.owned.inode_marked
      (standing.inTable other isBarred) sector member).2.2
    rw [free] at marked
    cases marked

theorem Standing.kept_write (inTable : index < maxInodes)
    (notBarred : ¬ barred index) (present : (fs.inodes index).xattrLba ≠ 0) (bytes : Sector) :
    Kept barred fs disk fs (update disk (fs.inodes index).xattrLba bytes) := by
  refine standing.kept_of_spared (standing.intact.write_xattr inTable present bytes) rfl
    fun other isBarred => ⟨rfl, fun sector member => ?_⟩
  apply update_of_ne
  intro same
  have different : other ≠ index := by
    rintro rfl
    exact notBarred isBarred
  rw [same] at member
  exact standing.intact.consistent.owned.inode_apart
    (standing.inTable other isBarred) inTable different _ member
    (Inode.mem_ownedSectors_xattr disk present)

omit standing in
/-- `fs_setxattr` once the attribute block is there. -/
def storeAttribute (sector : Nat) (name value : List UInt8) : FsProgram Unit := do
  let _ ← dRead sector
  require (u32 (name.length + 1 + value.length + 1) < sectorSize)
  dWrite sector (attributeBlock name value)
  fsPersistMeta

theorem Standing.keepsOff_storeAttribute
    (inTable : index < maxInodes) (present : (fs.inodes index).xattrLba ≠ 0)
    (name value : List UInt8) (granted : ¬ barred index ∨
      (u32 (name.length + 1 + value.length + 1) < sectorSize →
        disk (fs.inodes index).xattrLba = attributeBlock name value)) : KeepsOff barred
      (storeAttribute (fs.inodes index).xattrLba name value) fs disk := by
  apply Yields.bind_of_run (run_dRead fs disk _)
  apply yields_require_bind
  · intro _
    exact standing.kept_refl
  intro fits
  apply Yields.bind_of_run (run_dWrite fs disk _ _)
  rcases granted with notBarred | same
  · have kept := standing.kept_write inTable notBarred present (attributeBlock name value)
    exact kept.then kept.standing.keepsOff_persist
  · rw [← same fits, update_eq_self]
    exact standing.keepsOff_persist

theorem Standing.keepsOff_fsSetxattr
    (names : NamesInTable fs disk path) (name value : List UInt8) (granted : ∀ index,
      ((fsLookupIndex path false).run flatDevice fs (.running disk)).1 = some index → barred index →
          ¬ XattrChanges fs disk index name value) :
    KeepsOff barred (fsSetxattr path name value) fs disk := by
  apply Yields.bind (standing.intact.consistent.observes_fsLookupIndex path false).with_outcome
  · rintro fs' _ ⟨⟨looked, rfl⟩, _⟩
    exact standing.kept_of_looked looked
  rintro index fs₁ disk₁ ⟨⟨looked, same⟩, found⟩
  rw [same]
  have kept₁ := standing.kept_of_looked looked
  have standing₁ := kept₁.standing
  have inTable := names index found
  refine kept₁.then ?_
  have unchanged : barred index → ¬ XattrChanges fs₁ disk index name value := by
    intro isBarred
    rw [looked.xattrChanges_iff]
    exact granted index found isBarred
  rcases standing₁.intact.run_xattrSector index with
    ⟨present, ran⟩ | ⟨_, _, ran⟩ | ⟨block, absent, isFree, _, free, ran⟩
  · apply Yields.bind_of_run ran
    refine standing₁.keepsOff_storeAttribute inTable present name value ?_
    by_cases isBarred : barred index
    · right
      intro fits
      by_contra differs
      exact unchanged isBarred (Or.inr ⟨present, fits, differs⟩)
    · exact Or.inl isBarred
  · exact ⟨none, fs₁, disk, run_bind_of_none ran, standing₁.kept_refl⟩
  · have notBarred : ¬ barred index := by
      intro isBarred
      refine unchanged isBarred (Or.inl ⟨absent, ?_⟩)
      rw [isFree]
      exact Option.some_ne_none block
    obtain ⟨outcome, fs₂, disk₂, ranAgain, intact₂, isXattr⟩ :=
      standing₁.intact.leaves_xattrSector inTable
    rw [ran] at ranAgain
    cases ranAgain
    obtain ⟨lba, present⟩ := isXattr block rfl
    have kept₂ := standing₁.kept_withXattr notBarred free intact₂
    apply Yields.bind_of_run ran
    refine kept₂.then ?_
    have stored := kept₂.standing.keepsOff_storeAttribute inTable
      (by rw [lba]; exact present) name value (Or.inl notBarred)
    rw [lba] at stored
    exact stored

omit standing in
theorem Intact.leaves_storeAttribute (intact : Intact fs disk)
    (inTable : index < maxInodes) (present : (fs.inodes index).xattrLba ≠ 0)
    (name value : List UInt8) :
    Leaves (storeAttribute (fs.inodes index).xattrLba name value) fs disk
      fun _ fs' disk' => fs' = fs ∧ (u32 (name.length + 1 + value.length + 1) < sectorSize →
          disk' (fs.inodes index).xattrLba = attributeBlock name value) := by
  apply Yields.bind_of_run (run_dRead fs disk _)
  apply yields_require_bind
  · intro tooLong
    exact ⟨rfl, fun fits => absurd fits tooLong⟩
  intro _
  apply Yields.bind_of_run (run_dWrite fs disk _ _)
  have written := intact.write_xattr inTable present (attributeBlock name value)
  apply (written.consistent.formatted.run_fsPersistMeta _).mono
  rintro _ fs' disk' ⟨_, fsEq, same⟩
  refine ⟨fsEq, fun _ => ?_⟩
  have above := (written.consistent.owned.inode_marked inTable _
    (Inode.mem_ownedSectors_xattr _ present)).1
  rw [same _ above, update_self]

omit standing in
theorem Intact.leaves_fsSetxattr_changes (intact : Intact fs disk)
    (found : ((fsLookupIndex path false).run flatDevice fs
      (.running disk)).1 = some index) (inTable : index < maxInodes) {name value : List UInt8}
    (changes : XattrChanges fs disk index name value) :
    Leaves (fsSetxattr path name value) fs disk fun _ fs' disk' =>
      (fs'.inodes index).flags = (fs.inodes index).flags ∧
        (fileView fs' disk' index).xattr ≠ (fileView fs disk index).xattr := by
  apply Yields.bind (intact.consistent.observes_fsLookupIndex path false).with_outcome
  · rintro fs' disk' ⟨_, failed⟩
    rw [found] at failed
    cases failed
  rintro other fs₁ disk₁ ⟨⟨looked, same⟩, foundOther⟩
  rw [found] at foundOther
  cases foundOther
  rw [same]
  have intact₁ := intact.of_looked looked
  have lba := (Inode.sameBlocks_of_unread (looked.inodes index)).xattrLba
  rw [← looked.xattrChanges_iff] at changes
  rcases intact₁.run_xattrSector index with
    ⟨present, ran⟩ | ⟨absent, full, _⟩ | ⟨block, absent, _, notZero, _, ran⟩
  · apply Yields.bind_of_run ran
    apply (intact₁.leaves_storeAttribute inTable present name value).mono
    rintro _ fs' disk' ⟨rfl, stored⟩
    refine ⟨looked.flags index, ?_⟩
    rcases changes with ⟨absent, _⟩ | ⟨_, fits, differs⟩
    · exact absurd absent present
    · unfold fileView
      rw [lba] at present differs stored ⊢
      rw [if_neg present, if_neg present, stored fits]
      intro equal
      exact differs (Option.some.inj equal).symm
  · rcases changes with ⟨_, free⟩ | ⟨present, _⟩
    · exact absurd full free
    · exact absurd absent present
  · obtain ⟨outcome, fs₂, disk₂, ranAgain, intact₂, isXattr⟩ := intact₁.leaves_xattrSector inTable
    rw [ran] at ranAgain
    cases ranAgain
    obtain ⟨newLba, _⟩ := isXattr block rfl
    have present : ((fs₁.withXattr index block).inodes index).xattrLba ≠ 0 := by
      rw [newLba]
      exact notZero
    apply Yields.bind_of_run ran
    have stored := intact₂.leaves_storeAttribute inTable present name value
    rw [newLba] at stored
    apply stored.mono
    rintro _ fs' disk' ⟨rfl, _⟩
    refine ⟨?_, ?_⟩
    · unfold FsState.withXattr
      rw [FsState.setInode_self]
      exact looked.flags index
    · unfold fileView
      rw [if_neg present, ← lba, if_pos absent]
      exact Option.some_ne_none _

end

theorem Intact.standing {fs : FsState} {disk : Nat → Sector} (intact : Intact fs disk) :
    Standing (fun _ => False) fs disk :=
  ⟨intact, fun _ => False.elim, fun _ => False.elim, fun _ => False.elim⟩

theorem KeepsOff.keepsIntact {barred : Nat → Prop} {α : Type} {program : FsProgram α}
    {fs : FsState} {disk : Nat → Sector} (keeps : KeepsOff barred program fs disk) :
    KeepsIntact program fs disk :=
  keeps.mono fun _ _ _ kept => kept.standing.intact

end KnitOS.Fs
