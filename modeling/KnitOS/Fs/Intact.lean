import KnitOS.Fs.Lookups

/-!
# The calls keep every sector with its owner

`Intact` is the invariant of a mounted file system between two calls.  Each call
is followed through its failure exits.
-/

namespace KnitOS.Fs

open Lib.Program Storage

section

variable {fs : FsState} {disk : Nat → Sector}
  (consistent : Consistent fs disk [])

include consistent

theorem Consistent.works_fsIndexTruncate (index newSize : Nat) :
    Works (· = index) (fsIndexTruncate index newSize) fs disk := by
  by_cases writable : fs.Writable index
  · apply (consistent.leaves_fsIndexTruncate newSize).mono
    rintro _ fs' disk' ⟨edited, _⟩
    exact Worked.of_edited edited rfl writable.2.1
  · exact ⟨none, fs, disk, run_fsIndexTruncate_refused writable newSize _,
      Worked.of_looked (Looked.refl fs) consistent _⟩

theorem Consistent.works_fsIndexWrite (index offset : Nat) (data : List UInt8) :
    Works (· = index) (fsIndexWrite index offset data) fs disk := by
  by_cases accepts : fs.Accepts index
  · apply (consistent.leaves_fsIndexWrite index offset data).mono
    rintro _ fs' disk' ⟨edited, _⟩
    exact Worked.of_edited edited rfl accepts.1.2.1
  · have refused : ¬ (fs.Accepts index ∧ offset ≤ u32 (offset + data.length)) :=
      fun passed => accepts passed.1
    exact ⟨none, fs, disk, run_fsIndexWrite_refused refused _,
      Worked.of_looked (Looked.refl fs) consistent _⟩

theorem Consistent.observes_oldBlob (dir old rec : Nat) :
    Observes (oldBlob dir old rec) fs disk := by
  by_cases granted : fs.grants (old + rec)
  · apply Observes.bind (⟨_, fs.ask, disk, run_malloc_of_grants _ _ granted, Looked.ask fs,
      rfl⟩ : Observes (malloc (old + rec)) fs disk)
    intro _ fs' looked
    apply yields_ite
    · intro _
      exact observes_pure [] fs' disk
    · intro _
      exact (looked.consistent consistent).leaves_fsIndexRead dir 0 old
  · exact ⟨none, fs.ask, disk, run_bind_of_none (run_malloc_of_not_grants _ _ granted),
      Looked.ask fs, rfl⟩

theorem Consistent.works_dirAddEntry (dir child : Nat) (name : List UInt8) :
    Works (· = dir) (dirAddEntry dir child name) fs disk := by
  apply ((observes_require _ fs disk).works consistent _).bind
  intro _ fs₁ disk₁ first
  apply ((first.consistent.observes_dirFindName dir name).attempt.works first.consistent _).bind
  intro existing fs₂ disk₂ second
  apply ((observes_require _ fs₂ disk₂).works second.consistent _).bind
  intro _ fs₃ disk₃ third
  apply Yields.bind_of_run (third.consistent.run_dirLogicalSize dir)
  apply ((third.consistent.observes_oldBlob dir _ _).works third.consistent _).bind
  intro blob fs₄ disk₄ fourth
  apply (fourth.consistent.works_fsIndexTruncate dir _).bind
  intro _ fs₅ disk₅ fifth
  apply (fifth.consistent.works_fsIndexWrite dir 0 _).bind
  intro written fs₆ disk₆ sixth
  exact (observes_require _ fs₆ disk₆).works sixth.consistent _

theorem Consistent.works_dirRemoveEntry (dir : Nat) (name : List UInt8) :
    Works (· = dir) (dirRemoveEntry dir name) fs disk := by
  apply Yields.bind_of_run (consistent.run_dirLogicalSize dir)
  apply ((observes_require _ fs disk).works consistent _).bind
  intro _ fs₁ disk₁ first
  apply ((first.consistent.observes_readBlob dir _).works first.consistent _).bind
  intro blob fs₂ disk₂ second
  cases removeDirent name blob.length blob with
  | none =>
    exact yields_fail (Worked.of_looked (Looked.refl fs₂) second.consistent _)
  | some shorter =>
    apply (second.consistent.works_fsIndexTruncate dir _).bind
    intro _ fs₃ disk₃ third
    apply yields_ite
    · intro _
      exact (observes_pure () fs₃ disk₃).works third.consistent _
    · intro _
      apply (third.consistent.works_fsIndexWrite dir 0 shorter).bind
      intro written fs₄ disk₄ fourth
      exact (observes_require _ fs₄ disk₄).works fourth.consistent _

end

/-- The invariant between two calls: sectors have one owner each, inodes that
are not occupied own no data, inode 0 is not used, and the root is a
directory. -/
structure Intact (fs : FsState) (disk : Nat → Sector) : Prop where
  consistent : Consistent fs disk []
  unused : ∀ index, index < maxInodes → (fs.inodes index).occupied = false →
      (fs.inodes index).flags = 0 ∧ (fs.inodes index).dataSectors disk = [] ∧
        (fs.inodes index).indirectLba = 0
  zeroth : (fs.inodes 0).occupied = false
  root : (fs.inodes rootIno).isDirectory = true

namespace Intact

variable {fs fs' : FsState} {disk disk' : Nat → Sector}
  (intact : Intact fs disk)

include intact

variable {index : Nat}

theorem occupied_of_isDirectory (inTable : index < maxInodes)
    (isDirectory : (fs.inodes index).isDirectory = true) : (fs.inodes index).occupied = true := by
  by_contra notOccupied
  rw [Bool.not_eq_true] at notOccupied
  have noFlags := (intact.unused index inTable notOccupied).1
  unfold Inode.isDirectory Inode.hasFlag at isDirectory
  rw [noFlags] at isDirectory
  cases isDirectory

theorem root_occupied : (fs.inodes rootIno).occupied = true :=
  intact.occupied_of_isDirectory (by decide) intact.root

/-- The invariant is kept if the flags are, and no inode that is not occupied
gets data. -/
theorem of_flags (consistent : Consistent fs' disk' [])
    (flags : ∀ other, (fs'.inodes other).flags = (fs.inodes other).flags)
    (empty : ∀ other, other < maxInodes → (fs.inodes other).occupied = false →
      (fs.inodes other).dataSectors disk = [] → (fs.inodes other).indirectLba = 0 →
        (fs'.inodes other).dataSectors disk' = [] ∧ (fs'.inodes other).indirectLba = 0) :
    Intact fs' disk' := by
  refine ⟨consistent, ?_, ?_, ?_⟩
  · intro other inTable notOccupied
    rw [Inode.occupied_congr (flags other)] at notOccupied
    obtain ⟨noFlags, noData, noIndirect⟩ := intact.unused other inTable notOccupied
    exact ⟨(flags other).trans noFlags, empty other inTable notOccupied noData noIndirect⟩
  · rw [Inode.occupied_congr (flags 0)]
    exact intact.zeroth
  · rw [Inode.isDirectory_congr (flags rootIno)]
    exact intact.root

theorem of_worked {files : Nat → Prop}
    (worked : Worked files fs disk fs' disk') : Intact fs' disk' := by
  refine intact.of_flags worked.consistent worked.flags ?_
  intro index inTable notOccupied noData noIndirect
  have unconcerned : ¬ (files index ∧ (fs.inodes index).occupied = true) := by
    rw [notOccupied]
    rintro ⟨_, impossible⟩
    cases impossible
  have blocks := Inode.sameBlocks_of_unread (worked.inodes index unconcerned)
  refine ⟨?_, blocks.indirectLba.trans noIndirect⟩
  rw [blocks.dataSectors, ← noData]
  apply Inode.dataSectors_congr
  intro present
  exact absurd noIndirect present

theorem of_looked (looked : Looked fs fs') : Intact fs' disk := intact.of_worked
    (Worked.of_looked looked intact.consistent fun _ => False)

section

variable (consistent : Consistent fs' disk [])
  (others : ∀ other, other ≠ index → fs'.inodes other = fs.inodes other)

include consistent others

/-- One inode changes, keeps its flags and gets no data if it had none. -/
theorem of_others (flags : (fs'.inodes index).flags = (fs.inodes index).flags)
    (empty : (fs.inodes index).dataSectors disk = [] → (fs.inodes index).indirectLba = 0 →
      (fs'.inodes index).dataSectors disk = [] ∧ (fs'.inodes index).indirectLba = 0) :
    Intact fs' disk := by
  refine intact.of_flags consistent ?_ ?_
  · intro other
    by_cases same : other = index
    · rw [same, flags]
    · rw [others other same]
  · intro other _ _ noData noIndirect
    by_cases same : other = index
    · rw [same] at noData noIndirect ⊢
      exact empty noData noIndirect
    · rw [others other same]
      exact ⟨noData, noIndirect⟩

/-- One inode other than the root changes, and it owns no data unless it is
occupied. -/
theorem of_others_unused (notRoot : index ≠ rootIno)
    (allowed : (fs'.inodes index).occupied = true ∧ index ≠ 0 ∨
      (fs'.inodes index).flags = 0 ∧ (fs'.inodes index).dataSectors disk = [] ∧
        (fs'.inodes index).indirectLba = 0) : Intact fs' disk := by
  refine ⟨consistent, ?_, ?_, ?_⟩
  · intro other inTable notOccupied
    by_cases same : other = index
    · rw [same] at notOccupied ⊢
      rcases allowed with ⟨occupied, _⟩ | empty
      · rw [occupied] at notOccupied
        cases notOccupied
      · exact empty
    · rw [others other same] at notOccupied ⊢
      exact intact.unused other inTable notOccupied
  · by_cases same : 0 = index
    · rcases allowed with ⟨_, notZero⟩ | ⟨noFlags, _⟩
      · exact absurd same.symm notZero
      · rw [same]
        unfold Inode.occupied Inode.hasFlag
        rw [noFlags]
        rfl
    · rw [others 0 same]
      exact intact.zeroth
  · rw [others rootIno (Ne.symm notRoot)]
    exact intact.root

end

theorem setInode {inode : Inode} (blocks : inode.SameBlocks (fs.inodes index))
    (flags : inode.flags = (fs.inodes index).flags) : Intact (fs.setInode index inode) disk := by
  apply intact.of_others (intact.consistent.setInode blocks) fun _ => FsState.setInode_other _ _ _
  · rw [FsState.setInode_self, flags]
  · intro noData noIndirect
    rw [FsState.setInode_self, blocks.dataSectors, blocks.indirectLba]
    exact ⟨noData, noIndirect⟩

theorem ask : Intact fs.ask disk := intact.of_looked (Looked.ask fs)

/-- The flags of a file other than the root may change, as long as an inode
that is not occupied owns no data. -/
theorem setFlags {flags : Nat} (notRoot : index ≠ rootIno)
    (allowed : flags &&& Inode.flagOccupied ≠ 0 ∧ index ≠ 0 ∨
      flags = 0 ∧ (fs.inodes index).dataSectors disk = [] ∧ (fs.inodes index).indirectLba = 0) :
    Intact (fs.setInode index { fs.inodes index with flags := flags }) disk := by
  refine intact.of_others_unused (intact.consistent.setInode ⟨rfl, rfl, rfl⟩)
    (fun _ => FsState.setInode_other _ _ _) notRoot ?_
  rw [FsState.setInode_self]
  rcases allowed with ⟨occupied, notZero⟩ | empty
  · exact Or.inl ⟨bne_iff_ne.mpr occupied, notZero⟩
  · exact Or.inr empty

end Intact

variable {disk : Nat → Sector} {fs : FsState}

theorem Consistent.setInode_empty
    {held : List Nat} (consistent : Consistent fs disk held) {index : Nat}
    {inode : Inode} (nothing : inode.ownedSectors disk = [])
    (packed : Packed (inode.extents disk)) : Consistent (fs.setInode index inode) disk held := by
  have fewer : ∀ owner, (claims (fs.setInode index inode) disk held owner).Sublist
      (claims fs disk held owner) := by
    intro owner
    unfold claims
    by_cases same : owner = index
    · rw [same, FsState.setInode_self, nothing]
      by_cases inTable : index < maxInodes
      · rw [if_pos inTable]
        exact List.nil_sublist _
      · rw [if_neg inTable, if_neg inTable]
    · rw [FsState.setInode_other _ _ _ same]
  refine ⟨consistent.formatted.setInode index inode,
    ⟨consistent.owned.exclusive.mono fewer, ?_⟩, ?_⟩
  · intro owner sector member
    exact consistent.owned.marked owner sector ((fewer owner).subset member)
  · apply consistent.packed_of_others fun _ => FsState.setInode_other _ _ _
    rw [FsState.setInode_self]
    exact packed

/-- An inode without blocks. -/
structure Inode.Blank (inode : Inode) : Prop where
  direct : inode.direct = noExtents
  indirectLba : inode.indirectLba = 0
  xattrLba : inode.xattrLba = 0

namespace Inode.Blank

variable {inode : Inode} (blank : inode.Blank) (disk : Nat → Sector)

include blank

theorem dataSectors : inode.dataSectors disk = [] := by
  unfold Inode.dataSectors Inode.indirectExtents
  rw [blank.direct, if_pos blank.indirectLba]
  unfold noExtents
  rw [extentSectors_replicate_empty]
  rfl

theorem ownedSectors : inode.ownedSectors disk = [] := by
  unfold Inode.ownedSectors Inode.indirectSectors Inode.xattrSectors
  rw [blank.dataSectors disk, if_pos blank.indirectLba, if_pos blank.xattrLba]
  rfl

theorem packed : Packed (inode.extents disk) := by
  unfold Inode.extents Inode.indirectExtents
  rw [blank.direct, if_pos blank.indirectLba, List.append_nil]
  exact packed_noExtents

end Inode.Blank

theorem Intact.setBlank (intact : Intact fs disk) {index : Nat} {inode : Inode}
    (blank : inode.Blank) (notRoot : index ≠ rootIno)
    (flags : inode.occupied = true ∧ index ≠ 0 ∨ inode.flags = 0) :
    Intact (fs.setInode index inode) disk := by
  apply intact.of_others_unused
    (intact.consistent.setInode_empty (blank.ownedSectors disk) (blank.packed disk))
    (fun _ => FsState.setInode_other _ _ _) notRoot
  rw [FsState.setInode_self]
  exact flags.imp_right fun noFlags => ⟨noFlags, blank.dataSectors disk, blank.indirectLba⟩

theorem Intact.withInodeCount (intact : Intact fs disk) (inodeCount : Nat) :
    Intact { fs with boot := fs.boot.withInodeCount inodeCount } disk :=
  ⟨intact.consistent.of_same_blocks rfl rfl rfl rfl
    fun _ _ => ⟨rfl, rfl, rfl⟩, intact.unused, intact.zeroth, intact.root⟩

/-- A function that keeps the invariant. -/
def KeepsIntact {α : Type} (program : FsProgram α) (fs : FsState) (disk : Nat → Sector) : Prop :=
  Leaves program fs disk fun _ fs' disk' => Intact fs' disk'

theorem KeepsIntact.bind {α β : Type} {program : FsProgram α} {next : α → FsProgram β}
    (first : KeepsIntact program fs disk) (then_ : ∀ value fs' disk', Intact fs' disk' →
      KeepsIntact (next value) fs' disk') : KeepsIntact (program >>= next) fs disk :=
  Yields.bind first (fun _ _ holds => holds) then_

section

variable {fs : FsState} {disk : Nat → Sector} (intact : Intact fs disk)

include intact

variable {α : Type}

theorem Intact.keeps_works {program : FsProgram α}
    {files : Nat → Prop} (works : Works files program fs disk) : KeepsIntact program fs disk :=
  works.mono fun _ _ _ worked => intact.of_worked worked

theorem Intact.keeps_pure (value : α) : KeepsIntact (pure value) fs disk :=
  intact.keeps_works ((observes_pure value fs disk).works intact.consistent fun _ => False)

theorem Intact.leaves_persist : Leaves fsPersistMeta fs disk fun _ fs' disk' =>
    fs' = fs ∧ Intact fs disk' := by
  apply (intact.consistent.formatted.run_fsPersistMeta disk).mono
  rintro _ fs' disk' ⟨_, fsEq, same⟩
  exact ⟨fsEq, intact.of_worked (Worked.of_sameData intact.consistent same fun _ => False)⟩

theorem Intact.keeps_persist : KeepsIntact fsPersistMeta fs disk := by
  apply intact.leaves_persist.mono
  rintro _ fs' disk' ⟨fsEq, after⟩
  rw [fsEq]
  exact after

omit intact in
theorem run_fsAllocInode (fs : FsState) (flat : FlatDisk) :
    fsAllocInode.run flatDevice fs flat = (none, fs, flat) ∨ ∃ index,
        fsAllocInode.run flatDevice fs flat = (some index, fs, flat) ∧
        0 < index ∧ index < maxInodes ∧ (fs.inodes index).occupied = false := by
  rw [fsAllocInode, run_reads_bind, id_eq]
  cases found : (List.range' 1 (maxInodes - 1)).find? fun index =>
      !(fs.inodes index).occupied with
  | none => exact Or.inl rfl
  | some index =>
    have inRange := List.mem_range'_1.mp (List.mem_of_find?_eq_some found)
    have free := List.find?_some found
    rw [Bool.not_eq_true'] at free
    have small : index < 1024 := by
      change 1 ≤ index ∧ index < 1 + 1023 at inRange
      omega
    exact Or.inr ⟨index, rfl, inRange.1, small, free⟩

/-- The state after a new inode was filled in. -/
def FsState.withNew (fs : FsState) (index flags mode parent : Nat) : FsState :=
  fs.ask.setInode index
    (newInode fs.ask flags mode parent
      (u32 (fs.kernel.clock fs.kernel.asked)))

omit intact in
theorem run_initInode (fs : FsState) (index flags mode parent : Nat) (flat : FlatDisk) :
    (initInode index flags mode parent).run flatDevice fs flat =
      (some (), fs.withNew index flags mode parent, flat) := rfl

omit intact in
theorem newInode_blank (fs : FsState) (flags mode parent now : Nat) :
    (newInode fs flags mode parent now).Blank := ⟨rfl, rfl, rfl⟩

omit intact in
theorem newInode_occupied (fs : FsState) {flags : Nat}
    (occupied : flags &&& Inode.flagOccupied ≠ 0) (mode parent now : Nat) :
    (newInode fs flags mode parent now).occupied = true := bne_iff_ne.mpr occupied

variable {parent index : Nat}

theorem Intact.leaves_enterNew (notRoot : index ≠ rootIno) (different : index ≠ parent)
    (blank : (fs.inodes index).Blank) (name : List UInt8) :
    Leaves (enterNew parent index name) fs disk fun outcome fs' disk' =>
      Intact fs' disk' ∧ ∃ fs₁, Worked (· = parent) fs disk fs₁ disk' ∧
        (fs' = fs₁ ∨ outcome = none ∧ ∃ inode, fs' = fs₁.setInode index inode) := by
  apply Yields.attempt_bind (intact.consistent.works_dirAddEntry parent index name)
  intro entered fs' disk' worked
  have after := intact.of_worked worked
  cases entered with
  | some done => exact yields_pure ⟨after, fs', worked, Or.inl rfl⟩
  | none =>
    have unconcerned : ¬ (index = parent ∧ (fs.inodes index).occupied = true) :=
      fun both => different both.1
    have blocks := Inode.sameBlocks_of_unread (worked.inodes index unconcerned)
    have noIndirect : (fs'.inodes index).indirectLba = 0 :=
      blocks.indirectLba.trans blank.indirectLba
    have noData : (fs'.inodes index).dataSectors disk' = [] := by
      rw [blocks.dataSectors]
      exact blank.dataSectors disk'
    exact ⟨none, _, disk', rfl, after.setFlags notRoot (Or.inr ⟨rfl, noData, noIndirect⟩),
      fs', worked, Or.inr ⟨rfl, _, rfl⟩⟩

theorem Intact.leaves_makeDirectory
    (parentIsDir : (fs.inodes parent).isDirectory = true) (name : List UInt8) :
    Leaves (makeDirectory parent name) fs disk fun outcome fs' disk' =>
      Intact fs' disk' ∧
      ∀ index ∈ outcome, (fs'.inodes index).isDirectory = true := by
  rw [makeDirectory]
  rcases run_fsAllocInode fs (.running disk) with
    full | ⟨index, allocated, positive, inTable, free⟩
  · exact ⟨none, fs, disk, run_bind_of_none full, intact, nofun⟩
  apply Yields.bind_of_run allocated
  apply Yields.bind_of_run (run_initInode fs index _ _ _ _)
  have notRoot := ne_of_free free intact.root_occupied
  have different : index ≠ parent := by
    intro same
    rw [same] at inTable free
    rw [intact.occupied_of_isDirectory inTable parentIsDir] at free
    cases free
  have blank := newInode_blank fs.ask (Inode.flagOccupied ||| Inode.flagDirectory) modeDir parent
    (u32 (fs.kernel.clock fs.kernel.asked))
  have intact₁ := intact.ask.setBlank blank notRoot
    (Or.inl ⟨newInode_occupied _ (by decide) _ _ _, by omega⟩)
  let fs₁ := fs.withNew index (Inode.flagOccupied ||| Inode.flagDirectory) modeDir parent
  have isNew : fs₁.inodes index =
    newInode fs.ask (Inode.flagOccupied ||| Inode.flagDirectory) modeDir
      parent (u32 (fs.kernel.clock fs.kernel.asked)) := FsState.setInode_self _ index _
  have blank₁ : (fs₁.inodes index).Blank := isNew ▸ blank
  apply yields_reads_bind
  apply yields_ite
  · intro _
    apply (intact₁.leaves_enterNew notRoot different blank₁ name).bind
    · rintro fs' disk' ⟨after, _⟩
      exact ⟨after, nofun⟩
    rintro _ fs₂ disk₂ ⟨intact₂, _, worked, rfl | ⟨impossible, _⟩⟩
    swap
    · cases impossible
    have isDir : (fs₂.inodes index).isDirectory = true := by
      rw [Inode.isDirectory_congr (worked.flags index)]
      change (fs₁.inodes index).isDirectory = true
      rw [isNew]
      exact (by decide : ((Inode.flagOccupied ||| Inode.flagDirectory) &&&
        Inode.flagDirectory != 0) = true)
    apply yields_modify_bind
    apply (intact₂.withInodeCount _).leaves_persist.bind
    · rintro fs' disk' ⟨fsEq, after⟩
      rw [fsEq]
      exact ⟨after, nofun⟩
    rintro _ fs₃ disk₃ ⟨fsEq, intact₃⟩
    rw [fsEq]
    apply yields_pure
    refine ⟨intact₃, fun _ member => ?_⟩
    cases member
    exact isDir
  · intro _
    refine ⟨none, _, disk, rfl, ?_, nofun⟩
    exact intact₁.setFlags notRoot (Or.inr ⟨rfl, blank₁.dataSectors disk, blank₁.indirectLba⟩)

theorem Intact.leaves_enterDirectory
    (parentIsDir : (fs.inodes parent).isDirectory = true) (name : List UInt8) :
    Leaves (enterDirectory parent name) fs disk fun outcome fs' disk' =>
      Intact fs' disk' ∧
      ∀ index ∈ outcome, (fs'.inodes index).isDirectory = true := by
  apply Yields.attempt_bind (intact.consistent.observes_dirFindName parent name)
  rintro existing fs' disk' ⟨looked, same⟩
  rw [same]
  have after := intact.of_looked looked
  cases existing with
  | none =>
    refine after.leaves_makeDirectory ?_ name
    rw [Inode.isDirectory_congr (looked.flags parent)]
    exact parentIsDir
  | some index =>
    apply yields_reads_bind
    apply yields_require_bind
    · intro _
      exact ⟨after, nofun⟩
    · intro isDir
      apply yields_pure
      refine ⟨after, fun _ member => ?_⟩
      cases member
      exact isDir

omit intact in
theorem keeps_createDirs : ∀ (rounds : Nat) (path : List UInt8) {parent : Nat} {fs : FsState}
    {disk : Nat → Sector}, Intact fs disk → (fs.inodes parent).isDirectory = true →
      KeepsIntact (createDirs rounds path parent) fs disk := by
  intro rounds
  induction rounds with
  | zero =>
    intro path parent fs disk intact _
    exact intact.keeps_pure ()
  | succ rounds ih =>
    intro path parent fs disk intact parentIsDir
    rw [createDirs]
    apply yields_ite
    · intro _
      exact intact.keeps_pure ()
    intro _
    apply yields_ite
    · intro _
      exact ih _ intact parentIsDir
    · intro _
      apply (intact.leaves_enterDirectory parentIsDir _).bind
      · rintro fs' disk' ⟨after, _⟩
        exact after
      rintro index fs' disk' ⟨after, isDir⟩
      exact ih _ after (isDir index rfl)

theorem Intact.keeps_fsCreateDir (path : List UInt8) : KeepsIntact (fsCreateDir path) fs disk := by
  apply yields_initialized intact.consistent.formatted.initialized
  exact keeps_createDirs _ _ intact intact.root

variable {held : List Nat}

omit intact in
theorem Consistent.release_xattr
    (consistent : Consistent fs disk held) (inTable : index < maxInodes)
    (noData : (fs.inodes index).dataSectors disk = [])
    (noIndirect : (fs.inodes index).indirectLba = 0) : Consistent
      (assignBits (fs.inodes index).xattrSectors false
        (fs.setInode index Inode.zero)) disk held := by
  have zeroBlank : Inode.zero.Blank := ⟨rfl, rfl, rfl⟩
  have formatted := consistent.formatted.setInode index Inode.zero
  have released : Owned (fs.setInode index Inode.zero) disk
      ((fs.inodes index).xattrSectors ++ held) := by
    refine consistent.owned.exchange inTable rfl (fun _ => rfl)
      (fun other different => fs.setInode_other index _ different) (fun _ _ _ _ _ => rfl) ?_
    rw [FsState.setInode_self, zeroBlank.ownedSectors disk]
    unfold Inode.ownedSectors Inode.indirectSectors
    rw [noData, if_pos noIndirect, List.nil_append, List.nil_append, List.nil_append]
  refine ⟨formatted.assignBits _ _, released.free formatted, ?_⟩
  apply consistent.packed_of_others fun _ => FsState.setInode_other _ _ _
  rw [FsState.setInode_self]
  exact zeroBlank.packed disk

omit intact in
/-- The file system after the blocks of an inode were freed and the inode was
cleared. -/
def releasedState (fs : FsState) (disk : Nat → Sector) (index : Nat) : FsState :=
  assignBits (fs.inodes index).xattrSectors false
    ((clearedState fs disk index).setInode index Inode.zero)

omit intact in
theorem Consistent.run_releaseInode
    (consistent : Consistent fs disk held) (inTable : index < maxInodes) :
    (releaseInode index).run flatDevice fs (.running disk) = (some (),
        { releasedState fs disk index with
          boot := fs.boot.withInodeCount (fs.boot.inodeCount - 1) },
        .running disk) := by
  have bounded := consistent.formatted.bounded
  have sameXattr : ((clearedState fs disk index).inodes index).xattrLba =
      (fs.inodes index).xattrLba := by
    rw [clearedState_self]
    rfl
  rw [releaseInode, run_bind_of_some (consistent.run_clear inTable), run_inodeAt_bind, sameXattr]
  unfold releasedState Inode.xattrSectors
  by_cases absent : (fs.inodes index).xattrLba = 0
  · rw [if_pos absent]
    simp only [whenever, absent, ne_eq, not_true_eq_false, if_false,
      run_pure_bind, run_modifyInode_bind, assignBits_nil]
    rfl
  · have inside : (fs.inodes index).xattrLba + 1 ≤ fs.boot.totalSectors := by
      have member : (fs.inodes index).xattrLba ∈ (fs.inodes index).ownedSectors disk := by
        unfold Inode.ownedSectors Inode.xattrSectors
        rw [if_neg absent]
        simp
      exact (consistent.owned.inode_marked inTable _ member).2.1
    have smallHere : (clearedState fs disk index).boot.totalSectors < 4294967296 := by
      change fs.boot.totalSectors < 4294967296
      omega
    have insideHere : (fs.inodes index).xattrLba + 1 ≤
        (clearedState fs disk index).boot.totalSectors := inside
    have freed : freeBlocks (fs.inodes index).xattrLba 1 (clearedState fs disk index) =
          assignBits [(fs.inodes index).xattrLba] false (clearedState fs disk index) :=
      freeBlocks_eq smallHere insideHere
    rw [if_neg absent]
    simp only [whenever, absent, ne_eq, not_false_eq_true, if_true,
      fsFreeBlocks, run_modify_bind, freed]
    rfl

theorem Intact.keeps_releaseInode (inTable : index < maxInodes) (notRoot : index ≠ rootIno) :
    KeepsIntact (releaseInode index) fs disk := by
  have consistent := intact.consistent
  refine ⟨_, _, disk, consistent.run_releaseInode inTable, ?_⟩
  have cleared := consistent.clear inTable
  have sameXattr : ((clearedState fs disk index).inodes index).xattrSectors =
        (fs.inodes index).xattrSectors := by
    rw [clearedState_self]
    rfl
  have released := cleared.release_xattr inTable
    (by rw [clearedState_self, Inode.cleared_dataSectors]) (by rw [clearedState_self]; rfl)
  rw [sameXattr] at released
  have others : ∀ other, other ≠ index →
      (releasedState fs disk index).inodes other = fs.inodes other := by
    intro other different
    unfold releasedState
    rw [assignBits_inodes, FsState.setInode_other _ _ _ different, clearedState_other different]
  have isZero : (releasedState fs disk index).inodes index = Inode.zero := by
    unfold releasedState
    rw [assignBits_inodes, FsState.setInode_self]
  have releasedIntact : Intact (releasedState fs disk index) disk := by
    refine intact.of_others_unused released others notRoot ?_
    rw [isZero]
    exact Or.inr ⟨rfl, (⟨rfl, rfl, rfl⟩ : Inode.zero.Blank).dataSectors disk, rfl⟩
  exact releasedIntact.withInodeCount _

omit intact in
/-- The path does not lead to an inode number outside the table. -/
def NamesInTable (fs : FsState) (disk : Nat → Sector) (path : List UInt8) : Prop :=
  ∀ index,
    ((fsLookupIndex path false).run flatDevice fs (.running disk)).1 =
      some index → index < maxInodes

variable {path : List UInt8}

omit intact in
theorem Consistent.takeXattr {block : Nat}
    (consistent : Consistent fs disk held) (inTable : index < maxInodes)
    (absent : (fs.inodes index).xattrLba = 0) (above : fs.base ≤ block)
    (below : block < fs.boot.totalSectors) (free : fsBitmapTest fs block = false) : Consistent
      ((assignBits [block] true fs).setInode index
        { fs.inodes index with xattrLba := block }) disk held := by
  have formatted := consistent.formatted
  have base := formatted.base_eq
  have present : block ≠ 0 := by omega
  have heldBlock := consistent.owned.allocOne formatted above below free
  refine ⟨(formatted.assignBits _ _).setInode _ _, ?_, ?_⟩
  · refine heldBlock.exchange inTable rfl (fun _ => rfl)
      (fun other different => FsState.setInode_other _ index _ different) (fun _ _ _ _ _ => rfl) ?_
    have before : (fs.inodes index).xattrSectors = [] := if_pos absent
    rw [FsState.setInode_self]
    change (((fs.inodes index).dataSectors disk ++ ((fs.inodes index).indirectSectors ++
      if block = 0 then [] else [block])) ++ held).Perm (((fs.inodes index).dataSectors disk ++
      ((fs.inodes index).indirectSectors ++ (fs.inodes index).xattrSectors)) ++ ([block] ++ held))
    rw [if_neg present, before, List.append_nil, List.append_assoc,
      List.append_assoc, List.append_assoc]
  · apply consistent.packed_of_others fun _ => FsState.setInode_other _ _ _
    rw [FsState.setInode_self]
    exact consistent.packed index inTable

theorem Intact.of_indirect {disk' : Nat → Sector}
    (same : ∀ index, index < maxInodes → (fs.inodes index).indirectLba ≠ 0 →
      disk' (fs.inodes index).indirectLba = disk (fs.inodes index).indirectLba) :
    Intact fs disk' := by
  refine ⟨intact.consistent.of_indirect same, ?_, intact.zeroth, intact.root⟩
  intro index inTable notOccupied
  obtain ⟨noFlags, noData, noIndirect⟩ := intact.unused index inTable notOccupied
  refine ⟨noFlags, ?_, noIndirect⟩
  rw [← noData]
  apply Inode.dataSectors_congr
  intro present
  exact absurd noIndirect present

theorem Intact.write_xattr (inTable : index < maxInodes)
    (present : (fs.inodes index).xattrLba ≠ 0) (bytes : Sector) : Intact fs
      (Function.update disk (fs.inodes index).xattrLba bytes) := by
  apply intact.of_indirect
  intro other otherInTable indirectPresent
  apply Function.update_of_ne
  have owned := intact.consistent.owned
  have isOwned := Inode.mem_ownedSectors_indirect disk indirectPresent
  have xattrMember : (fs.inodes index).xattrLba ∈ (fs.inodes index).xattrSectors := by
    unfold Inode.xattrSectors
    rw [if_neg present]
    exact List.mem_cons_self
  intro same
  by_cases isIndex : other = index
  · subst isIndex
    have nodup := owned.inode_nodup inTable
    unfold Inode.ownedSectors at nodup
    have blocksNodup := (List.nodup_append.mp nodup).2.1
    exact (List.nodup_append.mp blocksNodup).2.2 _ (Inode.mem_indirectSectors indirectPresent)
      _ xattrMember same
  · rw [same] at isOwned
    exact owned.inode_apart otherInTable inTable isIndex _ isOwned
      (List.mem_append_right _ (List.mem_append_right _ xattrMember))

theorem Intact.leaves_xattrSector (inTable : index < maxInodes) :
    Leaves (xattrSector index) fs disk fun outcome fs' disk' =>
      Intact fs' disk' ∧
      ∀ sector ∈ outcome, (fs'.inodes index).xattrLba = sector ∧ sector ≠ 0 := by
  rw [xattrSector]
  apply yields_reads_bind
  apply yields_ite
  · intro absent
    have formatted := intact.consistent.formatted
    have base := formatted.base_eq
    rcases fsAllocBlocks_spec formatted Nat.one_ne_zero (.running disk) with
      failed | ⟨block, allocated, above, below, free⟩
    · exact ⟨none, fs, disk, run_bind_of_none failed, intact, nofun⟩
    have blockFree := free block (List.mem_range'_1.mpr (by omega))
    apply Yields.bind_of_run allocated
    apply yields_modify_bind
    let fs₁ := (assignBits [block] true fs).setInode index
      { fs.inodes index with xattrLba := block }
    have isNew : fs₁.inodes index =
      { fs.inodes index with xattrLba := block } := FsState.setInode_self _ index _
    have intact₁ : Intact fs₁ disk := by
      apply intact.of_others (intact.consistent.takeXattr inTable absent above below blockFree)
        fun _ => FsState.setInode_other _ _ _
      · rw [isNew]
      · intro noData noIndirect
        rw [isNew]
        exact ⟨noData, noIndirect⟩
    have lba : (fs₁.inodes index).xattrLba = block := by
      rw [isNew]
    have cleared := intact₁.write_xattr inTable (by rw [lba]; omega) fun _ => 0
    rw [lba] at cleared
    refine ⟨some block, fs₁, _, rfl, cleared, ?_⟩
    intro sector member
    cases member
    exact ⟨lba, by omega⟩
  · intro present
    apply yields_pure
    refine ⟨intact, fun sector member => ?_⟩
    cases member
    exact ⟨rfl, present⟩

end

end KnitOS.Fs
