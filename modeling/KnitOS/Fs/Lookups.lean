import KnitOS.Fs.Contents

/-!
# Reading directories and looking up paths

Lookups change access times at most.  What `dir_find_name` returns is a
function of the blob of the directory, unless the directory cannot be read.
-/

namespace KnitOS.Fs

open Lib.Program Storage

/-- The number of bytes of a directory that are looked at. -/
def dirSize (fs : FsState) (disk : Nat → Sector) (dir : Nat) : Nat :=
  min (readableSize fs disk dir) 65536

/-- The bytes of a directory that are looked at. -/
def dirBlob (fs : FsState) (disk : Nat → Sector) (dir : Nat) : List UInt8 :=
  (fileBytes fs disk dir).take (dirSize fs disk dir)

/-- The inode number `dir_find_name` finds in a blob. -/
def entryNamed (blob : List UInt8) (name : List UInt8) : Option Nat :=
  ((direntsOf blob.length blob).find? fun entry => entry.isNamed name).bind
    fun entry => if entry.ino < 2147483648 then some entry.ino else none

/-- A directory whose blob `dir_find_name` can read. -/
def FsState.Searchable (fs : FsState) (disk : Nat → Sector) (dir : Nat) : Prop :=
  validIndex dir = true ∧ (fs.inodes dir).isDirectory = true ∧
    (dirSize fs disk dir = 0 ∨
      fs.grants (dirSize fs disk dir) ∧ fs.Readable dir)

section

variable {fs : FsState} {disk : Nat → Sector} {held : List Nat}
  (consistent : Consistent fs disk held)

include consistent

theorem Consistent.run_dirLogicalSize (dir : Nat) :
    (dirLogicalSize dir).run flatDevice fs (.running disk) =
      (some (if validIndex dir = true then dirSize fs disk dir else 0), fs, .running disk) := by
  unfold dirLogicalSize
  by_cases valid : validIndex dir = true
  · have capacity := consistent.run_inodeByteCapacity (validIndex_lt valid).2
    rw [if_pos valid, if_pos valid, run_inodeAt_bind, run_bind_of_some capacity]
    rfl
  · rw [if_neg valid, if_neg valid]
    rfl

theorem Consistent.run_readBlob {dir size : Nat} (granted : fs.grants size)
    (readable : fs.Readable dir) : (readBlob dir size).run flatDevice fs (.running disk) =
      (some ((fileBytes fs disk dir).take size), fs.ask.accessed dir, .running disk) := by
  have readableAfter : fs.ask.Readable dir := readable
  have read := consistent.ask.run_fsIndexRead readableAfter 0 size
  rw [readBlob, run_bind_of_some (run_malloc_of_grants _ _ granted), read, List.drop_zero]
  rfl

omit consistent in
theorem leaves_readBlob_refused {dir size : Nat} (refused : ¬ (fs.grants size ∧ fs.Readable dir)) :
    Leaves (readBlob dir size) fs disk fun outcome fs' disk' =>
      outcome = none ∧ Looked fs fs' ∧ disk' = disk := by
  by_cases granted : fs.grants size
  · have unreadable : ¬ fs.ask.Readable dir := fun readable => refused ⟨granted, readable⟩
    refine ⟨none, fs.ask, disk, ?_, rfl, Looked.ask fs, rfl⟩
    rw [readBlob, run_bind_of_some (run_malloc_of_grants _ _ granted)]
    exact run_fsIndexRead_refused unreadable 0 size _
  · refine ⟨none, fs.ask, disk, ?_, rfl, Looked.ask fs, rfl⟩
    rw [readBlob, run_bind_of_none (run_malloc_of_not_grants _ _ granted)]

theorem Consistent.observes_readBlob (dir size : Nat) : Observes (readBlob dir size) fs disk := by
  by_cases ready : fs.grants size ∧ fs.Readable dir
  · exact ⟨_, _, _, consistent.run_readBlob ready.1 ready.2,
      (Looked.ask fs).trans (fs.ask.looked_accessed dir), rfl⟩
  · exact (leaves_readBlob_refused ready).mono fun _ _ _ holds => holds.2

theorem Consistent.leaves_dirFindName (dir : Nat) (name : List UInt8) :
    Leaves (dirFindName dir name) fs disk fun outcome fs' disk' =>
      Looked fs fs' ∧ disk' = disk ∧
      (fs.Searchable disk dir → outcome = entryNamed (dirBlob fs disk dir) name) ∧
      (¬ fs.Searchable disk dir → outcome = none) := by
  rw [dirFindName]
  apply yields_reads_bind
  apply yields_require_bind
  · intro notDir
    exact ⟨Looked.refl fs, rfl, fun searchable =>
      absurd ⟨searchable.1, searchable.2.1⟩ notDir, fun _ => rfl⟩
  rintro ⟨valid, isDir⟩
  have sized := consistent.run_dirLogicalSize dir
  rw [if_pos valid] at sized
  apply Yields.bind_of_run sized
  apply yields_require_bind
  · intro empty
    rw [not_not] at empty
    have emptyBlob : dirBlob fs disk dir = [] := by
      unfold dirBlob
      rw [empty, List.take_zero]
    refine ⟨Looked.refl fs, rfl, fun _ => ?_, fun notSearchable =>
      absurd ⟨valid, isDir, Or.inl empty⟩ notSearchable⟩
    rw [emptyBlob]
    rfl
  intro nonempty
  by_cases ready : fs.grants (dirSize fs disk dir) ∧ fs.Readable dir
  · have read : (readBlob dir (dirSize fs disk dir)).run flatDevice fs (.running disk) =
      (some (dirBlob fs disk dir), _) := consistent.run_readBlob ready.1 ready.2
    apply Yields.bind_of_run read
    have looked := (Looked.ask fs).trans (fs.ask.looked_accessed dir)
    have searchable : fs.Searchable disk dir := ⟨valid, isDir, Or.inr ready⟩
    unfold entryNamed
    cases found : (direntsOf (dirBlob fs disk dir).length
      (dirBlob fs disk dir)).find? fun entry => entry.isNamed name with
    | none =>
      apply yields_fail
      exact ⟨looked, rfl, fun _ => rfl, fun absent =>
        absurd searchable absent⟩
    | some entry =>
      rw [Option.bind_some]
      apply yields_require_bind
      · intro large
        rw [if_neg large]
        exact ⟨looked, rfl, fun _ => rfl, fun absent =>
          absurd searchable absent⟩
      · intro small
        apply yields_pure
        rw [if_pos small]
        exact ⟨looked, rfl, fun _ => rfl, fun absent =>
          absurd searchable absent⟩
  · apply (leaves_readBlob_refused ready).bind
    · rintro fs' disk' ⟨_, looked, same⟩
      refine ⟨looked, same, fun searchable => ?_, fun _ => rfl⟩
      rcases searchable.2.2 with empty | readable
      · exact absurd empty nonempty
      · exact absurd readable ready
    · rintro _ _ _ ⟨impossible, _⟩
      cases impossible

theorem Consistent.observes_dirFindName (dir : Nat) (name : List UInt8) :
    Observes (dirFindName dir name) fs disk := (consistent.leaves_dirFindName dir name).mono
    fun _ _ _ holds => ⟨holds.1, holds.2.1⟩

theorem Consistent.observes_dirIsEmpty (dir : Nat) : Observes (dirIsEmpty dir) fs disk := by
  apply Yields.bind_of_run (consistent.run_dirLogicalSize dir)
  apply yields_ite
  · intro _
    exact observes_pure true fs disk
  · intro _
    apply Observes.bind (consistent.observes_readBlob dir _).attempt
    intro blob fs' _
    cases blob with
    | none => exact observes_pure false fs' disk
    | some bytes => exact observes_pure _ fs' disk

theorem Consistent.observes_linkTarget (index : Nat) : Observes (linkTarget index) fs disk := by
  apply (observes_reads _ fs disk).bind
  intro inode fs' looked
  apply (observes_require _ fs' disk).bind
  intro _ fs'' lookedAgain
  apply yields_ite
  · intro _
    exact observes_pure _ fs'' disk
  · intro _
    have asked : Observes (staleBuffer inode.sizeBytes) fs'' disk :=
      ⟨_, fs''.ask, disk, rfl, Looked.ask fs'', rfl⟩
    apply asked.bind
    intro stale before lookedLast
    have after := ((looked.trans lookedAgain).trans lookedLast).consistent consistent
    apply Observes.bind (after.leaves_fsIndexRead index 0 inode.sizeBytes)
    intro bytes last _
    exact observes_pure _ last disk

end

section

variable {disk : Nat → Sector} {held : List Nat} {follow : Nat → FsProgram Nat}
  (followObserves : ∀ fs index, Consistent fs disk held → Observes (follow index) fs disk)

include followObserves

theorem observes_stepInto {fs : FsState} (consistent : Consistent fs disk held) (parent : Nat)
    (name : List UInt8) (more : Bool) : Observes (stepInto follow parent name more) fs disk := by
  apply (consistent.observes_dirFindName parent name).bind
  intro found fs' looked
  apply (followObserves fs' found (looked.consistent consistent)).bind
  intro index followed _
  apply (observes_reads _ followed disk).bind
  intro inode same _
  apply (observes_require _ same disk).bind
  intro _ last _
  exact observes_pure index last disk

theorem observes_walk : ∀ (rounds : Nat) (path : List UInt8) (parent last : Nat) {fs : FsState},
    Consistent fs disk held → Observes (walk follow rounds path parent last) fs disk := by
  intro rounds
  induction rounds with
  | zero =>
    intro path parent last fs _
    exact observes_pure last fs disk
  | succ rounds ih =>
    intro path parent last fs consistent
    rw [walk]
    apply yields_ite
    · intro _
      exact observes_pure last fs disk
    intro _
    apply yields_ite
    · intro _
      exact ih _ parent last consistent
    intro _
    apply yields_ite
    · intro _
      apply yields_ite
      · intro _
        exact ih _ parent last consistent
      · intro _
        apply Observes.bind (⟨_, fs, disk, rfl, Looked.refl fs, rfl⟩ :
          Observes (parentOf parent) fs disk)
        intro up fs' looked
        exact ih _ up up (looked.consistent consistent)
    · intro _
      apply (observes_stepInto followObserves consistent parent _ _).bind
      intro index fs' looked
      exact ih _ _ index (looked.consistent consistent)

theorem observes_walkPath {fs : FsState} (consistent : Consistent fs disk held)
    (path : List UInt8) : Observes (walkPath follow path) fs disk := by
  apply (observes_require _ fs disk).bind
  intro _ fs' looked
  have after := looked.consistent consistent
  apply yields_ite
  · intro _
    exact observes_pure rootIno fs' disk
  · intro _
    apply (observes_walk followObserves _ _ rootIno rootIno after).bind
    intro last fs'' _
    apply (observes_require _ fs'' disk).bind
    intro _ final _
    exact observes_pure last final disk

omit followObserves

theorem observes_followIfLink {isFollowing : Bool} {resolve : Option (List UInt8 → FsProgram Nat)}
    (resolveObserves : ∀ resolver ∈ resolve, ∀ fs path,
      Consistent fs disk held → Observes (resolver path) fs disk)
    {fs : FsState} (consistent : Consistent fs disk held) (index : Nat) :
    Observes (followIfLink isFollowing resolve index) fs disk := by
  apply (observes_reads _ fs disk).bind
  intro inode fs' looked
  have after := looked.consistent consistent
  apply yields_ite
  · intro _
    cases resolve with
    | none => exact yields_fail ⟨Looked.refl fs', rfl⟩
    | some resolver =>
      apply (after.observes_linkTarget index).bind
      intro target fs'' lookedAgain
      exact resolveObserves resolver rfl fs'' target (lookedAgain.consistent after)
  · intro _
    exact observes_pure index fs' disk

theorem observes_fsResolveComponent : ∀ (budget : Nat) (isFollowing : Bool) (path : List UInt8)
    {fs : FsState}, Consistent fs disk held →
      Observes (fsResolveComponent budget isFollowing path) fs disk := by
  intro budget
  induction budget with
  | zero =>
    intro isFollowing path fs consistent
    refine observes_walkPath (fun fs' index after => ?_) consistent path
    refine observes_followIfLink (fun resolver member => ?_) after index
    cases member
  | succ budget ih =>
    intro isFollowing path fs consistent
    refine observes_walkPath (fun fs' index after => ?_) consistent path
    refine observes_followIfLink (fun resolver member => ?_) after index
    cases member
    intro fs'' target last
    exact ih true target last

variable {fs : FsState} (consistent : Consistent fs disk held)

include consistent

theorem Consistent.observes_fsLookupIndex (path : List UInt8) (isFollowing : Bool) :
    Observes (fsLookupIndex path isFollowing) fs disk := by
  apply (observes_reads _ fs disk).bind
  intro _ fs' looked
  apply (observes_require _ fs' disk).bind
  intro _ fs'' lookedAgain
  exact observes_fsResolveComponent symlinkMax isFollowing path
    ((looked.trans lookedAgain).consistent consistent)

theorem Consistent.observes_parentDirectory (dir : List UInt8) :
    Observes (parentDirectory dir) fs disk := by
  apply yields_ite
  · intro _
    exact observes_pure rootIno fs disk
  · intro _
    apply (observes_require _ fs disk).bind
    intro _ fs' looked
    apply ((looked.consistent consistent).observes_fsLookupIndex _ true).bind
    intro index found _
    apply (observes_reads _ found disk).bind
    intro inode same _
    apply (observes_require _ same disk).bind
    intro _ last _
    exact observes_pure index last disk

theorem Consistent.observes_fsParentAndName (path : List UInt8) :
    Observes (fsParentAndName path) fs disk := by
  apply (observes_require _ fs disk).bind
  intro _ fs' looked
  apply (observes_require _ fs' disk).bind
  intro _ fs'' lookedAgain
  apply (((looked.trans lookedAgain).consistent consistent).observes_parentDirectory _).bind
  intro index last _
  exact observes_pure _ last disk

end

end KnitOS.Fs
