import KnitOS.Fs.DirectoryBlobs
import KnitOS.Fs.Images

/-!
# Enumerating a directory

`fs_readdir` returns one entry per call and keeps its place in an offset of the
caller.  Called until it returns 0, it goes through a blob of well-formed
records once.
-/

namespace KnitOS.Fs

open Lib Lib.Program Storage

/-- The directory that `fs_readdir` lists; a missing path is the root. -/
def readdirTarget (path : Option (List UInt8)) : FsProgram Nat :=
  match path with
  | none => pure rootIno
  | some path =>
    if path = [slash] then
      pure rootIno
    else do
      let dir ← fsLookupIndex path true
      let inode ← inodeAt dir
      require (inode.isDirectory = true)
      pure dir

/-- Read the blob of a directory into a buffer on the stack, or into a block of
the heap if it is too large for that. -/
def listBlob (dir size : Nat) : FsProgram (List UInt8) := do
  whenever (2048 < size) (malloc size)
  fsIndexRead dir 0 size

/-- A record that is not cleared and has a name. -/
def Dirent.isLive (entry : Dirent) : Bool :=
  entry.ino != 0 && !entry.name.isEmpty

/-- The loop of `fs_readdir`: the first live record from an offset on, and the
offset behind it.  A record is never empty, so as many rounds as bytes are
enough. -/
def nextLive (blob : List UInt8) : Nat → Nat → Option (Dirent × Nat)
  | 0, _ => none
  | rounds + 1, offset =>
    if offset < blob.length then
      match direntNext (blob.drop offset) with
      | none => none
      | some entry =>
        if entry.isLive then
          some (entry, offset + entry.size)
        else
          nextLive blob rounds (offset + entry.size)
    else
      none

/-- `fs_readdir`: the name and the inode of the next entry, or `none` where
the function returns 0, and the offset after the call. -/
def fsReaddir (path : Option (List UInt8)) (offset nameCap : Nat) :
    FsProgram (Option (List UInt8 × Nat) × Nat) := do
  require (nameCap ≠ 0)
  let dir ← readdirTarget path
  let size ← dirLogicalSize dir
  if size ≤ offset then
    pure (none, offset)
  else do
    let blob ← listBlob dir size
    match nextLive blob blob.length offset with
    | some (entry, next) =>
      pure (some (entry.name.take (nameCap - 1), entry.ino), next)
    | none => pure (none, size)

/-- Call `fs_readdir` until it returns 0, but at most this many times; `none`
if that is not often enough. -/
def readAll (path : Option (List UInt8)) (nameCap : Nat) :
    Nat → Nat → FsProgram (Option (List (List UInt8 × Nat)))
  | 0, _ => pure none
  | calls + 1, offset => do
      let result ← fsReaddir path offset nameCap
      match result.1 with
      | none => pure (some [])
      | some entry => do
          let rest ← readAll path nameCap calls result.2
          pure (rest.map fun entries => entry :: entries)

theorem nextLive_eq {suffix : List UInt8} {entries : List Dirent}
    (records : Records suffix entries) :
    ∀ (before : List UInt8) (rounds : Nat), suffix.length ≤ rounds →
      nextLive (before ++ suffix) rounds before.length = none ∧ entries.filter Dirent.isLive = [] ∨
        ∃ entry middle later others, nextLive (before ++ suffix) rounds before.length =
            some (entry, middle.length) ∧ entries.filter Dirent.isLive =
            entry :: others.filter Dirent.isLive ∧
          before ++ suffix = middle ++ later ∧ Records later others ∧
          others.length < entries.length := by
  induction records with
  | nil =>
    intro before rounds _
    left
    refine ⟨?_, rfl⟩
    cases rounds with
    | zero => rfl
    | succ rounds => rw [nextLive, List.append_nil, if_neg (Nat.lt_irrefl _)]
  | @cons record suffix entry entries isRecord rest ih =>
    intro before rounds enough
    have positive := entry.size_pos
    have size := isRecord.size
    rw [List.length_append] at enough
    obtain ⟨fewer, rfl⟩ : ∃ fewer, rounds = fewer + 1 := ⟨rounds - 1, by omega⟩
    have inside : before.length < (before ++ (record ++ suffix)).length := by
      rw [List.length_append, List.length_append]
      omega
    have behind : before.length + entry.size = (before ++ record).length := by
      rw [List.length_append, size]
    rw [nextLive, if_pos inside, List.drop_left, isRecord.direntNext]
    dsimp only
    by_cases live : entry.isLive = true
    · right
      rw [if_pos live, behind]
      exact ⟨entry, before ++ record, suffix, entries, rfl,
        List.filter_cons_of_pos live, (List.append_assoc _ _ _).symm, rest, Nat.lt_succ_self _⟩
    · rw [if_neg live, behind, ← List.append_assoc, List.filter_cons_of_neg live]
      rcases ih (before ++ record) fewer (by omega) with
        ended | ⟨found, middle, later, others, ran, filtered, split, parsed, fewerLeft⟩
      · exact .inl ended
      · exact .inr ⟨found, middle, later, others, ran, filtered, split,
          parsed, Nat.lt_succ_of_lt fewerLeft⟩

/-- In all states that satisfy `Good`, the path leads to a directory with this
blob, and reading it succeeds and leads to such a state again. -/
structure Listable {δ : Type} (device : Device δ DiskRequest (Option Sector))
    (path : Option (List UInt8)) (dir : Nat) (blob : List UInt8)
    (Good : FsState → δ → Prop) : Prop where
  opens : ∀ fs dev, Good fs dev → ∃ fs' dev',
    (readdirTarget path).run device fs dev = (some dir, fs', dev') ∧ Good fs' dev'
  sized : ∀ fs dev, Good fs dev → ∃ fs' dev',
    (dirLogicalSize dir).run device fs dev = (some blob.length, fs', dev') ∧ Good fs' dev'
  read : ∀ fs dev, Good fs dev → ∃ fs' dev',
    (listBlob dir blob.length).run device fs dev = (some blob, fs', dev') ∧ Good fs' dev'

section

variable {δ : Type} {device : Device δ DiskRequest (Option Sector)}
  {path : Option (List UInt8)} {dir nameCap : Nat} {blob : List UInt8}
  {Good : FsState → δ → Prop} (listable : Listable device path dir blob Good)
  (roomy : 0 < nameCap)

include listable roomy

theorem Listable.run_fsReaddir {before suffix : List UInt8}
    {entries : List Dirent} (records : Records suffix entries)
    (split : blob = before ++ suffix) {fs : FsState} {dev : δ} (good : Good fs dev) :
    ∃ result fs' dev', (fsReaddir path before.length nameCap).run device fs dev =
        (some result, fs', dev') ∧ Good fs' dev' ∧
      (result.1 = none ∧ entries.filter Dirent.isLive = [] ∨ ∃ entry middle later others,
          result = (some (entry.name.take (nameCap - 1), entry.ino), middle.length) ∧
          entries.filter Dirent.isLive = entry :: others.filter Dirent.isLive ∧
          blob = middle ++ later ∧ Records later others ∧ others.length < entries.length) := by
  obtain ⟨openFs, openDev, opened, openGood⟩ := listable.opens fs dev good
  obtain ⟨sizeFs, sizeDev, sized, sizeGood⟩ := listable.sized openFs openDev openGood
  rw [fsReaddir, require_of (Nat.ne_of_gt roomy), run_pure_bind,
    run_bind_of_some opened, run_bind_of_some sized]
  by_cases atEnd : blob.length ≤ before.length
  · rw [if_pos atEnd]
    refine ⟨_, _, _, rfl, sizeGood, .inl ⟨rfl, ?_⟩⟩
    have empty : suffix = [] := by
      apply List.eq_nil_of_length_eq_zero
      rw [split, List.length_append] at atEnd
      omega
    have noEntries := records.direntsOf_eq 0
    rw [empty] at noEntries
    rw [← noEntries (Nat.le_refl 0)]
    rfl
  · obtain ⟨readFs, readDev, read, readGood⟩ := listable.read sizeFs sizeDev sizeGood
    rw [if_neg atEnd, run_bind_of_some read]
    have enough : suffix.length ≤ blob.length := by
      rw [split, List.length_append]
      omega
    rcases nextLive_eq records before blob.length enough with
      ⟨ended, filtered⟩ | ⟨entry, middle, later, others, found, filtered, splitLater, parsed, fewer⟩
    · rw [← split] at ended
      rw [ended]
      exact ⟨_, _, _, rfl, readGood, .inl ⟨rfl, filtered⟩⟩
    · rw [← split] at found splitLater
      rw [found]
      exact ⟨_, _, _, rfl, readGood, .inr ⟨entry, middle, later, others, rfl,
        filtered, splitLater, parsed, fewer⟩⟩

theorem Listable.run_readAll : ∀ (calls : Nat) (before suffix : List UInt8) (entries : List Dirent),
    Records suffix entries → blob = before ++ suffix →
    entries.length < calls → ∀ (fs : FsState) (dev : δ), Good fs dev → ∃ fs' dev',
        (readAll path nameCap calls before.length).run device fs dev =
          (some (some ((entries.filter Dirent.isLive).map fun entry =>
            (entry.name.take (nameCap - 1), entry.ino))), fs', dev') := by
  intro calls
  induction calls with
  | zero =>
    intro before suffix entries _ _ impossible
    exact absurd impossible (Nat.not_lt_zero _)
  | succ calls ih =>
    intro before suffix entries records split enough fs dev good
    obtain ⟨result, fs', dev', ran, goodAfter, ended | ⟨entry, middle, later,
      others, resultEq, filtered, splitLater, parsed, fewer⟩⟩ :=
      listable.run_fsReaddir roomy records split good
    · rw [readAll, run_bind_of_some ran, ended.1, ended.2]
      exact ⟨_, _, rfl⟩
    · obtain ⟨last, lastDev, rest⟩ := ih middle later others
        parsed splitLater (by omega) fs' dev' goodAfter
      refine ⟨last, lastDev, ?_⟩
      rw [readAll, run_bind_of_some ran, resultEq]
      dsimp only
      rw [run_bind_of_some rest, filtered]
      rfl

end

section

variable {fs : FsState} {disk : Nat → Sector} {path : Option (List UInt8)} {dir : Nat}
  (consistent : Consistent fs disk [])

include consistent

theorem Consistent.observes_readdirTarget (path : Option (List UInt8)) :
    Observes (readdirTarget path) fs disk := by
  unfold readdirTarget
  split
  · exact observes_pure _ fs disk
  · split
    · exact observes_pure _ fs disk
    · apply (consistent.observes_fsLookupIndex _ true).bind
      intro dir fs₁ _
      apply (observes_reads _ fs₁ disk).bind
      intro inode fs₂ _
      apply (observes_require _ fs₂ disk).bind
      intro _ fs₃ _
      exact observes_pure _ fs₃ disk

theorem Consistent.run_listBlob (readable : fs.Readable dir)
    (granted : ∀ asked size, fs.kernel.heap asked size = true) : ∃ fs', Looked fs fs' ∧
      (listBlob dir (dirBlob fs disk dir).length).run flatDevice fs (.running disk) =
        (some (dirBlob fs disk dir), fs', .running disk) := by
  have whole : ((fileBytes fs disk dir).drop 0).take (dirBlob fs disk dir).length =
      dirBlob fs disk dir := by
    rw [length_dirBlob]
    rfl
  have limit := dirSize_le fs disk dir
  unfold listBlob whenever
  split
  · rename_i large
    have enough : fs.grants (dirBlob fs disk dir).length := by
      refine ⟨by omega, ?_, granted _ _⟩
      rw [length_dirBlob]
      exact limit.trans (by decide)
    refine ⟨_, (Looked.ask fs).trans (fs.ask.looked_accessed dir), ?_⟩
    have readableAfter : fs.ask.Readable dir := readable
    rw [run_bind_of_some (run_malloc_of_grants _ _ enough),
      consistent.ask.run_fsIndexRead readableAfter]
    exact congrArg (fun blob => (some blob, _, FlatDisk.running disk)) whole
  · refine ⟨_, fs.looked_accessed dir, ?_⟩
    rw [run_pure_bind, consistent.run_fsIndexRead readable, whole]

/-- With memory for the blob, a directory that the caller may read can be listed,
whatever was looked up before. -/
theorem Consistent.listable (readable : fs.Readable dir)
    (granted : ∀ asked size, fs.kernel.heap asked size = true)
    (found : ∀ fs', Looked fs fs' →
      ((readdirTarget path).run flatDevice fs' (.running disk)).1 = some dir) :
    Listable flatDevice path dir (dirBlob fs disk dir)
      fun fs' flat => Looked fs fs' ∧ flat = .running disk where
  opens := by
    rintro fs' _ ⟨looked, rfl⟩
    obtain ⟨outcome, fs'', disk'', ran, after, same⟩ :=
      (looked.consistent consistent).observes_readdirTarget path
    have isDir := found fs' looked
    rw [ran] at isDir
    cases isDir
    exact ⟨fs'', .running disk'', ran, looked.trans after, congrArg _ same⟩
  sized := by
    rintro fs' _ ⟨looked, rfl⟩
    refine ⟨fs', .running disk, ?_, looked, rfl⟩
    rw [(looked.consistent consistent).run_dirLogicalSize, if_pos readable.1, ← length_dirBlob,
      looked.dirBlob]
  read := by
    rintro fs' _ ⟨looked, rfl⟩
    have heap := congrArg Kernel.heap looked.kernel
    change fs'.kernel.heap = fs.kernel.heap at heap
    obtain ⟨fs'', after, ran⟩ := (looked.consistent consistent).run_listBlob
      ((looked.readable_iff dir).mpr readable) (by rw [heap]; exact granted)
    rw [looked.dirBlob] at ran
    exact ⟨fs'', .running disk, ran, looked.trans after, rfl⟩

end

/-- A file, a record that was cleared, and another file. -/
def listedEntries : List Dirent :=
  [⟨5, [97]⟩, ⟨0, [98, 99]⟩, ⟨6, [100]⟩]

def listedBlob : List UInt8 :=
  listedEntries.flatMap Dirent.encode

theorem listedBlob_records : Records listedBlob listedEntries := by
  have encoded : ∀ entry ∈ listedEntries, IsRecord entry.encode entry := by
    intro entry member
    apply Dirent.isRecord_encode
    · revert entry
      decide
    · revert entry
      decide
  exact .cons (encoded _ (by decide)) (.cons (encoded _ (by decide))
    (.single (encoded _ (by decide))))

/-- A disk whose root directory has the blob. -/
def listedFiles : List ImageFile :=
  [.directory rootIno listedEntries]

end KnitOS.Fs
