import KnitOS.Fs.DirectoryBlobs
import KnitOS.Fs.Images
import Mathlib.Data.Finmap

/-!
# Directories as finite maps

`dir_add_entry` and `dir_remove_entry` rewrite the whole blob of a directory.
As long as the blob has at most 65536 bytes, `dir_find_name` answers as the
finite map does that the calls build.  Behind that limit entries are written
but never looked at.
-/

namespace KnitOS.Fs

open Lib Lib.Program Storage

/-- A directory that the caller may read and write. -/
structure PlainDirectory (dir : Nat) (blob : List UInt8) (fs : FsState)
    (disk : Nat → Sector) : Prop extends StoredDirectory dir blob fs disk where
  readAccess : fsAccessOk fs dir false = true
  writeAccess : fsAccessOk fs dir true = true

namespace PlainDirectory

variable {dir : Nat} {blob : List UInt8} {fs fs' : FsState}
  {disk disk' : Nat → Sector}

theorem of_worked {other : List UInt8} {files : Nat → Prop}
    (plain : PlainDirectory dir blob fs disk) (worked : Worked files fs disk fs' disk')
    (stored : StoredDirectory dir other fs' disk') : PlainDirectory dir other fs' disk' := by
  refine ⟨stored, ?_, ?_⟩
  · rw [worked.fsAccessOk]
    exact plain.readAccess
  · rw [worked.fsAccessOk]
    exact plain.writeAccess

variable (plain : PlainDirectory dir blob fs disk)

include plain

theorem of_looked (looked : Looked fs fs') : PlainDirectory dir blob fs' disk :=
  plain.of_worked (Worked.of_looked looked plain.consistent (· = dir))
    (plain.toStoredDirectory.of_looked looked)

theorem readable : fs.Readable dir := plain.readable_iff.mpr plain.readAccess

theorem accepts : fs.Accepts dir :=
  ⟨⟨plain.valid, plain.occupied, plain.writeAccess⟩, plain.notSpecial⟩

theorem accessed_eq : fs.accessed dir = fs := by
  unfold FsState.accessed
  rw [plain.isDirectory]
  rfl

theorem run_dirFindName (nonempty : blob ≠ []) (name : List UInt8) :
    (dirFindName dir name).run flatDevice fs (.running disk) =
      (entryNamed blob name, fs.ask, .running disk) := by
  have positive := List.length_pos_iff.mpr nonempty
  have granted : fs.grants blob.length := ⟨positive, plain.short.trans (by decide),
    plain.legible _ _ positive plain.short⟩
  have read := plain.consistent.run_readBlob granted plain.readable
  have plainAsked := plain.of_looked (Looked.ask fs)
  rw [plainAsked.accessed_eq, plain.holds.fileBytes_eq, List.take_length] at read
  rw [dirFindName, run_inodeAt_bind, require_of ⟨plain.valid, plain.isDirectory⟩, run_pure_bind,
    run_bind_of_some plain.run_dirLogicalSize,
    require_of (Nat.ne_of_gt positive), run_pure_bind, run_bind_of_some read]
  unfold entryNamed
  cases (direntsOf blob.length blob).find? fun entry => entry.isNamed name with
  | none => rfl
  | some entry =>
    dsimp only
    rw [Option.bind_some, asIndex]
    by_cases small : entry.ino < 2147483648
    · rw [require_of small, if_pos small]
      rfl
    · rw [require_of_not small, if_neg small]
      rfl

theorem result_dirAddEntry (nonempty : blob ≠ []) (child : Nat)
    {name : List UInt8} (sized : name.length ≠ 0 ∧ name.length ≤ filenameLen)
    (absent : entryNamed blob name = none) (granted : ∀ asked, fs.kernel.heap asked
      (blob.length + recordSize name.length) = true) (extended : ((fsIndexTruncate dir
      (blob.length + recordSize name.length)).run flatDevice fs.ask.ask
        (.running disk)).1 = some ()) :
    ((dirAddEntry dir child name).run flatDevice fs (.running disk)).1 = some () := by
  have positive := List.length_pos_iff.mpr nonempty
  have limit := plain.short
  have recordSmall : recordSize name.length ≤ 264 := recordSize_le_of_short sized.2
  have plainAsked := plain.of_looked (Looked.ask fs)
  have plainTwice := plainAsked.of_looked (Looked.ask fs.ask)
  have grantedThere : fs.ask.grants (blob.length + recordSize name.length) := by
    refine ⟨by omega, ?_, granted _⟩
    change _ ≤ 524288
    omega
  have read := plainTwice.consistent.run_fsIndexRead plainTwice.readable 0 blob.length
  rw [plainTwice.accessed_eq, List.drop_zero, plainTwice.holds.fileBytes_eq,
    List.take_length] at read
  have old : (oldBlob dir blob.length (recordSize name.length)).run flatDevice
      fs.ask (.running disk) = (some blob, fs.ask.ask, .running disk) := by
    rw [oldBlob, run_bind_of_some (run_malloc_of_grants _ _ grantedThere),
      if_neg (Nat.ne_of_gt positive)]
    exact read
  have length : (blob ++ Dirent.encode ⟨child, name⟩).length =
      blob.length + recordSize name.length := by
    rw [List.length_append, Dirent.length_encode]
    rfl
  obtain ⟨outcome, fs', disk', ran, _, sameOutcome, _⟩ :=
    plainTwice.consistent.leaves_rewrite plainTwice.accepts (by rw [length]; omega :
        (blob ++ Dirent.encode ⟨child, name⟩).length + 511 < 2 ^ 32)
  rw [length] at ran sameOutcome
  rw [extended] at sameOutcome
  rw [dirAddEntry, require_of sized, run_pure_bind, run_attempt_bind,
    plain.run_dirFindName nonempty, absent]
  dsimp only
  rw [require_of (Option.isNone_none : (none : Option Nat).isNone = true),
    run_pure_bind, run_bind_of_some plainAsked.run_dirLogicalSize]
  change ((oldBlob dir blob.length (recordSize name.length) >>= _).run
    flatDevice fs.ask (.running disk)).1 = _
  rw [run_bind_of_some old, sameOutcome]
  exact congrArg Prod.fst ran

end PlainDirectory

abbrev NameMap : Type := Finmap fun _ : List UInt8 => Nat

/-- The name and the inode of a record that is not cleared. -/
def Dirent.binding (entry : Dirent) : Option (Sigma fun _ : List UInt8 => Nat) :=
  if entry.ino = 0 then none else some ⟨entry.name, entry.ino⟩

def bindings (entries : List Dirent) : List (Sigma fun _ : List UInt8 => Nat) :=
  entries.filterMap Dirent.binding

theorem Dirent.binding_cases (entry : Dirent) (name : List UInt8) :
    entry.isNamed name = false ∧ entry.binding = none ∨
      entry.isNamed name = true ∧ entry.binding = some ⟨name, entry.ino⟩ ∨
      entry.isNamed name = false ∧
        ∃ other, name ≠ other ∧ entry.binding = some ⟨other, entry.ino⟩ := by
  unfold Dirent.binding Dirent.isNamed
  by_cases cleared : entry.ino = 0
  · simp [cleared]
  · by_cases same : entry.name = name
    · simp [cleared, same]
    · simp [cleared, same, Ne.symm same]

theorem dlookup_bindings (entries : List Dirent) (name : List UInt8) :
    (bindings entries).dlookup name =
      (entries.find? fun entry => entry.isNamed name).map Dirent.ino := by
  unfold bindings
  induction entries with
  | nil => rfl
  | cons entry rest ih =>
    rw [List.filterMap_cons]
    rcases entry.binding_cases name with ⟨notNamed, binding⟩ |
      ⟨named, binding⟩ | ⟨notNamed, other, different, binding⟩
    · simp only [binding, List.find?_cons, notNamed, ih]
    · simp only [binding, List.find?_cons, named, List.dlookup_cons_eq, Option.map_some]
    · simp only [binding, List.find?_cons, notNamed]
      rw [List.dlookup_cons_ne _ _ different]
      exact ih

theorem bindings_eraseP (entries : List Dirent) (name : List UInt8) :
    bindings (entries.eraseP fun entry => entry.isNamed name) = (bindings entries).kerase name := by
  unfold bindings
  induction entries with
  | nil => rfl
  | cons entry rest ih =>
    rw [List.filterMap_cons, List.eraseP_cons]
    rcases entry.binding_cases name with ⟨notNamed, binding⟩ |
      ⟨named, binding⟩ | ⟨notNamed, other, different, binding⟩
    · simp only [binding, notNamed, cond_false, List.filterMap_cons, ih]
    · simp only [binding, named, cond_true, List.kerase_cons_eq]
    · simp only [binding, notNamed, cond_false, List.filterMap_cons]
      rw [List.kerase_cons_ne different, ih]

/-- The records of a directory represent a map: each name is bound once, to an
inode number that is a positive `int`. -/
structure Represents (entries : List Dirent) (map : NameMap) : Prop where
  distinct : (bindings entries).NodupKeys
  small : ∀ entry ∈ entries, entry.ino < 2147483648
  lookup : ∀ name, (bindings entries).dlookup name = map.lookup name

namespace Represents

variable {entries : List Dirent} {map : NameMap}
  (represents : Represents entries map)

include represents

theorem entryNamed_eq {blob : List UInt8} (records : Records blob entries)
    (name : List UInt8) : entryNamed blob name = map.lookup name := by
  rw [records.entryNamed_eq, ← represents.lookup, dlookup_bindings]
  cases found : entries.find? fun entry => entry.isNamed name with
  | none => rfl
  | some entry =>
    have small := represents.small entry (List.mem_of_find?_eq_some found)
    rw [Option.bind_some, if_pos small]
    rfl

theorem insert {child : Nat} {name : List UInt8} (nonzero : child ≠ 0)
    (small : child < 2147483648) (absent : map.lookup name = none) :
    Represents (entries ++ [⟨child, name⟩]) (map.insert name child) := by
  have appended : bindings (entries ++ [⟨child, name⟩]) = bindings entries ++ [⟨name, child⟩] := by
    unfold bindings
    rw [List.filterMap_append]
    simp [Dirent.binding, nonzero]
  have unbound : name ∉ (bindings entries).keys := by
    rw [← List.dlookup_eq_none, represents.lookup]
    exact absent
  refine ⟨?_, ?_, ?_⟩
  · rw [appended]
    unfold List.NodupKeys
    rw [List.keys_append, List.nodup_append]
    refine ⟨represents.distinct, List.nodup_singleton name, ?_⟩
    intro old bound new isNew same
    rw [same, List.mem_singleton.mp isNew] at bound
    exact unbound bound
  · exact List.forall_mem_append.mpr ⟨represents.small, List.forall_mem_singleton.mpr small⟩
  · intro other
    rw [appended, List.dlookup_append, represents.lookup]
    by_cases same : other = name
    · rw [same, absent, Finmap.lookup_insert, Option.none_or, List.dlookup_cons_eq]
    · rw [Finmap.lookup_insert_of_ne _ same, List.dlookup_cons_ne _ _ same]
      exact Option.or_none

theorem erase (name : List UInt8) : Represents (entries.eraseP fun entry => entry.isNamed name)
    (map.erase name) := by
  refine ⟨?_, ?_, ?_⟩
  · rw [bindings_eraseP]
    exact represents.distinct.kerase name
  · intro entry member
    exact represents.small entry (List.mem_of_mem_eraseP member)
  · intro other
    rw [bindings_eraseP]
    by_cases same : other = name
    · rw [same, List.dlookup_kerase _ represents.distinct, Finmap.lookup_erase]
    · rw [List.dlookup_kerase_ne same, Finmap.lookup_erase_ne same]
      exact represents.lookup other

end Represents

theorem represents_empty : Represents [] ∅ := ⟨List.nodupKeys_nil, by simp, fun _ => rfl⟩

inductive DirStep where
  | add (child : Nat) (name : List UInt8)
  | remove (name : List UInt8)

namespace DirStep

def program (dir : Nat) : DirStep → FsProgram Unit
  | add child name => dirAddEntry dir child name
  | remove name => dirRemoveEntry dir name

/-- What the call does to the map. -/
def applyTo (map : NameMap) : DirStep → NameMap
  | add child name => map.insert name child
  | remove name => map.erase name

/-- The variables and the disk after a call. -/
def exec (dir : Nat) (state : FsState × FlatDisk) (step : DirStep) : FsState × FlatDisk :=
  ((step.program dir).run flatDevice state.1 state.2).2

/-- The call succeeds.  An entry is added for an inode number that is a
positive `int`, and the directory has at most 65536 bytes with it. -/
def Allowed (dir : Nat) (state : FsState × FlatDisk) (step : DirStep) : Prop :=
  ((step.program dir).run flatDevice state.1 state.2).1 = some () ∧
    match step with
    | add child name => child ≠ 0 ∧ child < 2147483648 ∧
        (state.1.inodes dir).sizeBytes + recordSize name.length ≤ 65536
    | remove _ => True

end DirStep

/-- A directory whose records represent a map. -/
def HoldsMap (dir : Nat) (state : FsState × FlatDisk) (map : NameMap) : Prop :=
  ∃ disk blob entries, state.2 = .running disk ∧
    PlainDirectory dir blob state.1 disk ∧ Records blob entries ∧
    Represents entries map

theorem HoldsMap.step {dir : Nat} {state : FsState × FlatDisk} {map : NameMap}
    {step : DirStep} (holds : HoldsMap dir state map) (allowed : step.Allowed dir state) :
    HoldsMap dir (step.exec dir state) (step.applyTo map) := by
  obtain ⟨fs, _⟩ := state
  obtain ⟨disk, blob, entries, rfl, plain, records, represents⟩ := holds
  obtain ⟨succeeded, fits⟩ := allowed
  cases step with
  | add child name =>
    obtain ⟨nonzero, small, fits⟩ := fits
    change (fs.inodes dir).sizeBytes + recordSize name.length ≤ 65536 at fits
    rw [plain.holds.size] at fits
    have positive := Dirent.size_pos ⟨child, name⟩
    obtain ⟨outcome, fs', disk', ran, worked, added⟩ :=
      plain.leaves_dirAddEntry child name fun asked =>
        plain.legible asked _ (Nat.add_pos_right _ positive) fits
    change ((dirAddEntry dir child name).run flatDevice fs (.running disk)).1 = some () at succeeded
    rw [ran] at succeeded
    have appended := added succeeded
    have absent := appended.absent plain.isDirectory
    have holds := appended.holds
    rw [plain.dirBlob_eq] at absent holds
    rw [represents.entryNamed_eq records] at absent
    have length : (blob ++ Dirent.encode ⟨child, name⟩).length ≤ 65536 := by
      rw [List.length_append, Dirent.length_encode]
      exact fits
    have reached : DirStep.exec dir (fs, .running disk) (.add child name) =
      (fs', .running disk') := congrArg Prod.snd ran
    rw [reached]
    refine ⟨disk', _, entries ++ [⟨child, name⟩], rfl, plain.of_worked worked
        (plain.toStoredDirectory.of_worked worked holds length), ?_,
      represents.insert nonzero small absent⟩
    exact records.append (.single (Dirent.isRecord_encode appended.short (small.trans (by decide))))
  | remove name =>
    obtain ⟨outcome, fs', disk', ran, worked, removed⟩ := plain.leaves_dirRemoveEntry name
    change ((dirRemoveEntry dir name).run flatDevice fs (.running disk)).1 = some () at succeeded
    rw [ran] at succeeded
    obtain ⟨shorter, removedEq, storedAfter⟩ := removed succeeded
    have reached : DirStep.exec dir (fs, .running disk) (.remove name) =
      (fs', .running disk') := congrArg Prod.snd ran
    rw [reached]
    rcases records.removeDirent_eq name blob.length (Nat.le_refl _) with
      ⟨_, failed⟩ | ⟨_, other, otherEq, recordsAfter⟩
    · rw [failed] at removedEq
      cases removedEq
    · rw [otherEq] at removedEq
      cases removedEq
      exact ⟨disk', _, _, rfl, plain.of_worked worked storedAfter,
        recordsAfter, represents.erase name⟩

theorem HoldsMap.run_dirFindName {dir : Nat} {state : FsState × FlatDisk}
    {map : NameMap} (holds : HoldsMap dir state map) (name : List UInt8) :
    ((dirFindName dir name).run flatDevice state.1 state.2).1 = map.lookup name := by
  obtain ⟨fs, _⟩ := state
  obtain ⟨disk, blob, entries, rfl, plain, records, represents⟩ := holds
  obtain ⟨outcome, fs', disk', ran, _, _, found, _⟩ := plain.leaves_dirFindName name
  rw [← represents.entryNamed_eq records, ← found plain.readable]
  exact congrArg Prod.fst ran

/-- After any run of successful calls on one directory that never has more
than 65536 bytes, `dir_find_name` returns the inode of the last entry added
under the name, or -1 if there is none or it was removed since. -/
theorem dirFindName_after {dir : Nat} {state : FsState × FlatDisk}
    {map : NameMap} {steps : List DirStep} (holds : HoldsMap dir state map)
    (allowed : AlongRun (DirStep.exec dir) (fun state step =>
      step.Allowed dir state) state steps) (name : List UInt8) :
    ((dirFindName dir name).run flatDevice (runFrom (DirStep.exec dir) state steps).1
        (runFrom (DirStep.exec dir) state steps).2).1 =
      (runFrom DirStep.applyTo map steps).lookup name := by
  have reached : HoldsMap dir (runFrom (DirStep.exec dir) state steps)
      (runFrom DirStep.applyTo map steps) :=
    allowed.simulates (fun _ _ _ related fits => related.step fits) holds
  exact reached.run_dirFindName name

theorem plainDirectory_image {inode : Inode} {bytes : List UInt8}
    (flags : inode.flags = Inode.flagOccupied ||| Inode.flagDirectory)
    (size : inode.sizeBytes = bytes.length) (short : bytes.length ≤ 65536) :
    PlainDirectory rootIno bytes (imageState [⟨inode, bytes⟩]) (imageDisk [⟨inode, bytes⟩]) := by
  have fits : ImageFits [⟨inode, bytes⟩] := by
    refine ⟨(by decide : 1 < maxInodes), ?_⟩
    change 338 + ((bytes.length + 511) / 512 + 0) ≤ 4096
    omega
  have root : (imageState [⟨inode, bytes⟩]).inodes rootIno =
    ImageFile.placed ⟨inode, bytes⟩ 338 := rfl
  have rootFlags : ((imageState [⟨inode, bytes⟩]).inodes rootIno).flags =
      Inode.flagOccupied ||| Inode.flagDirectory := by
    rw [root]
    exact flags
  have occupied : ((imageState [⟨inode, bytes⟩]).inodes rootIno).occupied = true := by
    unfold Inode.occupied Inode.hasFlag
    rw [rootFlags]
    rfl
  have access := @fsAccessOk_root (imageState [⟨inode, bytes⟩]) rootIno rfl occupied rfl
  refine ⟨⟨image_consistent fits, fun _ _ _ _ => rfl, rfl, occupied, ?_, ?_,
      @image_holdsArray [⟨inode, bytes⟩] 0 ⟨inode, bytes⟩ rfl size, short⟩,
    access false, access true⟩
  · unfold Inode.isSpecial Inode.hasFlag
    rw [rootFlags]
    rfl
  · unfold Inode.isDirectory Inode.hasFlag
    rw [rootFlags]
    rfl

def emptyRoot : FsState × FlatDisk :=
  (imageState [⟨rootInode 0, []⟩], .running (imageDisk [⟨rootInode 0, []⟩]))

theorem emptyRoot_holdsMap : HoldsMap rootIno emptyRoot ∅ :=
  ⟨_, [], [], rfl, plainDirectory_image rfl rfl (Nat.zero_le _), .nil, represents_empty⟩

/-- Two names are added and the first is removed. -/
def twoNames : List DirStep :=
  [.add 5 [97], .add 6 [98], .remove [97]]

theorem twoNames_allowed : AlongRun (DirStep.exec rootIno)
    (fun state step => step.Allowed rootIno state) emptyRoot twoNames := by
  refine ⟨⟨?_, by decide, by decide, ?_⟩, ⟨?_, by decide, by decide, ?_⟩, ⟨?_, trivial⟩, trivial⟩
  · decide +kernel
  · decide
  · decide +kernel
  · decide +kernel
  · decide +kernel

theorem dirFindName_after_add : ((dirFindName rootIno [98]).run flatDevice
        (runFrom (DirStep.exec rootIno) emptyRoot twoNames).1
        (runFrom (DirStep.exec rootIno) emptyRoot twoNames).2).1 =
      (runFrom DirStep.applyTo ∅ twoNames).lookup [98] :=
  dirFindName_after emptyRoot_holdsMap twoNames_allowed [98]

/-- Names of 254 bytes without a slash. -/
def longName (last : Nat) : List UInt8 :=
  List.replicate 253 97 ++
    [UInt8.ofNat (if last < 46 then last + 1 else last + 2)]

/-- A directory with 252 names. -/
def crowdedEntries : List Dirent :=
  (List.range 252).map fun last => ⟨2, longName last⟩

def crowdedBlob : List UInt8 :=
  crowdedEntries.flatMap Dirent.encode

def crowdedFiles : List ImageFile :=
  [⟨{ rootInode 0 with sizeBytes := 65520 }, crowdedBlob⟩]

theorem records_flatMap_encode {entries : List Dirent} (encodable : ∀ entry ∈ entries,
      entry.name.length < 256 ∧ entry.ino < 4294967296) :
    Records (entries.flatMap Dirent.encode) entries := by
  induction entries with
  | nil => exact .nil
  | cons entry rest ih =>
    obtain ⟨short, small⟩ := encodable entry List.mem_cons_self
    rw [List.flatMap_cons]
    exact .cons (Dirent.isRecord_encode short small) (ih (List.forall_mem_cons.mp encodable).2)

theorem length_longName (last : Nat) : (longName last).length = 254 := by
  rw [longName, List.length_append, List.length_replicate, List.length_singleton]

theorem crowdedBlob_records : Records crowdedBlob crowdedEntries := by
  apply records_flatMap_encode
  intro entry member
  obtain ⟨last, _, rfl⟩ := List.mem_map.mp member
  refine ⟨?_, (by decide : 2 < 4294967296)⟩
  change (longName last).length < 256
  rw [length_longName]
  decide

theorem length_crowdedBlob : crowdedBlob.length = 65520 := by
  have sizes : crowdedEntries.map Dirent.size = List.replicate 252 260 := by
    rw [List.eq_replicate_iff]
    refine ⟨by rw [List.length_map, crowdedEntries, List.length_map, List.length_range], ?_⟩
    intro size member
    obtain ⟨entry, inEntries, rfl⟩ := List.mem_map.mp member
    obtain ⟨last, _, rfl⟩ := List.mem_map.mp inEntries
    change recordSize (longName last).length = 260
    rw [length_longName]
    rfl
  rw [crowdedBlob_records.length_eq, sizes, List.sum_replicate]
  rfl

theorem crowdedBlob_absent : entryNamed crowdedBlob (longName 252) = none := by
  rw [crowdedBlob_records.entryNamed_eq]
  have notNamed : ∀ entry ∈ crowdedEntries, ¬ entry.isNamed (longName 252) = true := by
    intro entry member named
    obtain ⟨last, inRange, rfl⟩ := List.mem_map.mp member
    have small := List.mem_range.mp inRange
    simp only [Dirent.isNamed, Bool.and_eq_true, beq_iff_eq] at named
    have lastByte := List.append_cancel_left named.2
    rw [List.singleton_inj] at lastByte
    have sameByte := congrArg UInt8.toNat lastByte
    rw [UInt8.toNat_ofNat', UInt8.toNat_ofNat', if_neg (by decide : ¬ 252 < 46)] at sameByte
    split at sameByte <;> omega
  rw [List.find?_eq_none.mpr notNamed]
  rfl

theorem crowdedFiles_plain : PlainDirectory rootIno crowdedBlob (imageState crowdedFiles)
      (imageDisk crowdedFiles) := plainDirectory_image rfl length_crowdedBlob.symm
    (by rw [length_crowdedBlob]; decide)

/-- The variables of an image whose root directory has 65520 bytes. -/
def fullRoot (inode : Inode) : FsState :=
  { imageState [] with
    inodes := fun index =>
      if index = rootIno then
        { inode with
          direct := ⟨338, 128⟩ :: List.replicate 3 ⟨0, 0⟩
          direct_length := rfl
          indirectLba := 0
          xattrLba := 0 }
      else
        Inode.zero
    bitmap := some fun sector => decide (sector < 466) }

theorem ImageFile.placed_eq (file : ImageFile) (start : Nat) {count : Nat}
    (sectors : file.sectors = count) : file.placed start =
      { file.inode with
        direct := ⟨start, count⟩ :: List.replicate 3 ⟨0, 0⟩
        direct_length := rfl
        indirectLba := 0
        xattrLba := 0 } := by
  cases sectors
  rfl

theorem imageState_eq_fullRoot {inode : Inode} {bytes : List UInt8}
    (length : bytes.length = 65520) : imageState [⟨inode, bytes⟩] = fullRoot inode := by
  have sectors : ImageFile.sectors ⟨inode, bytes⟩ = 128 := by
    unfold ImageFile.sectors
    rw [length]
  have last : imageStart [⟨inode, bytes⟩] (0 + 1) = 466 := by
    rw [@imageStart_succ [⟨inode, bytes⟩] 0 ⟨inode, bytes⟩ rfl, sectors]
    rfl
  have inodes : imageInodes [⟨inode, bytes⟩] = (fullRoot inode).inodes := by
    funext index
    match index with
    | 0 => rfl
    | 1 =>
      rw [@imageInodes_file [⟨inode, bytes⟩] 0 ⟨inode, bytes⟩ rfl, ImageFile.placed_eq _ _ sectors]
      rfl
    | index + 2 => rfl
  unfold imageState
  rw [inodes, List.length_singleton, ← Nat.zero_add 1, last]
  rfl

theorem fullRoot_grows : ((fsIndexTruncate rootIno 65780).run flatDevice
    (fullRoot { rootInode 0 with sizeBytes := 65520 }).ask.ask
    (.running (imageDisk crowdedFiles))).1 = some () := by
  decide +kernel

theorem direntNext_cut {entry : Dirent} (short : entry.name.length < 256)
    {count : Nat} (less : count < entry.size) : direntNext (entry.encode.take count) = none := by
  have length : (entry.encode.take count).length = count := by
    rw [List.length_take, entry.length_encode]
    omega
  have nameLength : (UInt8.ofNat entry.name.length).toNat = entry.name.length := by
    rw [UInt8.toNat_ofNat', Nat.mod_eq_of_lt short]
  match count with
  | 0 | 1 | 2 | 3 | 4 => rfl
  | count + 5 =>
    change (if recordSize (UInt8.ofNat entry.name.length).toNat ≤
      (entry.encode.take (count + 5)).length then _ else none) = none
    rw [length, nameLength]
    exact if_neg (Nat.not_le_of_lt less)

/-- A directory with 252 names of 254 bytes: `dir_add_entry` of another one
succeeds, and `dir_find_name` does not find it. -/
theorem dirAddEntry_beyond_limit : ∃ fs disk fs' disk', PlainDirectory rootIno crowdedBlob fs disk ∧
      Records crowdedBlob crowdedEntries ∧ (dirAddEntry rootIno 2 (longName 252)).run flatDevice fs
        (.running disk) = (some (), fs', .running disk') ∧
      ((dirFindName rootIno (longName 252)).run flatDevice fs' (.running disk')).1 = none := by
  have granted : ∀ asked, (imageState crowdedFiles).kernel.heap asked
      (crowdedBlob.length + recordSize (longName 252).length) = true := fun _ => rfl
  have nonempty : crowdedBlob ≠ [] := by
    intro empty
    have length := length_crowdedBlob
    rw [empty] at length
    cases length
  have size : recordSize (longName 252).length = 260 := by
    rw [length_longName]
    rfl
  have entrySize : Dirent.size ⟨2, longName 252⟩ = 260 := size
  have state : imageState crowdedFiles = fullRoot { rootInode 0 with sizeBytes := 65520 } :=
    imageState_eq_fullRoot length_crowdedBlob
  have extended : ((fsIndexTruncate rootIno (crowdedBlob.length +
      recordSize (longName 252).length)).run flatDevice (imageState crowdedFiles).ask.ask
        (.running (imageDisk crowdedFiles))).1 = some () := by
    rw [size, length_crowdedBlob, state]
    exact fullRoot_grows
  have sized : (longName 252).length ≠ 0 ∧ (longName 252).length ≤ filenameLen := by
    rw [length_longName]
    decide
  have succeeded := crowdedFiles_plain.result_dirAddEntry nonempty 2 sized
    crowdedBlob_absent granted extended
  obtain ⟨outcome, fs', disk', ran, worked, added⟩ :=
    crowdedFiles_plain.leaves_dirAddEntry 2 (longName 252) granted
  rw [ran] at succeeded
  cases succeeded
  have holds := (added rfl).holds
  rw [crowdedFiles_plain.dirBlob_eq] at holds
  refine ⟨_, _, fs', disk', crowdedFiles_plain, crowdedBlob_records, ran, ?_⟩
  have visible : dirBlob fs' disk' rootIno =
      crowdedBlob ++ (Dirent.encode ⟨2, longName 252⟩).take 16 := by
    have bytes := holds.fileBytes_eq
    have length : (crowdedBlob ++ Dirent.encode ⟨2, longName 252⟩).length = 65780 := by
      rw [List.length_append, length_crowdedBlob, Dirent.length_encode, entrySize]
    unfold dirBlob dirSize
    rw [← length_fileBytes, bytes, length, (by decide : min 65780 65536 = 65536),
      List.take_append, length_crowdedBlob, List.take_of_length_le]
    rw [length_crowdedBlob]
    decide
  have unseen : entryNamed (dirBlob fs' disk' rootIno) (longName 252) = none := by
    have cut : direntNext ((Dirent.encode ⟨2, longName 252⟩).take 16) = none := by
      apply direntNext_cut
      · change (longName 252).length < 256
        rw [length_longName]
        decide
      · rw [entrySize]
        decide
    have absent := crowdedBlob_absent
    rw [crowdedBlob_records.entryNamed_eq] at absent
    unfold entryNamed
    rw [visible, crowdedBlob_records.direntsOf_append cut _ (by
      rw [List.length_append]; omega)]
    exact absent
  obtain ⟨found, fs'', disk'', looked, _, _, seen, notSearched⟩ :=
    worked.consistent.leaves_dirFindName rootIno (longName 252)
  rw [looked]
  by_cases searchable : fs'.Searchable disk' rootIno
  · exact (seen searchable).trans unseen
  · exact notSearched searchable

end KnitOS.Fs
