import KnitOS.Fs.Lookups
import KnitOS.Lib.Naming
import Mathlib.Data.List.TakeWhile

/-!
# What paths mean

The inode table and the directory blobs give a naming, and `fs_lookup_index`
finds what the path resolves to in it.  A caller who may not read a directory,
or for whom there is no memory, finds nothing.
-/

namespace KnitOS.Fs

open Lib Lib.Program Storage

/-- The components of a path that the loop of `fs_resolve_component` goes
through. -/
def componentsOf : Nat → List UInt8 → List (List UInt8)
  | 0, _ => []
  | rounds + 1, path =>
    if path.isEmpty then
      []
    else
      (nextComponent path).1 :: componentsOf rounds (nextComponent path).2

/-- What a component stands for. -/
def stepOf (name : List UInt8) : PathStep (List UInt8) :=
  if name = [] ∨ name = [dot] then .stay
  else if name = [dot, dot] then .up
  else .down name

variable {name : List UInt8}

theorem stepOf_stay (stays : name = [] ∨ name = [dot]) : stepOf name = .stay := if_pos stays

theorem stepOf_up (ups : name = [dot, dot]) : stepOf name = .up := by
  rw [ups]
  decide

theorem stepOf_down (stays : ¬ (name = [] ∨ name = [dot])) (ups : name ≠ [dot, dot]) :
    stepOf name = .down name := by
  rw [stepOf, if_neg stays, if_neg ups]

def stepsOf (rounds : Nat) (path : List UInt8) : List (PathStep (List UInt8)) :=
  (componentsOf rounds path).map stepOf

/-- The steps of a path; there is none without a character. -/
def pathSteps (path : List UInt8) : Option (List (PathStep (List UInt8))) :=
  if path = [] then
    none
  else
    let components := dropSlash (truncatePath path)
    some (stepsOf components.length components)

theorem length_dropSlash_le (path : List UInt8) : (dropSlash path).length ≤ path.length := by
  unfold dropSlash
  split
  · rw [List.length_tail]
    omega
  · exact Nat.le_refl _

variable {path : List UInt8}

theorem nextComponent_shorter (nonempty : path ≠ []) :
    (nextComponent path).2.length < path.length := by
  cases path with
  | nil => exact absurd rfl nonempty
  | cons byte rest =>
    unfold nextComponent
    by_cases isSlash : byte = slash
    · simp [isSlash]
    · have startsName : (byte :: rest).takeWhile (fun byte =>
          byte != slash) = byte :: rest.takeWhile fun byte =>
            byte != slash := by
        rw [List.takeWhile_cons, if_pos (by simpa using isSlash)]
      have positive : 0 < ((byte :: rest.takeWhile fun byte =>
          byte != slash).take (filenameLen - 1)).length := by
        simp [filenameLen]
      rw [startsName]
      dsimp only
      split
      · rw [List.length_tail, List.length_drop, List.length_cons]
        omega
      · rw [List.length_drop, List.length_cons]
        omega

theorem componentsOf_eq_nil_iff {rounds : Nat} (enough : path.length ≤ rounds) :
    componentsOf rounds path = [] ↔ path = [] := by
  cases rounds with
  | zero =>
    have empty : path = [] := List.length_eq_zero_iff.mp (by omega)
    simp [componentsOf, empty]
  | succ rounds =>
    cases path with
    | nil => simp [componentsOf]
    | cons byte rest => simp [componentsOf]

theorem componentsOf_nil (rounds : Nat) : componentsOf rounds [] = [] := by
  cases rounds with
  | zero => rfl
  | succ rounds => rfl

theorem componentsOf_congr : ∀ {rounds rounds' : Nat} {path : List UInt8}, path.length ≤ rounds →
    path.length ≤ rounds' → componentsOf rounds path = componentsOf rounds' path := by
  intro rounds
  induction rounds with
  | zero =>
    intro rounds' path enough _
    rw [List.length_eq_zero_iff.mp (Nat.le_zero.mp enough), componentsOf_nil, componentsOf_nil]
  | succ rounds ih =>
    intro rounds' path enough enough'
    by_cases empty : path = []
    · rw [empty, componentsOf_nil, componentsOf_nil]
    have shorter := nextComponent_shorter empty
    cases rounds' with
    | zero =>
      exact absurd (List.length_eq_zero_iff.mp (Nat.le_zero.mp enough')) empty
    | succ rounds' =>
      rw [componentsOf, componentsOf, ih (by omega : _ ≤ rounds) (by omega : _ ≤ rounds')]

def components (path : List UInt8) : List (List UInt8) :=
  componentsOf path.length path

theorem components_eq (nonempty : path ≠ []) : components path =
    (nextComponent path).1 :: components (nextComponent path).2 := by
  have shorter := nextComponent_shorter nonempty
  have grow : components path = componentsOf (path.length + 1) path :=
    componentsOf_congr (Nat.le_refl _) (Nat.le_succ _)
  rw [grow, componentsOf, if_neg (by simpa using nonempty)]
  congr 1
  exact componentsOf_congr shorter.le (Nat.le_refl _)

/-- What lookups read of an inode, and whether the caller may read it with
`fs_index_read`. -/
structure NodeView where
  flags : Nat
  parent : Nat
  size : Nat
  inlined : List UInt8
  bytes : List UInt8
  readable : Bool

def nodeView (fs : FsState) (disk : Nat → Sector) (index : Nat) : NodeView where
  flags := (fs.inodes index).flags
  parent := (fs.inodes index).parent
  size := (fs.inodes index).sizeBytes
  inlined := (fs.inodes index).symlinkInline
  bytes := fileBytes fs disk index
  readable := fsAccessOk fs index false && !(fs.inodes index).isSpecial

namespace NodeView

def hasFlag (view : NodeView) (mask : Nat) : Bool :=
  view.flags &&& mask != 0

def isDirectory (view : NodeView) : Bool :=
  view.hasFlag Inode.flagDirectory

def isSymlink (view : NodeView) : Bool :=
  view.hasFlag Inode.flagSymlink

def isInline (view : NodeView) : Bool :=
  decide (view.size < symlinkInlineSize) && view.inlined.headD 0 != 0

def target (view : NodeView) : Option (List UInt8) :=
  if view.size ≠ 0 ∧ view.size < filenameLen then
    if view.isInline then
      some (cString (view.inlined.take view.size))
    else if view.readable then
      some (cString (view.bytes.take view.size))
    else
      none
  else
    none

def find (view : NodeView) (name : List UInt8) : Option Nat :=
  if view.readable && view.isDirectory then
    entryNamed (view.bytes.take 65536) name
  else
    none

end NodeView

/-- The naming that the inode table and the directories define. -/
def namingOf (view : Nat → NodeView) : Naming Nat (List UInt8) where
  root := rootIno
  isNode index := decide (index < 2147483648)
  isDirectory index := (view index).isDirectory
  parent index := if (view index).parent = 0 then rootIno else (view index).parent
  find dir name := (view dir).find name
  link index :=
    if (view index).isSymlink then
      some ((view index).target.bind pathSteps)
    else
      none

/-- An inode that is found under some name. -/
def IsNamed (view : Nat → NodeView) (index : Nat) : Prop :=
  ∃ dir name, (view dir).find name = some index

/-- The target of a link that is not inline has all its bytes. -/
def LinksBacked (view : Nat → NodeView) : Prop :=
  ∀ index, IsNamed view index → (view index).isSymlink = true →
    (view index).isInline = false →
      (view index).size ≤ (view index).bytes.length

/-- There is memory for the blob of a directory. -/
def FsState.Legible (fs : FsState) : Prop :=
  ∀ asked size, 0 < size → size ≤ 65536 → fs.kernel.heap asked size = true

section

variable {fs fs' : FsState}

theorem dirBlob_eq (fs : FsState) (disk : Nat → Sector) (dir : Nat) :
    dirBlob fs disk dir = (fileBytes fs disk dir).take 65536 := by
  unfold dirBlob dirSize
  rw [← length_fileBytes]
  rcases Nat.le_total (fileBytes fs disk dir).length 65536 with short | long
  · rw [Nat.min_eq_left short, List.take_length, List.take_of_length_le short]
  · rw [Nat.min_eq_right long]

theorem Looked.nodeView (looked : Looked fs fs') (disk : Nat → Sector) :
    nodeView fs' disk = nodeView fs disk := by
  funext index
  have parent := congrArg Inode.parent (looked.inodes index)
  have inlined := congrArg Inode.symlinkInline (looked.inodes index)
  change (fs'.inodes index).parent = (fs.inodes index).parent at parent
  change (fs'.inodes index).symlinkInline = (fs.inodes index).symlinkInline at inlined
  simp only [KnitOS.Fs.nodeView, fileBytes, readableSize, Inode.isSpecial,
    Inode.hasFlag, looked.flags, parent, looked.sizeBytes, inlined, looked.fileBlocks,
    looked.dataSectors, looked.fsAccessOk]

theorem Looked.legible_iff (looked : Looked fs fs') : fs'.Legible ↔ fs.Legible := by
  have heap := congrArg Kernel.heap looked.kernel
  change fs'.kernel.heap = fs.kernel.heap at heap
  simp only [FsState.Legible, heap]

theorem nodeView_readable_iff {disk : Nat → Sector} {index : Nat} :
    (nodeView fs disk index).readable = true ↔ fs.Readable index := by
  simp only [KnitOS.Fs.nodeView, FsState.Readable, KnitOS.Fs.fsAccessOk,
    Bool.and_eq_true, Bool.not_eq_true']
  tauto

end

/-- A function that only looks and returns the expected value, unless it is
refused memory. -/
def Computes {α : Type} (program : FsProgram α) (fs : FsState)
    (disk : Nat → Sector) (expected : Option α) : Prop :=
  Leaves program fs disk fun outcome fs' disk' =>
    Looked fs fs' ∧ disk' = disk ∧
      (outcome = expected ∨ outcome = none ∧ ¬ fs.Legible)

section

variable {α β : Type} {fs : FsState} {disk : Nat → Sector}

theorem computes_pure (value : α) : Computes (pure value) fs disk (some value) :=
  yields_pure ⟨Looked.refl fs, rfl, Or.inl rfl⟩

theorem computes_fail : Computes (fail : FsProgram α) fs disk none :=
  yields_fail ⟨Looked.refl fs, rfl, Or.inl rfl⟩

theorem Computes.bind {program : FsProgram α} {next : α → FsProgram β}
    {expected : Option α} {expectedLast : Option β} (first : Computes program fs disk expected)
    (fails : expected = none → expectedLast = none)
    (then_ : ∀ value fs', expected = some value → Looked fs fs' →
      Computes (next value) fs' disk expectedLast) :
    Computes (program >>= next) fs disk expectedLast := by
  apply Yields.bind first
  · rintro fs' disk' ⟨looked, same, isExpected | ⟨_, illegible⟩⟩
    · exact ⟨looked, same, Or.inl (fails isExpected.symm).symm⟩
    · exact ⟨looked, same, Or.inr ⟨rfl, illegible⟩⟩
  · rintro value fs' disk' ⟨looked, same, isExpected | ⟨impossible, _⟩⟩
    · rw [same]
      apply (then_ value fs' isExpected.symm looked).mono
      rintro outcome fs'' disk'' ⟨lookedAgain, sameAgain, found⟩
      rw [looked.legible_iff] at found
      exact ⟨looked.trans lookedAgain, sameAgain, found⟩
    · cases impossible

theorem computes_require_bind {condition : Prop} [Decidable condition]
    {next : Unit → FsProgram β} {expected : Option β} (fails : ¬ condition → expected = none)
    (then_ : condition → Computes (next ()) fs disk expected) :
    Computes (require condition >>= next) fs disk expected := by
  apply yields_require_bind
  · intro violated
    exact ⟨Looked.refl fs, rfl, Or.inl (fails violated).symm⟩
  · exact then_

theorem computes_asIndex (index : Nat) : Computes (asIndex index) fs disk
    (if index < 2147483648 then some index else none) := by
  apply computes_require_bind
  · intro large
    rw [if_neg large]
  · intro small
    rw [if_pos small]
    exact computes_pure index

end

/-- A state with what lookups read of it. -/
structure Viewed (view : Nat → NodeView) (fs : FsState)
    (disk : Nat → Sector) (held : List Nat) : Prop where
  consistent : Consistent fs disk held
  isView : nodeView fs disk = view

section

variable {fs : FsState} {disk : Nat → Sector} {held : List Nat}
  {view : Nat → NodeView}

theorem Viewed.looked (viewed : Viewed view fs disk held) {fs' : FsState}
    (looked : Looked fs fs') : Viewed view fs' disk held := ⟨looked.consistent viewed.consistent,
    (looked.nodeView disk).trans viewed.isView⟩

theorem dirSize_le (fs : FsState) (disk : Nat → Sector) (dir : Nat) : dirSize fs disk dir ≤ 65536 :=
  Nat.min_le_right _ _

theorem dirBlob_of_dirSize_zero {dir : Nat}
    (empty : dirSize fs disk dir = 0) : dirBlob fs disk dir = [] := by
  unfold dirBlob
  rw [empty, List.take_zero]

theorem nodeView_find (fs : FsState) (disk : Nat → Sector) (dir : Nat) (name : List UInt8) :
    (nodeView fs disk dir).find name =
      if (nodeView fs disk dir).readable && (fs.inodes dir).isDirectory then
        entryNamed (dirBlob fs disk dir) name
      else
        none := by
  rw [dirBlob_eq]
  rfl

theorem FsState.Legible.searchable (legible : fs.Legible) {dir : Nat} (readable : fs.Readable dir)
    (isDirectory : (fs.inodes dir).isDirectory = true) : fs.Searchable disk dir := by
  refine ⟨readable.1, isDirectory, ?_⟩
  by_cases empty : dirSize fs disk dir = 0
  · exact Or.inl empty
  · have small := dirSize_le fs disk dir
    have positive := Nat.pos_of_ne_zero empty
    have granted := legible fs.kernel.asked _ positive small
    exact Or.inr ⟨⟨positive, small.trans (by decide), granted⟩, readable⟩

theorem Consistent.computes_dirFindName (consistent : Consistent fs disk held)
    (dir : Nat) (name : List UInt8) : Computes (dirFindName dir name) fs disk
      ((nodeView fs disk dir).find name) := by
  apply (consistent.leaves_dirFindName dir name).mono
  rintro outcome fs' disk' ⟨looked, same, found, notFound⟩
  refine ⟨looked, same, ?_⟩
  rw [nodeView_find]
  by_cases searchable : fs.Searchable disk dir
  · left
    rw [found searchable]
    obtain ⟨valid, isDirectory, empty | ⟨_, readable⟩⟩ := searchable
    · rw [dirBlob_of_dirSize_zero empty]
      exact (ite_self none).symm
    · rw [nodeView_readable_iff.mpr readable, isDirectory]
      rfl
  · rw [notFound searchable]
    by_cases legible : fs.Legible
    · left
      rw [if_neg]
      intro both
      rw [Bool.and_eq_true] at both
      exact searchable (legible.searchable (nodeView_readable_iff.mp both.1) both.2)
    · exact Or.inr ⟨rfl, legible⟩

theorem Consistent.computes_fsIndexRead (consistent : Consistent fs disk held) (index size : Nat) :
    Computes (fsIndexRead index 0 size) fs disk (if (nodeView fs disk index).readable then
        some ((fileBytes fs disk index).take size)
      else
        none) := by
  by_cases readable : fs.Readable index
  · have ran := consistent.run_fsIndexRead readable 0 size
    rw [List.drop_zero] at ran
    refine ⟨_, _, _, ran, fs.looked_accessed index, rfl, Or.inl ?_⟩
    rw [if_pos (nodeView_readable_iff.mpr readable)]
  · refine ⟨_, _, _, run_fsIndexRead_refused readable 0 size _, Looked.refl fs, rfl, Or.inl ?_⟩
    rw [if_neg fun allowed => readable (nodeView_readable_iff.mp allowed)]

variable {index : Nat}

theorem Viewed.computes_linkTarget (viewed : Viewed view fs disk held)
    (backed : LinksBacked view) (isNamed : IsNamed view index)
    (isLink : (view index).isSymlink = true) :
    Computes (linkTarget index) fs disk (view index).target := by
  have isView := congrFun viewed.isView index
  apply yields_reads_bind
  apply computes_require_bind
  · intro outside
    rw [← isView]
    exact if_neg outside
  intro inside
  have targetEq : (view index).target =
      if (view index).isInline then
        some (cString ((view index).inlined.take (view index).size))
      else if (view index).readable then
        some (cString ((view index).bytes.take (view index).size))
      else
        none := by
    rw [← isView]
    exact if_pos inside
  rw [targetEq]
  have inlineIff : ((fs.inodes index).sizeBytes < symlinkInlineSize ∧
      (fs.inodes index).symlinkInline.headD 0 ≠ 0) ↔ (view index).isInline = true := by
    rw [← isView, NodeView.isInline, Bool.and_eq_true, decide_eq_true_iff, bne_iff_ne]
    rfl
  by_cases inlined : (view index).isInline = true
  · rw [if_pos (inlineIff.mpr inlined), if_pos inlined, ← isView]
    exact computes_pure _
  · rw [if_neg fun holds => inlined (inlineIff.mp holds), if_neg inlined]
    have long := backed index isNamed isLink (by simpa using inlined)
    have stale : Computes (staleBuffer (fs.inodes index).sizeBytes) fs disk
        (some ((List.range (fs.inodes index).sizeBytes).map (fs.kernel.stale fs.kernel.asked))) :=
      ⟨_, fs.ask, disk, rfl, Looked.ask fs, rfl, Or.inl rfl⟩
    refine stale.bind nofun fun buffer fs' isBuffer looked => ?_
    cases isBuffer
    have viewed' := viewed.looked looked
    have read := viewed'.consistent.computes_fsIndexRead index (fs.inodes index).sizeBytes
    rw [congrFun viewed'.isView index, show fileBytes fs' disk index = (view index).bytes from
        congrArg NodeView.bytes (congrFun viewed'.isView index)] at read
    rw [show (fs.inodes index).sizeBytes = (view index).size from
      congrArg NodeView.size isView] at read ⊢
    by_cases allowed : (view index).readable = true
    · rw [if_pos allowed] at read ⊢
      refine read.bind nofun fun bytes fs'' isBytes _ => ?_
      cases isBytes
      have nothingStale : ((List.range (view index).size).map
          (fs.kernel.stale fs.kernel.asked)).drop
            ((view index).bytes.take (view index).size).length = [] := by
        rw [List.length_take_of_le long]
        apply List.drop_of_length_le
        simp
      rw [nothingStale, List.append_nil]
      exact computes_pure _
    · rw [if_neg allowed] at read ⊢
      exact read.bind (fun _ => rfl) nofun

variable {next : Nat → Option Nat} {follow : Nat → FsProgram Nat}
  (follows : ∀ fs index, IsNamed view index → Viewed view fs disk held →
    Computes (follow index) fs disk (next index))
include follows

theorem Viewed.computes_stepInto
    (viewed : Viewed view fs disk held) (parent : Nat) (name : List UInt8) (more : Bool) :
    Computes (stepInto follow parent name more) fs disk
      ((namingOf view).enter next parent name !more) := by
  have found := viewed.consistent.computes_dirFindName parent name
  rw [congrFun viewed.isView parent] at found
  unfold Naming.enter
  change Computes _ fs disk ((((view parent).find name).bind next).filter
    fun found => !more || (view found).isDirectory)
  refine found.bind (fun absent => by rw [absent]; rfl) ?_
  intro entry fs' isEntry looked
  have viewed' := viewed.looked looked
  rw [isEntry, Option.bind_some]
  refine (follows fs' entry ⟨parent, name, isEntry⟩ viewed').bind
    (fun absent => by rw [absent]; rfl) ?_
  intro index fs'' isIndex looked'
  have viewed'' := viewed'.looked looked'
  rw [isIndex, Option.filter_some]
  apply yields_reads_bind
  have isDirectory : (fs''.inodes index).isDirectory = (view index).isDirectory := by
    rw [← viewed''.isView]
    rfl
  rw [isDirectory]
  apply computes_require_bind
  · intro refused
    rw [if_neg]
    simpa using refused
  · intro allowed
    rw [if_pos (by simpa using allowed)]
    exact computes_pure index

theorem computes_walk : ∀ (rounds : Nat) (path : List UInt8) (node : Nat) {fs : FsState},
    path.length ≤ rounds → Viewed view fs disk held →
      Computes (walk follow rounds path node node) fs disk
        ((namingOf view).walk next (stepsOf rounds path) node) := by
  intro rounds
  induction rounds with
  | zero =>
    intro path node fs _ _
    exact computes_pure node
  | succ rounds ih =>
    intro path node fs enough viewed
    rw [walk, stepsOf, componentsOf]
    by_cases empty : path = []
    · rw [empty]
      exact computes_pure node
    have notEmpty : path.isEmpty = false := by simpa using empty
    simp only [notEmpty, Bool.false_eq_true, reduceIte, List.map_cons]
    have shorter := nextComponent_shorter empty
    have enoughRest : (nextComponent path).2.length ≤ rounds := by omega
    have recurse := fun node {fs'} => @ih (nextComponent path).2 node fs' enoughRest
    by_cases stays : (nextComponent path).1 = [] ∨ (nextComponent path).1 = [dot]
    · rw [if_pos stays, stepOf_stay stays]
      exact recurse node viewed
    rw [if_neg stays]
    by_cases ups : (nextComponent path).1 = [dot, dot]
    · rw [if_pos ups, stepOf_up ups, Naming.walk]
      by_cases atRoot : node = rootIno
      · rw [if_pos atRoot, if_pos (show node = (namingOf view).root from
          atRoot)]
        exact recurse node viewed
      · rw [if_neg atRoot, if_neg (show ¬ node = (namingOf view).root from
          atRoot)]
        have parentEq : (fs.inodes node).parent = (view node).parent := by
          rw [← viewed.isView]
          rfl
        apply yields_reads_bind
        rw [parentEq]
        exact recurse _ viewed
    · rw [if_neg ups, stepOf_down stays ups, Naming.walk]
      have entered := viewed.computes_stepInto follows node
        (nextComponent path).1 (!(nextComponent path).2.isEmpty)
      have lastIff : ((componentsOf rounds (nextComponent path).2).map
          stepOf).isEmpty = (nextComponent path).2.isEmpty := by
        rw [List.isEmpty_map, Bool.eq_iff_iff, List.isEmpty_iff, List.isEmpty_iff]
        exact componentsOf_eq_nil_iff enoughRest
      rw [Bool.not_not] at entered
      rw [lastIff]
      refine entered.bind (fun absent => by rw [absent]; rfl) ?_
      intro index fs' isIndex looked
      rw [isIndex, Option.bind_some]
      by_cases atEnd : (nextComponent path).2 = []
      · rw [atEnd]
        cases rounds with
        | zero => exact computes_pure index
        | succ rounds => exact computes_pure index
      · have goesOn : (nextComponent path).2.isEmpty = false := by
          simpa using atEnd
        rw [goesOn, if_neg (by decide)]
        exact recurse index (viewed.looked looked)

theorem Viewed.computes_walkPath (viewed : Viewed view fs disk held) (path : List UInt8) :
    Computes (walkPath follow path) fs disk ((pathSteps path).bind fun steps =>
        ((namingOf view).walk next steps rootIno).filter (namingOf view).isNode) := by
  apply computes_require_bind
  · intro empty
    rw [not_not] at empty
    rw [empty]
    rfl
  intro nonempty
  rw [pathSteps, if_neg nonempty, Option.bind_some]
  by_cases isRoot : path = [slash]
  · rw [if_pos isRoot, isRoot]
    exact computes_pure rootIno
  · rw [if_neg isRoot]
    refine (computes_walk follows _ _ rootIno (Nat.le_refl _) viewed).bind
      (fun absent => by rw [absent]; rfl) ?_
    intro last fs' isLast _
    have expected : (some last).filter (namingOf view).isNode =
        if last < 2147483648 then some last else none := by
      rw [Option.filter_some]
      simp [namingOf]
    rw [isLast, expected]
    exact computes_asIndex last

omit follows

theorem namingOf_link_none (notLink : (view index).isSymlink = false) :
    (namingOf view).link index = none := by
  simp [namingOf, notLink]

theorem namingOf_link_some (isLink : (view index).isSymlink = true) :
    (namingOf view).link index = some ((view index).target.bind pathSteps) := by
  simp [namingOf, isLink]

/-- `fs_follow_if_link` stays at an inode that is no link, and has to resolve
the target of one that is. -/
theorem Viewed.computes_followIfLink (viewed : Viewed view fs disk held)
    {resolver : Option (List UInt8 → FsProgram Nat)} {budget : Nat}
    (linked : (view index).isSymlink = true → Computes (match resolver with
        | none => fail
        | some resolve => do
            let target ← linkTarget index
            resolve target) fs disk ((namingOf view).follow budget index))
    (isFollowing : Bool) :
    Computes (followIfLink isFollowing resolver index) fs disk
      ((if isFollowing then (namingOf view).follow budget else some) index) := by
  apply yields_reads_bind
  have isLink : (fs.inodes index).isSymlink = (view index).isSymlink := by
    rw [← viewed.isView]
    rfl
  rw [isLink]
  cases isFollowing with
  | false => exact computes_pure index
  | true =>
    cases symlink : (view index).isSymlink with
    | false =>
      have plain := namingOf_link_none symlink
      rw [if_pos rfl, Naming.follow_of_link_none plain]
      exact computes_pure index
    | true => exact linked symlink

theorem computes_fsResolveComponent (backed : LinksBacked view) :
    ∀ (budget : Nat) (isFollowing : Bool) (path : List UInt8)
      {fs : FsState}, Viewed view fs disk held →
        Computes (fsResolveComponent budget isFollowing path) fs disk ((pathSteps path).bind
            ((namingOf view).resolve budget isFollowing)) := by
  intro budget
  induction budget with
  | zero =>
    intro isFollowing path fs viewed
    refine viewed.computes_walkPath (fun fs' index isNamed viewed' => ?_) path
    refine viewed'.computes_followIfLink (fun isLink => ?_) isFollowing
    rw [Naming.follow, namingOf_link_some isLink]
    exact computes_fail
  | succ budget ih =>
    intro isFollowing path fs viewed
    refine viewed.computes_walkPath (fun fs' index isNamed viewed' => ?_) path
    refine viewed'.computes_followIfLink (fun isLink => ?_) isFollowing
    rw [Naming.follow, namingOf_link_some isLink]
    refine (viewed'.computes_linkTarget backed isNamed isLink).bind
      (fun absent => by simp [absent]) ?_
    intro target fs'' isTarget looked
    simp only [isTarget, Option.bind_some]
    exact ih true target (viewed'.looked looked)

def resolvePath (view : Nat → NodeView) (isFollowing : Bool) (path : List UInt8) : Option Nat :=
  (pathSteps path).bind ((namingOf view).resolve symlinkMax isFollowing)

theorem Viewed.computes_fsLookupIndex (backed : LinksBacked view)
    (viewed : Viewed view fs disk held) (path : List UInt8) (isFollowing : Bool) :
    Computes (fsLookupIndex path isFollowing) fs disk (resolvePath view isFollowing path) := by
  apply yields_initialized viewed.consistent.formatted.initialized
  exact computes_fsResolveComponent backed symlinkMax isFollowing path viewed

end

end KnitOS.Fs
