import KnitOS.Fs.Images
import KnitOS.Lib.LinkTrees

/-!
# Path lookups and what paths should mean

`fs_lookup_index` cuts long paths, refuses long targets, sees the first 65536
bytes of a directory, starts the target of every link at the root, counts links
only within links and follows no link at all where the last one is not to be
followed.  Elsewhere it finds what the reference says.
-/

namespace KnitOS.Fs

open Lib Storage

/-- The components of a path, each up to the next slash. -/
def splitSlash : List UInt8 → List (List UInt8)
  | [] => []
  | byte :: rest =>
    if byte = slash then
      [] :: splitSlash rest
    else
      match splitSlash rest with
      | [] => [[byte]]
      | first :: others => (byte :: first) :: others

/-- The steps of a path, apart from the slash of an absolute one. -/
def referenceSteps (path : List UInt8) : Option (List (PathStep (List UInt8))) :=
  if path = [] then none
  else some ((splitSlash (dropSlash path)).map stepOf)

def referenceTarget (text : List UInt8) : Option (LinkTarget (List UInt8)) :=
  (referenceSteps text).map fun steps => ⟨text.head? == some slash, steps⟩

/-- The target of a link, of any length. -/
def NodeView.wholeTarget (view : NodeView) : Option (List UInt8) :=
  if view.size = 0 then
    none
  else if view.isInline then
    some (cString (view.inlined.take view.size))
  else if view.readable then
    some (cString (view.bytes.take view.size))
  else
    none

/-- The entry of a directory of any size. -/
def NodeView.wholeFind (view : NodeView) (name : List UInt8) : Option Nat :=
  if view.readable && view.isDirectory then
    entryNamed view.bytes name
  else
    none

/-- A node with a target, if it is a link. -/
def linkTo (view : NodeView) (target : Option (List UInt8)) :
    Option (Option (LinkTarget (List UInt8))) :=
  if view.isSymlink then some (target.bind referenceTarget) else none

/-- The directories and the links of a state. -/
def treeOf (view : Nat → NodeView) : LinkTree Nat (List UInt8) where
  root := rootIno
  isDirectory index := (view index).isDirectory
  parent index := if (view index).parent = 0 then rootIno else (view index).parent
  find dir name := (view dir).wholeFind name
  link index := linkTo (view index) (view index).wholeTarget

/-- What `dir_find_name` finds. -/
def seenIn (view : Nat → NodeView) (dir : Nat) (name : List UInt8) : Option Nat :=
  (view dir).find name

/-- The targets that `fs_follow_if_link` reads. -/
def readAt (view : Nat → NodeView) (index : Nat) : Option (Option (LinkTarget (List UInt8))) :=
  linkTo (view index) (view index).target

/-- The inode that a path names, with at most eight links on the way. -/
def referenceLookup (view : Nat → NodeView) (isFollowing : Bool) (path : List UInt8) : Option Nat :=
  (referenceSteps path).bind ((treeOf view).resolve 8 isFollowing)

variable {path : List UInt8}

theorem splitSlash_eq (nonempty : path ≠ []) : splitSlash path =
    path.takeWhile (fun byte => byte != slash) ::
      splitSlash (path.dropWhile fun byte => byte != slash).tail := by
  induction path with
  | nil => exact absurd rfl nonempty
  | cons byte rest ih =>
    rw [splitSlash, List.takeWhile_cons, List.dropWhile_cons]
    by_cases isSlash : byte = slash
    · simp [isSlash]
    · have goesOn : (byte != slash) = true := by
        simpa using isSlash
      rw [if_neg isSlash, if_pos goesOn, if_pos goesOn]
      by_cases atEnd : rest = []
      · rw [atEnd]
        rfl
      · rw [ih atEnd]

theorem nextComponent_eq (short : path.length ≤ 254) : nextComponent path =
    (path.takeWhile (fun byte => byte != slash),
      (path.dropWhile fun byte => byte != slash).tail) := by
  have whole : (path.takeWhile fun byte => byte != slash).take
      (filenameLen - 1) = path.takeWhile fun byte => byte != slash :=
    List.take_of_length_le (( List.takeWhile_prefix _).length_le.trans short)
  have after : path.drop (path.takeWhile fun byte => byte != slash).length =
      path.dropWhile fun byte => byte != slash := by
    have split : path.takeWhile (fun byte => byte != slash) ++
        path.dropWhile (fun byte => byte != slash) = path :=
      List.takeWhile_append_dropWhile
    calc path.drop (path.takeWhile fun byte => byte != slash).length
      _ = (path.takeWhile (fun byte => byte != slash) ++
            path.dropWhile (fun byte => byte != slash)).drop
              (path.takeWhile fun byte => byte != slash).length := by
          rw [split]
      _ = path.dropWhile fun byte => byte != slash := List.drop_left
  unfold nextComponent
  rw [whole]
  dsimp only
  rw [after]
  have head := List.head?_dropWhile_not (fun byte => byte != slash) path
  cases remaining : path.dropWhile fun byte => byte != slash with
  | nil => rfl
  | cons byte rest =>
    rw [remaining] at head
    have isSlash : byte = slash := by
      simpa using head
    rw [isSlash]
    rfl

theorem components_eq_splitSlash : ∀ (count : Nat) (path : List UInt8), path.length ≤ count →
    path.length ≤ 254 → components path = splitSlash path := by
  intro count
  induction count with
  | zero =>
    intro path empty _
    rw [List.length_eq_zero_iff.mp (Nat.le_zero.mp empty)]
    rfl
  | succ count ih =>
    intro path enough short
    by_cases empty : path = []
    · rw [empty]
      rfl
    have shorter := nextComponent_shorter empty
    have next := nextComponent_eq short
    rw [components_eq empty, splitSlash_eq empty, ih _ (by omega) (by omega), next]

theorem pathSteps_eq_referenceSteps
    (short : path.length ≤ 254) : pathSteps path = referenceSteps path := by
  have uncut : truncatePath path = path := List.take_of_length_le (short.trans (by decide))
  have shortRest := (length_dropSlash_le path).trans short
  unfold pathSteps referenceSteps
  rw [uncut]
  dsimp only
  rw [← components_eq_splitSlash _ _ (Nat.le_refl _) shortRest]
  rfl

def isInodeNumber (index : Nat) : Bool :=
  decide (index < 2147483648)

theorem NodeView.length_target_le {view : NodeView} {text : List UInt8}
    (isTarget : view.target = some text) : text.length ≤ 254 := by
  have cut : ∀ bytes : List UInt8, view.size < filenameLen →
      (cString (bytes.take view.size)).length ≤ 254 := by
    intro bytes small
    have prefixed : (cString (bytes.take view.size)).length ≤ (bytes.take view.size).length :=
      (cString_initial _).length_le
    have taken := List.length_take_le view.size bytes
    change view.size < 255 at small
    omega
  unfold NodeView.target at isTarget
  split at isTarget
  · rename_i sized
    split at isTarget
    · cases isTarget
      exact cut _ sized.2
    · split at isTarget
      · cases isTarget
        exact cut _ sized.2
      · cases isTarget
  · cases isTarget

theorem namingOf_eq (view : Nat → NodeView) :
    namingOf view =
      ((treeOf view).limited (seenIn view) (readAt view)).naming isInodeNumber := by
  have links : (namingOf view).link =
      (((treeOf view).limited (seenIn view) (readAt view)).naming isInodeNumber).link := by
    funext index
    change (if (view index).isSymlink then
        some ((view index).target.bind pathSteps) else none) =
      (if (view index).isSymlink then
        some ((view index).target.bind referenceTarget) else none).map
          fun target => target.map LinkTarget.steps
    by_cases isLink : (view index).isSymlink = true
    · rw [if_pos isLink, if_pos isLink, Option.map_some]
      cases isTarget : (view index).target with
      | none => rfl
      | some text =>
        have same := pathSteps_eq_referenceSteps (NodeView.length_target_le isTarget)
        rw [Option.bind_some, Option.bind_some, same, referenceTarget, Option.map_map]
        exact congrArg some Option.map_id'.symm
    · rw [if_neg isLink, if_neg isLink]
      rfl
  unfold namingOf LinkTree.naming at links ⊢
  rw [Naming.mk.injEq]
  exact ⟨rfl, rfl, rfl, rfl, rfl, links⟩

/-- The parent of a directory is a directory. -/
def TreeShaped (view : Nat → NodeView) : Prop :=
  ∀ index, index = rootIno ∨ (view index).isDirectory = true →
    (view index).parent < 2147483648 ∧
      ((view index).parent = 0 ∨ (view index).parent = rootIno ∨
        (view (view index).parent).isDirectory = true)

theorem entryNamed_lt {blob name : List UInt8} {found : Nat}
    (isFound : entryNamed blob name = some found) : found < 2147483648 := by
  obtain ⟨entry, _, isIno⟩ := Option.bind_eq_some_iff.mp isFound
  split at isIno
  · cases isIno
    assumption
  · cases isIno

theorem TreeShaped.closed {view : Nat → NodeView} (shaped : TreeShaped view) :
    ((treeOf view).limited (seenIn view) (readAt view)).Closed isInodeNumber := by
  refine ⟨rfl, ?_, ?_⟩
  · intro dir name found isFound
    change (view dir).find name = some found at isFound
    unfold NodeView.find at isFound
    split at isFound
    · exact decide_eq_true (entryNamed_lt isFound)
    · cases isFound
  · intro node inner
    obtain ⟨small, isInner⟩ := shaped node inner
    change isInodeNumber (if (view node).parent = 0 then rootIno
        else (view node).parent) = true ∧
      ((if (view node).parent = 0 then rootIno else (view node).parent) = rootIno ∨
        (view (if (view node).parent = 0 then rootIno
          else (view node).parent)).isDirectory = true)
    by_cases noParent : (view node).parent = 0
    · rw [if_pos noParent]
      exact ⟨rfl, Or.inl rfl⟩
    · rw [if_neg noParent]
      exact ⟨decide_eq_true small, isInner.resolve_left noParent⟩

/-- No part of the path is cut off, and on the way no name is looked up that
stands behind the first 65536 bytes of its directory, and no link has a target of
255 bytes or more, is relative outside the root directory, comes after eight links
that lie behind, or stands before the last component of a lookup that does not
follow links. -/
def IsPlainPath (view : Nat → NodeView) (isFollowing : Bool) (path : List UInt8) : Prop :=
  pathSteps path = referenceSteps path ∧
    ∀ steps, referenceSteps path = some steps →
      (treeOf view).isStraightPath (seenIn view) (readAt view) 8 isFollowing steps = true

theorem resolvePath_eq_reference {view : Nat → NodeView}
    (shaped : TreeShaped view) {isFollowing : Bool}
    (plain : IsPlainPath view isFollowing path) : resolvePath view isFollowing path =
      referenceLookup view isFollowing path := by
  obtain ⟨uncut, straight⟩ := plain
  unfold resolvePath referenceLookup
  rw [uncut]
  cases isSteps : referenceSteps path with
  | none => rfl
  | some steps =>
    rw [Option.bind_some, Option.bind_some, namingOf_eq]
    exact shaped.closed.resolve_naming (straight steps isSteps)

/-- `fs_lookup_index` returns what the reference says on plain paths. -/
theorem fsLookupIndex_eq_reference {fs : FsState} {disk : Nat → Sector}
    (consistent : Consistent fs disk []) (legible : fs.Legible)
    (backed : LinksBacked (nodeView fs disk))
    (shaped : TreeShaped (nodeView fs disk)) (isFollowing : Bool) (path : List UInt8)
    (plain : IsPlainPath (nodeView fs disk) isFollowing path) :
    ((fsLookupIndex path isFollowing).run flatDevice fs (.running disk)).1 =
      referenceLookup (nodeView fs disk) isFollowing path := by
  have viewed : Viewed (nodeView fs disk) fs disk [] := ⟨consistent, rfl⟩
  obtain ⟨outcome, fs', disk', ran, _, _, found | ⟨_, illegible⟩⟩ :=
    viewed.computes_fsLookupIndex backed path isFollowing
  · rw [ran, ← resolvePath_eq_reference shaped plain]
    exact found
  · exact absurd legible illegible

theorem image_treeShaped {files : List ImageFile}
    (shaped : ∀ file ∈ files, file.inode.isDirectory = true → file.inode.parent < 2147483648 ∧
        ((imageState files).inodes file.inode.parent).isDirectory = true)
    (root : ((imageState files).inodes rootIno).isDirectory = true) :
    TreeShaped (nodeView (imageState files) (imageDisk files)) := by
  intro index inner
  have isDirectory : ((imageState files).inodes index).isDirectory = true := by
    rcases inner with rfl | isDirectory
    · exact root
    · exact isDirectory
  rcases image_inode_cases files index with blank | ⟨file, member, start, placed⟩
  · rw [blank] at isDirectory
    cases isDirectory
  · rw [placed] at isDirectory
    obtain ⟨small, isParent⟩ := shaped file member isDirectory
    have parent : (nodeView (imageState files) (imageDisk files)
        index).parent = file.inode.parent := by
      unfold nodeView
      dsimp only
      rw [placed]
      rfl
    rw [parent]
    exact ⟨small, Or.inr (Or.inr isParent)⟩

/-- A directory `d` with a file `f` and a link `l` to it. -/
def relativeLink : List ImageFile :=
  [.directory rootIno [⟨2, [100]⟩],
    .directory rootIno [⟨3, [102]⟩, ⟨4, [108]⟩], .regular 2 [],
    .symlink 2 [102]]

/-- `/d/f` is found. -/
theorem fsLookupIndex_eq_reference_file : ((fsLookupIndex [47, 100, 47, 102] true).run flatDevice
        (imageState relativeLink) (.running (imageDisk relativeLink))).1 =
      referenceLookup (nodeView (imageState relativeLink)
        (imageDisk relativeLink)) true [47, 100, 47, 102] := by
  have straight : (treeOf (nodeView (imageState relativeLink)
      (imageDisk relativeLink))).isStraightPath
        (seenIn (nodeView (imageState relativeLink) (imageDisk relativeLink)))
        (readAt (nodeView (imageState relativeLink) (imageDisk relativeLink)))
        8 true [.down [100], .down [102]] = true := by
    decide +kernel
  have plain : IsPlainPath (nodeView (imageState relativeLink)
      (imageDisk relativeLink)) true [47, 100, 47, 102] := by
    refine ⟨pathSteps_eq_referenceSteps (by decide), ?_⟩
    intro steps isSteps
    have twoSteps : referenceSteps [47, 100, 47, 102] = some [.down [100], .down [102]] := by
      decide
    rw [twoSteps] at isSteps
    cases isSteps
    exact straight
  exact fsLookupIndex_eq_reference (image_consistent (by decide))
    (fun _ _ _ _ => rfl) (image_linksBacked (by decide))
    (image_treeShaped (by decide) (by decide)) true _ plain

/-- `/d/l` is not: its target is looked up in the root directory. -/
theorem fsLookupIndex_relative_link : ((fsLookupIndex [47, 100, 47, 108] true).run flatDevice
        (imageState relativeLink) (.running (imageDisk relativeLink))).1 = none ∧
    referenceLookup (nodeView (imageState relativeLink)
      (imageDisk relativeLink)) true [47, 100, 47, 108] = some 3 := by
  decide +kernel

end KnitOS.Fs
