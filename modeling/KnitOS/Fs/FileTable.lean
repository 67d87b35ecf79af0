import KnitOS.Fs.DirectoryBlobs

/-!
# The table of files

What a mounted file system holds, apart from the times and from where the
contents lie: for every occupied inode its attributes and its bytes.  Lookups
are a function of this table.
-/

namespace KnitOS.Fs

open Lib Storage

/-- An inode without times and extents, its size, the number of its sectors,
its bytes, and what the caller may do with it. -/
structure Node where
  inode : Inode
  size : Nat
  sectors : Nat
  bytes : List UInt8
  readable : Bool
  writable : Bool

namespace Node

def isDirectory (node : Node) : Bool :=
  node.inode.isDirectory

def isSymlink (node : Node) : Bool :=
  node.inode.isSymlink

/-- The node with other contents. -/
def store (node : Node) (bytes : List UInt8) : Node :=
  { node with
    size := bytes.length
    sectors := (bytes.length + 511) / 512
    bytes := bytes }

end Node

abbrev Files : Type :=
  Nat → Option Node

def FsState.nodeAt (fs : FsState) (disk : Nat → Sector) (index : Nat) : Node where
  inode := (fs.inodes index).identity
  size := (fs.inodes index).sizeBytes
  sectors := ((fs.inodes index).dataSectors disk).length
  bytes := fileBytes fs disk index
  readable := fsAccessOk fs index false && !(fs.inodes index).isSpecial
  writable := fsAccessOk fs index true

def filesOf (fs : FsState) (disk : Nat → Sector) : Files := fun index =>
  if index < maxInodes ∧ (fs.inodes index).occupied = true then
    some (fs.nodeAt disk index)
  else
    none

section

variable {fs fs' : FsState} {disk disk' : Nat → Sector} {index : Nat}

theorem filesOf_some (inTable : index < maxInodes) (occupied : (fs.inodes index).occupied = true) :
    filesOf fs disk index = some (fs.nodeAt disk index) := if_pos ⟨inTable, occupied⟩

theorem filesOf_eq_some_iff {node : Node} : filesOf fs disk index = some node ↔
    index < maxInodes ∧ (fs.inodes index).occupied = true ∧ fs.nodeAt disk index = node := by
  unfold filesOf
  split
  · rename_i present
    simp [present]
  · rename_i absent
    constructor
    · intro impossible
      cases impossible
    · rintro ⟨inTable, occupied, _⟩
      exact absurd ⟨inTable, occupied⟩ absent

theorem filesOf_congr (kernel : fs'.kernel.fixed = fs.kernel.fixed)
    (unread : (fs'.inodes index).unread = (fs.inodes index).unread) (sectors : index < maxInodes →
      ∀ sector ∈ (fs.inodes index).ownedSectors disk, disk' sector = disk sector) :
    filesOf fs' disk' index = filesOf fs disk index := by
  have identity := Inode.identity_of_unread unread
  have occupied := Inode.occupied_congr (Inode.flags_of_identity identity)
  unfold filesOf
  rw [occupied]
  by_cases present : index < maxInodes ∧ (fs.inodes index).occupied = true
  · rw [if_pos present, if_pos present]
    have spared := Spared.of_unread unread (sectors present.1)
    have bytes := congrArg FileView.data spared.fileView_eq
    change fileBytes fs' disk' index = fileBytes fs disk index at bytes
    have size := congrArg Inode.sizeBytes unread
    change (fs'.inodes index).sizeBytes = (fs.inodes index).sizeBytes at size
    have special := Inode.isSpecial_congr (Inode.flags_of_identity identity)
    unfold FsState.nodeAt
    rw [identity, size, spared.dataSectors, bytes, special, fsAccessOk_of_identity kernel identity,
      fsAccessOk_of_identity kernel identity]
  · rw [if_neg present, if_neg present]

theorem Looked.filesOf (looked : Looked fs fs') (disk : Nat → Sector) :
    filesOf fs' disk = filesOf fs disk := by
  funext index
  exact filesOf_congr looked.kernel (looked.inodes index) fun _ _ _ => rfl

end

/-- What lookups read of a table. -/
def viewOf (files : Files) (index : Nat) : NodeView :=
  match files index with
  | some node =>
    { flags := node.inode.flags
      parent := node.inode.parent
      size := node.size
      inlined := node.inode.symlinkInline
      bytes := node.bytes
      readable := node.readable }
  | none =>
    { flags := 0
      parent := 0
      size := 0
      inlined := []
      bytes := []
      readable := false }

def lookup (files : Files) (isFollowing : Bool) (path : List UInt8) : Option Nat :=
  resolvePath (viewOf files) isFollowing path

/-- The names of a table lead to its files, directories have directories as
parents, and links have their targets. -/
structure Closed (files : Files) : Prop where
  root : ∃ node, files rootIno = some node ∧ node.isDirectory = true
  found : ∀ dir node name index, files dir = some node → node.isDirectory = true →
    entryNamed (node.bytes.take 65536) name = some index → (files index).isSome = true
  parent : ∀ dir node, files dir = some node → node.isDirectory = true → node.inode.parent = 0 ∨
      ∃ up, files node.inode.parent = some up ∧ up.isDirectory = true
  links : ∀ index node, files index = some node → node.isSymlink = true →
    (viewOf files index).isInline = false → node.size ≤ node.bytes.length

/-- A mounted file system with its table, and memory for every request. -/
structure Mounted (files : Files) (fs : FsState) (disk : Nat → Sector) : Prop where
  intact : Intact fs disk
  generous : ∀ asked size, fs.kernel.heap asked size = true
  isTable : filesOf fs disk = files

section

variable {files : Files} {fs fs' : FsState} {disk disk' : Nat → Sector} {node : Node} {index : Nat}

theorem viewOf_some {index : Nat} {node : Node} (isNode : files index = some node) :
    viewOf files index =
      { flags := node.inode.flags
        parent := node.inode.parent
        size := node.size
        inlined := node.inode.symlinkInline
        bytes := node.bytes
        readable := node.readable } := by
  unfold viewOf
  rw [isNode]

theorem viewOf_none {index : Nat} (absent : files index = none) :
    viewOf files index =
      { flags := 0
        parent := 0
        size := 0
        inlined := []
        bytes := []
        readable := false } := by
  unfold viewOf
  rw [absent]

variable (mounted : Mounted files fs disk)
include mounted

theorem Mounted.looked (looked : Looked fs fs') : Mounted files fs' disk := by
  have heap := congrArg Kernel.heap looked.kernel
  change fs'.kernel.heap = fs.kernel.heap at heap
  refine ⟨mounted.intact.of_looked looked, ?_, (looked.filesOf disk).trans mounted.isTable⟩
  rw [heap]
  exact mounted.generous

theorem Mounted.legible : fs.Legible := fun asked size _ _ => mounted.generous asked size

theorem Mounted.nodeView_eq (isNode : files index = some node) :
    nodeView fs disk index = viewOf files index := by
  rw [viewOf_some isNode]
  rw [← mounted.isTable] at isNode
  obtain ⟨_, _, rfl⟩ := filesOf_eq_some_iff.mp isNode
  rfl

omit mounted

theorem isDirectory_viewOf (isNode : files index = some node) :
    (viewOf files index).isDirectory = node.isDirectory := by
  rw [viewOf_some isNode]
  rfl

theorem Closed.of_find (closed : Closed files) {dir : Nat}
    {name : List UInt8} (found : (viewOf files dir).find name = some index) :
    (files index).isSome = true := by
  cases isDir : files dir with
  | none =>
    rw [viewOf_none isDir] at found
    cases found
  | some node =>
    rw [viewOf_some isDir, NodeView.find] at found
    split at found
    · rename_i allowed
      rw [Bool.and_eq_true] at allowed
      exact closed.found dir node name index isDir allowed.2 found
    · cases found

variable (mounted : Mounted files fs disk)
include mounted

theorem Mounted.isSome_of_find {dir : Nat}
    {name : List UInt8} (found : (nodeView fs disk dir).find name = some index) :
    (files dir).isSome = true := by
  unfold NodeView.find at found
  split at found
  · rename_i allowed
    rw [Bool.and_eq_true] at allowed
    obtain ⟨valid, occupied, _⟩ := nodeView_readable_iff.mp allowed.1
    rw [← mounted.isTable, filesOf_some (validIndex_lt valid).2 occupied]
    rfl
  · cases found

theorem Mounted.sameOn (closed : Closed files) :
    Naming.SameOn (fun index => (files index).isSome = true)
      (namingOf (viewOf files)) (namingOf (nodeView fs disk)) := by
  have views : ∀ index, (files index).isSome = true →
      nodeView fs disk index = viewOf files index := by
    intro index present
    obtain ⟨node, isNode⟩ := Option.isSome_iff_exists.mp present
    exact mounted.nodeView_eq isNode
  obtain ⟨rootNode, isRoot, rootDirectory⟩ := closed.root
  have rootPresent : (files rootIno).isSome = true := by
    rw [isRoot]
    rfl
  refine ⟨rfl, rootPresent, fun _ _ => rfl, ?_, ?_, ?_, ?_, ?_⟩
  · intro index present
    change (nodeView fs disk index).isDirectory = _
    rw [views index present]
    rfl
  · intro dir name present
    change (nodeView fs disk dir).find name = _
    rw [views dir present]
    rfl
  · intro dir name index found
    exact closed.of_find found
  · intro dir present inner
    have sameParent : (namingOf (nodeView fs disk)).parent dir =
        (namingOf (viewOf files)).parent dir := by
      unfold namingOf
      dsimp only
      rw [views dir present]
    obtain ⟨node, isNode⟩ := Option.isSome_iff_exists.mp present
    have isDirectory : node.isDirectory = true := by
      rcases inner with atRoot | isDirectory
      · change dir = rootIno at atRoot
        rw [atRoot, isRoot] at isNode
        cases isNode
        exact rootDirectory
      · rw [← isDirectory_viewOf isNode]
        exact isDirectory
    have parentEq : (namingOf (viewOf files)).parent dir =
        if node.inode.parent = 0 then rootIno else node.inode.parent := by
      unfold namingOf
      dsimp only
      rw [viewOf_some isNode]
    refine ⟨sameParent, ?_⟩
    rw [parentEq]
    by_cases noParent : node.inode.parent = 0
    · rw [if_pos noParent, isRoot]
      exact ⟨rfl, Or.inl rfl⟩
    · rw [if_neg noParent]
      obtain ⟨up, isUp, upDirectory⟩ :=
        (closed.parent dir node isNode isDirectory).resolve_left noParent
      refine ⟨by rw [isUp]; rfl, Or.inr ?_⟩
      change (viewOf files node.inode.parent).isDirectory = true
      rw [isDirectory_viewOf isUp]
      exact upDirectory
  · intro index present
    unfold namingOf
    dsimp only
    rw [views index present]

theorem Mounted.linksBacked (closed : Closed files) : LinksBacked (nodeView fs disk) := by
  rintro index ⟨dir, name, found⟩ isLink notInline
  obtain ⟨dirNode, isDir⟩ := Option.isSome_iff_exists.mp (mounted.isSome_of_find found)
  rw [mounted.nodeView_eq isDir] at found
  obtain ⟨node, isNode⟩ := Option.isSome_iff_exists.mp (closed.of_find found)
  rw [mounted.nodeView_eq isNode] at isLink notInline ⊢
  have size := closed.links index node isNode
  rw [viewOf_some isNode] at isLink size notInline ⊢
  exact size isLink notInline

theorem Mounted.leaves_fsLookupIndex
    (closed : Closed files) (path : List UInt8) (isFollowing : Bool) :
    Leaves (fsLookupIndex path isFollowing) fs disk fun outcome fs' disk' =>
      Looked fs fs' ∧ disk' = disk ∧ outcome = lookup files isFollowing path := by
  have viewed : Viewed (nodeView fs disk) fs disk [] := ⟨mounted.intact.consistent, rfl⟩
  apply (viewed.computes_fsLookupIndex (mounted.linksBacked closed) path isFollowing).mono
  rintro outcome fs' disk' ⟨looked, same, found | ⟨_, illegible⟩⟩
  · refine ⟨looked, same, found.trans ?_⟩
    unfold lookup resolvePath
    cases pathSteps path with
    | none => rfl
    | some steps =>
      exact ((mounted.sameOn closed).resolve symlinkMax isFollowing steps).1
  · exact absurd mounted.legible illegible

theorem Mounted.isSome_of_lookup
    (closed : Closed files) {path : List UInt8} {isFollowing : Bool}
    (found : lookup files isFollowing path = some index) :
    (files index).isSome = true := by
  obtain ⟨steps, _, resolved⟩ := Option.bind_eq_some_iff.mp found
  exact ((mounted.sameOn closed).resolve symlinkMax isFollowing steps).2 index resolved

end

end KnitOS.Fs
