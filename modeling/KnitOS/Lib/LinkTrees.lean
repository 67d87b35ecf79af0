import KnitOS.Lib.Naming

/-!
# Directory trees with symbolic links

The target of a link is a path from the root or from the directory that holds
the link, and the links of a whole lookup are limited.
-/

namespace KnitOS.Lib

/-- The target of a symbolic link. -/
structure LinkTarget (γ : Type) where
  isAbsolute : Bool
  steps : List (PathStep γ)
deriving DecidableEq

/-- Directories and symbolic links; a link without a target cannot be
followed. -/
structure LinkTree (ν γ : Type) where
  root : ν
  isDirectory : ν → Bool
  parent : ν → ν
  find : ν → γ → Option ν
  link : ν → Option (Option (LinkTarget γ))

namespace LinkTree

variable {ν γ : Type} [DecidableEq ν]

/-- Where a name in a directory leads, and how many links may be followed from
then on; only a directory may be followed by more steps. -/
def enter (tree : LinkTree ν γ)
    (follow : Bool → ν → ν → Nat → Option (ν × Nat)) (dir : ν) (name : γ)
    (isLast : Bool) (left : Nat) : Option (ν × Nat) :=
  ((tree.find dir name).bind fun found => follow isLast dir found left).filter
    fun reached => isLast || tree.isDirectory reached.1

/-- Walk a path from a node. -/
def walk (tree : LinkTree ν γ) (follow : Bool → ν → ν → Nat → Option (ν × Nat)) :
    List (PathStep γ) → ν → Nat → Option (ν × Nat)
  | [], node, left => some (node, left)
  | .stay :: rest, node, left => tree.walk follow rest node left
  | .up :: rest, node, left =>
    tree.walk follow rest
      (if node = tree.root then node else tree.parent node) left
  | .down name :: rest, node, left =>
    (tree.enter follow node name rest.isEmpty left).bind fun reached =>
      tree.walk follow rest reached.1 reached.2

/-- Follow a link in a directory.  The recursion is on a number that is never
less than the number of links left. -/
def follow (tree : LinkTree ν γ) : Nat → ν → ν → Nat → Option (ν × Nat)
  | 0, _, node, left =>
    if (tree.link node).isSome then none else some (node, left)
  | depth + 1, dir, node, left =>
    match tree.link node with
    | none => some (node, left)
    | some target =>
      if left = 0 then
        none
      else
        target.bind fun target =>
          tree.walk (fun _ => tree.follow depth) target.steps
            (if target.isAbsolute then tree.root else dir) (left - 1)

/-- Links are followed, except for the last one if the lookup is about the
link itself. -/
def followInner (tree : LinkTree ν γ) (limit : Nat) (isFollowing : Bool)
    (isLast : Bool) (dir node : ν) (left : Nat) : Option (ν × Nat) :=
  if isLast && !isFollowing then some (node, left)
  else tree.follow limit dir node left

/-- The node of a path, if there are no more links on the way than the
limit. -/
def resolve (tree : LinkTree ν γ) (limit : Nat) (isFollowing : Bool)
    (steps : List (PathStep γ)) : Option ν :=
  (tree.walk (tree.followInner limit isFollowing) steps tree.root limit).map
    Prod.fst

/-- The naming that starts every target at the root. -/
def naming (tree : LinkTree ν γ) (isNode : ν → Bool) : Naming ν γ where
  root := tree.root
  isNode := isNode
  isDirectory := tree.isDirectory
  parent := tree.parent
  find := tree.find
  link node := (tree.link node).map fun target =>
    target.map LinkTarget.steps

/-- The tree as a reader with limits has it: what it sees of the directories and
what it reads of the links. -/
def limited (tree : LinkTree ν γ) (seen : ν → γ → Option ν)
    (read : ν → Option (Option (LinkTarget γ))) : LinkTree ν γ :=
  { tree with find := seen, link := read }

/-- All names that a walk looks up are seen as they are, and all nodes that it
meets are plain. -/
def isStraight (tree : LinkTree ν γ) (seen : ν → γ → Option ν)
    (follow : Bool → ν → ν → Nat → Option (ν × Nat))
    (isPlain : Bool → ν → ν → Nat → Bool) : List (PathStep γ) → ν → Nat → Bool
  | [], _, _ => true
  | .stay :: rest, node, left => tree.isStraight seen follow isPlain rest node left
  | .up :: rest, node, left =>
    tree.isStraight seen follow isPlain rest
      (if node = tree.root then node else tree.parent node) left
  | .down name :: rest, node, left =>
    decide (seen node name = tree.find node name) &&
    ((tree.find node name).all fun found =>
      isPlain rest.isEmpty node found left) &&
    (tree.enter follow node name rest.isEmpty left).all fun reached =>
      tree.isStraight seen follow isPlain rest reached.1 reached.2

section

variable [DecidableEq γ] (tree : LinkTree ν γ) (seen : ν → γ → Option ν)
  (read : ν → Option (Option (LinkTarget γ)))

/-- A node that is read as it is, and is no link, or a link whose target starts
at the root, as long as links may be followed at all, and has only such links on
its way. -/
def isPlainLink : Nat → ν → ν → Nat → Bool
  | 0, _, node, _ => decide (read node = tree.link node)
  | depth + 1, dir, node, left =>
    decide (read node = tree.link node) &&
    match tree.link node with
    | some (some target) =>
      (target.isAbsolute || decide (dir = tree.root)) &&
      decide (left ≠ 0) &&
      tree.isStraight seen (fun _ => tree.follow depth)
        (fun _ => isPlainLink depth) target.steps tree.root
        (left - 1)
    | _ => true

/-- A lookup that follows links meets plain links only; one that does not
follow them meets no link before the last step. -/
def isPlainNode (limit : Nat) (isFollowing : Bool)
    (isLast : Bool) (dir node : ν) (left : Nat) : Bool :=
  if isFollowing then tree.isPlainLink seen read limit dir node left
  else isLast || (tree.link node).isNone

/-- A path on which a naming that starts every target at the root, counts
links only within links, follows all links or none, and has limits, cannot be
told from the tree. -/
def isStraightPath (limit : Nat) (isFollowing : Bool) (steps : List (PathStep γ)) : Bool :=
  tree.isStraight seen (tree.followInner limit isFollowing)
    (tree.isPlainNode seen read limit isFollowing) steps tree.root limit

end

section

variable {tree : LinkTree ν γ} {isNode : ν → Bool} {next : ν → Option ν}

theorem walk_naming {seen : ν → γ → Option ν} (read : ν → Option (Option (LinkTarget γ)))
    (isNode : ν → Bool) {follow : Bool → ν → ν → Nat → Option (ν × Nat)}
    {isPlain : Bool → ν → ν → Nat → Bool} (agrees : ∀ isLast dir node left,
      isPlain isLast dir node left = true →
        next node = (follow isLast dir node left).map Prod.fst) :
    ∀ (steps : List (PathStep γ)) (node : ν) (left : Nat),
      tree.isStraight seen follow isPlain steps node left = true →
        ((tree.limited seen read).naming isNode).walk next steps node =
          (tree.walk follow steps node left).map Prod.fst := by
  intro steps
  induction steps with
  | nil =>
    intro node left _
    rfl
  | cons step rest ih =>
    intro node left straight
    cases step with
    | stay => exact ih node left straight
    | up => exact ih _ left straight
    | down name =>
      rw [isStraight, Bool.and_eq_true, Bool.and_eq_true, decide_eq_true_eq] at straight
      obtain ⟨⟨same, plain⟩, straightRest⟩ := straight
      have entered : ((tree.limited seen read).naming isNode).enter next node name rest.isEmpty =
            (tree.enter follow node name rest.isEmpty left).map Prod.fst := by
        change ((seen node name).bind next).filter _ = _
        rw [same]
        unfold enter
        cases isFound : tree.find node name with
        | none => rfl
        | some found =>
          rw [isFound, Option.all_some] at plain
          rw [Option.bind_some, Option.bind_some, agrees _ _ _ _ plain]
          cases follow rest.isEmpty node found left with
          | none => rfl
          | some reached =>
            simp only [Option.map_some, Option.filter_some]
            split <;> simp_all [naming, limited]
      rw [Naming.walk, walk, entered]
      cases reach : tree.enter follow node name rest.isEmpty left with
      | none => rfl
      | some reached =>
        rw [reach, Option.all_some] at straightRest
        exact ih _ _ straightRest

/-- Names and parents lead to nodes. -/
structure Closed (tree : LinkTree ν γ) (isNode : ν → Bool) : Prop where
  root : isNode tree.root = true
  find : ∀ dir name found, tree.find dir name = some found → isNode found = true
  parent : ∀ node, node = tree.root ∨ tree.isDirectory node = true →
    isNode (tree.parent node) = true ∧ (tree.parent node = tree.root ∨
        tree.isDirectory (tree.parent node) = true)

theorem Closed.walk (closed : tree.Closed isNode)
    (stays : ∀ node last, isNode node = true → next node = some last → isNode last = true) :
    ∀ (steps : List (PathStep γ)) (node last : ν), isNode node = true →
      (node = tree.root ∨ tree.isDirectory node = true) →
      (tree.naming isNode).walk next steps node = some last → isNode last = true := by
  intro steps
  induction steps with
  | nil =>
    intro node last inside _ walked
    cases walked
    exact inside
  | cons step rest ih =>
    intro node last inside inner walked
    cases step with
    | stay => exact ih node last inside inner walked
    | up =>
      by_cases atRoot : node = tree.root
      · rw [Naming.walk, if_pos (show node = (tree.naming isNode).root from
          atRoot)] at walked
        exact ih node last inside inner walked
      · rw [Naming.walk, if_neg (show ¬ node = (tree.naming isNode).root from atRoot)] at walked
        obtain ⟨insideParent, innerParent⟩ := closed.parent node inner
        exact ih _ last insideParent innerParent walked
    | down name =>
      rw [Naming.walk] at walked
      obtain ⟨middle, entered, walkedRest⟩ := Option.bind_eq_some_iff.mp walked
      obtain ⟨isMiddle, allowed⟩ := Naming.enter_eq_some_iff.mp entered
      obtain ⟨found, isFound, reached⟩ := Option.bind_eq_some_iff.mp isMiddle
      have insideMiddle := stays found middle (closed.find node name found isFound) reached
      cases rest with
      | nil =>
        cases walkedRest
        exact insideMiddle
      | cons _ _ =>
        have isDirectory : (tree.naming isNode).isDirectory middle = true := by
          simpa using allowed
        exact ih middle last insideMiddle (Or.inr isDirectory) walkedRest

theorem isNode_of_follow (budget : Nat) : ∀ node last, isNode node = true →
    (tree.naming isNode).follow budget node = some last → isNode last = true := by
  intro node last inside followed
  cases budget with
  | zero =>
    rw [Naming.follow] at followed
    split at followed
    · cases followed
    · cases followed
      exact inside
  | succ budget =>
    rw [Naming.follow] at followed
    split at followed
    · cases followed
      exact inside
    · obtain ⟨steps, _, walked⟩ := Option.bind_eq_some_iff.mp followed
      exact (Option.filter_eq_some_iff.mp walked).2

variable (closed : tree.Closed isNode)
include closed

theorem Closed.filter_walk (stays : ∀ node last, isNode node = true → next node = some last →
      isNode last = true) (steps : List (PathStep γ)) :
    ((tree.naming isNode).walk next steps tree.root).filter isNode =
      (tree.naming isNode).walk next steps tree.root := by
  cases walked : (tree.naming isNode).walk next steps tree.root with
  | none => rfl
  | some last =>
    have inside := closed.walk stays steps tree.root last closed.root (Or.inl rfl) walked
    rw [Option.filter_some, if_pos inside]

end

section

variable [DecidableEq γ] {tree : LinkTree ν γ} {isNode : ν → Bool}
  {seen : ν → γ → Option ν} {read : ν → Option (Option (LinkTarget γ))}
  (closed : (tree.limited seen read).Closed isNode)
include closed

theorem Closed.follow_naming :
    ∀ (depth : Nat) (dir node : ν) (left : Nat),
      tree.isPlainLink seen read depth dir node left = true →
        ((tree.limited seen read).naming isNode).follow depth node =
          (tree.follow depth dir node left).map Prod.fst := by
  intro depth
  induction depth with
  | zero =>
    intro dir node left plain
    have same : read node = tree.link node := of_decide_eq_true plain
    rw [Naming.follow, LinkTree.follow]
    change (if ((read node).map _).isSome = true then _ else _) = _
    rw [Option.isSome_map, same]
    split <;> rfl
  | succ depth ih =>
    intro dir node left plain
    rw [isPlainLink, Bool.and_eq_true, decide_eq_true_eq] at plain
    obtain ⟨same, plain⟩ := plain
    have linkEq : ((tree.limited seen read).naming isNode).link node =
        (read node).map fun target => target.map LinkTarget.steps := rfl
    rw [Naming.follow, LinkTree.follow, linkEq, same]
    cases isLink : tree.link node with
    | none => rfl
    | some linked =>
      cases linked with
      | none =>
        dsimp only [Option.map_some, Option.map_none, Option.bind_none]
        rw [ite_self]
        rfl
      | some target =>
        rw [isLink] at plain
        simp only [Bool.and_eq_true, Bool.or_eq_true, decide_eq_true_eq] at plain
        obtain ⟨⟨fromRoot, some_left⟩, straight⟩ := plain
        have start : (if target.isAbsolute = true then tree.root
            else dir) = tree.root := by
          rcases fromRoot with absolute | inRoot
          · rw [if_pos absolute]
          · rw [inRoot, ite_self]
        dsimp only [Option.map_some]
        rw [Option.bind_some, Option.bind_some, if_neg some_left, start]
        have walked := walk_naming read isNode (fun _ dir node left => ih dir node left)
          target.steps tree.root (left - 1) straight
        rw [← walked]
        exact closed.filter_walk (isNode_of_follow depth) target.steps

theorem Closed.followInner_naming {limit : Nat}
    {isFollowing isLast : Bool} {dir node : ν} {left : Nat}
    (plain : tree.isPlainNode seen read limit isFollowing isLast dir node left = true) :
    (if isFollowing then ((tree.limited seen read).naming isNode).follow limit else some) node =
      (tree.followInner limit isFollowing isLast dir node left).map Prod.fst := by
  unfold followInner
  unfold isPlainNode at plain
  cases isFollowing with
  | true =>
    rw [if_pos rfl] at plain
    simp only [Bool.not_true, Bool.and_false, Bool.false_eq_true, reduceIte]
    exact closed.follow_naming limit dir node left plain
  | false =>
    rw [if_neg Bool.false_ne_true, Bool.or_eq_true] at plain
    cases isLast with
    | true => rfl
    | false =>
      have noLink : tree.link node = none := by
        simpa using plain
      have stays : tree.follow limit dir node left = some (node, left) := by
        cases limit with
        | zero => simp [LinkTree.follow, noLink]
        | succ limit => simp [LinkTree.follow, noLink]
      simp [stays]

theorem Closed.resolve_naming {limit : Nat} {isFollowing : Bool} {steps : List (PathStep γ)}
    (straight : tree.isStraightPath seen read limit isFollowing steps = true) :
    ((tree.limited seen read).naming isNode).resolve limit isFollowing steps =
      tree.resolve limit isFollowing steps := by
  have walked := walk_naming read isNode
    (fun _ _ _ _ plain => closed.followInner_naming plain) steps tree.root limit straight
  have ends : ∀ node last, isNode node = true →
      (if isFollowing then ((tree.limited seen read).naming isNode).follow limit
        else some) node = some last → isNode last = true := by
    intro node last inside followed
    cases isFollowing with
    | true => exact isNode_of_follow limit node last inside followed
    | false =>
      cases followed
      exact inside
  rw [resolve, ← walked]
  exact closed.filter_walk ends steps

end

end LinkTree

end KnitOS.Lib
