import Mathlib.Tactic.Basic

/-!
# Names, paths and links

Directories map names to nodes, and some nodes are links, which stand for a path
from the root.  Walking a path follows links as often as a budget allows.
-/

namespace KnitOS.Lib

/-- One step of a path. -/
inductive PathStep (γ : Type) where
  | stay
  | up
  | down (name : γ)
deriving DecidableEq

/-- What path lookups read.  A walk may end at the nodes of `isNode` only; a
link without a target cannot be followed. -/
structure Naming (ν γ : Type) where
  root : ν
  isNode : ν → Bool
  isDirectory : ν → Bool
  parent : ν → ν
  find : ν → γ → Option ν
  link : ν → Option (Option (List (PathStep γ)))

namespace Naming

variable {ν γ : Type} [DecidableEq ν]

/-- Where a name in a directory leads; only a directory may be followed by
more steps. -/
def enter (names : Naming ν γ) (follow : ν → Option ν) (node : ν) (name : γ)
    (isLast : Bool) : Option ν :=
  ((names.find node name).bind follow).filter fun found =>
    isLast || names.isDirectory found

/-- Walk a path from a node. -/
def walk (names : Naming ν γ) (follow : ν → Option ν) : List (PathStep γ) → ν → Option ν
  | [], node => some node
  | .stay :: rest, node => names.walk follow rest node
  | .up :: rest, node =>
    names.walk follow rest
      (if node = names.root then node else names.parent node)
  | .down name :: rest, node =>
    (names.enter follow node name rest.isEmpty).bind
      (names.walk follow rest)

/-- Follow links, at most as many in a row as the budget says. -/
def follow (names : Naming ν γ) : Nat → ν → Option ν
  | 0, node => if (names.link node).isSome then none else some node
  | budget + 1, node =>
    match names.link node with
    | none => some node
    | some target =>
      target.bind fun steps =>
        (names.walk (names.follow budget) steps names.root).filter
          names.isNode

/-- The node of a path, with or without following links. -/
def resolve (names : Naming ν γ) (budget : Nat) (isFollowing : Bool)
    (steps : List (PathStep γ)) : Option ν :=
  (names.walk (if isFollowing then names.follow budget else some) steps
    names.root).filter names.isNode

/-- The root and the directories: the nodes a walk passes through. -/
def Inner (names : Naming ν γ) (node : ν) : Prop :=
  node = names.root ∨ names.isDirectory node = true

section

variable {names : Naming ν γ} {next : ν → Option ν}

omit [DecidableEq ν] in
theorem enter_eq_some_iff {node found : ν} {name : γ} {isLast : Bool} :
    names.enter next node name isLast = some found ↔
      ((names.find node name).bind next = some found) ∧
        (isLast = true ∨ names.isDirectory found = true) := by
  unfold enter
  rw [Option.filter_eq_some_iff, Bool.or_eq_true]

end

theorem follow_of_link_none {names : Naming ν γ} {node : ν}
    (plain : names.link node = none) (budget : Nat) : names.follow budget node = some node := by
  cases budget with
  | zero =>
    rw [follow, plain]
    rfl
  | succ budget => rw [follow, plain]

/-- Two namings that agree on a set of nodes which no walk leaves. -/
structure SameOn (inside : ν → Prop) (names names' : Naming ν γ) : Prop where
  root : names'.root = names.root
  rootInside : inside names.root
  isNode : ∀ node, inside node → names'.isNode node = names.isNode node
  isDirectory : ∀ node, inside node → names'.isDirectory node = names.isDirectory node
  find : ∀ node name, inside node → names'.find node name = names.find node name
  found : ∀ node name found, names.find node name = some found → inside found
  parent : ∀ node, inside node → names.Inner node →
    names'.parent node = names.parent node ∧ inside (names.parent node) ∧
      names.Inner (names.parent node)
  link : ∀ node, inside node → names'.link node = names.link node

section

variable {inside : ν → Prop} {names names' : Naming ν γ}
  (same : SameOn inside names names')

include same

theorem SameOn.walk {next next' : ν → Option ν}
    (agrees : ∀ node, inside node → next' node = next node)
    (stays : ∀ node last, inside node → next node = some last → inside last) :
    ∀ (steps : List (PathStep γ)) (node : ν), inside node → names.Inner node →
        names'.walk next' steps node = names.walk next steps node ∧
          ∀ last, names.walk next steps node = some last → inside last := by
  intro steps
  induction steps with
  | nil =>
    intro node isInside _
    refine ⟨rfl, ?_⟩
    intro last walked
    cases walked
    exact isInside
  | cons step rest ih =>
    intro node isInside inner
    cases step with
    | stay => exact ih node isInside inner
    | up =>
      obtain ⟨sameParent, parentInside, innerParent⟩ := same.parent node isInside inner
      rw [Naming.walk, Naming.walk, same.root, sameParent]
      by_cases atRoot : node = names.root
      · rw [if_pos atRoot]
        exact ih node isInside inner
      · rw [if_neg atRoot]
        exact ih _ parentInside innerParent
    | down name =>
      have entered : names'.enter next' node name rest.isEmpty =
          names.enter next node name rest.isEmpty := by
        unfold enter
        rw [same.find node name isInside]
        cases isFound : names.find node name with
        | none => rfl
        | some found =>
          have foundInside := same.found node name found isFound
          rw [Option.bind_some, Option.bind_some, agrees found foundInside]
          cases reached : next found with
          | none => rfl
          | some last =>
            have lastInside := stays found last foundInside reached
            rw [Option.filter_some, Option.filter_some, same.isDirectory last lastInside]
      rw [Naming.walk, Naming.walk, entered]
      cases reach : names.enter next node name rest.isEmpty with
      | none => exact ⟨rfl, nofun⟩
      | some middle =>
        obtain ⟨isMiddle, allowed⟩ := enter_eq_some_iff.mp reach
        obtain ⟨found, isFound, reached⟩ := Option.bind_eq_some_iff.mp isMiddle
        have middleInside := stays found middle (same.found node name found isFound) reached
        rw [Option.bind_some, Option.bind_some]
        cases rest with
        | nil =>
          refine ⟨rfl, ?_⟩
          intro last walked
          cases walked
          exact middleInside
        | cons _ _ =>
          have isDirectory : names.isDirectory middle = true := by
            simpa using allowed
          exact ih middle middleInside (Or.inr isDirectory)

theorem SameOn.filter_walk {next next' : ν → Option ν}
    (agrees : ∀ node, inside node → next' node = next node)
    (stays : ∀ node last, inside node → next node = some last →
      inside last) (steps : List (PathStep γ)) :
    (names'.walk next' steps names'.root).filter names'.isNode =
        (names.walk next steps names.root).filter names.isNode ∧
      ∀ last, (names.walk next steps names.root).filter names.isNode = some last → inside last := by
  obtain ⟨walked, ends⟩ := same.walk agrees stays steps names.root same.rootInside (Or.inl rfl)
  rw [same.root, walked]
  constructor
  · cases isLast : names.walk next steps names.root with
    | none => rfl
    | some last =>
      rw [Option.filter_some, Option.filter_some, same.isNode last (ends last isLast)]
  · intro last filtered
    exact ends last (Option.filter_eq_some_iff.mp filtered).1

theorem SameOn.follow : ∀ (budget : Nat) (node : ν), inside node →
    names'.follow budget node = names.follow budget node ∧
      ∀ last, names.follow budget node = some last → inside last := by
  intro budget
  induction budget with
  | zero =>
    intro node isInside
    rw [Naming.follow, Naming.follow, same.link node isInside]
    refine ⟨rfl, ?_⟩
    intro last followed
    split at followed
    · cases followed
    · cases followed
      exact isInside
  | succ budget ih =>
    intro node isInside
    rw [Naming.follow, Naming.follow, same.link node isInside]
    cases names.link node with
    | none =>
      refine ⟨rfl, ?_⟩
      intro last followed
      cases followed
      exact isInside
    | some target =>
      cases target with
      | none => exact ⟨rfl, nofun⟩
      | some steps =>
        exact same.filter_walk (fun node isInside => (ih node isInside).1)
          (fun node last isInside =>
            (ih node isInside).2 last) steps

theorem SameOn.resolve (budget : Nat) (isFollowing : Bool) (steps : List (PathStep γ)) :
    names'.resolve budget isFollowing steps = names.resolve budget isFollowing steps ∧
      ∀ last, names.resolve budget isFollowing steps = some last → inside last := by
  cases isFollowing with
  | true =>
    exact same.filter_walk (fun node isInside => (same.follow budget node isInside).1)
      (fun node last isInside =>
        (same.follow budget node isInside).2 last) steps
  | false =>
    refine same.filter_walk (fun _ _ => rfl) ?_ steps
    intro node last isInside stays
    cases stays
    exact isInside

end

/-- The nodes that names lead to from one node. -/
inductive Below (names : Naming ν γ) (top : ν) : ν → Prop
  | top : Below names top top
  | enter {node found : ν} {name : γ} :
    Below names top node → names.find node name = some found → Below names top found

/-- Without a step up and without links, a walk stays below where it starts. -/
theorem walk_below {names : Naming ν γ} {next : ν → Option ν} {top : ν}
    (plain : ∀ node, names.Below top node → next node = some node)
    {steps : List (PathStep γ)} (descends : .up ∉ steps) {node last : ν}
    (below : names.Below top node) (walked : names.walk next steps node = some last) :
    names.Below top last := by
  induction steps generalizing node with
  | nil =>
    cases walked
    exact below
  | cons step rest ih =>
    obtain ⟨notUp, restDescends⟩ := not_or.mp (mt List.mem_cons.mpr descends)
    cases step with
    | stay => exact ih restDescends below walked
    | up => exact absurd rfl notUp
    | down name =>
      obtain ⟨entered, enters, goesOn⟩ := Option.bind_eq_some_iff.mp walked
      obtain ⟨found, isFound, reached⟩ := Option.bind_eq_some_iff.mp (enter_eq_some_iff.mp enters).1
      have foundBelow := below.enter isFound
      rw [plain found foundBelow] at reached
      cases reached
      exact ih restDescends foundBelow goesOn

end Naming

end KnitOS.Lib
