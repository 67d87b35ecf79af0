import Mathlib.Data.List.Nodup

/-!
# Exclusive ownership

A family of lists, one per owner, in which nothing is listed twice, neither by
one owner nor by two.  The rules cover the two ways ownership changes: an
owner gives something up or takes something nobody has, and two owners
exchange what they have.
-/

namespace KnitOS.Lib

variable {ι α : Type}

/-- Everything is listed at most once. -/
structure Exclusive (owned : ι → List α) : Prop where
  nodup : ∀ owner, (owned owner).Nodup
  apart : ∀ first second, first ≠ second → ∀ item ∈ owned first, item ∉ owned second

namespace Exclusive

variable {owned owned' : ι → List α}

theorem mono (exclusive : Exclusive owned) (fewer : ∀ owner, (owned' owner).Sublist (owned owner)) :
    Exclusive owned' :=
  ⟨fun owner => (exclusive.nodup owner).sublist (fewer owner),
    fun first second different item inFirst inSecond => exclusive.apart first second different item
      ((fewer first).subset inFirst) ((fewer second).subset inSecond)⟩

theorem replace (exclusive : Exclusive owned) {owner : ι}
    (others : ∀ other, other ≠ owner → owned' other = owned other) (nodup : (owned' owner).Nodup)
    (taken : ∀ item ∈ owned' owner, item ∈ owned owner ∨ ∀ other, item ∉ owned other) :
    Exclusive owned' := by
  have separate : ∀ other, other ≠ owner → ∀ item ∈ owned' owner, item ∉ owned other := by
    intro other different item member
    rcases taken item member with had | free
    · exact exclusive.apart owner other (Ne.symm different) item had
    · exact free other
  constructor
  · intro other
    by_cases same : other = owner
    · rw [same]
      exact nodup
    · rw [others other same]
      exact exclusive.nodup other
  · intro first second different item member
    by_cases firstSame : first = owner
    · subst firstSame
      rw [others second (Ne.symm different)]
      exact separate second (Ne.symm different) item member
    · rw [others first firstSame] at member
      by_cases secondSame : second = owner
      · subst secondSame
        intro taken
        exact separate first firstSame item taken member
      · rw [others second secondSame]
        exact exclusive.apart first second different item member

theorem exchange (exclusive : Exclusive owned) {giver taker : ι} (different : giver ≠ taker)
    (others : ∀ other, other ≠ giver → other ≠ taker → owned' other = owned other) (exchanged :
      (owned' giver ++ owned' taker).Perm (owned giver ++ owned taker)) : Exclusive owned' := by
  have bothNodup : (owned' giver ++ owned' taker).Nodup := by
    rw [exchanged.nodup_iff, List.nodup_append]
    refine ⟨exclusive.nodup giver, exclusive.nodup taker, ?_⟩
    intro first firstMember second secondMember same
    exact exclusive.apart giver taker different first firstMember (same ▸ secondMember)
  rw [List.nodup_append] at bothNodup
  obtain ⟨giverNodup, takerNodup, bothApart⟩ := bothNodup
  have had : ∀ owner, owner = giver ∨ owner = taker →
      ∀ item ∈ owned' owner, item ∈ owned giver ∨ item ∈ owned taker := by
    intro owner which item member
    rw [← List.mem_append, ← exchanged.mem_iff, List.mem_append]
    rcases which with isGiver | isTaker
    · exact Or.inl (isGiver ▸ member)
    · exact Or.inr (isTaker ▸ member)
  have separate : ∀ owner, owner = giver ∨ owner = taker → ∀ other, other ≠ giver → other ≠ taker →
        ∀ item ∈ owned' owner, item ∉ owned other := by
    intro owner which other notGiver notTaker item member
    rcases had owner which item member with fromGiver | fromTaker
    · exact exclusive.apart giver other (Ne.symm notGiver) item fromGiver
    · exact exclusive.apart taker other (Ne.symm notTaker) item fromTaker
  constructor
  · intro owner
    by_cases isGiver : owner = giver
    · rw [isGiver]
      exact giverNodup
    · by_cases isTaker : owner = taker
      · rw [isTaker]
        exact takerNodup
      · rw [others owner isGiver isTaker]
        exact exclusive.nodup owner
  · intro first second distinct item member inSecond
    by_cases firstOne : first = giver ∨ first = taker
    · by_cases secondOne : second = giver ∨ second = taker
      · rcases firstOne with isGiver | isTaker <;> rcases secondOne with alsoGiver | alsoTaker
        · exact distinct (isGiver.trans alsoGiver.symm)
        · rw [isGiver] at member
          rw [alsoTaker] at inSecond
          exact bothApart item member item inSecond rfl
        · rw [isTaker] at member
          rw [alsoGiver] at inSecond
          exact bothApart item inSecond item member rfl
        · exact distinct (isTaker.trans alsoTaker.symm)
      · push Not at secondOne
        rw [others second secondOne.1 secondOne.2] at inSecond
        exact separate first firstOne second secondOne.1 secondOne.2 item member inSecond
    · push Not at firstOne
      rw [others first firstOne.1 firstOne.2] at member
      by_cases secondOne : second = giver ∨ second = taker
      · exact separate second secondOne first firstOne.1 firstOne.2 item inSecond member
      · push Not at secondOne
        rw [others second secondOne.1 secondOne.2] at inSecond
        exact exclusive.apart first second distinct item member inSecond

end Exclusive

end KnitOS.Lib
