import Mathlib.Algebra.Ring.Nat
import Mathlib.Data.Fintype.Prod

/-!
# Finite tables

A table of fixed size is a function on its indices.  The entries that meet a
condition are counted, and the count follows the writes; the first entry that
meets it is found by a search in the order of the indices, or in their order
around from a given start.
-/

namespace KnitOS.Lib

section

variable {ι α : Type} [Fintype ι]

/-- The number of entries of a table that meet a condition. -/
def tally (Counts : α → Prop) [DecidablePred Counts] (table : ι → α) : Nat :=
  (Finset.univ.filter fun index => Counts (table index)).card

variable {Counts : α → Prop} [DecidablePred Counts]

theorem tally_eq_zero_iff {table : ι → α} :
    tally Counts table = 0 ↔ ∀ index, ¬ Counts (table index) := by
  unfold tally
  rw [Finset.card_eq_zero, Finset.filter_eq_empty_iff]
  exact ⟨fun none index => none (Finset.mem_univ index), fun none index _ => none index⟩

theorem tally_pos {table : ι → α} {index : ι} (counts : Counts (table index)) :
    0 < tally Counts table := Nat.pos_of_ne_zero fun none => tally_eq_zero_iff.mp none index counts

theorem tally_update [DecidableEq ι] (table : ι → α) (index : ι) (entry : α) :
    tally Counts (Function.update table index entry) + (if Counts (table index) then 1 else 0) =
      tally Counts table + (if Counts entry then 1 else 0) := by
  have others : ∀ table : ι → α, tally Counts table = (if Counts (table index) then 1 else 0) +
        ((Finset.univ.erase index).filter fun other =>
          Counts (table other)).card := by
    intro table
    unfold tally
    rw [← Finset.insert_erase (Finset.mem_univ index),
      Finset.filter_insert, Finset.erase_insert_eq_erase, Finset.erase_idem]
    split
    · rw [Finset.card_insert_of_notMem (by simp), Nat.add_comm]
    · rw [Nat.zero_add]
  have same : ((Finset.univ.erase index).filter fun other =>
        Counts (Function.update table index entry other)) =
      (Finset.univ.erase index).filter fun other => Counts (table other) := by
    refine Finset.filter_congr ?_
    intro other member
    rw [Function.update_of_ne (Finset.ne_of_mem_erase member)]
  rw [others, others table, same, Function.update_self]
  omega

end

section

variable {size : Nat} {α : Type}

/-- The first index whose entry meets a condition. -/
def firstIndex (Meets : α → Prop) [DecidablePred Meets]
    (table : Fin size → α) : Option (Fin size) :=
  (List.finRange size).find? fun index => Meets (table index)

variable {Meets : α → Prop} [DecidablePred Meets] {table : Fin size → α} {index : Fin size}

theorem meets_of_firstIndex
    (found : firstIndex Meets table = some index) : Meets (table index) := by
  simpa using List.find?_some found

theorem firstIndex_isSome (meets : Meets (table index)) : (firstIndex Meets table).isSome := by
  unfold firstIndex
  rw [List.find?_isSome]
  exact ⟨index, List.mem_finRange index, by simpa using meets⟩

theorem firstIndex_eq_some_iff : firstIndex Meets table = some index ↔
    Meets (table index) ∧ ∀ other, other < index → ¬ Meets (table other) := by
  unfold firstIndex
  rw [List.find?_eq_some_iff_getElem]
  simp only [List.getElem_finRange, decide_eq_true_eq, Bool.not_eq_true', decide_eq_false_iff_not]
  constructor
  · rintro ⟨meets, position, inside, isIndex, before⟩
    refine ⟨meets, ?_⟩
    intro other smaller
    rw [← isIndex] at smaller
    exact before other.val smaller
  · rintro ⟨meets, least⟩
    refine ⟨meets, index.val, by simp, rfl, ?_⟩
    intro position smaller
    exact least ⟨position, by omega⟩ smaller

/-- The first index whose entry meets a condition, around from a start. -/
def nextIndex [NeZero size] (Meets : α → Prop) [DecidablePred Meets]
    (table : Fin size → α) (start : Nat) : Option (Fin size) :=
  ((List.range size).map fun offset => Fin.ofNat size (start + offset)).find?
    fun index => Meets (table index)

variable {start : Nat}

theorem meets_of_nextIndex [NeZero size]
    (found : nextIndex Meets table start = some index) : Meets (table index) := by
  simpa using List.find?_some found

theorem nextIndex_least [NeZero size] (found : nextIndex Meets table start = some index) :
    ∃ offset < size, index = Fin.ofNat size (start + offset) ∧
      ∀ earlier < offset, ¬ Meets (table (Fin.ofNat size (start + earlier))) := by
  obtain ⟨_, offset, inside, isIndex, before⟩ := List.find?_eq_some_iff_getElem.mp found
  simp only [List.getElem_map, List.getElem_range, List.length_map,
    List.length_range] at inside isIndex before
  exact ⟨offset, inside, isIndex.symm, fun earlier smaller => by
    simpa using before earlier smaller⟩

theorem nextIndex_eq_none_iff [NeZero size] :
    nextIndex Meets table start = none ↔ ∀ index, ¬ Meets (table index) := by
  unfold nextIndex
  rw [List.find?_eq_none]
  simp only [List.mem_map, List.mem_range, decide_eq_true_eq]
  constructor
  · intro nowhere index
    have positive : 0 < size := Nat.pos_of_ne_zero (NeZero.ne size)
    refine nowhere index ⟨(index.val + (size - start % size)) % size, Nat.mod_lt _ positive, ?_⟩
    apply Fin.ext
    have below := Nat.mod_lt start positive
    have split := Nat.div_add_mod start size
    rw [Fin.val_ofNat, Nat.add_mod_mod]
    calc
      (start + (index.val + (size - start % size))) % size
        = (index.val + size * (start / size + 1)) % size := by
          congr 1
          rw [Nat.mul_add]
          omega
      _ = index.val := by
          rw [Nat.add_mul_mod_self_left, Nat.mod_eq_of_lt index.isLt]
  · intro nowhere index _
    exact nowhere index

end

end KnitOS.Lib
