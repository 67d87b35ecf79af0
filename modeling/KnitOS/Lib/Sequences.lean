import Mathlib.Data.List.GetD

/-!
# Sequences that grow with a filler

A finite sequence can be given another length, and a part of it can be
replaced; where it gets longer, the gap is filled.  Sequences are compared by
their lengths and by their items, the filler standing behind the end.
-/

namespace KnitOS.Lib

variable {α : Type} (filler : α)

/-- The sequence cut or filled up to a length. -/
def resized (size : Nat) (items : List α) : List α :=
  items.take size ++ List.replicate (size - items.length) filler

/-- The sequence with the items from a position on replaced. -/
def spliced (offset : Nat) (data items : List α) : List α :=
  resized filler offset items ++ data ++ items.drop (offset + data.length)

@[simp]
theorem length_resized (size : Nat) (items : List α) :
    (resized filler size items).length = size := by
  simp only [resized, List.length_append, List.length_take, List.length_replicate]
  omega

@[simp]
theorem length_spliced (offset : Nat) (data items : List α) :
    (spliced filler offset data items).length = max items.length (offset + data.length) := by
  simp only [spliced, List.length_append, length_resized, List.length_drop]
  omega

variable {filler}

theorem getD_replicate (size position : Nat) :
    (List.replicate size filler).getD position filler = filler := by
  rw [List.getD_eq_getElem?_getD, List.getElem?_replicate]
  split
  · rfl
  · rfl

theorem getD_resized {size position : Nat} (items : List α) (inside : position < size) :
    (resized filler size items).getD position filler = items.getD position filler := by
  unfold resized
  by_cases old : position < items.length
  · have before : position < (items.take size).length := by
      rw [List.length_take]
      omega
    rw [List.getD_append _ _ _ _ before, List.getD_eq_getElem?_getD,
      List.getElem?_take_of_lt inside, ← List.getD_eq_getElem?_getD]
  · have behind : (items.take size).length ≤ position := by
      rw [List.length_take]
      omega
    rw [List.getD_append_right _ _ _ _ behind, getD_replicate,
      List.getD_eq_default _ _ (Nat.not_lt.mp old)]

theorem getD_spliced (offset position : Nat) (data items : List α) :
    (spliced filler offset data items).getD position filler =
      if offset ≤ position ∧ position < offset + data.length then
        data.getD (position - offset) filler
      else
        items.getD position filler := by
  unfold spliced
  by_cases before : position < offset
  · rw [if_neg (by omega), List.append_assoc,
      List.getD_append _ _ _ _ (by rw [length_resized]; exact before), getD_resized items before]
  · have atLeast : (resized filler offset items).length ≤ position := by
      rw [length_resized]
      omega
    rw [List.append_assoc, List.getD_append_right _ _ _ _ atLeast, length_resized]
    by_cases replaced : position < offset + data.length
    · rw [if_pos (by omega), List.getD_append _ _ _ _ (by omega)]
    · rw [if_neg (by omega), List.getD_append_right _ _ _ _ (by omega),
        List.getD_eq_getElem?_getD, List.getElem?_drop, ← List.getD_eq_getElem?_getD]
      congr 1
      omega

end KnitOS.Lib
