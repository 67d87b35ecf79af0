import KnitOS.Lib.Runs
import Mathlib.Data.List.Nodup

/-!
# Lists of writes

The image a list of writes leaves of an array: every cell holds what was last
written to it, or what it held before.
-/

namespace KnitOS.Lib

variable {ι α : Type} [DecidableEq ι]

/-- The array after a list of writes. -/
def imageAfter (image : ι → α) (writes : List (ι × α)) : ι → α :=
  runFrom (fun current write => Function.update current write.1 write.2)
    image writes

@[simp]
theorem imageAfter_nil (image : ι → α) : imageAfter image [] = image := rfl

@[simp]
theorem imageAfter_cons (image : ι → α) (write : ι × α) (rest : List (ι × α)) :
    imageAfter image (write :: rest) =
      imageAfter (Function.update image write.1 write.2) rest := rfl

theorem imageAfter_append (image : ι → α) (first second : List (ι × α)) :
    imageAfter image (first ++ second) = imageAfter (imageAfter image first) second :=
  runFrom_append _ image first second

variable (writes : List (ι × α))
include writes

theorem imageAfter_of_not_written {cell : ι} :
    ∀ (image : ι → α), (∀ write ∈ writes, write.1 ≠ cell) →
      imageAfter image writes cell = image cell := by
  induction writes with
  | nil =>
    intro image _
    rfl
  | cons write rest ih =>
    intro image different
    have headDifferent : write.1 ≠ cell := different write (List.mem_cons_self)
    have restUnchanged := ih (Function.update image write.1 write.2)
      (List.forall_mem_cons.mp different).2
    rw [imageAfter_cons, restUnchanged, Function.update_of_ne (Ne.symm headDifferent)]

theorem imageAfter_cases : ∀ (image : ι → α) (cell : ι), imageAfter image writes cell = image cell ∨
    (cell, imageAfter image writes cell) ∈ writes := by
  induction writes with
  | nil =>
    intro image cell
    exact Or.inl rfl
  | cons write rest ih =>
    intro image cell
    rw [imageAfter_cons]
    rcases ih (Function.update image write.1 write.2) cell with unchanged | member
    · by_cases same : cell = write.1
      · right
        rw [unchanged, same, Function.update_self]
        exact List.mem_cons_self
      · left
        rw [unchanged, Function.update_of_ne same]
    · exact Or.inr (List.mem_cons_of_mem _ member)

theorem imageAfter_of_mem : ∀ (image : ι → α), (writes.map Prod.fst).Nodup →
    ∀ write, write ∈ writes → imageAfter image writes write.1 = write.2 := by
  induction writes with
  | nil =>
    intro image _ write member
    exact absurd member List.not_mem_nil
  | cons first rest ih =>
    intro image distinct write member
    rw [List.map_cons, List.nodup_cons] at distinct
    rw [imageAfter_cons]
    rcases List.mem_cons.mp member with same | inRest
    · have untouched : ∀ other ∈ rest, other.1 ≠ first.1 := by
        intro other otherMember equal
        exact distinct.1 (equal ▸ List.mem_map_of_mem otherMember)
      rw [same, imageAfter_of_not_written rest _ untouched, Function.update_self]
    · exact ih _ distinct.2 write inRest

omit writes

theorem map_imageAfter_zip (cells : List ι) : ∀ (contents : List α) (image : ι → α), cells.Nodup →
    cells.length = contents.length →
      cells.map (imageAfter image (cells.zip contents)) = contents := by
  induction cells with
  | nil =>
    intro contents image _ sameLength
    rw [List.map_nil, List.eq_nil_of_length_eq_zero sameLength.symm]
  | cons cell rest ih =>
    intro contents image distinct sameLength
    obtain ⟨notInRest, restDistinct⟩ := List.nodup_cons.mp distinct
    cases contents with
    | nil => cases sameLength
    | cons content others =>
      have untouched : ∀ write ∈ rest.zip others, write.1 ≠ cell := by
        intro write member same
        exact notInRest (same ▸ (List.of_mem_zip member).1)
      rw [List.zip_cons_cons, List.map_cons, imageAfter_cons,
        imageAfter_of_not_written _ _ untouched, Function.update_self,
        ih others _ restDistinct (Nat.succ.inj sameLength)]

theorem imageAfter_zip_of_not_mem {cells : List ι} {contents : List α}
    (image : ι → α) {cell : ι} (absent : cell ∉ cells) :
    imageAfter image (cells.zip contents) cell = image cell := by
  apply imageAfter_of_not_written
  intro write member same
  exact absent (same ▸ (List.of_mem_zip member).1)

end KnitOS.Lib
