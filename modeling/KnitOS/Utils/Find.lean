import Mathlib.Computability.Language

/-!
# Name patterns

`fnmatch` of `find.cpp`, on the bytes of the strings before their NUL.
-/

namespace KnitOS.Utils

abbrev star : UInt8 := 42
abbrev question : UInt8 := 63

/-- A star tries every rest of the name, the empty one last. -/
def fnmatch : List UInt8 → List UInt8 → Bool
  | [], name => name.isEmpty
  | byte :: pattern, name =>
    if byte = star then
      pattern.isEmpty || name.tails.any (fnmatch pattern)
    else
      (if byte = question then !name.isEmpty else name.head? == some byte) &&
        fnmatch pattern name.tail

/-- A star stands for any text, a question mark for any byte, and every other
byte for itself. -/
def globByte (byte : UInt8) : Language UInt8 :=
  { text | byte = star ∨ ∃ any, text = [any] ∧ (byte = question ∨ byte = any) }

/-- The names that a pattern stands for. -/
def globLanguage (pattern : List UInt8) : Language UInt8 :=
  (pattern.map globByte).prod

variable {byte : UInt8} {pattern name : List UInt8}

theorem mem_globLanguage_cons : name ∈ globLanguage (byte :: pattern) ↔
    ∃ first ∈ globByte byte, ∃ rest ∈ globLanguage pattern, first ++ rest = name := by
  rw [globLanguage, List.map_cons, List.prod_cons]
  exact Language.mem_mul

/-- `fnmatch` accepts the names of the pattern's language. -/
theorem fnmatch_iff (pattern name : List UInt8) :
    fnmatch pattern name = true ↔ name ∈ globLanguage pattern := by
  induction pattern generalizing name with
  | nil =>
    rw [fnmatch, List.isEmpty_iff]
    exact (Language.mem_one name).symm
  | cons byte pattern ih =>
    rw [fnmatch, mem_globLanguage_cons]
    split
    · rename_i isStar
      have every : ∀ text, text ∈ globByte byte := fun _ => Or.inl isStar
      rw [Bool.or_eq_true, List.any_eq_true]
      constructor
      · rintro (atEnd | ⟨rest, isRest, accepted⟩)
        · rw [List.isEmpty_iff.mp atEnd]
          exact ⟨name, every name, [], (Language.mem_one []).mpr rfl, List.append_nil name⟩
        · obtain ⟨first, isName⟩ := (List.mem_tails _ _).mp isRest
          exact ⟨first, every first, rest, (ih rest).mp accepted, isName⟩
      · rintro ⟨first, _, rest, accepted, isName⟩
        exact Or.inr ⟨rest, (List.mem_tails _ _).mpr ⟨first, isName⟩, (ih rest).mpr accepted⟩
    · rename_i plain
      have single : ∀ text, text ∈ globByte byte ↔
          ∃ any, text = [any] ∧ (byte = question ∨ byte = any) := fun _ => or_iff_right plain
      simp only [single]
      cases name with
      | nil => simp
      | cons first rest =>
        rw [Bool.and_eq_true, List.tail_cons, ih]
        by_cases isQuestion : byte = question
        · simp [isQuestion]
        · simp [isQuestion, and_comm, @eq_comm _ byte]

end KnitOS.Utils
