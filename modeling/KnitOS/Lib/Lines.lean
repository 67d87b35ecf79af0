import KnitOS.Lib.Text
import Mathlib.Data.List.GetD
import Mathlib.Data.List.TakeWhile
import Mathlib.Data.Nat.Digits.Lemmas

/-!
# Line files

C strings and character arrays, texts split into lines and lines split into
fields, and numbers written in decimal or in hexadecimal digits.  A field that
does not hold the delimiter is read back as it was written.
-/

namespace KnitOS.Lib

/-- A C string: bytes other than NUL. -/
structure CStr where
  bytes : List UInt8
  noNul : 0 ∉ bytes
deriving DecidableEq

def CStr.ofBytes (buffer : List UInt8) : CStr where
  bytes := cString buffer
  noNul := fun member => by
    have nonzero := List.mem_takeWhile_imp member
    simp at nonzero

abbrev CStr.ofText (text : String) : CStr :=
  CStr.ofBytes (ascii text)

/-- What a `char[capacity]` holds: a C string that leaves room for its NUL. -/
structure CharArray (capacity : Nat) extends CStr where
  fits : bytes.length ≤ capacity - 1
deriving DecidableEq

/-- `strncpy` into a cleared array, its last byte left alone. -/
def strncpy (capacity : Nat) (text : CStr) : CharArray capacity where
  bytes := text.bytes.take (capacity - 1)
  noNul := fun member => text.noNul (List.mem_of_mem_take member)
  fits := List.length_take_le _ _

variable {capacity : Nat}

theorem CharArray.ext_bytes
    {first second : CharArray capacity} (same : first.bytes = second.bytes) : first = second := by
  obtain ⟨⟨_, _⟩, _⟩ := first
  obtain ⟨⟨_, _⟩, _⟩ := second
  cases same
  rfl

theorem strncpy_bytes_of_fits {text : CStr}
    (fits : text.bytes.length ≤ capacity - 1) : (strncpy capacity text).bytes = text.bytes :=
  List.take_of_length_le fits

theorem strncpy_toCStr (text : CharArray capacity) : strncpy capacity text.toCStr = text := by
  have bytes := strncpy_bytes_of_fits text.fits
  obtain ⟨⟨textBytes, noNul⟩, fits⟩ := text
  unfold strncpy at bytes ⊢
  congr

/-- The lines of a text: each ends with a line feed, the last one perhaps with
the text. -/
def lines : List UInt8 → List (List UInt8)
  | [] => []
  | byte :: rest =>
    if byte = lineFeed then
      [] :: lines rest
    else
      match lines rest with
      | [] => [[byte]]
      | line :: later => (byte :: line) :: later

variable {line : List UInt8}

theorem lines_append (oneLine : lineFeed ∉ line) (rest : List UInt8) :
    lines (line ++ lineFeed :: rest) = line :: lines rest := by
  induction line with
  | nil => rfl
  | cons byte line ih =>
    have notFeed : byte ≠ lineFeed := fun isFeed =>
      oneLine (isFeed ▸ List.mem_cons_self)
    have oneLineRest : lineFeed ∉ line := fun member =>
      oneLine (List.mem_cons_of_mem _ member)
    rw [List.cons_append, lines, if_neg notFeed, ih oneLineRest]

theorem lines_flatMap {α : Type} {lineOf : α → List UInt8} {items : List α}
    (oneLine : ∀ item ∈ items, lineFeed ∉ lineOf item) :
    lines (items.flatMap fun item => lineOf item ++ [lineFeed]) = items.map lineOf := by
  induction items with
  | nil => rfl
  | cons item items ih =>
    rw [List.flatMap_cons, List.append_assoc, List.singleton_append,
      lines_append (oneLine item List.mem_cons_self), ih (List.forall_mem_cons.mp oneLine).2,
      List.map_cons]

theorem not_mem_of_mem_lines {text : List UInt8}
    (member : line ∈ lines text) : lineFeed ∉ line := by
  induction text generalizing line with
  | nil => cases member
  | cons byte rest ih =>
    unfold lines at member
    split at member
    · rcases List.mem_cons.mp member with isEmpty | later
      · rw [isEmpty]
        exact List.not_mem_nil
      · exact ih later
    · rename_i notFeed
      split at member
      · rw [List.mem_singleton.mp member, List.mem_singleton]
        exact Ne.symm notFeed
      · rename_i first later linesRest
        rcases List.mem_cons.mp member with isFirst | isLater
        · rw [isFirst, List.mem_cons]
          rintro (isFeed | inFirst)
          · exact notFeed isFeed.symm
          · exact ih (linesRest ▸ List.mem_cons_self) inFirst
        · exact ih (linesRest ▸ List.mem_cons_of_mem _ isLater)

/-- The fields of a line, cut at a delimiter at most the given number of
times. -/
def fields (delimiter : UInt8) : Nat → List UInt8 → List (List UInt8)
  | 0, line => [line]
  | cuts + 1, line =>
    let field := line.takeWhile (· ≠ delimiter)
    if field.length < line.length then
      field :: fields delimiter cuts (line.drop (field.length + 1))
    else
      [line]

variable {field : List UInt8} {delimiter : UInt8}

theorem takeWhile_append_delimiter (within : delimiter ∉ field) (rest : List UInt8) :
    (field ++ delimiter :: rest).takeWhile (· ≠ delimiter) = field := by
  have others : ∀ byte ∈ field, decide (byte ≠ delimiter) = true := by
    intro byte member
    have different : byte ≠ delimiter := fun same => within (same ▸ member)
    simpa using different
  rw [List.takeWhile_append_of_pos others, List.takeWhile_cons]
  simp

theorem fields_append (within : delimiter ∉ field) (cuts : Nat) (rest : List UInt8) :
    fields delimiter (cuts + 1) (field ++ delimiter :: rest) =
      field :: fields delimiter cuts rest := by
  have dropped : (field ++ delimiter :: rest).drop (field.length + 1) = rest := by
    rw [List.drop_append, List.drop_of_length_le (by omega)]
    simp
  rw [fields, takeWhile_append_delimiter within]
  simp only [dropped]
  rw [if_pos (by simp)]

theorem not_mem_of_mem_fields {cuts : Nat} {position : Nat}
    (found : (fields delimiter cuts line)[position]? = some field)
    (early : position < cuts) : delimiter ∉ field := by
  induction cuts generalizing line position with
  | zero => omega
  | succ cuts ih =>
    rw [fields] at found
    have absent : delimiter ∉ line.takeWhile (· ≠ delimiter) := fun member => by
      have different := List.mem_takeWhile_imp member
      simp at different
    split at found
    · cases position with
      | zero =>
        simp only [List.getElem?_cons_zero, Option.some.injEq] at found
        rw [← found]
        exact absent
      | succ position =>
        rw [List.getElem?_cons_succ] at found
        exact ih found (by omega)
    · rename_i whole
      have all : line.takeWhile (· ≠ delimiter) = line :=
        (List.takeWhile_prefix _).eq_of_length_le (Nat.not_lt.mp whole)
      cases position with
      | zero =>
        simp only [List.getElem?_cons_zero, Option.some.injEq] at found
        rw [← found, ← all]
        exact absent
      | succ position => simp at found

theorem subset_of_mem_fields {cuts : Nat} (member : field ∈ fields delimiter cuts line) :
    field ⊆ line := by
  induction cuts generalizing line with
  | zero =>
    rw [fields, List.mem_singleton] at member
    rw [member]
    exact List.Subset.refl _
  | succ cuts ih =>
    rw [fields] at member
    split at member
    · rcases List.mem_cons.mp member with isFirst | later
      · rw [isFirst]
        exact List.takeWhile_subset _
      · exact List.Subset.trans (ih later) (List.drop_subset _ _)
    · rw [List.mem_singleton.mp member]
      exact List.Subset.refl _

/-- The decimal digits of a number, the most significant one first. -/
def decimalText (number : Nat) : List UInt8 :=
  if number = 0 then
    [48]
  else
    (Nat.digits 10 number).reverse.map fun digit => UInt8.ofNat (48 + digit)

def IsDigit (byte : UInt8) : Prop :=
  48 ≤ byte ∧ byte ≤ 57

instance decidableIsDigit (byte : UInt8) : Decidable (IsDigit byte) :=
  inferInstanceAs (Decidable (_ ∧ _))

/-- The 16-bit number that the digits at the start of a text spell. -/
def decimalWord (text : List UInt8) : UInt16 :=
  (text.takeWhile (IsDigit ·)).foldl
    (fun value digit => value * 10 + (digit - 48).toUInt16) 0

variable {digit : Nat}

private theorem digitByte (small : digit < 10) : IsDigit (UInt8.ofNat (48 + digit)) ∧
    (UInt8.ofNat (48 + digit) - 48).toUInt16 = UInt16.ofNat digit := by
  have every : ∀ digit : Fin 10, IsDigit (UInt8.ofNat (48 + digit)) ∧
      (UInt8.ofNat (48 + digit) - 48).toUInt16 = UInt16.ofNat digit := by
    decide
  exact every ⟨digit, small⟩

variable {number : Nat}

theorem isDigit_of_mem_decimalText {byte : UInt8}
    (member : byte ∈ decimalText number) : IsDigit byte := by
  unfold decimalText at member
  split at member
  · rw [List.mem_singleton.mp member]
    decide
  · obtain ⟨digit, digitMember, digitIs⟩ := List.mem_map.mp member
    rw [← digitIs]
    exact (digitByte (Nat.digits_lt_base (by decide) (List.mem_reverse.mp digitMember))).1

private theorem foldr_digits {digits : List Nat} (small : ∀ digit ∈ digits, digit < 10) :
    digits.foldr (fun digit value => value * 10 +
        (UInt8.ofNat (48 + digit) - 48).toUInt16) (0 : UInt16) =
      UInt16.ofNat (Nat.ofDigits 10 digits) := by
  induction digits with
  | nil => rfl
  | cons digit digits ih =>
    have later := ih (List.forall_mem_cons.mp small).2
    rw [List.foldr_cons, later, (digitByte (small digit List.mem_cons_self)).2,
      Nat.ofDigits_cons, UInt16.ofNat_add, UInt16.ofNat_mul]
    rw [UInt16.add_comm, UInt16.mul_comm]
    rfl

theorem decimalWord_decimalText {rest : List UInt8} (ends : ∀ byte ∈ rest.head?, ¬ IsDigit byte) :
    decimalWord (decimalText number ++ rest) = UInt16.ofNat number := by
  have allDigits : ∀ byte ∈ decimalText number, decide (IsDigit byte) = true := fun byte member =>
    decide_eq_true (isDigit_of_mem_decimalText member)
  have stops : rest.takeWhile (IsDigit ·) = [] := by
    cases rest with
    | nil => rfl
    | cons byte rest =>
      rw [List.takeWhile_cons, if_neg]
      simpa using ends byte rfl
  unfold decimalWord
  rw [List.takeWhile_append_of_pos allDigits, stops, List.append_nil]
  unfold decimalText
  split
  · rename_i isZero
    rw [isZero]
    rfl
  · rw [List.foldl_map, List.foldl_reverse]
    have small : ∀ digit ∈ Nat.digits 10 number, digit < 10 :=
      fun digit member => Nat.digits_lt_base (by decide) member
    have value := foldr_digits small
    rw [Nat.ofDigits_digits] at value
    exact value

theorem length_decimalText_le (small : number < 2 ^ 16) : (decimalText number).length ≤ 5 := by
  unfold decimalText
  split
  · decide
  · rw [List.length_map, List.length_reverse]
    exact (Nat.digits_length_le_iff (by decide) number).mpr (by omega)

/-- The loop of `hex8`: the low digits of a word go in front of those already
written. -/
def hexLoop : Nat → UInt32 → List UInt8 → List UInt8
  | 0, _, written => written
  | count + 1, word, written =>
    hexLoop count (word >>> 4)
      ((ascii "0123456789abcdef").getD (word &&& 0xF).toNat 0 :: written)

def hex8 (word : UInt32) : List UInt8 :=
  hexLoop 8 word []

/-- The digit that a `char`, which is signed, stands for. -/
def hexValue (char : UInt8) : UInt32 :=
  if char ≤ 57 then
    char.toUInt32 - 48
  else if 128 ≤ char then
    char.toUInt32 - 256 - 48
  else
    10 + (char ||| 32).toUInt32 - 97

/-- A word with one more digit behind it. -/
def hexPush (word : UInt32) (char : UInt8) : UInt32 :=
  (word <<< 4) ||| hexValue char

/-- The word that hexadecimal digits spell. -/
def hexWord (digits : List UInt8) : UInt32 :=
  digits.foldl hexPush 0

private theorem hexLoop_append (count : Nat) (word : UInt32) (written : List UInt8) :
    hexLoop count word written = hexLoop count word [] ++ written := by
  induction count generalizing word written with
  | zero => rfl
  | succ count ih =>
    rw [hexLoop, hexLoop, ih, ih (word >>> 4) [_], List.append_assoc]
    rfl

private theorem hexValue_digit (small : digit < 16) :
    hexValue ((ascii "0123456789abcdef").getD digit 0) = UInt32.ofNat digit := by
  have every : ∀ digit : Fin 16, hexValue ((ascii "0123456789abcdef").getD digit 0) =
        UInt32.ofNat digit := by
    decide
  exact every ⟨digit, small⟩

private theorem toNat_shiftLeft_or {word : UInt32} (small : digit < 16) :
    ((word <<< 4) ||| UInt32.ofNat digit).toNat = (word.toNat * 16 + digit) % 2 ^ 32 := by
  have shifted : (word <<< 4).toNat = word.toNat % 2 ^ 28 * 2 ^ 4 := by
    rw [UInt32.toNat_shiftLeft]
    have four : UInt32.toNat 4 % 32 = 4 := rfl
    rw [four, Nat.shiftLeft_eq]
    omega
  have low : (UInt32.ofNat digit).toNat = digit := by
    rw [UInt32.toNat_ofNat']
    omega
  rw [UInt32.toNat_or, shifted, low, ← Nat.shiftLeft_eq,
    ← Nat.shiftLeft_add_eq_or_of_lt (by omega), Nat.shiftLeft_eq]
  omega

private theorem toNat_foldl_hexLoop (count : Nat) (start word : UInt32) :
    ((hexLoop count word []).foldl hexPush start).toNat =
      (start.toNat * 16 ^ count + word.toNat % 16 ^ count) % 2 ^ 32 := by
  induction count generalizing word with
  | zero =>
    have small := start.toNat_lt
    simp only [hexLoop, List.foldl_nil, pow_zero, mul_one, Nat.mod_one]
    omega
  | succ count ih =>
    have low : (word &&& 0xF).toNat = word.toNat % 16 := by
      rw [UInt32.toNat_and]
      exact Nat.and_two_pow_sub_one_eq_mod word.toNat 4
    have high : (word >>> 4).toNat = word.toNat / 16 := by
      rw [UInt32.toNat_shiftRight]
      exact Nat.shiftRight_eq_div_pow word.toNat 4
    have split : word.toNat % 16 ^ (count + 1) =
        word.toNat % 16 + 16 * (word.toNat / 16 % 16 ^ count) := by
      rw [pow_succ', Nat.mod_mul]
    rw [hexLoop, hexLoop_append, List.foldl_append, List.foldl_cons,
      List.foldl_nil, low, hexPush, hexValue_digit (Nat.mod_lt _ (by decide)),
      toNat_shiftLeft_or (Nat.mod_lt _ (by decide)), ih, high, split]
    have shifted : start.toNat * 16 ^ (count + 1) = 16 * (start.toNat * 16 ^ count) := by
      rw [pow_succ, ← Nat.mul_assoc, Nat.mul_comm]
    rw [shifted]
    omega

theorem hexWord_hex8 (word : UInt32) : hexWord (hex8 word) = word := by
  apply UInt32.toNat_inj.mp
  unfold hexWord hex8
  rw [toNat_foldl_hexLoop]
  have small := word.toNat_lt
  simp only [UInt32.toNat_ofNat]
  omega

theorem length_hexLoop (count : Nat) (word : UInt32) (written : List UInt8) :
    (hexLoop count word written).length = count + written.length := by
  induction count generalizing word written with
  | zero => rw [hexLoop, Nat.zero_add]
  | succ count ih =>
    rw [hexLoop, ih, List.length_cons]
    omega

@[simp]
theorem length_hex8 (word : UInt32) : (hex8 word).length = 8 := length_hexLoop 8 word []

theorem mem_hex8 {word : UInt32} {char : UInt8} (member : char ∈ hex8 word) :
    char ∈ ascii "0123456789abcdef" := by
  have every : ∀ (count : Nat) (word : UInt32) (written : List UInt8),
      (∀ char ∈ written, char ∈ ascii "0123456789abcdef") → ∀ char ∈ hexLoop count word written,
          char ∈ ascii "0123456789abcdef" := by
    intro count
    induction count with
    | zero =>
      intro word written digits
      exact digits
    | succ count ih =>
      intro word written digits
      refine ih _ _ ?_
      intro char charMember
      rcases List.mem_cons.mp charMember with isNew | isOld
      · have small : (word &&& 0xF).toNat < 16 := by
          rw [UInt32.toNat_and]
          exact Nat.lt_succ_of_le Nat.and_le_right
        rw [isNew, List.getD_eq_getElem _ _ (by exact small)]
        exact List.getElem_mem _
      · exact digits char isOld
  exact every 8 word [] (by simp) char member

end KnitOS.Lib
