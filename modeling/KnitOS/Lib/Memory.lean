import Mathlib.Algebra.Ring.Nat

/-!
# A memory of bytes

Bytes at addresses and little-endian words of 32 bits in them.  A write is seen
where it was made and nowhere else.
-/

namespace KnitOS.Lib

abbrev Memory : Type := Nat → UInt8

namespace Memory

def set (memory : Memory) (address : Nat) (byte : UInt8) : Memory :=
  fun other => if other = address then byte else memory other

/-- The bytes from an address on. -/
def slice (memory : Memory) (start size : Nat) : { bytes : List UInt8 // bytes.length = size } :=
  ⟨(List.range size).map fun index => memory (start + index), by simp⟩

/-- The memory with bytes stored at its start. -/
def store (memory : Memory) (bytes : List UInt8) : Memory :=
  fun index => bytes.getD index (memory index)

def word (memory : Memory) (address : Nat) : Nat :=
  (memory address).toNat + 256 * ((memory (address + 1)).toNat +
    256 * ((memory (address + 2)).toNat +
      256 * (memory (address + 3)).toNat))

/-- The memory with a word stored, modulo `2 ^ 32`. -/
def setWord (memory : Memory) (address value : Nat) : Memory :=
  (((memory.set address (UInt8.ofNat value)).set (address + 1)
    (UInt8.ofNat (value / 256))).set (address + 2)
      (UInt8.ofNat (value / 65536))).set (address + 3)
        (UInt8.ofNat (value / 16777216))

@[simp]
theorem set_same (memory : Memory) (address : Nat) (byte : UInt8) :
    memory.set address byte address = byte := if_pos rfl

variable {address : Nat}

theorem set_of_ne (memory : Memory) {other : Nat} (byte : UInt8)
    (different : other ≠ address) : memory.set address byte other = memory other := if_neg different

/-- Two memories agree on the addresses from `start` to before `stop`. -/
def AgreeOn (first second : Memory) (start stop : Nat) : Prop :=
  ∀ address, start ≤ address → address < stop → first address = second address

variable {start stop : Nat} {first second : Memory}

theorem AgreeOn.trans {third : Memory}
    (agree : AgreeOn first second start stop) (agree' : AgreeOn second third start stop) :
    AgreeOn first third start stop := fun address lower upper =>
  (agree address lower upper).trans (agree' address lower upper)

theorem AgreeOn.mono {start' stop' : Nat}
    (agree : AgreeOn first second start stop) (later : start ≤ start') (earlier : stop' ≤ stop) :
    AgreeOn first second start' stop' := fun address lower upper =>
  agree address (Nat.le_trans later lower) (Nat.lt_of_lt_of_le upper earlier)

theorem word_congr (agree : AgreeOn first second address (address + 4)) :
    first.word address = second.word address := by
  unfold word
  rw [agree address (by omega) (by omega), agree (address + 1) (by omega) (by omega),
    agree (address + 2) (by omega) (by omega), agree (address + 3) (by omega) (by omega)]

theorem word_lt (memory : Memory) (address : Nat) : memory.word address < 2 ^ 32 := by
  have first := (memory address).toNat_lt
  have second := (memory (address + 1)).toNat_lt
  have third := (memory (address + 2)).toNat_lt
  have fourth := (memory (address + 3)).toNat_lt
  unfold word
  omega

theorem set_agreeOn (memory : Memory) (byte : UInt8) (outside : address < start ∨ stop ≤ address) :
    AgreeOn (memory.set address byte) memory start stop :=
  fun _ _ _ => set_of_ne memory byte (by omega)

theorem setWord_agreeOn (memory : Memory)
    (value : Nat) (outside : address + 4 ≤ start ∨ stop ≤ address) :
    AgreeOn (memory.setWord address value) memory start stop := by
  intro other lower upper
  unfold setWord
  rw [set_of_ne _ _ (by omega), set_of_ne _ _ (by omega),
    set_of_ne _ _ (by omega), set_of_ne _ _ (by omega)]

theorem word_setWord (memory : Memory) {value : Nat}
    (small : value < 2 ^ 32) : (memory.setWord address value).word address = value := by
  have first : (memory.setWord address value) address = UInt8.ofNat value := by
    unfold setWord
    rw [set_of_ne _ _ (by omega), set_of_ne _ _ (by omega), set_of_ne _ _ (by omega), set_same]
  have second : (memory.setWord address value) (address + 1) = UInt8.ofNat (value / 256) := by
    unfold setWord
    rw [set_of_ne _ _ (by omega), set_of_ne _ _ (by omega), set_same]
  have third : (memory.setWord address value) (address + 2) = UInt8.ofNat (value / 65536) := by
    unfold setWord
    rw [set_of_ne _ _ (by omega), set_same]
  have fourth : (memory.setWord address value) (address + 3) = UInt8.ofNat (value / 16777216) := by
    unfold setWord
    rw [set_same]
  unfold word
  rw [first, second, third, fourth]
  simp only [UInt8.toNat_ofNat']
  omega

end Memory

end KnitOS.Lib
