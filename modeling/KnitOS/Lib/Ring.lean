import Mathlib.Data.Nat.ModEq

/-!
# Ring buffers

The filled slots of a ring are the `count` slots from `head` on; the next
element goes to `tail`.
-/

namespace KnitOS.Lib

structure RingBuffer (α : Type) where
  slots : Nat → α
  head : Nat
  tail : Nat
  count : Nat

namespace RingBuffer

variable {α : Type} {size : Nat} {ring : RingBuffer α}

/-- The elements, the oldest first. -/
def contents (size : Nat) (ring : RingBuffer α) : List α :=
  (List.range ring.count).map fun place => ring.slots ((ring.head + place) % size)

def push (size : Nat) (ring : RingBuffer α) (element : α) : RingBuffer α :=
  { ring with
    slots := Function.update ring.slots ring.tail element
    tail := (ring.tail + 1) % size
    count := ring.count + 1 }

def pop (size : Nat) (ring : RingBuffer α) : RingBuffer α :=
  { ring with
    head := (ring.head + 1) % size
    count := ring.count - 1 }

/-- The indices of a ring with `size` slots belong together. -/
structure Valid (size : Nat) (ring : RingBuffer α) : Prop where
  head : ring.head < size
  count : ring.count ≤ size
  tail : ring.tail = (ring.head + ring.count) % size

theorem length_contents : (ring.contents size).length = ring.count := by
  simp [contents]

theorem Valid.push (valid : ring.Valid size) (room : ring.count < size) (element : α) :
    (ring.push size element).Valid size := by
  refine ⟨valid.head, room, ?_⟩
  simp only [RingBuffer.push, valid.tail, Nat.mod_add_mod, Nat.add_assoc]

theorem Valid.contents_push (valid : ring.Valid size) (room : ring.count < size) (element : α) :
    (ring.push size element).contents size = ring.contents size ++ [element] := by
  simp only [contents, RingBuffer.push, List.range_succ, List.map_append,
    List.map_singleton, valid.tail, Function.update_self]
  congr 1
  refine List.map_congr_left fun place member => Function.update_of_ne ?_ _ _
  intro same
  have filled : place < ring.count := List.mem_range.mp member
  have equal : place ≡ ring.count [MOD size] := Nat.ModEq.add_left_cancel' _ same
  exact filled.ne (equal.eq_of_lt_of_lt (filled.trans room) room)

theorem Valid.pop (valid : ring.Valid size) (filled : 0 < ring.count) :
    (ring.pop size).Valid size := by
  have bounded := valid.count
  refine ⟨Nat.mod_lt _ (by omega), (Nat.sub_le _ _).trans bounded, ?_⟩
  simp only [RingBuffer.pop, Nat.mod_add_mod, valid.tail]
  congr 1
  omega

theorem contents_eq_cons (filled : 0 < ring.count) (inside : ring.head < size) :
    ring.contents size = ring.slots ring.head :: (ring.pop size).contents size := by
  obtain ⟨count, isSucc⟩ := Nat.exists_eq_add_of_lt filled
  simp only [contents, RingBuffer.pop, isSucc, Nat.zero_add, Nat.add_sub_cancel,
    List.range_succ_eq_map, List.map_cons, List.map_map, Nat.add_zero,
    Nat.mod_eq_of_lt inside]
  congr 1
  refine List.map_congr_left fun place _ => ?_
  simp only [Function.comp_apply, Nat.mod_add_mod]
  congr 2
  omega

end RingBuffer

end KnitOS.Lib
