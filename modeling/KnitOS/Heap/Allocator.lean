import KnitOS.Lib.Memory
import KnitOS.Lib.Runs

/-!
# The kernel heap

`heap.cpp`: a first-fit list of blocks in an arena of 512 KB, with the headers
in the same bytes as the payloads.  Addresses and sizes are natural numbers
below `2 ^ 32`; 0 is the null pointer.
-/

namespace KnitOS.Heap

open Lib

abbrev heapSize : Nat := 524288
abbrev heapAlign : Nat := 8

/-- `sizeof(heap_block)` on the 32-bit kernel. -/
abbrev headerSize : Nat := 12

abbrev guardLimit : Nat := 100000

/-- Where `heap_arena` lies. -/
structure Arena where
  base : Nat
  base_pos : 0 < base
  base_fits : base + heapSize ≤ 2 ^ 32

def Arena.stop (arena : Arena) : Nat :=
  arena.base + heapSize

structure HeapState where
  memory : Memory
  head : Nat
  ready : Bool

def blockSize (memory : Memory) (block : Nat) : Nat :=
  memory.word block

def blockFree (memory : Memory) (block : Nat) : Bool :=
  memory (block + 4) ≠ 0

def blockNext (memory : Memory) (block : Nat) : Nat :=
  memory.word (block + 8)

def setSize (memory : Memory) (block value : Nat) : Memory :=
  memory.setWord block value

def setFree (memory : Memory) (block : Nat) (value : UInt8) : Memory :=
  memory.set (block + 4) value

def setNext (memory : Memory) (block value : Nat) : Memory :=
  memory.setWord (block + 8) value

def alignUp (size : Nat) : Nat :=
  let sum := (size + (heapAlign - 1)) % 2 ^ 32
  sum - sum % heapAlign

def heapInit (arena : Arena) (heap : HeapState) : HeapState :=
  if heap.ready then
    heap
  else
    let memory := setSize heap.memory arena.base (heapSize - headerSize)
    let memory := setFree memory arena.base 1
    let memory := setNext memory arena.base 0
    { memory, head := arena.base, ready := true }

/-- `heap_coalesce` with the rounds that its guard still allows. -/
def coalesceLoop : Nat → Nat → Memory → Memory
  | 0, _, memory => memory
  | guard + 1, cur, memory =>
    let next := blockNext memory cur
    if cur = 0 ∨ next = 0 then
      memory
    else if blockFree memory cur ∧ blockFree memory next then
      let memory := setSize memory cur
        (blockSize memory cur + (headerSize + blockSize memory next))
      let memory := setNext memory cur
        (blockNext memory (blockNext memory cur))
      coalesceLoop guard cur memory
    else
      coalesceLoop guard next memory

/-- `malloc` at the block it chose: the rest is split off if it is large
enough. -/
def takeBlock (size cur : Nat) (memory : Memory) : Memory :=
  let remain := blockSize memory cur - size
  let memory :=
    if headerSize + heapAlign < remain then
      let split := cur + headerSize + size
      let memory := setSize memory split (remain - headerSize)
      let memory := setFree memory split 1
      let memory := setNext memory split (blockNext memory cur)
      let memory := setNext memory cur split
      setSize memory cur size
    else
      memory
  setFree memory cur 0

/-- The search of `malloc`; the pointer it returns, and the memory. -/
def mallocLoop (size : Nat) : Nat → Nat → Memory → Nat × Memory
  | 0, _, memory => (0, memory)
  | guard + 1, cur, memory =>
    if cur = 0 then
      (0, memory)
    else if blockFree memory cur ∧ size ≤ blockSize memory cur then
      (cur + headerSize, takeBlock size cur memory)
    else
      mallocLoop size guard (blockNext memory cur) memory

def malloc (arena : Arena) (size : Nat) (heap : HeapState) : Nat × HeapState :=
  if size = 0 then
    (0, heap)
  else
    let heap := heapInit arena heap
    if heapSize < size then
      (0, heap)
    else if heapSize - headerSize < alignUp size then
      (0, heap)
    else
      let found := mallocLoop (alignUp size) guardLimit heap.head heap.memory
      (found.1, { heap with memory := found.2 })

def free (arena : Arena) (ptr : Nat) (heap : HeapState) : HeapState :=
  if ptr = 0 then
    heap
  else
    let heap := heapInit arena heap
    let block := ptr - headerSize
    if block < arena.base ∨ arena.stop ≤ block then
      heap
    else
      { heap with
        memory := coalesceLoop guardLimit heap.head
          (setFree heap.memory block 1) }

/-- The loop of `calloc`, from byte `position` on. -/
def clearLoop (ptr : Nat) : Nat → Nat → Memory → Memory
  | 0, _, memory => memory
  | count + 1, position, memory =>
    clearLoop ptr count (position + 1) (memory.set (ptr + position) 0)

def calloc (arena : Arena) (nmemb size : Nat) (heap : HeapState) : Nat × HeapState :=
  let total := nmemb * size % 2 ^ 32
  let found := malloc arena total heap
  if found.1 = 0 then
    found
  else
    (found.1, { found.2 with
      memory := clearLoop found.1 total 0 found.2.memory })

/-- The copying loop of `realloc`: at most as many bytes as the old block has,
whose header is read in every round. -/
def copyLoop (block dst src : Nat) : Nat → Nat → Memory → Memory
  | 0, _, memory => memory
  | count + 1, position, memory =>
    if position < blockSize memory block then
      copyLoop block dst src count (position + 1)
        (memory.set (dst + position) (memory (src + position)))
    else
      memory

def realloc (arena : Arena) (ptr size : Nat) (heap : HeapState) : Nat × HeapState :=
  if ptr = 0 then
    malloc arena size heap
  else if size = 0 then
    (0, free arena ptr heap)
  else
    let block := ptr - headerSize
    if size ≤ blockSize heap.memory block then
      (ptr, heap)
    else
      let found := malloc arena size heap
      if found.1 = 0 then
        found
      else
        let copied := copyLoop block found.1 ptr size 0 found.2.memory
        (found.1, free arena ptr { found.2 with memory := copied })

/-- The sum of `heap_get_stats`, modulo `2 ^ 32`. -/
def freeLoop : Nat → Nat → Nat → Memory → Nat
  | 0, _, sum, _ => sum
  | guard + 1, cur, sum, memory =>
    if cur = 0 then
      sum
    else
      let sum :=
        if blockFree memory cur then
          (sum + (blockSize memory cur + headerSize)) % 2 ^ 32
        else
          sum
      freeLoop guard (blockNext memory cur) sum memory

structure HeapStats where
  total : Nat
  used : Nat
  freeBytes : Nat
deriving DecidableEq

def heapGetStats (arena : Arena) (heap : HeapState) : HeapStats :=
  let heap := heapInit arena heap
  let freeTotal := freeLoop guardLimit heap.head 0 heap.memory
  { total := heapSize
    used := if freeTotal ≤ heapSize then heapSize - freeTotal else 0
    freeBytes := freeTotal }

/-- A block as the list shows it. -/
structure Listed where
  address : Nat
  size : Nat
  free : Bool
deriving DecidableEq

def listedAt (memory : Memory) (block : Nat) : Listed where
  address := block
  size := blockSize memory block
  free := blockFree memory block

/-- The blocks met by following the next pointers. -/
def walk : Nat → Nat → Memory → List Listed
  | 0, _, _ => []
  | guard + 1, cur, memory =>
    if cur = 0 then
      []
    else
      listedAt memory cur :: walk guard (blockNext memory cur) memory

/-- The block list of a heap, which its first call sets up. -/
def blockList (arena : Arena) (heap : HeapState) : List Listed :=
  let heap := heapInit arena heap
  walk guardLimit heap.head heap.memory

inductive Request where
  | malloc (size : UInt32)
  | calloc (nmemb size : UInt32)
  | realloc (ptr : Nat) (size : UInt32)
  | free (ptr : Nat)
  | store (address : Nat) (byte : UInt8)

/-- A live allocation: the pointer and the size asked for. -/
structure Allocation where
  ptr : Nat
  requested : Nat
deriving DecidableEq

structure Client where
  heap : HeapState
  live : List Allocation

def released (ptr : Nat) (live : List Allocation) : List Allocation :=
  live.filter (·.ptr ≠ ptr)

/-- The allocations after a call that returns a pointer to a block of the size
asked for, or the null pointer. -/
def granted (ptr requested : Nat) (live : List Allocation) : List Allocation :=
  if ptr = 0 then live else ⟨ptr, requested⟩ :: live

/-- `realloc` with the null pointer allocates, with size 0 it frees; otherwise
it frees the old block only when it returns another one. -/
def reallocated (ptr size answer : Nat) (live : List Allocation) : List Allocation :=
  if ptr = 0 then
    granted answer size live
  else if size = 0 then
    released ptr live
  else if answer = 0 then
    live
  else
    granted answer size (released ptr live)

def Client.step (arena : Arena) (client : Client) : Request → Client
  | .malloc size =>
    let answer := malloc arena size.toNat client.heap
    ⟨answer.2, granted answer.1 size.toNat client.live⟩
  | .calloc nmemb size =>
    let answer := calloc arena nmemb.toNat size.toNat client.heap
    ⟨answer.2, granted answer.1 (nmemb.toNat * size.toNat) client.live⟩
  | .realloc ptr size =>
    let answer := realloc arena ptr size.toNat client.heap
    ⟨answer.2, reallocated ptr size.toNat answer.1 client.live⟩
  | .free ptr =>
    ⟨free arena ptr client.heap, released ptr client.live⟩
  | .store address byte =>
    ⟨{ client.heap with memory := client.heap.memory.set address byte },
      client.live⟩

end KnitOS.Heap
