import KnitOS.Lib.Ring
import KnitOS.Tasks.Descriptors

/-!
# The ring of a pipe

The loops of `pipe_read` and `pipe_write`, one round at a time.  The `head` of
the ring is the `tail` of the source.
-/

namespace KnitOS.Tasks

open Lib

/-- A ring with the bytes that went into it and came out of it. -/
structure PipeRun where
  ring : RingBuffer UInt8
  written : List UInt8
  taken : List UInt8

/-- A round of a reader, or of a writer that sees some number of readers. -/
inductive PipeRound where
  | read
  | write (readers : Int) (byte : UInt8)

namespace PipeRun

/-- A round that finds no byte, no reader or no room changes nothing: the call
yields or returns. -/
def step (run : PipeRun) : PipeRound → PipeRun
  | .read =>
    if run.ring.count = 0 then run
    else { run with
      ring := run.ring.pop kpipeBuf
      taken := run.taken ++ [run.ring.slots run.ring.head] }
  | .write readers byte =>
    if readers = 0 ∨ run.ring.count = kpipeBuf then run
    else { run with
      ring := run.ring.push kpipeBuf byte
      written := run.written ++ [byte] }

/-- The ring holds what was written and not taken yet, in that order. -/
def InOrder (run : PipeRun) : Prop :=
  run.ring.Valid kpipeBuf ∧ run.written = run.taken ++ run.ring.contents kpipeBuf

theorem InOrder.step {run : PipeRun} (inOrder : run.InOrder) (round : PipeRound) :
    (run.step round).InOrder := by
  have ⟨valid, written⟩ := inOrder
  cases round with
  | read =>
    by_cases empty : run.ring.count = 0
    · rwa [PipeRun.step, if_pos empty]
    · have filled := Nat.pos_of_ne_zero empty
      rw [PipeRun.step, if_neg empty]
      refine ⟨valid.pop filled, ?_⟩
      simp [written, RingBuffer.contents_eq_cons filled valid.head]
  | write readers byte =>
    by_cases stuck : readers = 0 ∨ run.ring.count = kpipeBuf
    · rwa [PipeRun.step, if_pos stuck]
    · have room := valid.count.lt_of_ne (not_or.mp stuck).2
      rw [PipeRun.step, if_neg stuck]
      refine ⟨valid.push room byte, ?_⟩
      simp [written, valid.contents_push room]

/-- However the rounds of calls alternate, bytes come out as they went in. -/
theorem inOrder_run (slots : Nat → UInt8) (rounds : List PipeRound) :
    (runFrom step ⟨⟨slots, 0, 0, 0⟩, [], []⟩ rounds).InOrder := by
  refine runFrom_invariant (fun _ round inOrder => inOrder.step round) ?_ rounds
  exact ⟨⟨Nat.zero_lt_succ _, Nat.zero_le _, rfl⟩, rfl⟩

variable {run : PipeRun}

theorem runFrom_read (valid : run.ring.Valid kpipeBuf) (size : Nat) :
    (runFrom step run (List.replicate size .read)).ring.contents kpipeBuf =
        (run.ring.contents kpipeBuf).drop size ∧
      (runFrom step run (List.replicate size .read)).taken =
        run.taken ++ (run.ring.contents kpipeBuf).take size := by
  induction size generalizing run with
  | zero => exact ⟨rfl, (List.append_nil _).symm⟩
  | succ size ih =>
    rw [List.replicate_succ, runFrom_cons]
    by_cases empty : run.ring.count = 0
    · rw [PipeRun.step, if_pos empty]
      have nothing : run.ring.contents kpipeBuf = [] := by simp [RingBuffer.contents, empty]
      simpa [nothing] using ih valid
    · have filled := Nat.pos_of_ne_zero empty
      rw [PipeRun.step, if_neg empty]
      have rest := @ih { run with
        ring := run.ring.pop kpipeBuf
        taken := run.taken ++ [run.ring.slots run.ring.head] } (valid.pop filled)
      rw [rest.1, rest.2, RingBuffer.contents_eq_cons filled valid.head]
      simp

theorem runFrom_write (valid : run.ring.Valid kpipeBuf) (readers : Int) (data : List UInt8) :
    (runFrom step run (data.map (.write readers))).ring.contents kpipeBuf =
      run.ring.contents kpipeBuf ++ if readers = 0 then [] else
        data.take (kpipeBuf - (run.ring.contents kpipeBuf).length) := by
  induction data generalizing run with
  | nil => simp
  | cons byte rest ih =>
    rw [List.map_cons, runFrom_cons]
    by_cases stuck : readers = 0 ∨ run.ring.count = kpipeBuf
    · rw [PipeRun.step, if_pos stuck, ih valid, RingBuffer.length_contents]
      rcases stuck with none | full
      · rw [if_pos none, if_pos none]
      · rw [full, Nat.sub_self, List.take_zero, List.take_zero]
    · have room := valid.count.lt_of_ne (not_or.mp stuck).2
      rw [PipeRun.step, if_neg stuck, ih (valid.push room byte), valid.contents_push room,
        if_neg (not_or.mp stuck).1, if_neg (not_or.mp stuck).1, List.append_assoc]
      have left : kpipeBuf - run.ring.count = kpipeBuf - (run.ring.count + 1) + 1 := by omega
      rw [List.length_append, RingBuffer.length_contents, List.length_singleton, left]
      rfl

end PipeRun

section

variable {handle : Int} {system : System} {index : Fin kpipeMax} {run : PipeRun}
  (found : pipeOf handle system = some index) (valid : run.ring.Valid kpipeBuf)
  (held : run.ring.contents kpipeBuf = (system.pipes index).data)

include found valid held

/-- A read is as many rounds as bytes are asked for. -/
theorem pipeRead_eq_rounds (size : Nat) :
    ((pipeRead handle size system).2.pipes index).data =
        (runFrom PipeRun.step run (List.replicate size .read)).ring.contents kpipeBuf ∧
      ∀ bytes, (pipeRead handle size system).1 = .returns bytes →
        (runFrom PipeRun.step run (List.replicate size .read)).taken = run.taken ++ bytes := by
  obtain ⟨left, taken⟩ := PipeRun.runFrom_read valid size
  rw [left, taken, held]
  unfold pipeRead
  simp only [found]
  split
  · rename_i zero
    simp [zero]
  · split
    · rename_i empty
      split <;> simp [empty]
    · simp [setPipe]

/-- A write is a round for each byte; those that find no room are made again. -/
theorem pipeWrite_eq_rounds (data : List UInt8) :
    ((pipeWrite handle data system).2.pipes index).data =
      (runFrom PipeRun.step run
        (data.map (.write (system.pipes index).readers))).ring.contents kpipeBuf := by
  rw [PipeRun.runFrom_write valid, held]
  unfold pipeWrite
  simp only [found]
  split
  · rename_i empty
    simp [empty]
  · split
    · simp
    · split <;> simp [setPipe]

end

end KnitOS.Tasks
