import Mathlib.Order.Interval.Finset.Nat
import KnitOS.Lib.Runs
import KnitOS.Net.Ip

/-!
# Datagrams without holes

`ip_input_fragment` delivers a datagram when as many bytes are covered as the
last fragment says it has.  The run is followed with the fragments each entry
has stored since it was opened, and with what was delivered.
-/

namespace KnitOS.Net

open Lib

/-- A fragment by its position and its bytes. -/
abbrev Fragment : Type := Nat × List UInt8

/-- The fragment writes the position. -/
def Fragment.writes (fragment : Fragment) (pos : Nat) : Prop :=
  fragment.1 ≤ pos ∧ pos < fragment.1 + fragment.2.length

instance (fragment : Fragment) (pos : Nat) : Decidable (Fragment.writes fragment pos) :=
  inferInstanceAs (Decidable (_ ∧ _))

/-- A delivered datagram and the fragments it was made of. -/
structure Delivery where
  fragments : List Fragment
  payload : List UInt8

/-- Every byte was written by one of the fragments. -/
def Delivery.Complete (delivery : Delivery) : Prop :=
  ∀ pos < delivery.payload.length,
    ∃ fragment ∈ delivery.fragments, Fragment.writes fragment pos

instance (delivery : Delivery) : Decidable delivery.Complete :=
  inferInstanceAs (Decidable (∀ pos < _, _))

/-- The table with the fragments of each entry. -/
structure Reassembly where
  table : ReassTable
  stored : Fin 4 → List Fragment
  delivered : List Delivery

inductive ReassEvent where
  | packet (now : UInt32) (packet : List UInt8)
  | gc (now : UInt32)

namespace Reassembly

def init : Reassembly := ⟨reassemblyInit, fun _ => [], []⟩

/-- The fragments stored since the entry for a fragment was opened. -/
def fragmentsBefore (state : Reassembly) (header : IpHeader) (slot : Fin 4) : List Fragment :=
  if (state.table slot).collects header then state.stored slot else []

def input (state : Reassembly) (now : UInt32) (packet : List UInt8) : Reassembly :=
  let after := (ipInputFragment now packet state.table).2
  match fragmentOf packet with
  | none => { state with table := after }
  | some (header, payload) =>
    match reassEntryFor header (now + ipReassTimeoutMs) state.table with
    | none => { state with table := after }
    | some (slot, _) =>
      let fragments := state.fragmentsBefore header slot ++
        [(header.fragmentOffset, payload)]
      { table := after
        stored := Function.update state.stored slot fragments
        delivered :=
          match (ipInputFragment now packet state.table).1 with
          | .whole _ datagram => state.delivered ++ [⟨fragments, datagram⟩]
          | _ => state.delivered }

def step (state : Reassembly) : ReassEvent → Reassembly
  | .packet now packet => state.input now packet
  | .gc now => { state with table := ipReassemblyGc now state.table }

/-- Nothing was delivered with a hole. -/
def NoHoles (state : Reassembly) : Prop :=
  ∀ delivery ∈ state.delivered, delivery.Complete

instance (state : Reassembly) : Decidable state.NoHoles :=
  inferInstanceAs (Decidable (∀ delivery ∈ _, _))

end Reassembly

/-- A fragment agrees with its entry about the end of the datagram: it does
not reach past the length that is known, and when it is a last one, no earlier
fragment reached past its end. -/
def ReassEntry.Agrees (entry : ReassEntry) (fragments : List Fragment)
    (header : IpHeader) (payload : List UInt8) : Prop :=
  if header.moreFragments then
    entry.totalLen ≠ 0 →
      header.fragmentOffset + payload.length ≤ entry.totalLen
  else
    ∀ fragment ∈ fragments, fragment.2 ≠ [] →
      fragment.1 + fragment.2.length ≤ header.fragmentOffset + payload.length

instance (entry : ReassEntry) (fragments : List Fragment) (header : IpHeader)
    (payload : List UInt8) : Decidable (entry.Agrees fragments header payload) := by
  unfold ReassEntry.Agrees
  exact inferInstance

/-- The fragment in the packet, if there is one, agrees with its entry. -/
def Reassembly.InputAgrees (state : Reassembly) (now : UInt32) (packet : List UInt8) : Prop :=
  match fragmentOf packet with
  | none => True
  | some (header, payload) =>
    match reassEntryFor header (now + ipReassTimeoutMs) state.table with
    | none => True
    | some (slot, entry) =>
      entry.Agrees (state.fragmentsBefore header slot) header payload

instance (state : Reassembly) (now : UInt32) (packet : List UInt8) :
    Decidable (state.InputAgrees now packet) := by
  unfold Reassembly.InputAgrees
  split
  · exact inferInstance
  · split
    · exact inferInstance
    · exact inferInstance

def Reassembly.Permits (state : Reassembly) : ReassEvent → Prop
  | .packet now packet => state.InputAgrees now packet
  | .gc _ => True

instance Reassembly.Permits.decide (state : Reassembly) : ∀ event, Decidable (state.Permits event)
  | .packet now packet => inferInstanceAs (Decidable (state.InputAgrees now packet))
  | .gc _ => isTrue trivial

/-- The positions an entry has covered. -/
def ReassEntry.covered (entry : ReassEntry) : Finset Nat :=
  (Finset.range ipReassBuf).filter fun pos => entry.cov pos = true

/-- What an entry in use satisfies, given its fragments. -/
structure ReassEntry.Sound (entry : ReassEntry) (fragments : List Fragment) : Prop where
  counted : entry.receivedLen = entry.covered.card
  inBuffer : ∀ pos, entry.cov pos = true → pos < ipReassBuf
  written : ∀ pos, entry.cov pos = true → ∃ fragment ∈ fragments, Fragment.writes fragment pos
  ended : entry.totalLen ≠ 0 → ∀ pos, entry.cov pos = true → pos < entry.totalLen

variable {entry : ReassEntry}

theorem writeByte_counted {pos : Nat} (byte : UInt8)
    (inside : pos < ipReassBuf) (counted : entry.receivedLen = entry.covered.card) :
    (entry.writeByte pos byte).receivedLen = (entry.writeByte pos byte).covered.card := by
  unfold ReassEntry.writeByte
  dsimp only
  split
  · exact counted
  · rename_i new
    have grown : ReassEntry.covered
        { entry with
          buffer := Function.update entry.buffer pos byte
          cov := Function.update entry.cov pos true
          receivedLen := entry.receivedLen + 1 } =
        insert pos entry.covered := by
      ext other
      simp only [ReassEntry.covered, Finset.mem_filter, Finset.mem_range, Finset.mem_insert]
      by_cases same : other = pos
      · subst same
        simp [inside]
      · simp [same]
    have notCovered : pos ∉ entry.covered := by
      simp [ReassEntry.covered, new]
    change entry.receivedLen + 1 = _
    rw [grown, Finset.card_insert_of_notMem notCovered, counted]

theorem writeByte_cov (entry : ReassEntry) (pos : Nat) (byte : UInt8) (other : Nat) :
    (entry.writeByte pos byte).cov other = true ↔ entry.cov other = true ∨ other = pos := by
  unfold ReassEntry.writeByte
  dsimp only
  by_cases same : other = pos
  · subst same
    split
    · rename_i already
      simp [already]
    · simp
  · split
    · simp [same]
    · simp [same]

theorem writeBytes_spec : ∀ (payload : List UInt8) (pos : Nat) (entry : ReassEntry),
    pos + payload.length ≤ ipReassBuf → entry.receivedLen = entry.covered.card →
    (entry.writeBytes pos payload).receivedLen = (entry.writeBytes pos payload).covered.card ∧
      (entry.writeBytes pos payload).totalLen = entry.totalLen ∧
      ∀ other, (entry.writeBytes pos payload).cov other = true ↔
        entry.cov other = true ∨ Fragment.writes (pos, payload) other := by
  intro payload
  induction payload with
  | nil =>
    intro pos entry _ counted
    refine ⟨counted, rfl, ?_⟩
    intro other
    simp [ReassEntry.writeBytes, Fragment.writes]
  | cons byte rest ih =>
    intro pos entry inside counted
    rw [List.length_cons] at inside
    obtain ⟨restCounted, restTotal, restCov⟩ := ih (pos + 1) (entry.writeByte pos byte) (by omega)
      (writeByte_counted byte (by omega) counted)
    have sameTotal : (entry.writeByte pos byte).totalLen = entry.totalLen := by
      unfold ReassEntry.writeByte
      dsimp only
      split
      · rfl
      · rfl
    refine ⟨restCounted, restTotal.trans sameTotal, ?_⟩
    intro other
    change ((entry.writeByte pos byte).writeBytes (pos + 1) rest).cov other = true ↔ _
    rw [restCov, writeByte_cov]
    unfold Fragment.writes
    rw [List.length_cons]
    constructor
    · rintro ((before | here) | later)
      · exact Or.inl before
      · exact Or.inr (by dsimp only; omega)
      · exact Or.inr (by dsimp only at later ⊢; omega)
    · rintro (before | range)
      · exact Or.inl (Or.inl before)
      · dsimp only at range
        by_cases here : other = pos
        · exact Or.inl (Or.inr here)
        · exact Or.inr (by dsimp only; omega)

variable {header : IpHeader} {fragments : List Fragment}

theorem ReassEntry.Sound.store (sound : entry.Sound fragments) {payload : List UInt8}
    (agrees : entry.Agrees fragments header payload)
    (fits : header.fragmentOffset + payload.length ≤ ipReassBuf) :
    (entry.store header.fragmentOffset header.moreFragments payload).Sound
      (fragments ++ [(header.fragmentOffset, payload)]) := by
  obtain ⟨counted, sameTotal, cov⟩ :=
    writeBytes_spec payload header.fragmentOffset entry fits sound.counted
  have inBuffer : ∀ pos, (entry.writeBytes header.fragmentOffset payload).cov pos = true →
        pos < ipReassBuf := by
    intro pos covered
    rcases (cov pos).mp covered with before | now
    · exact sound.inBuffer pos before
    · exact Nat.lt_of_lt_of_le now.2 fits
  have written : ∀ pos, (entry.writeBytes header.fragmentOffset payload).cov pos = true →
        ∃ fragment ∈ fragments ++ [(header.fragmentOffset, payload)],
          Fragment.writes fragment pos := by
    intro pos covered
    rcases (cov pos).mp covered with before | now
    · obtain ⟨fragment, member, writes⟩ := sound.written pos before
      exact ⟨fragment, List.mem_append_left _ member, writes⟩
    · exact ⟨_, List.mem_append_right _ List.mem_cons_self, now⟩
  unfold ReassEntry.store
  unfold ReassEntry.Agrees at agrees
  dsimp only
  by_cases more : header.moreFragments = true
  · rw [if_pos more] at agrees ⊢
    refine ⟨counted, inBuffer, written, ?_⟩
    intro known pos covered
    rw [sameTotal] at known ⊢
    rcases (cov pos).mp covered with before | now
    · exact sound.ended known pos before
    · exact Nat.lt_of_lt_of_le now.2 (agrees known)
  · rw [if_neg more] at agrees ⊢
    refine ⟨counted, inBuffer, written, ?_⟩
    intro _ pos covered
    rcases (cov pos).mp covered with before | now
    · obtain ⟨fragment, member, writes⟩ := sound.written pos before
      have nonempty : fragment.2 ≠ [] := by
        intro empty
        have bounds := writes
        unfold Fragment.writes at bounds
        rw [empty, List.length_nil] at bounds
        omega
      exact Nat.lt_of_lt_of_le writes.2 (agrees fragment member nonempty)
    · exact now.2

theorem ReassEntry.Sound.complete (sound : entry.Sound fragments) (known : entry.totalLen ≠ 0)
    (enough : entry.totalLen ≤ entry.receivedLen) :
    Delivery.Complete ⟨fragments, entry.contents⟩ := by
  have inRange : entry.covered ⊆ Finset.range entry.totalLen := by
    intro pos member
    have covered := (Finset.mem_filter.mp member).2
    exact Finset.mem_range.mpr (sound.ended known pos covered)
  have all : entry.covered = Finset.range entry.totalLen := by
    refine Finset.eq_of_subset_of_card_le inRange ?_
    rw [Finset.card_range, ← sound.counted]
    exact enough
  intro pos inside
  have length : entry.contents.length = entry.totalLen := by
    simp [ReassEntry.contents]
  have member : pos ∈ entry.covered := by
    rw [all]
    exact Finset.mem_range.mpr (length ▸ inside)
  exact sound.written pos (Finset.mem_filter.mp member).2

/-- What every state of a run within the conditions satisfies. -/
structure Reassembly.Sound (state : Reassembly) : Prop where
  entries : ∀ slot, (state.table slot).used = true → (state.table slot).Sound (state.stored slot)
  noHoles : state.NoHoles

variable {state : Reassembly}

theorem Reassembly.Sound.entryFor (sound : state.Sound) {deadlineMs : UInt32} {slot : Fin 4}
    (chosen : reassEntryFor header deadlineMs state.table =
    some (slot, entry)) : entry.Sound (state.fragmentsBefore header slot) := by
  unfold reassEntryFor at chosen
  cases found : (List.finRange 4).find? fun slot =>
      (state.table slot).collects header with
  | some old =>
    rw [found] at chosen
    have collects := List.find?_some found
    cases Option.some.inj chosen
    unfold fragmentsBefore
    rw [if_pos collects]
    have used : (state.table slot).used = true := by
      unfold ReassEntry.collects at collects
      simp only [Bool.and_eq_true] at collects
      exact collects.1.1.1.1
    have before := sound.entries slot used
    exact ⟨before.counted, before.inBuffer, before.written, before.ended⟩
  | none =>
    rw [found] at chosen
    dsimp only at chosen
    cases free : (List.finRange 4).find? fun slot =>
        !(state.table slot).used with
    | none =>
      rw [free] at chosen
      cases chosen
    | some new =>
      rw [free] at chosen
      cases Option.some.inj chosen
      have unused : ¬ (state.table slot).collects header = true :=
        List.find?_eq_none.mp found slot (List.mem_finRange slot)
      unfold fragmentsBefore
      rw [if_neg unused]
      refine ⟨?_, ?_, ?_, ?_⟩
      · simp [ReassEntry.covered, ReassEntry.start]
      · intro pos covered
        cases covered
      · intro pos covered
        cases covered
      · intro _ pos covered
        cases covered

theorem storeFragment_sound (sound : entry.Sound fragments)
    {payload : List UInt8} (agrees : entry.Agrees fragments header payload) :
    ((storeFragment header payload entry).2.used = true →
        (storeFragment header payload entry).2.Sound
          (fragments ++ [(header.fragmentOffset, payload)])) ∧ ∀ whole datagram,
        (storeFragment header payload entry).1 = .whole whole datagram → Delivery.Complete
          ⟨fragments ++ [(header.fragmentOffset, payload)], datagram⟩ := by
  unfold storeFragment
  split
  · refine ⟨?_, ?_⟩
    · intro used
      cases used
    · intro whole datagram delivered
      cases delivered
  · rename_i fits
    have stored := sound.store agrees (Nat.le_of_not_lt fits)
    dsimp only
    split
    · refine ⟨fun _ => stored, ?_⟩
      intro whole datagram delivered
      cases delivered
    · rename_i finished
      rw [not_or, Nat.not_lt] at finished
      refine ⟨?_, ?_⟩
      · intro used
        cases used
      · intro whole datagram delivered
        cases delivered
        exact stored.complete finished.1 finished.2

theorem Reassembly.Sound.input (sound : state.Sound)
    {now : UInt32} {packet : List UInt8} (agrees : state.InputAgrees now packet) :
    (state.input now packet).Sound := by
  unfold InputAgrees at agrees
  unfold Reassembly.input ipInputFragment
  cases fragment : fragmentOf packet with
  | none => exact sound
  | some parts =>
    obtain ⟨header, payload⟩ := parts
    rw [fragment] at agrees
    dsimp only at agrees ⊢
    cases chosen : reassEntryFor header (now + ipReassTimeoutMs) state.table with
    | none => exact sound
    | some place =>
      obtain ⟨slot, entry⟩ := place
      rw [chosen] at agrees
      dsimp only at agrees ⊢
      obtain ⟨entrySound, complete⟩ := storeFragment_sound (sound.entryFor chosen) agrees
      refine ⟨?_, ?_⟩
      · intro other
        dsimp only
        by_cases same : other = slot
        · subst same
          rw [Function.update_self, Function.update_self]
          exact entrySound
        · rw [Function.update_of_ne same, Function.update_of_ne same]
          exact sound.entries other
      · intro delivery member
        dsimp only at member
        split at member
        · rename_i whole datagram delivered
          rcases List.mem_append.mp member with before | new
          · exact sound.noHoles delivery before
          · rw [List.mem_singleton.mp new]
            exact complete whole datagram delivered
        · exact sound.noHoles delivery member

theorem Reassembly.Sound.step (sound : state.Sound)
    (event : ReassEvent) (permitted : state.Permits event) : (state.step event).Sound := by
  cases event with
  | packet now packet => exact sound.input permitted
  | gc now =>
    refine ⟨?_, sound.noHoles⟩
    intro slot
    change (ipReassemblyGc now state.table slot).used = true →
      (ipReassemblyGc now state.table slot).Sound (state.stored slot)
    unfold ipReassemblyGc
    split
    · intro used
      cases used
    · exact sound.entries slot

/-- No datagram has a hole in a run in which the fragments of a datagram agree
about its end. -/
theorem noHoles_of_permitted {events : List ReassEvent}
    (permitted : AlongRun Reassembly.step Reassembly.Permits Reassembly.init events) :
    (runFrom Reassembly.step Reassembly.init events).NoHoles := by
  have start : Reassembly.init.Sound := by
    refine ⟨?_, ?_⟩
    · intro slot used
      cases used
    · intro delivery member
      cases member
  exact (permitted.invariant (fun _ event sound permitted =>
    sound.step event permitted) start).noHoles

/-- A fragment of one datagram, as `ip_create_packet_ex` makes it. -/
def fragmentPacket (flagsFrag : UInt16) (payload : List UInt8) : List UInt8 :=
  (ipCreatePacketEx 1600 1 2 17 5 flagsFrag payload).getD []

/-- Two fragments of a datagram, the last one first. -/
theorem noHoles_of_two_fragments : (runFrom Reassembly.step Reassembly.init
      [.packet 0 (fragmentPacket 1 [9, 10]),
        .packet 0 (fragmentPacket ipFlagMf [1, 2, 3, 4, 5, 6, 7, 8])]).NoHoles :=
  noHoles_of_permitted (by decide +kernel)

/-- The bytes 8 to 23 arrive, and then a last fragment that ends at 16: the
datagram is delivered although its first eight bytes never arrived. -/
theorem not_noHoles_of_overlap : ¬ (runFrom Reassembly.step Reassembly.init
      [.packet 0 (fragmentPacket (ipFlagMf ||| 1) (List.replicate 16 1)),
        .packet 0 (fragmentPacket 1 (List.replicate 8 2))]).NoHoles := by
  decide +kernel

end KnitOS.Net
