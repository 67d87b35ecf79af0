import KnitOS.Net.TcpEvents

/-!
# Sequence numbers shifted

`tcp_handle_packet` compares an acknowledgement number with `send_una`, and
with the ends of the queued segments, as plain numbers.
-/

namespace KnitOS.Net

def Queued.shift (shift : UInt32) (entry : Queued) : Queued :=
  { entry with seq := entry.seq + shift }

def Conn.shift (shift : UInt32) (conn : Conn) : Conn :=
  { conn with
    sendSeq := conn.sendSeq + shift
    sendUna := conn.sendUna + shift
    queue := conn.queue.map (Queued.shift shift) }

def Outgoing.shift (shift : UInt32) (outgoing : Outgoing) : Outgoing :=
  { outgoing with
    segment := { outgoing.segment with seqNum := outgoing.segment.seqNum + shift } }

def Endpoint.shift (shift : UInt32) (endpoint : Endpoint) : Endpoint :=
  { endpoint with
    conn := endpoint.conn.shift shift
    wire := endpoint.wire.map (Outgoing.shift shift) }

/-- The segment of a peer that counts from another start of our numbers. -/
def Segment.shiftAck (shift : UInt32) (segment : Segment) : Segment :=
  { segment with ackNum := segment.ackNum + shift }

/-- The shift does not change the outcome of the comparisons. -/
def ComparesAlike (shift : UInt32) (segment : Segment) (conn : Conn) : Prop :=
  segment.acknowledges = true →
    (conn.sendUna < segment.ackNum ↔ conn.sendUna + shift < segment.ackNum + shift) ∧
    (conn.sendUna < segment.ackNum → ∀ entry ∈ conn.queue,
      (segment.ackNum ≤ entry.finish ↔ segment.ackNum + shift ≤ entry.finish + shift))

@[simp] theorem shift_sendUna (shift : UInt32) (conn : Conn) :
    (conn.shift shift).sendUna = conn.sendUna + shift := rfl

@[simp] theorem shift_queue (shift : UInt32) (conn : Conn) :
    (conn.shift shift).queue = conn.queue.map (Queued.shift shift) := rfl

section

variable (shift : UInt32) (segment : Segment) (endpoint : Endpoint)

theorem tcpSend_shift (seqNum ackNum : UInt32) (flags : UInt8) (payload : List UInt8) :
    (endpoint.shift shift).tcpSend (seqNum + shift) ackNum flags payload =
      (endpoint.tcpSend seqNum ackNum flags payload).shift shift := by
  unfold Endpoint.tcpSend
  split
  · rfl
  · simp [Endpoint.shift, Conn.shift, Outgoing.shift]

theorem sendAck_shift {endpoint shifted : Endpoint} (isShifted : shifted = endpoint.shift shift) :
    shifted.sendAck = endpoint.sendAck.shift shift := by
  subst isShifted
  exact tcpSend_shift shift endpoint endpoint.conn.sendSeq endpoint.conn.recvSeq tcpFlagAck []

theorem ite_shift {same same' : Prop} [Decidable same] [Decidable same']
    (alike : same' ↔ same) {yes no yes' no' : Endpoint} (shiftYes : yes' = yes.shift shift)
    (shiftNo : no' = no.shift shift) :
    (if same' then yes' else no') = (if same then yes else no).shift shift := by
  rw [apply_ite (Endpoint.shift shift), ← shiftYes, ← shiftNo]
  exact if_congr alike rfl rfl

theorem handleSyn_shift : handleSyn (segment.shiftAck shift) (endpoint.shift shift) =
    (handleSyn segment endpoint).shift shift :=
  ite_shift shift Iff.rfl (sendAck_shift shift rfl) rfl

theorem handleData_shift : handleData (segment.shiftAck shift) (endpoint.shift shift) =
    (handleData segment endpoint).shift shift :=
  ite_shift shift Iff.rfl (sendAck_shift shift rfl) rfl

theorem handleFin_shift : handleFin (segment.shiftAck shift) (endpoint.shift shift) =
    (handleFin segment endpoint).shift shift := by
  have closes : ∀ endpoint : Endpoint,
    (endpoint.shift shift).setConn (tcpConnectionClose (endpoint.shift shift).conn) =
      (endpoint.setConn (tcpConnectionClose endpoint.conn)).shift shift := fun _ => rfl
  refine ite_shift shift Iff.rfl (ite_shift shift Iff.rfl (sendAck_shift shift rfl)
    (ite_shift shift Iff.rfl ?_ rfl)) rfl
  rw [← closes, ← sendAck_shift shift rfl]
  rfl

theorem ackState_shift (conn : Conn) : ackState (segment.shiftAck shift) (conn.shift shift) =
    (ackState segment conn).shift shift := by
  unfold ackState
  by_cases received : conn.state = .synReceived
  · simp [Conn.shift, received]
  · by_cases waits : conn.state = .finWait1 ∧ segment.ackNum = conn.sendSeq
    · simp [Conn.shift, Segment.shiftAck, waits]
    · simp [Conn.shift, Segment.shiftAck, received, waits]

theorem growWindow_shift (bytes : UInt32) (conn : Conn) :
    growWindow bytes (conn.shift shift) = (growWindow bytes conn).shift shift := by
  unfold growWindow
  split <;> rename_i slow
  · rw [if_pos (show conn.inSlowStart = true from slow)]
    rfl
  · rw [if_neg (show ¬ conn.inSlowStart = true from slow)]
    rfl

theorem finish_shift (entry : Queued) : (entry.shift shift).finish = entry.finish + shift := by
  simp only [Queued.finish, Queued.shift]
  grind

theorem queue_shift_iff {ackNum : UInt32} {queue : List Queued} :
    (queue.map (Queued.shift shift)).filter (fun entry => decide (ackNum + shift ≤ entry.finish)) =
      (queue.filter fun entry => decide (ackNum ≤ entry.finish)).map (Queued.shift shift) ↔
    ∀ entry ∈ queue, (ackNum ≤ entry.finish ↔ ackNum + shift ≤ entry.finish + shift) := by
  have injective : Function.Injective (Queued.shift shift) := by
    intro first second equal
    simp only [Queued.shift, Queued.mk.injEq] at equal
    obtain ⟨seq, rest⟩ := equal
    have : first.seq = second.seq := by grind
    cases first
    cases second
    simp_all
  rw [List.filter_map, (List.map_injective_iff.mpr injective).eq_iff]
  constructor
  · intro same entry member
    have kept := congrArg (entry ∈ ·) same
    simpa [member, finish_shift, iff_comm] using kept
  · intro alike
    refine List.filter_congr fun entry member => ?_
    simp [finish_shift, alike entry member]

theorem advanceUna_shift_iff {ackNum : UInt32} {conn : Conn} :
    (advanceUna (ackNum + shift) (conn.shift shift)).sendUna =
        (advanceUna ackNum conn).sendUna + shift ∧
      (advanceUna (ackNum + shift) (conn.shift shift)).queue =
        (advanceUna ackNum conn).queue.map (Queued.shift shift) ↔
    (conn.sendUna < ackNum ↔ conn.sendUna + shift < ackNum + shift) ∧
      (conn.sendUna < ackNum → ∀ entry ∈ conn.queue,
        (ackNum ≤ entry.finish ↔ ackNum + shift ≤ entry.finish + shift)) := by
  have cancel : ∀ first second : UInt32, first + shift = second + shift ↔ first = second := by
    grind
  rcases advanceUna_eq ackNum conn with ⟨old, isNext⟩ | ⟨new, _, _, isNext⟩ <;>
    rcases advanceUna_eq (ackNum + shift) (conn.shift shift) with
      ⟨old', isNext'⟩ | ⟨new', _, _, isNext'⟩ <;>
    rw [shift_sendUna] at * <;> rw [isNext, isNext']
  · simp [old, old']
  · have moved : ackNum ≠ conn.sendUna := by
      rintro rfl
      exact absurd new' (UInt32.lt_irrefl _)
    simp [old, new', cancel, moved]
  · have moved : conn.sendUna ≠ ackNum := by
      rintro rfl
      exact absurd new (UInt32.lt_irrefl _)
    simp [new, old', cancel, moved]
  · simp only [new, new', shift_queue, true_and, true_implies]
    exact queue_shift_iff shift

theorem advanceUna_shift {ackNum : UInt32} {conn : Conn}
    (una : conn.sendUna < ackNum ↔ conn.sendUna + shift < ackNum + shift)
    (queue : conn.sendUna < ackNum → ∀ entry ∈ conn.queue,
      (ackNum ≤ entry.finish ↔ ackNum + shift ≤ entry.finish + shift)) :
    advanceUna (ackNum + shift) (conn.shift shift) = (advanceUna ackNum conn).shift shift := by
  have bytes : ackNum + shift - (conn.sendUna + shift) = ackNum - conn.sendUna := by grind
  unfold advanceUna
  by_cases new : conn.sendUna < ackNum
  · have kept := (queue_shift_iff shift).mpr (queue new)
    rw [shift_sendUna, if_pos new, if_pos (una.mp new), ← growWindow_shift]
    simp only [Conn.shift, tcpAckRetransmit, bytes, kept]
  · rw [shift_sendUna, if_neg new, if_neg fun shifted => new (una.mpr shifted)]

/-- Shifting our sequence numbers commutes with a segment exactly when the
comparisons come out alike. -/
theorem handleSegment_shift_iff :
    handleSegment (segment.shiftAck shift) (endpoint.shift shift) =
        (handleSegment segment endpoint).shift shift ↔
      ComparesAlike shift segment endpoint.conn := by
  obtain ⟨_, _, isState⟩ := ackState_eq segment endpoint.conn
  have una : (ackState segment endpoint.conn).sendUna = endpoint.conn.sendUna := by rw [isState]
  have queue : (ackState segment endpoint.conn).queue = endpoint.conn.queue := by rw [isState]
  unfold ComparesAlike
  constructor
  · intro same acknowledges
    have sending := handleSegment_sending segment endpoint
    have sending' := handleSegment_sending (segment.shiftAck shift) (endpoint.shift shift)
    have also : (segment.shiftAck shift).acknowledges = true := acknowledges
    rw [if_pos acknowledges] at sending
    rw [if_pos also, same] at sending'
    have facts := (@advanceUna_shift_iff shift segment.ackNum (ackState segment endpoint.conn)).mp
    rw [una, queue] at facts
    apply facts
    have shifted := ackState_shift shift segment endpoint.conn
    have isUna := sending'.sendUna
    have isQueue := sending'.queue
    simp only [handleAck, Endpoint.shift] at isUna isQueue
    rw [shifted] at isUna isQueue
    exact ⟨isUna.symm.trans (congrArg (· + shift) sending.sendUna),
      isQueue.symm.trans (congrArg (List.map (Queued.shift shift)) sending.queue)⟩
  · intro alike
    have control : segment.has tcpFlagRst = false →
        handleControl (segment.shiftAck shift) (endpoint.shift shift) =
        (handleControl segment endpoint).shift shift := by
      intro noReset
      by_cases synchronizes : segment.has tcpFlagSyn = true
      · have also : (segment.shiftAck shift).has tcpFlagSyn = true := synchronizes
        rw [handleControl, handleControl, if_pos also, if_pos synchronizes]
        exact handleSyn_shift shift segment endpoint
      · refine ite_shift shift Iff.rfl (handleSyn_shift shift segment endpoint) ?_
        by_cases acknowledges : segment.has tcpFlagAck = true
        · have reaches : segment.acknowledges = true := by
            simp [Segment.acknowledges, acknowledges, synchronizes, noReset]
          obtain ⟨sameUna, sameQueue⟩ := alike reaches
          rw [← una] at sameUna sameQueue
          rw [← queue] at sameQueue
          have advanced := advanceUna_shift shift sameUna sameQueue
          rw [← ackState_shift] at advanced
          refine ite_shift shift Iff.rfl ?_ rfl
          simp only [Endpoint.setConn, handleAck, Endpoint.shift, Segment.shiftAck] at *
          rw [advanced]
          rfl
        · have also : ¬ (segment.shiftAck shift).has tcpFlagAck = true := acknowledges
          rw [if_neg also, if_neg acknowledges]
    by_cases reset : segment.has tcpFlagRst = true
    · have also : (segment.shiftAck shift).has tcpFlagRst = true := reset
      rw [handleSegment, handleSegment, if_pos also, if_pos reset]
      rfl
    · refine ite_shift shift Iff.rfl rfl ?_
      rw [control (by simpa using reset), handleData_shift, handleFin_shift]

end

/-- The acknowledgement of a byte that is sent where the numbers wrap is not
taken. -/
theorem wrap_stops_acknowledgement :
    let endpoint : Endpoint :=
      ⟨{ newConn 0x0A00020F 50152 0x0A000202 80 1000 0 with
          state := .established, sendSeq := 1002, sendUna := 1001 }, fun _ => 0, 0, []⟩
    let segment : Segment := ⟨80, 50152, 7, 1002, tcpFlagAck, 4096, []⟩
    handleSegment (segment.shiftAck 0xFFFFFC16) (endpoint.shift 0xFFFFFC16) ≠
      (handleSegment segment endpoint).shift 0xFFFFFC16 := by
  intro endpoint segment same
  have una := congrArg (fun endpoint => endpoint.conn.sendUna) same
  exact absurd una (by decide)

end KnitOS.Net
