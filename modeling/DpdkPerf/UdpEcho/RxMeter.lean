import DpdkPerf.RateMeter.Record
import DpdkPerf.UdpEcho.FifoEvent

/-! What the RX handler of the server feeds to the rate meter: after every
read, whatever came of it, `RECORD` gets the result as an unsigned number of
bytes and one packet. -/
namespace DpdkPerf.UdpEcho

open RateMeter (Call Figure)

/-- A call on a fifo, or a `RECORD`. -/
inductive RxCall where
  | fifo (call : FifoCall)
  | record (call : Call)
  deriving DecidableEq, Repr

def RxCall.fifoCall : RxCall → Option FifoCall
  | .fifo call => some call
  | .record _ => none

def RxCall.recordCall : RxCall → Option Call
  | .fifo _ => none
  | .record call => some call

/-- `max_dequeue` after a read. -/
def dequeued (maxDequeue : UInt32) (a : ReadAnswer) : UInt32 :=
  if 0 < a.nRead then maxDequeue - a.nRead.toUInt32 else maxDequeue

/-- The rest of a round: what it leaves in `n_read`, and its calls. -/
def reflected (haveReturn : Bool) (session : AppSession) (a : ReadAnswer) :
    Int32 × List FifoCall :=
  if haveReturn ∧ 0 < a.nRead then reflect session a else (a.nRead, [])

/-- The loop goes on after the round. -/
def GoesOn (haveReturn : Bool) (session : AppSession) (maxDequeue : UInt32) (a : ReadAnswer) :
    Prop :=
  ((reflected haveReturn session a).1 < 0 ∨ 0 < dequeued maxDequeue a) ∧ ¬ a.timeToStop

instance (haveReturn : Bool) (session : AppSession) (maxDequeue : UInt32) (a : ReadAnswer) :
    Decidable (GoesOn haveReturn session maxDequeue a) :=
  inferInstanceAs (Decidable (_ ∧ _))

namespace Metered

/-- The loop with its `RECORD`s. -/
def readLoop (haveReturn : Bool) (session : AppSession) (maxDequeue : UInt32) :
    List ReadAnswer → List RxCall
  | [] => []
  | a :: rest =>
      let maxTransfer := min rxBufLen maxDequeue
      .fifo (.recvRaw session.rxFifo session.isDgram maxTransfer) ::
        -- `RECORD (n_read, 1)` comes before the reply, which changes `n_read`
        .record ⟨a.nRead.toUInt32, 1⟩ ::
        (reflected haveReturn session a).2.map .fifo ++
        (if GoesOn haveReturn session maxDequeue a then
          readLoop haveReturn session (dequeued maxDequeue a) rest
        else [])

def serverHandleFifoEventRx (haveReturn : Bool) (utm : UdpEchoMain) (sessionIndex : Nat)
    (maxDequeue : UInt32) (answers : List ReadAnswer) : List RxCall :=
  let session := utm.sessions.elt sessionIndex
  .fifo (.maxDequeue session.rxFifo) :: .fifo (.unsetEvent session.rxFifo) ::
    (if maxDequeue = 0 then [] else readLoop haveReturn session maxDequeue answers)

end Metered

/-- What the calls give to the meter. -/
def recorded (calls : List RxCall) : List Call := calls.filterMap RxCall.recordCall

/-- The loop comes to all of these rounds. It may not be at its end yet. -/
def ReadsAll (haveReturn : Bool) (session : AppSession) : UInt32 → List ReadAnswer → Prop
  | _, [] => True
  | maxDequeue, a :: rest =>
      (rest ≠ [] → GoesOn haveReturn session maxDequeue a) ∧
        ReadsAll haveReturn session (dequeued maxDequeue a) rest

instance (haveReturn : Bool) (session : AppSession) (maxDequeue : UInt32) :
    (answers : List ReadAnswer) → Decidable (ReadsAll haveReturn session maxDequeue answers)
  | [] => inferInstanceAs (Decidable True)
  | a :: rest =>
      haveI := instDecidableReadsAll haveReturn session (dequeued maxDequeue a) rest
      inferInstanceAs (Decidable ((rest ≠ [] → _) ∧ _))

/-- The rounds of a call that finds `maxDequeue` bytes. -/
def RoundsOf (haveReturn : Bool) (utm : UdpEchoMain) (sessionIndex : Nat) (maxDequeue : UInt32)
    (answers : List ReadAnswer) : Prop :=
  (maxDequeue = 0 → answers = []) ∧
    ReadsAll haveReturn (utm.sessions.elt sessionIndex) maxDequeue answers

instance (haveReturn : Bool) (utm : UdpEchoMain) (sessionIndex : Nat) (maxDequeue : UInt32)
    (answers : List ReadAnswer) :
    Decidable (RoundsOf haveReturn utm sessionIndex maxDequeue answers) :=
  inferInstanceAs (Decidable (_ ∧ _))

/-- The bytes of a read. -/
def ReadAnswer.received (a : ReadAnswer) : Nat := a.nRead.toInt.toNat

/-- The meter is given the bytes received and a packet for each read that
received some. -/
structure MetersReceived (calls : List Call) (answers : List ReadAnswer) : Prop where
  bytes : Figure.bytes.total calls = (answers.map ReadAnswer.received).sum
  packets : Figure.pps.total calls = answers.countP fun a => 0 < a.nRead

variable {haveReturn : Bool} {session : AppSession} {maxDequeue : UInt32}
  {answers : List ReadAnswer}

theorem filterMap_fifo (calls : List FifoCall) :
    (calls.map RxCall.fifo).filterMap RxCall.fifoCall = calls := by
  rw [List.filterMap_map]
  exact List.filterMap_some

theorem recorded_fifo (calls : List FifoCall) : recorded (calls.map RxCall.fifo) = [] := by
  induction calls with
  | nil => rfl
  | cons call rest ih => exact ih

theorem recorded_append (first second : List RxCall) :
    recorded (first ++ second) = recorded first ++ recorded second :=
  List.filterMap_append ..

/-- Without the meter it is the loop of the fifo calls. -/
theorem readLoop_fifoCalls (maxDequeue : UInt32) (answers : List ReadAnswer) :
    (Metered.readLoop haveReturn session maxDequeue answers).filterMap RxCall.fifoCall =
      readLoop haveReturn session maxDequeue answers := by
  induction answers generalizing maxDequeue with
  | nil => rfl
  | cons a rest ih =>
      have hLater : (if GoesOn haveReturn session maxDequeue a then
            Metered.readLoop haveReturn session (dequeued maxDequeue a) rest
          else []).filterMap RxCall.fifoCall =
          if GoesOn haveReturn session maxDequeue a then
            readLoop haveReturn session (dequeued maxDequeue a) rest
          else [] := by
        split
        · exact ih _
        · rfl
      rw [Metered.readLoop]
      simp only [List.cons_append, List.filterMap_cons, RxCall.fifoCall, List.filterMap_append,
        filterMap_fifo, hLater]
      rfl

/-- Without its calls of `record` the metered handler is the plain one. -/
theorem serverHandleFifoEventRx_fifoCalls (haveReturn : Bool) (utm : UdpEchoMain)
    (sessionIndex : Nat) (maxDequeue : UInt32) (answers : List ReadAnswer) :
    (Metered.serverHandleFifoEventRx haveReturn utm sessionIndex maxDequeue answers).filterMap
        RxCall.fifoCall =
      serverHandleFifoEventRx haveReturn utm sessionIndex maxDequeue answers := by
  unfold Metered.serverHandleFifoEventRx serverHandleFifoEventRx
  by_cases hZero : maxDequeue = 0
  · simp [hZero, RxCall.fifoCall]
  · simp [hZero, RxCall.fifoCall, readLoop_fifoCalls]

/-- Every read is recorded, once. -/
theorem recorded_readLoop (hReads : ReadsAll haveReturn session maxDequeue answers) :
    recorded (Metered.readLoop haveReturn session maxDequeue answers) =
      answers.map fun a => ⟨a.nRead.toUInt32, 1⟩ := by
  induction answers generalizing maxDequeue with
  | nil => rfl
  | cons a rest ih =>
      obtain ⟨hGoesOn, hRest⟩ := hReads
      have hLater : recorded (if GoesOn haveReturn session maxDequeue a then
            Metered.readLoop haveReturn session (dequeued maxDequeue a) rest
          else []) = rest.map fun a => ⟨a.nRead.toUInt32, 1⟩ := by
        by_cases hEnd : rest = []
        · subst hEnd
          split <;> rfl
        · rw [if_pos (hGoesOn hEnd)]
          exact ih hRest
      rw [Metered.readLoop, recorded_append, hLater, List.map_cons]
      show ⟨a.nRead.toUInt32, 1⟩ :: (recorded (((reflected haveReturn session a).2).map .fifo) ++
        rest.map fun a => ⟨a.nRead.toUInt32, 1⟩) = _
      rw [recorded_fifo, List.nil_append]

theorem received_of_pos {a : ReadAnswer} (hPos : 0 < a.nRead) :
    a.nRead.toUInt32.toNat = a.received :=
  Int32.toNat_toUInt32_of_le (Int32.le_of_lt hPos)

/-- The meter is given what was received exactly if every read received
something: every other read is a packet too many. -/
theorem metersReceived_map_iff (answers : List ReadAnswer) :
    MetersReceived (answers.map fun a => ⟨a.nRead.toUInt32, 1⟩) answers ↔
      ∀ a ∈ answers, 0 < a.nRead := by
  have hPackets : Figure.pps.total (answers.map fun a => ⟨a.nRead.toUInt32, 1⟩) =
      answers.length := by
    simp [Figure.total, Windows.total, Figure.amount, Function.comp_def]
  constructor
  · intro hMeters
    have hCount := hMeters.packets
    rw [hPackets, eq_comm, List.countP_eq_length] at hCount
    simpa using hCount
  · intro hPos
    constructor
    · have hBytes : (answers.map fun a => a.nRead.toUInt32.toNat) =
          answers.map ReadAnswer.received :=
        List.map_congr_left fun a hMem => received_of_pos (hPos a hMem)
      rw [← hBytes]
      simp [Figure.total, Windows.total, Figure.amount, Function.comp_def]
    · rw [hPackets, eq_comm, List.countP_eq_length]
      simpa using hPos

/-- Whatever the kind of the session, a call gives the meter what it received
exactly if every one of its reads received something. -/
theorem metersReceived_iff {utm : UdpEchoMain} {sessionIndex : Nat}
    (hRounds : RoundsOf haveReturn utm sessionIndex maxDequeue answers) :
    MetersReceived (recorded
        (Metered.serverHandleFifoEventRx haveReturn utm sessionIndex maxDequeue answers)) answers ↔
      ∀ a ∈ answers, 0 < a.nRead := by
  have hRecorded : recorded
      (Metered.serverHandleFifoEventRx haveReturn utm sessionIndex maxDequeue answers) =
        answers.map fun a => ⟨a.nRead.toUInt32, 1⟩ := by
    obtain ⟨hEmpty, hReads⟩ := hRounds
    show recorded (if maxDequeue = 0 then [] else
      Metered.readLoop haveReturn (utm.sessions.elt sessionIndex) maxDequeue answers) = _
    by_cases hZero : maxDequeue = 0
    · rw [if_pos hZero, hEmpty hZero]
      rfl
    · rw [if_neg hZero]
      exact recorded_readLoop hReads
  rw [hRecorded, metersReceived_map_iff]

/-- Two datagrams, of 1000 and of 500 bytes. -/
theorem metersReceived_iff_two :
    MetersReceived (recorded (Metered.serverHandleFifoEventRx false
        (.initial false [] (fun _ => { isDgram := true }) fun _ => 0) 0 1500
        [⟨1000, [], false, false⟩, ⟨500, [], false, false⟩]))
      [⟨1000, [], false, false⟩, ⟨500, [], false, false⟩] :=
  (metersReceived_iff (by decide)).mpr (by decide)

/-- A read that finds no whole datagram yet and one that fails come before a
datagram of five bytes: three packets and 2^32 + 3 bytes. -/
theorem not_metersReceived :
    let utm : UdpEchoMain := .initial false [] (fun _ => { isDgram := true }) fun _ => 0
    let answers : List ReadAnswer :=
      [⟨0, [], false, false⟩, ⟨-2, [], false, false⟩, ⟨5, [], false, false⟩]
    RoundsOf false utm 0 5 answers ∧
      ¬ MetersReceived (recorded (Metered.serverHandleFifoEventRx false utm 0 5 answers))
        answers := by
  intro utm answers
  refine ⟨by decide, fun hMeters => ?_⟩
  exact absurd hMeters.packets (by decide)

end DpdkPerf.UdpEcho
