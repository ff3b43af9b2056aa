import DpdkPerf.UdpEcho.FifoEvent

/-! The RX handler of the server step by step, with its data: bytes leave the
rx fifo for `rx_buf` and leave `rx_buf` for the tx fifo, while more arrive. The
meter that `RECORD` feeds takes no part in this. -/
namespace DpdkPerf.UdpEcho

/-- The rx fifo of a session as the handler uses it. `recvRaw` gives what the
call returns, the bytes it copies and what stays in the fifo. -/
structure RxFifo (φ : Type) where
  maxDequeue : φ → UInt32
  recvRaw : φ → UInt32 → Int32 × List UInt8 × φ
  enqueue : φ → List UInt8 → φ

/-- Where the handler stands: outside of a call, in front of a read, in front
of `app_send`, or in front of the test of the outer loop. -/
inductive RxPc where
  | returned
  | read
  | send
  | test
  deriving DecidableEq, Repr

/-- The local variables, the buffer and the rx fifo. -/
structure ServerRx (φ : Type) where
  fifo : φ
  rxBuf : List UInt8
  pc : RxPc
  maxDequeue : UInt32
  offset : UInt32
  nRead : Int32

inductive RxInput where
  | event
  | arrive (bytes : List UInt8)
  | read
  | send (a : SendAnswer)
  | test (timeToStop : Bool)
  deriving DecidableEq, Repr

/-- What a step moves. -/
inductive RxOutput where
  | quiet
  /-- The `max_dequeue` read on entry. -/
  | entered (maxDequeue : UInt32)
  | removed (bytes : List UInt8)
  | appended (bytes : List UInt8)
  deriving DecidableEq, Repr

def RxInput.arrived : RxInput → List UInt8
  | .arrive bytes => bytes
  | _ => []

/-- `time_to_stop` is found set. -/
def RxInput.Stops : RxInput → Prop
  | .send a => a.timeToStop = true
  | .test timeToStop => timeToStop = true
  | _ => False

def RxOutput.removedBytes : RxOutput → List UInt8
  | .removed bytes => bytes
  | _ => []

def RxOutput.appendedBytes : RxOutput → List UInt8
  | .appended bytes => bytes
  | _ => []

def RxOutput.enteredCount : RxOutput → Nat
  | .entered maxDequeue => maxDequeue.toNat
  | _ => 0

namespace ServerRx

variable {φ : Type} (F : RxFifo φ) (haveReturn : Bool) (s : ServerRx φ)

/-- Up to the first read. -/
def enter : ServerRx φ :=
  let maxDequeue := F.maxDequeue s.fifo
  { s with maxDequeue := maxDequeue, pc := if maxDequeue = 0 then .returned else .read }

def maxTransfer : UInt32 := min (UInt32.ofNat s.rxBuf.length) s.maxDequeue

/-- The read, up to the first `app_send` or the test of the loop. -/
def read : ServerRx φ :=
  let (nRead, bytes, fifo) := F.recvRaw s.fifo s.maxTransfer
  { fifo := fifo
    rxBuf := bytes ++ s.rxBuf.drop bytes.length
    pc := if haveReturn ∧ 0 < nRead then .send else .test
    maxDequeue := if 0 < nRead then s.maxDequeue - nRead.toUInt32 else s.maxDequeue
    offset := if haveReturn ∧ 0 < nRead then 0 else s.offset
    nRead := nRead }

/-- The bytes at `rx_buf[offset]` that an answer takes. -/
def sent (rv : Int32) : List UInt8 :=
  if 0 < rv then (s.rxBuf.drop s.offset.toNat).take rv.toNatClampNeg else []

def send (a : SendAnswer) : ServerRx φ :=
  let nRead := if 0 < a.rv then s.nRead - a.rv else s.nRead
  { s with
    nRead := nRead
    offset := if 0 < a.rv then s.offset + a.rv.toUInt32 else s.offset
    pc := if (a.rv ≤ 0 ∨ 0 < nRead) ∧ ¬ a.timeToStop then .send else .test }

def test (timeToStop : Bool) : ServerRx φ :=
  { s with
    pc := if (s.nRead < 0 ∨ 0 < s.maxDequeue) ∧ ¬ timeToStop then .read else .returned }

end ServerRx

/-- `server_handle_fifo_event_rx`, called again and again. -/
def serverRx {φ : Type} (F : RxFifo φ) (haveReturn : Bool) :
    Machine (ServerRx φ) RxInput RxOutput where
  enabled s
    | .event => s.pc = .returned
    | .arrive _ => True
    | .read => s.pc = .read
    | .send a => s.pc = .send ∧ a.rv ≤ s.nRead
    | .test _ => s.pc = .test
  next s
    | .event => s.enter F
    | .arrive bytes => { s with fifo := F.enqueue s.fifo bytes }
    | .read => s.read F haveReturn
    | .send a => s.send a
    | .test timeToStop => s.test timeToStop
  output s
    | .event => .entered (F.maxDequeue s.fifo)
    | .arrive _ => .quiet
    | .read => .removed (F.recvRaw s.fifo s.maxTransfer).2.1
    | .send a => .appended (s.sent a.rv)
    | .test _ => .quiet

instance : (i : RxInput) → Decidable i.Stops
  | .event => inferInstanceAs (Decidable False)
  | .arrive _ => inferInstanceAs (Decidable False)
  | .read => inferInstanceAs (Decidable False)
  | .send a => inferInstanceAs (Decidable (a.timeToStop = true))
  | .test timeToStop => inferInstanceAs (Decidable (timeToStop = true))

instance {φ : Type} (F : RxFifo φ) (haveReturn : Bool) (s : ServerRx φ) (i : RxInput) :
    Decidable ((serverRx F haveReturn).enabled s i) :=
  match i with
  | .event => inferInstanceAs (Decidable (s.pc = .returned))
  | .arrive _ => inferInstanceAs (Decidable True)
  | .read => inferInstanceAs (Decidable (s.pc = .read))
  | .send a => inferInstanceAs (Decidable (s.pc = .send ∧ a.rv ≤ s.nRead))
  | .test _ => inferInstanceAs (Decidable (s.pc = .test))

/-- The fifo of a stream: `app_recv_stream_raw` takes what there is, up to the
length asked for. -/
def streamFifo : RxFifo (List UInt8) where
  maxDequeue rx := UInt32.ofNat rx.length
  recvRaw rx n := (Int32.ofNat (rx.take n.toNat).length, rx.take n.toNat, rx.drop n.toNat)
  enqueue rx bytes := rx ++ bytes

def removedBytes (outputs : List RxOutput) : List UInt8 := outputs.flatMap RxOutput.removedBytes

def appendedBytes (outputs : List RxOutput) : List UInt8 := outputs.flatMap RxOutput.appendedBytes

def enteredCount (outputs : List RxOutput) : Nat := (outputs.map RxOutput.enteredCount).sum

def arrivedBytes (inputs : List RxInput) : List UInt8 := inputs.flatMap RxInput.arrived

theorem toNat_uint32 {n : Nat} (h : n < 2 ^ 31) : (UInt32.ofNat n).toNat = n := by
  rw [UInt32.toNat_ofNat', Nat.mod_eq_of_lt (by omega)]

theorem pos_int32 {n : Nat} (hPos : 0 < n) (h : n < 2 ^ 31) : 0 < Int32.ofNat n := by
  rw [Int32.lt_iff_toInt_lt, Int32.toInt_ofNat_of_lt h]
  exact Int.natCast_pos.mpr hPos

/-- An answer of the send loop that is positive and at most what was offered. -/
theorem exists_ofNat {rv nRead : Int32} (hPos : 0 < rv) (hLe : rv ≤ nRead) :
    ∃ r n : Nat, 0 < r ∧ r ≤ n ∧ n < 2 ^ 31 ∧ rv = Int32.ofNat r ∧ nRead = Int32.ofNat n := by
  have hBoth : 0 < nRead := Int32.lt_of_lt_of_le hPos hLe
  refine ⟨rv.toNatClampNeg, nRead.toNatClampNeg, ?_, ?_, nRead.toNatClampNeg_lt, ?_, ?_⟩
  · exact (Int32.toNatClampNeg_pos_iff rv).mpr hPos
  · have hInt := Int32.le_iff_toInt_le.mp hLe
    rw [Int32.toInt_eq_toNatClampNeg (Int32.le_of_lt hPos),
      Int32.toInt_eq_toNatClampNeg (Int32.le_of_lt hBoth)] at hInt
    exact Int.ofNat_le.mp hInt
  · exact (Int32.ofNat_toNatClampNeg rv (Int32.le_of_lt hPos)).symm
  · exact (Int32.ofNat_toNatClampNeg nRead (Int32.le_of_lt hBoth)).symm

namespace ServerRx

variable {φ : Type}

/-- What is in the buffer and has not been sent yet. -/
def pending (s : ServerRx φ) : List UInt8 :=
  match s.pc with
  | .send => (s.rxBuf.drop s.offset.toNat).take s.nRead.toNatClampNeg
  | _ => []

/-- What a call has still to read. -/
def left (s : ServerRx φ) : Nat :=
  match s.pc with
  | .returned => 0
  | _ => s.maxDequeue.toNat

/-- The slices offered to `app_send` lie in the buffer. -/
def InRange (s : ServerRx φ) : Prop :=
  match s.pc with
  | .send => 0 < s.nRead ∧ s.offset.toNat + s.nRead.toNatClampNeg ≤ s.rxBuf.length
  | .test => s.nRead = 0 ∧ s.offset.toNat ≤ s.rxBuf.length
  | _ => True

/-- At no point is more asked for than the fifo holds. -/
structure Sound (length : Nat) (s : ServerRx (List UInt8)) : Prop where
  length_eq : s.rxBuf.length = length
  inRange : s.InRange
  left_le : s.left ≤ s.fifo.length
  pos : s.pc = .read → 0 < s.left

/-- What comes in from one state to another goes out or stays: through the rx
fifo, through the buffer, and in the count of what is still to be read. -/
structure Moved (s s' : ServerRx (List UInt8)) (arrived removed appended : List UInt8)
    (entered : Nat) : Prop where
  fifo : s.fifo ++ arrived = removed ++ s'.fifo
  buffer : s.pending ++ removed = appended ++ s'.pending
  count : s.left + entered = removed.length + s'.left

theorem Moved.refl (s : ServerRx (List UInt8)) : s.Moved s [] [] [] 0 where
  fifo := List.append_nil _
  buffer := List.append_nil _
  count := (Nat.zero_add _).symm

/-- What two stretches move adds up. -/
theorem Moved.trans {s s' s'' : ServerRx (List UInt8)}
    {arrived arrived' removed removed' appended appended' : List UInt8} {entered entered' : Nat}
    (h : s.Moved s' arrived removed appended entered)
    (h' : s'.Moved s'' arrived' removed' appended' entered') :
    s.Moved s'' (arrived ++ arrived') (removed ++ removed') (appended ++ appended')
      (entered + entered') where
  fifo := by
    rw [← List.append_assoc, h.fifo, List.append_assoc, h'.fifo, List.append_assoc]
  buffer := by
    rw [← List.append_assoc, h.buffer, List.append_assoc, h'.buffer, List.append_assoc]
  count := by
    have hFirst := h.count
    have hSecond := h'.count
    rw [List.length_append]
    omega

variable {s : ServerRx (List UInt8)} {length : Nat}

/-- The call starts with the count of what is in the fifo. -/
theorem sound_enter (h : s.Sound length) (hReturned : s.pc = .returned) :
    (s.enter streamFifo).Sound length ∧
      s.Moved (s.enter streamFifo) [] [] [] (streamFifo.maxDequeue s.fifo).toNat := by
  have hLe : (streamFifo.maxDequeue s.fifo).toNat ≤ s.fifo.length :=
    Nat.le_trans (Nat.le_of_eq UInt32.toNat_ofNat') (Nat.mod_le ..)
  by_cases hZero : streamFifo.maxDequeue s.fifo = 0
  · have hEnter : s.enter streamFifo = { s with maxDequeue := 0, pc := .returned } := by
      simp [enter, hZero]
    rw [hEnter, hZero]
    exact ⟨⟨h.length_eq, trivial, Nat.zero_le _, fun hRead => by simp at hRead⟩,
      ⟨List.append_nil _, by simp [pending, hReturned], by simp [left, hReturned]⟩⟩
  · have hEnter : s.enter streamFifo =
        { s with maxDequeue := streamFifo.maxDequeue s.fifo, pc := .read } := by
      simp [enter, hZero]
    have hPos : 0 < (streamFifo.maxDequeue s.fifo).toNat :=
      Nat.pos_of_ne_zero fun hNat => hZero (UInt32.toNat_inj.mp hNat)
    rw [hEnter]
    exact ⟨⟨h.length_eq, trivial, hLe, fun _ => hPos⟩,
      ⟨List.append_nil _, by simp [pending, hReturned], by simp [left, hReturned]⟩⟩

/-- Data may arrive at any time; it is not in the count. -/
theorem sound_arrive (h : s.Sound length) (bytes : List UInt8) :
    ({ s with fifo := s.fifo ++ bytes } : ServerRx (List UInt8)).Sound length ∧
      s.Moved { s with fifo := s.fifo ++ bytes } bytes [] [] 0 := by
  refine ⟨⟨h.length_eq, h.inRange, ?_, h.pos⟩, ⟨rfl, List.append_nil _, (Nat.zero_add _).symm⟩⟩
  show s.left ≤ (s.fifo ++ bytes).length
  have hLe := h.left_le
  rw [List.length_append]
  omega

/-- The read takes as much as it asks for, and something. -/
theorem Sound.read_eq (h : s.Sound length) (hPos : 0 < length) (hInt : length < 2 ^ 31)
    (hRead : s.pc = .read) :
    ∃ n, 0 < n ∧ n ≤ length ∧ n ≤ s.maxDequeue.toNat ∧
      (s.fifo.take n).length = n ∧
      streamFifo.recvRaw s.fifo s.maxTransfer = (Int32.ofNat n, s.fifo.take n, s.fifo.drop n) ∧
      s.read streamFifo true =
        { fifo := s.fifo.drop n
          rxBuf := s.fifo.take n ++ s.rxBuf.drop n
          pc := .send
          maxDequeue := s.maxDequeue - UInt32.ofNat n
          offset := 0
          nRead := Int32.ofNat n } := by
  have hLeft : s.left = s.maxDequeue.toNat := by simp [left, hRead]
  have hDequeue : 0 < s.maxDequeue.toNat := hLeft ▸ h.pos hRead
  have hQueued : s.maxDequeue.toNat ≤ s.fifo.length := hLeft ▸ h.left_le
  have hMin : s.maxTransfer.toNat = min length s.maxDequeue.toNat := by
    rw [maxTransfer, UInt32.toNat_min, h.length_eq, toNat_uint32 (by omega)]
  have hTake : (s.fifo.take s.maxTransfer.toNat).length = s.maxTransfer.toNat := by
    rw [List.length_take]
    omega
  have hRecv : streamFifo.recvRaw s.fifo s.maxTransfer =
      (Int32.ofNat s.maxTransfer.toNat, s.fifo.take s.maxTransfer.toNat,
        s.fifo.drop s.maxTransfer.toNat) := by
    show (Int32.ofNat (s.fifo.take s.maxTransfer.toNat).length, _, _) = _
    rw [hTake]
  have hPositive : 0 < Int32.ofNat s.maxTransfer.toNat := pos_int32 (by omega) (by omega)
  refine ⟨s.maxTransfer.toNat, by omega, by omega, by omega, hTake, hRecv, ?_⟩
  simp only [read, hRecv, hPositive, and_self, if_true, hTake, Int32.toUInt32_ofNat']

/-- A read takes bytes off the front of the fifo, and as much off the count. -/
theorem sound_read (h : s.Sound length) (hPos : 0 < length) (hInt : length < 2 ^ 31)
    (hRead : s.pc = .read) :
    (s.read streamFifo true).Sound length ∧
      s.Moved (s.read streamFifo true) [] (streamFifo.recvRaw s.fifo s.maxTransfer).2.1 [] 0 := by
  obtain ⟨n, hn, hLength, hDequeue, hTake, hRecv, hNext⟩ := h.read_eq hPos hInt hRead
  have hLeft : s.left = s.maxDequeue.toNat := by simp [left, hRead]
  have hRest : (s.maxDequeue - UInt32.ofNat n).toNat = s.maxDequeue.toNat - n := by
    have hNat : (UInt32.ofNat n).toNat = n := toNat_uint32 (by omega)
    rw [UInt32.toNat_sub_of_le _ _ (UInt32.le_iff_toNat_le.mpr (by omega)), hNat]
  have hCount : (Int32.ofNat n).toNatClampNeg = n := Int32.toNatClampNeg_ofNat_of_lt (by omega)
  have hQueued := h.left_le
  rw [hNext, hRecv]
  refine ⟨⟨?_, ?_, ?_, fun hAgain => by simp at hAgain⟩, ⟨?_, ?_, ?_⟩⟩
  · rw [List.length_append, hTake, List.length_drop, h.length_eq]
    omega
  · refine ⟨pos_int32 hn (by omega), ?_⟩
    rw [hCount, List.length_append, hTake]
    simp
  · show (s.maxDequeue - UInt32.ofNat n).toNat ≤ (s.fifo.drop n).length
    rw [hRest, List.length_drop]
    omega
  · rw [List.append_nil, List.take_append_drop]
  · simp [pending, hRead, hCount, List.take_left' hTake]
  · show s.left + 0 = (s.fifo.take n).length + (s.maxDequeue - UInt32.ofNat n).toNat
    rw [hRest, hTake]
    omega

/-- An answer that takes something moves the slice on by as much. -/
theorem Sound.send_eq (h : s.Sound length) (hInt : length < 2 ^ 31) (hSend : s.pc = .send)
    {a : SendAnswer} (hOffered : a.rv ≤ s.nRead) (hGoesOn : a.timeToStop = false)
    (hPositive : 0 < a.rv) :
    ∃ r n, r ≤ n ∧ n < 2 ^ 31 ∧ s.nRead.toNatClampNeg = n ∧
      s.offset.toNat + n ≤ s.rxBuf.length ∧
      (s.offset + a.rv.toUInt32).toNat = s.offset.toNat + r ∧
      s.sent a.rv = (s.rxBuf.drop s.offset.toNat).take r ∧
      s.send a =
        { s with
          nRead := Int32.ofNat (n - r)
          offset := s.offset + a.rv.toUInt32
          pc := if r < n then .send else .test } := by
  obtain ⟨r, n, hr, hrn, hn, hRv, hRead⟩ := exists_ofNat hPositive hOffered
  have hHere : 0 < s.nRead ∧ s.offset.toNat + s.nRead.toNatClampNeg ≤ s.rxBuf.length := by
    simpa [InRange, hSend] using h.inRange
  have hLength := h.length_eq
  have hCount : s.nRead.toNatClampNeg = n := by
    rw [hRead, Int32.toNatClampNeg_ofNat_of_lt hn]
  have hTaken : a.rv.toNatClampNeg = r := by
    rw [hRv, Int32.toNatClampNeg_ofNat_of_lt (by omega)]
  have hRemaining : s.nRead - a.rv = Int32.ofNat (n - r) := by
    rw [hRead, hRv, Int32.ofNat_sub n r hrn]
  have hOffset : (s.offset + a.rv.toUInt32).toNat = s.offset.toNat + r := by
    rw [hRv, Int32.toUInt32_ofNat', UInt32.toNat_add, toNat_uint32 (by omega),
      Nat.mod_eq_of_lt (by omega)]
  have hSent : s.sent a.rv = (s.rxBuf.drop s.offset.toNat).take r := by
    rw [sent, if_pos hPositive, hTaken]
  have hNot : ¬ a.rv ≤ 0 := Int32.not_le.mpr hPositive
  refine ⟨r, n, hrn, hn, hCount, hCount ▸ hHere.2, hOffset, hSent, ?_⟩
  by_cases hMore : r < n
  · have hGo : 0 < Int32.ofNat (n - r) := pos_int32 (by omega) (by omega)
    simp [send, hPositive, hRemaining, hGo, hGoesOn, hMore]
  · have hZero : Int32.ofNat (n - r) = 0 := by
      rw [Nat.sub_eq_zero_of_le (Nat.not_lt.mp hMore)]
      rfl
    simp [send, hPositive, hRemaining, hZero, hNot, hMore]

/-- A refused send is tried again. -/
theorem send_refused {a : SendAnswer} (hSend : s.pc = .send) (hGoesOn : a.timeToStop = false)
    (hRefused : ¬ 0 < a.rv) : s.send a = s := by
  have hNot : a.rv ≤ 0 := Int32.not_lt.mp hRefused
  simp only [send, if_neg hRefused, hNot, hGoesOn, true_or, Bool.false_eq_true,
    not_false_eq_true, and_self, if_true, ← hSend]

/-- What `app_send` takes is the front of what is pending. -/
theorem sound_send (h : s.Sound length) (hInt : length < 2 ^ 31) (hSend : s.pc = .send)
    {a : SendAnswer} (hOffered : a.rv ≤ s.nRead) (hGoesOn : a.timeToStop = false) :
    (s.send a).Sound length ∧ s.Moved (s.send a) [] [] (s.sent a.rv) 0 := by
  by_cases hPositive : 0 < a.rv
  · obtain ⟨r, n, hrn, hn, hCount, hRange, hOffset, hSent, hNext⟩ :=
      h.send_eq hInt hSend hOffered hGoesOn hPositive
    have hQueued : s.maxDequeue.toNat ≤ s.fifo.length := by
      simpa [left, hSend] using h.left_le
    have hPending : s.pending = (s.rxBuf.drop s.offset.toNat).take n := by
      simp [pending, hSend, hCount]
    by_cases hMore : r < n
    · have hLess : (Int32.ofNat (n - r)).toNatClampNeg = n - r :=
        Int32.toNatClampNeg_ofNat_of_lt (by omega)
      have hSplit : (s.rxBuf.drop s.offset.toNat).take n =
          (s.rxBuf.drop s.offset.toNat).take r ++
            (s.rxBuf.drop (s.offset.toNat + r)).take (n - r) := by
        conv_lhs => rw [← Nat.add_sub_cancel' hrn, List.take_add, List.drop_drop]
      rw [hNext, if_pos hMore]
      refine ⟨⟨h.length_eq, ⟨pos_int32 (by omega) (by omega), ?_⟩, hQueued,
        fun hAgain => by simp at hAgain⟩, ⟨List.append_nil _, ?_, by simp [left, hSend]⟩⟩
      · show (s.offset + a.rv.toUInt32).toNat + (Int32.ofNat (n - r)).toNatClampNeg ≤
          s.rxBuf.length
        rw [hOffset, hLess]
        omega
      · show s.pending ++ [] = s.sent a.rv ++
          (s.rxBuf.drop (s.offset + a.rv.toUInt32).toNat).take (Int32.ofNat (n - r)).toNatClampNeg
        rw [List.append_nil, hPending, hSplit, hSent, hOffset, hLess]
    · obtain rfl : r = n := by omega
      have hNone : Int32.ofNat (r - r) = 0 := by
        rw [Nat.sub_self]
        rfl
      rw [hNext, if_neg hMore]
      refine ⟨⟨h.length_eq, ⟨hNone, ?_⟩, hQueued, fun hAgain => by simp at hAgain⟩,
        ⟨List.append_nil _, ?_, by simp [left, hSend]⟩⟩
      · show (s.offset + a.rv.toUInt32).toNat ≤ s.rxBuf.length
        rw [hOffset]
        omega
      · rw [List.append_nil, hPending, hSent]
        exact (List.append_nil _).symm
  · rw [send_refused hSend hGoesOn hPositive, sent, if_neg hPositive]
    exact ⟨h, .refl s⟩

/-- The test of the loop moves nothing. -/
theorem sound_test (h : s.Sound length) (hTest : s.pc = .test) :
    (s.test false).Sound length ∧ s.Moved (s.test false) [] [] [] 0 := by
  have hHere : s.nRead = 0 ∧ s.offset.toNat ≤ s.rxBuf.length := by
    simpa [InRange, hTest] using h.inRange
  have hLeft : s.left = s.maxDequeue.toNat := by simp [left, hTest]
  have hQueued := h.left_le
  by_cases hMore : 0 < s.maxDequeue
  · have hNext : s.test false = { s with pc := .read } := by simp [test, hMore]
    have hPos : 0 < s.maxDequeue.toNat := UInt32.lt_iff_toNat_lt.mp hMore
    rw [hNext]
    exact ⟨⟨h.length_eq, trivial, by rwa [hLeft] at hQueued, fun _ => hPos⟩,
      ⟨List.append_nil _, by simp [pending, hTest], by simp [left, hTest]⟩⟩
  · have hNext : s.test false = { s with pc := .returned } := by
      simp [test, hMore, hHere.1]
    have hZero : s.maxDequeue.toNat = 0 := by
      rw [UInt32.lt_iff_toNat_lt] at hMore
      exact Nat.le_zero.mp (Nat.not_lt.mp hMore)
    rw [hNext]
    exact ⟨⟨h.length_eq, trivial, Nat.zero_le _, fun hRead => by simp at hRead⟩,
      ⟨List.append_nil _, by simp [pending, hTest], by simp [left, hTest, hZero]⟩⟩

/-- What a step moves. -/
theorem Sound.next (h : s.Sound length) (hPos : 0 < length) (hInt : length < 2 ^ 31)
    {i : RxInput} (hEnabled : (serverRx streamFifo true).enabled s i) (hGoesOn : ¬ i.Stops) :
    ((serverRx streamFifo true).next s i).Sound length ∧
      s.Moved ((serverRx streamFifo true).next s i) i.arrived
        ((serverRx streamFifo true).output s i).removedBytes
        ((serverRx streamFifo true).output s i).appendedBytes
        ((serverRx streamFifo true).output s i).enteredCount := by
  cases i with
  | event => exact sound_enter h hEnabled
  | arrive bytes => exact sound_arrive h bytes
  | read => exact sound_read h hPos hInt hEnabled
  | send a => exact sound_send h hInt hEnabled.1 hEnabled.2 (Bool.eq_false_iff.mpr hGoesOn)
  | test timeToStop =>
      obtain rfl : timeToStop = false := Bool.eq_false_iff.mpr hGoesOn
      exact sound_test h hEnabled

/-- What a run moves. -/
theorem Sound.run (h : s.Sound length) (hPos : 0 < length) (hInt : length < 2 ^ 31)
    {inputs : List RxInput} (hRun : (serverRx streamFifo true).Admits s inputs)
    (hGoesOn : ∀ i ∈ inputs, ¬ i.Stops) :
    ((serverRx streamFifo true).run s inputs).Sound length ∧
      s.Moved ((serverRx streamFifo true).run s inputs) (arrivedBytes inputs)
        (removedBytes ((serverRx streamFifo true).trace s inputs))
        (appendedBytes ((serverRx streamFifo true).trace s inputs))
        (enteredCount ((serverRx streamFifo true).trace s inputs)) := by
  induction inputs generalizing s with
  | nil => exact ⟨h, .refl s⟩
  | cons i rest ih =>
      rw [Machine.admits_cons] at hRun
      rw [List.forall_mem_cons] at hGoesOn
      obtain ⟨hNext, hStep⟩ := h.next hPos hInt hRun.1 hGoesOn.1
      obtain ⟨hLast, hRest⟩ := ih hNext hRun.2 hGoesOn.2
      exact ⟨hLast, hStep.trans hRest⟩

end ServerRx

/-- A session of a stream is echoed. At every point of any calls the slices
offered lie in the buffer and the count of what is to be read does not wrap;
where no call is running, what was appended to the tx fifo is what was removed
from the rx fifo, as much as the calls read on entry. -/
theorem serverHandleFifoEventRx_echoes {s : ServerRx (List UInt8)} (hPos : 0 < s.rxBuf.length)
    (hInt : s.rxBuf.length < 2 ^ 31) (hReturned : s.pc = .returned) {inputs : List RxInput}
    (hRun : (serverRx streamFifo true).Admits s inputs) (hGoesOn : ∀ i ∈ inputs, ¬ i.Stops) :
    (∀ before, before <+: inputs →
      ((serverRx streamFifo true).run s before).InRange ∧
        (removedBytes ((serverRx streamFifo true).trace s before)).length +
            ((serverRx streamFifo true).run s before).left =
          enteredCount ((serverRx streamFifo true).trace s before)) ∧
      (((serverRx streamFifo true).run s inputs).pc = .returned →
        appendedBytes ((serverRx streamFifo true).trace s inputs) =
            removedBytes ((serverRx streamFifo true).trace s inputs) ∧
          (removedBytes ((serverRx streamFifo true).trace s inputs)).length =
            enteredCount ((serverRx streamFifo true).trace s inputs) ∧
          s.fifo ++ arrivedBytes inputs =
            removedBytes ((serverRx streamFifo true).trace s inputs) ++
              ((serverRx streamFifo true).run s inputs).fifo) := by
  have hNone : s.pending = [] := by simp [ServerRx.pending, hReturned]
  have hZero : s.left = 0 := by simp [ServerRx.left, hReturned]
  have hSound : s.Sound s.rxBuf.length :=
    ⟨rfl, by simp [ServerRx.InRange, hReturned], hZero ▸ Nat.zero_le _,
      fun hRead => by simp [hReturned] at hRead⟩
  constructor
  · rintro before ⟨after, rfl⟩
    rw [Machine.admits_append] at hRun
    rw [List.forall_mem_append] at hGoesOn
    obtain ⟨hLast, hMoved⟩ := hSound.run hPos hInt hRun.1 hGoesOn.1
    have hCount := hMoved.count
    exact ⟨hLast.inRange, by omega⟩
  · intro hEnd
    obtain ⟨-, hMoved⟩ := hSound.run hPos hInt hRun hGoesOn
    have hNone' : ((serverRx streamFifo true).run s inputs).pending = [] := by
      simp [ServerRx.pending, hEnd]
    have hZero' : ((serverRx streamFifo true).run s inputs).left = 0 := by
      simp [ServerRx.left, hEnd]
    have hBuffer := hMoved.buffer
    have hCount := hMoved.count
    rw [hNone, hNone', List.nil_append, List.append_nil] at hBuffer
    exact ⟨hBuffer.symm, by omega, hMoved.fifo⟩

/-- A call in two rounds: three bytes queued, one more arrives, the buffer
holds two and they are sent one by one. -/
def twoRounds : List RxInput :=
  [.event, .arrive [40], .read, .send ⟨1, false⟩, .send ⟨-1, false⟩, .send ⟨1, false⟩,
    .test false, .read, .send ⟨1, false⟩, .test false]

theorem serverHandleFifoEventRx_echoes_twoRounds :
    removedBytes ((serverRx streamFifo true).trace ⟨[10, 20, 30], [0, 0], .returned, 0, 0, 0⟩
        twoRounds) = [10, 20, 30] ∧
      appendedBytes ((serverRx streamFifo true).trace ⟨[10, 20, 30], [0, 0], .returned, 0, 0, 0⟩
          twoRounds) =
        removedBytes ((serverRx streamFifo true).trace ⟨[10, 20, 30], [0, 0], .returned, 0, 0, 0⟩
          twoRounds) := by
  refine ⟨by decide +kernel, ?_⟩
  exact ((serverHandleFifoEventRx_echoes (s := ⟨[10, 20, 30], [0, 0], .returned, 0, 0, 0⟩)
    (by decide) (by decide) rfl (by decide +kernel) (by decide +kernel)).2 (by decide +kernel)).1

end DpdkPerf.UdpEcho
