import DpdkPerf.Machine.Run
import Mathlib.Data.Nat.Periodic

/-! What the client of udp-echo sends: chunks of one buffer, each started where
the bytes sent so far leave off in it. The reads between two chunks go to
another buffer and are left out. -/
namespace DpdkPerf.UdpEcho

section Segment

variable {α : Type*}

/-- A part of a sequence. -/
def segment (f : Nat → α) (start length : Nat) : List α :=
  (List.range' start length).map f

@[simp] theorem length_segment (f : Nat → α) (start length : Nat) :
    (segment f start length).length = length := by
  simp [segment]

/-- Two stretches of a sequence that follow on each other are one. -/
theorem segment_append (f : Nat → α) (start first second : Nat) :
    segment f start first ++ segment f (start + first) second =
      segment f start (first + second) := by
  have hRange : List.range' start first ++ List.range' (start + 1 * first) second =
      List.range' start (first + second) := List.range'_append
  rw [segment, segment, segment, ← List.map_append, ← hRange, Nat.one_mul]

theorem getElem?_segment (f : Nat → α) {start length k : Nat} (h : k < length) :
    (segment f start length)[k]? = some (f (start + k)) := by
  simp [segment, h]

/-- A slice of a part. -/
theorem take_drop_segment (f : Nat → α) {length offset count : Nat}
    (h : offset + count ≤ length) :
    ((segment f 0 length).drop offset).take count = segment f offset count := by
  have hSplit : segment f 0 length =
      segment f 0 offset ++ (segment f offset count ++
        segment f (offset + count) (length - (offset + count))) := by
    have hRest := segment_append f offset count (length - (offset + count))
    have hAll := segment_append f 0 offset (count + (length - (offset + count)))
    rw [Nat.zero_add] at hAll
    rw [hRest, hAll]
    congr 1
    omega
  rw [hSplit, List.drop_left' (length_segment f 0 offset),
    List.take_left' (length_segment f offset count)]

/-- A part may start a period earlier. -/
theorem segment_mod {f : Nat → α} {period : Nat} (h : Function.Periodic f period)
    (start length : Nat) : segment f (start % period) length = segment f start length := by
  apply List.ext_getElem?
  intro k
  by_cases hk : k < length
  · rw [getElem?_segment f hk, getElem?_segment f hk, ← h.map_mod_nat (start + k),
      ← h.map_mod_nat (start % period + k), Nat.mod_add_mod]
  · rw [List.getElem?_eq_none (by simpa using hk), List.getElem?_eq_none (by simpa using hk)]

end Segment

/-- The length that `vec_validate_aligned` makes of `connect_test_data`. -/
def testBufLen : Nat := 1024 * 1024

/-- `i & 0xff`. -/
def testByte (i : Nat) : UInt8 := UInt8.ofNat (i &&& 0xff)

def connectTestData : List UInt8 := segment testByte 0 testBufLen

/-- Where `client_send_data` stands: at the test of the loop, in front of
`send_test_chunk`, behind it, or outside of the loop. -/
inductive SendPc where
  | test
  | chunk
  | after
  | done
  deriving DecidableEq, Repr

/-- `stream` is what has been appended to the tx fifo. -/
structure SendData where
  bytesSent : UInt64
  bytesToSend : UInt64
  totalToSend : UInt64
  pc : SendPc
  stream : List UInt8

inductive SendInput where
  | test (timeToStop : Bool)
  /-- What the fifo has room for, and what `app_send` returns. -/
  | chunk (enqSpace : UInt32) (written : Int32)
  | after (timeToStop : Bool)
  deriving DecidableEq, Repr

namespace SendData

def start (bytesToSend : UInt64) : SendData :=
  { bytesSent := 0
    bytesToSend := bytesToSend
    totalToSend := bytesToSend
    pc := .test
    stream := [] }

variable (s : SendData)

def testBufOffset : UInt64 := s.bytesSent % UInt64.ofNat testBufLen

def bytesThisChunk (enqSpace : UInt32) : UInt64 :=
  min (min (UInt64.ofNat testBufLen - s.testBufOffset) s.bytesToSend) enqSpace.toUInt64

/-- `send_test_chunk`. A positive `written` is converted to u64. -/
def sendTestChunk (written : Int32) : SendData :=
  if 0 < written then
    { s with
      bytesToSend := s.bytesToSend - UInt64.ofNat written.toNatClampNeg
      bytesSent := s.bytesSent + UInt64.ofNat written.toNatClampNeg
      pc := .after
      stream := s.stream ++
        (connectTestData.drop s.testBufOffset.toNat).take written.toNatClampNeg }
  else { s with pc := .after }

end SendData

/-- The send loop of `client_send_data`. -/
def clientSendData : Machine SendData SendInput Unit where
  enabled s
    | .test _ => s.pc = .test
    | .chunk enqSpace written => s.pc = .chunk ∧ written.toInt ≤ (s.bytesThisChunk enqSpace).toNat
    | .after _ => s.pc = .after
  next s
    | .test timeToStop =>
        { s with pc := if ¬ timeToStop ∧ s.bytesToSend ≠ 0 then .chunk else .done }
    | .chunk _ written => s.sendTestChunk written
    | .after timeToStop => { s with pc := if timeToStop then .done else .test }
  output _ _ := ()

instance (s : SendData) : (i : SendInput) → Decidable (clientSendData.enabled s i)
  | .test _ => inferInstanceAs (Decidable (s.pc = .test))
  | .chunk enqSpace written => inferInstanceAs
      (Decidable (s.pc = .chunk ∧ written.toInt ≤ (s.bytesThisChunk enqSpace).toNat))
  | .after _ => inferInstanceAs (Decidable (s.pc = .after))

/-- The slice offered lies in the buffer, and no more is taken off
`bytes_to_send` than it holds. -/
def ChunkInRange (s : SendData) : SendInput → Prop
  | .chunk enqSpace written =>
      s.testBufOffset.toNat + (s.bytesThisChunk enqSpace).toNat ≤ connectTestData.length ∧
        written.toInt ≤ s.bytesToSend.toNat
  | _ => True

/-- The counters add up and the stream is the pattern up to `bytes_sent`. -/
structure SendData.Sound (total : UInt64) (s : SendData) : Prop where
  total_eq : s.totalToSend = total
  sum_eq : s.bytesSent.toNat + s.bytesToSend.toNat = total.toNat
  stream_eq : s.stream = segment testByte 0 s.bytesSent.toNat

theorem length_connectTestData : connectTestData.length = testBufLen := length_segment ..

theorem testByte_eq (i : Nat) : testByte i = UInt8.ofNat (i % 256) := by
  have hMask : i &&& 0xff = i % 256 := Nat.and_two_pow_sub_one_eq_mod i 8
  rw [testByte, hMask]

/-- The pattern goes on across the end of the buffer. -/
theorem periodic_testByte : Function.Periodic testByte testBufLen := by
  intro i
  rw [testByte_eq, testByte_eq, testBufLen]
  congr 1
  omega

namespace SendData

variable {s : SendData} {total : UInt64}

theorem toNat_testBufOffset : s.testBufOffset.toNat = s.bytesSent.toNat % testBufLen := by
  rw [testBufOffset, UInt64.toNat_mod]
  rfl

/-- A chunk stays inside the buffer and within what is left to send. -/
theorem bytesThisChunk_le (enqSpace : UInt32) :
    s.testBufOffset.toNat + (s.bytesThisChunk enqSpace).toNat ≤ testBufLen ∧
      (s.bytesThisChunk enqSpace).toNat ≤ s.bytesToSend.toNat := by
  have hOffset : s.testBufOffset.toNat < testBufLen := by
    rw [toNat_testBufOffset]
    exact Nat.mod_lt _ (by decide)
  have hLength : (UInt64.ofNat testBufLen).toNat = testBufLen := by decide
  have hRest : (UInt64.ofNat testBufLen - s.testBufOffset).toNat =
      testBufLen - s.testBufOffset.toNat := by
    rw [UInt64.toNat_sub_of_le _ _ (UInt64.le_iff_toNat_le.mpr (by omega)), hLength]
  rw [bytesThisChunk, UInt64.toNat_min, UInt64.toNat_min, hRest]
  omega

theorem sound_start (total : UInt64) : (start total).Sound total where
  total_eq := rfl
  sum_eq := by simp [start]
  stream_eq := rfl

/-- A chunk that is written in part or not at all. -/
theorem Sound.sendTestChunk (h : s.Sound total) {enqSpace : UInt32} {written : Int32}
    (hWritten : written.toInt ≤ (s.bytesThisChunk enqSpace).toNat) :
    (s.sendTestChunk written).Sound total := by
  by_cases hPos : 0 < written
  · have hNext : s.sendTestChunk written =
        { s with
          bytesToSend := s.bytesToSend - UInt64.ofNat written.toNatClampNeg
          bytesSent := s.bytesSent + UInt64.ofNat written.toNatClampNeg
          pc := .after
          stream := s.stream ++
            (connectTestData.drop s.testBufOffset.toNat).take written.toNatClampNeg } :=
      if_pos hPos
    obtain ⟨hSlice, hToSend⟩ := s.bytesThisChunk_le enqSpace
    have hNat : written.toNatClampNeg ≤ (s.bytesThisChunk enqSpace).toNat := by
      rw [Int32.toInt_eq_toNatClampNeg (Int32.le_of_lt hPos)] at hWritten
      exact Int.ofNat_le.mp hWritten
    have hSum := h.sum_eq
    have hTotal := total.toNat_lt
    have hValue : (UInt64.ofNat written.toNatClampNeg).toNat = written.toNatClampNeg := by
      rw [UInt64.toNat_ofNat', Nat.mod_eq_of_lt (by omega)]
    have hSent : (s.bytesSent + UInt64.ofNat written.toNatClampNeg).toNat =
        s.bytesSent.toNat + written.toNatClampNeg := by
      rw [UInt64.toNat_add, hValue, Nat.mod_eq_of_lt (by omega)]
    have hLeft : (s.bytesToSend - UInt64.ofNat written.toNatClampNeg).toNat =
        s.bytesToSend.toNat - written.toNatClampNeg := by
      rw [UInt64.toNat_sub_of_le _ _ (UInt64.le_iff_toNat_le.mpr (by omega)), hValue]
    rw [hNext]
    refine ⟨h.total_eq, ?_, ?_⟩
    · show (s.bytesSent + _).toNat + (s.bytesToSend - _).toNat = total.toNat
      rw [hSent, hLeft]
      omega
    · show s.stream ++ _ = segment testByte 0 (s.bytesSent + _).toNat
      rw [hSent, h.stream_eq, connectTestData, take_drop_segment testByte (by omega),
        toNat_testBufOffset, segment_mod periodic_testByte, ← segment_append, Nat.zero_add]
  · rw [SendData.sendTestChunk, if_neg hPos]
    exact ⟨h.total_eq, h.sum_eq, h.stream_eq⟩

/-- A chunk that is sent in part or not at all keeps the counts right. -/
theorem Sound.next (h : s.Sound total) {i : SendInput} (hEnabled : clientSendData.enabled s i) :
    (clientSendData.next s i).Sound total := by
  cases i with
  | test timeToStop => exact ⟨h.total_eq, h.sum_eq, h.stream_eq⟩
  | chunk enqSpace written => exact h.sendTestChunk hEnabled.2
  | after timeToStop => exact ⟨h.total_eq, h.sum_eq, h.stream_eq⟩

/-- Byte `k` of the stream is `k mod 256`. -/
theorem Sound.getElem?_stream (h : s.Sound total) {k : Nat} (hk : k < s.bytesSent.toNat) :
    s.stream[k]? = some (UInt8.ofNat (k % 256)) := by
  rw [h.stream_eq, getElem?_segment testByte hk, Nat.zero_add, testByte_eq]

end SendData

/-- Every chunk that is offered lies in the buffer. -/
theorem chunkInRange {s : SendData} {i : SendInput} (hEnabled : clientSendData.enabled s i) :
    ChunkInRange s i := by
  cases i with
  | test timeToStop => trivial
  | chunk enqSpace written =>
      obtain ⟨hSlice, hToSend⟩ := s.bytesThisChunk_le enqSpace
      have hWritten := hEnabled.2
      exact ⟨Nat.le_trans hSlice (Nat.le_of_eq length_connectTestData.symm), by omega⟩
  | after timeToStop => trivial

/-- At every point of the send loop the counters add up to the total, and what
has been written is the pattern of `bytes_sent` bytes; every chunk lies in the
buffer. -/
theorem clientSendData_stream (total : UInt64) {inputs : List SendInput}
    (hRun : clientSendData.Admits (.start total) inputs) :
    clientSendData.Always (fun s =>
        s.totalToSend = total ∧ s.bytesSent.toNat + s.bytesToSend.toNat = s.totalToSend.toNat ∧
          s.stream.length = s.bytesSent.toNat ∧
          ∀ k < s.bytesSent.toNat, s.stream[k]? = some (UInt8.ofNat (k % 256)))
        (.start total) inputs ∧
      clientSendData.Meets ChunkInRange (.start total) inputs := by
  constructor
  · refine hRun.always (I := SendData.Sound total) (fun s i hEnabled h => h.next hEnabled)
      (SendData.sound_start total) (fun s h => ?_)
    refine ⟨h.total_eq, ?_, ?_, fun k hk => h.getElem?_stream hk⟩
    · rw [h.total_eq, h.sum_eq]
    · rw [h.stream_eq, length_segment]
  · exact hRun.mono fun s i hEnabled => chunkInRange hEnabled

/-- Two chunks, the first written in part, when there is room for four bytes. -/
theorem clientSendData_stream_partial :
    clientSendData.Always (fun s =>
        s.totalToSend = 5 ∧ s.bytesSent.toNat + s.bytesToSend.toNat = s.totalToSend.toNat ∧
          s.stream.length = s.bytesSent.toNat ∧
          ∀ k < s.bytesSent.toNat, s.stream[k]? = some (UInt8.ofNat (k % 256)))
        (.start 5) [.test false, .chunk 4 3, .after false, .test false, .chunk 4 2] ∧
      clientSendData.Meets ChunkInRange (.start 5)
        [.test false, .chunk 4 3, .after false, .test false, .chunk 4 2] := by
  exact clientSendData_stream 5 (by decide +kernel)

end DpdkPerf.UdpEcho
