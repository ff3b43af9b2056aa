import DpdkPerf.Machine.Relay
import DpdkPerf.UdpEcho.Echo
import DpdkPerf.UdpEcho.SendData

/-! The client and the server of udp-echo over a session that is a stream: the
client sends its pattern and reads what comes back between its chunks, and the
server echoes. VPP carries the bytes of each direction in order. -/
namespace DpdkPerf.UdpEcho

/-- `recvDue` holds from `send_test_chunk` up to `recv_test_chunk`. On the way
is what is in a tx fifo or in VPP, and for the client also in its rx fifo. -/
structure Exchange where
  client : SendData
  recvDue : Bool
  received : List UInt8
  toServer : List UInt8
  server : ServerRx (List UInt8)
  toClient : List UInt8

inductive ExchangeInput where
  | client (i : SendInput)
  /-- `recv_test_chunk`, between two chunks or after the last, and how many
  bytes `app_recv` finds. -/
  | recv (n : Nat)
  /-- VPP puts bytes in the rx fifo of the server. -/
  | deliver (n : Nat)
  | server (i : RxInput)
  deriving DecidableEq, Repr

/-- The step comes behind `recv_test_chunk`. -/
def SendInput.followsRecv : SendInput → Bool
  | .after _ => true
  | _ => false

/-- The bytes that a step of the client appends to its tx fifo. -/
def SendData.appended (s : SendData) : SendInput → List UInt8
  | .chunk _ written =>
      if 0 < written then
        (connectTestData.drop s.testBufOffset.toNat).take written.toNatClampNeg
      else []
  | _ => []

/-- What the client has sent grows at its end. -/
theorem SendData.stream_next (s : SendData) (i : SendInput) :
    (clientSendData.next s i).stream = s.stream ++ s.appended i := by
  cases i with
  | test _ | after _ => exact (List.append_nil _).symm
  | chunk enqSpace written =>
      change (s.sendTestChunk written).stream = _
      unfold SendData.sendTestChunk SendData.appended
      by_cases hPos : 0 < written
      · simp only [if_pos hPos]
      · simp only [if_neg hPos, List.append_nil]

namespace Exchange

variable (fifoSize : Nat)

/-- The reads of the client go to `rx_buf`, which is as long as the pattern.
`time_to_stop` is never set in the server. -/
def Enabled (s : Exchange) : ExchangeInput → Prop
  | .client i =>
      clientSendData.enabled s.client i ∧ (i.followsRecv = true → s.recvDue = false)
  | .recv n =>
      (s.recvDue = true ∨ s.client.pc = .done) ∧ n ≤ testBufLen ∧ n ≤ s.toClient.length
  | .deliver n => n ≤ s.toServer.length ∧ s.server.fifo.length + n ≤ fifoSize
  | .server i => (serverRx streamFifo true).enabled s.server i ∧ ¬ i.Stops ∧ i.arrived = []

def next (s : Exchange) : ExchangeInput → Exchange
  | .client i =>
      { s with
        client := clientSendData.next s.client i
        recvDue := match i with
          | .chunk _ _ => true
          | _ => s.recvDue
        toServer := s.toServer ++ s.client.appended i }
  | .recv n =>
      { s with
        recvDue := false
        received := s.received ++ s.toClient.take n
        toClient := s.toClient.drop n }
  | .deliver n =>
      { s with
        toServer := s.toServer.drop n
        server := (serverRx streamFifo true).next s.server (.arrive (s.toServer.take n)) }
  | .server i =>
      { s with
        server := (serverRx streamFifo true).next s.server i
        toClient := s.toClient ++ ((serverRx streamFifo true).output s.server i).appendedBytes }

/-- Before the first chunk. The server waits for an event. -/
def start (total : UInt64) (rxBuf : List UInt8) : Exchange where
  client := .start total
  recvDue := false
  received := []
  toServer := []
  server := ⟨[], rxBuf, .returned, 0, 0, 0⟩
  toClient := []

/-- What the client has sent and not got back, in the order it will come. -/
def inFlight (s : Exchange) : List UInt8 :=
  s.toClient ++ (s.server.pending ++ (s.server.fifo ++ s.toServer))

end Exchange

/-- Runs of the client and the server, with a server fifo of `fifoSize`. -/
def exchange (fifoSize : Nat) : Machine Exchange ExchangeInput Unit where
  enabled := Exchange.Enabled fifoSize
  next := Exchange.next
  output _ _ := ()

instance (fifoSize : Nat) (s : Exchange) :
    (i : ExchangeInput) → Decidable ((exchange fifoSize).enabled s i)
  | .client i =>
      inferInstanceAs (Decidable (clientSendData.enabled s.client i ∧
        (i.followsRecv = true → s.recvDue = false)))
  | .recv _ => inferInstanceAs (Decidable ((_ ∨ _) ∧ _ ∧ _))
  | .deliver _ => inferInstanceAs (Decidable (_ ∧ _))
  | .server i =>
      inferInstanceAs (Decidable ((serverRx streamFifo true).enabled s.server i ∧ ¬ i.Stops ∧
        i.arrived = []))

namespace Exchange

variable {fifoSize length : Nat} {total : UInt64} {s : Exchange}

/-- Each stage from the client round to the client is a relay. -/
structure Carries (s s' : Exchange) (received sent : List UInt8) : Prop where
  carried : ∃ delivered removed appended,
    Relays s.toServer sent delivered s'.toServer ∧
    Relays s.server.fifo delivered removed s'.server.fifo ∧
    Relays s.server.pending removed appended s'.server.pending ∧
    Relays s.toClient appended received s'.toClient
  received_eq : s'.received = s.received ++ received
  stream_eq : s'.client.stream = s.client.stream ++ sent

/-- The stages in a row. -/
theorem Carries.relays {s s' : Exchange} {received sent : List UInt8}
    (h : s.Carries s' received sent) : Relays s.inFlight sent received s'.inFlight := by
  obtain ⟨delivered, removed, appended, hOut, hFifo, hBuffer, hBack⟩ := h.carried
  exact hBack.feed (hBuffer.feed (hFifo.feed hOut))

/-- The counters of the client are right, the buffer of the server is used in
range, and every byte sent is back or on the way. -/
structure Sound (fifoSize length : Nat) (total : UInt64) (s : Exchange) : Prop where
  client : s.client.Sound total
  server : s.server.Sound length
  fifo_le : s.server.fifo.length ≤ fifoSize
  carried : Relays [] s.client.stream s.received s.inFlight

/-- Nothing is on the way at the start. -/
theorem sound_start (total : UInt64) (rxBuf : List UInt8) :
    (start total rxBuf).Sound fifoSize rxBuf.length total where
  client := SendData.sound_start total
  server := ⟨rfl, trivial, Nat.zero_le _, fun h => by cases h⟩
  fifo_le := Nat.zero_le _
  carried := rfl

/-- Every step carries bytes from one place to the next, and changes none. -/
theorem Sound.carries (h : s.Sound fifoSize length total) (hPos : 0 < length)
    (hInt : length < 2 ^ 31) {i : ExchangeInput} (hEnabled : s.Enabled fifoSize i) :
    ∃ received sent, s.Carries (s.next i) received sent := by
  cases i with
  | client i =>
      refine ⟨[], s.client.appended i, ⟨[], [], [], .push _ _, .refl _, .refl _, .refl _⟩,
        (List.append_nil _).symm, s.client.stream_next i⟩
  | recv n =>
      exact ⟨s.toClient.take n, [], ⟨[], [], [], .refl _, .refl _, .refl _, .pop _ n⟩, rfl,
        (List.append_nil _).symm⟩
  | deliver n =>
      obtain ⟨-, hMoved⟩ := ServerRx.sound_arrive h.server (s.toServer.take n)
      exact ⟨[], [], ⟨s.toServer.take n, [], [], .pop _ n, hMoved.fifo, hMoved.buffer, .refl _⟩,
        (List.append_nil _).symm, (List.append_nil _).symm⟩
  | server i =>
      obtain ⟨hRuns, hGoesOn, hNone⟩ := hEnabled
      obtain ⟨-, hMoved⟩ := h.server.next hPos hInt hRuns hGoesOn
      rw [hNone] at hMoved
      exact ⟨[], [], ⟨[], _, _, .refl _, hMoved.fifo, hMoved.buffer, .push _ _⟩,
        (List.append_nil _).symm, (List.append_nil _).symm⟩

/-- A step of either side, or of the transport, keeps the exchange sound. -/
theorem Sound.next (h : s.Sound fifoSize length total) (hPos : 0 < length)
    (hInt : length < 2 ^ 31) {i : ExchangeInput} (hEnabled : s.Enabled fifoSize i) :
    (s.next i).Sound fifoSize length total := by
  obtain ⟨received, sent, hCarries⟩ := h.carries hPos hInt hEnabled
  have hCarried : Relays [] (s.next i).client.stream (s.next i).received (s.next i).inFlight := by
    rw [hCarries.stream_eq, hCarries.received_eq]
    exact h.carried.trans hCarries.relays
  cases i with
  | client i => exact ⟨h.client.next hEnabled.1, h.server, h.fifo_le, hCarried⟩
  | recv n => exact ⟨h.client, h.server, h.fifo_le, hCarried⟩
  | deliver n =>
      obtain ⟨hSound, -⟩ := ServerRx.sound_arrive h.server (s.toServer.take n)
      refine ⟨h.client, hSound, ?_, hCarried⟩
      change (s.server.fifo ++ s.toServer.take n).length ≤ fifoSize
      obtain ⟨hQueued, hRoom⟩ := hEnabled
      rw [List.length_append, List.length_take, Nat.min_eq_left hQueued]
      exact hRoom
  | server i =>
      obtain ⟨hRuns, hGoesOn, hNone⟩ := hEnabled
      obtain ⟨hSound, hMoved⟩ := h.server.next hPos hInt hRuns hGoesOn
      refine ⟨h.client, hSound, ?_, hCarried⟩
      have hFifo := h.fifo_le
      have hLength := Relays.length_eq hMoved.fifo
      rw [hNone] at hLength
      change ((serverRx streamFifo true).next s.server i).fifo.length ≤ fifoSize
      rw [List.length_nil] at hLength
      omega

theorem Sound.run {rxBuf : List UInt8} {inputs : List ExchangeInput} (hPos : 0 < rxBuf.length)
    (hInt : rxBuf.length < 2 ^ 31) (hRun : (exchange fifoSize).Admits (start total rxBuf) inputs) :
    ((exchange fifoSize).run (start total rxBuf) inputs).Sound fifoSize rxBuf.length total :=
  hRun.invariant_run (fun _ _ hEnabled h => h.next hPos hInt hEnabled) (sound_start total rxBuf)

end Exchange

/-- However the client, VPP and the server interleave, what the client has got
back is the start of its own pattern, byte `k` being `k mod 256`, and what it
lacks is on the way, in order: no byte is lost, repeated or changed. -/
theorem exchange_echoes {fifoSize : Nat} {total : UInt64} {rxBuf : List UInt8}
    {inputs : List ExchangeInput} (hPos : 0 < rxBuf.length) (hInt : rxBuf.length < 2 ^ 31)
    (hRun : (exchange fifoSize).Admits (.start total rxBuf) inputs) :
    let s := (exchange fifoSize).run (.start total rxBuf) inputs
    s.received ++ s.inFlight = s.client.stream ∧
      s.received.length + s.inFlight.length = s.client.bytesSent.toNat ∧
      s.client.bytesSent.toNat ≤ total.toNat ∧
      ∀ k < s.received.length, s.received[k]? = some (UInt8.ofNat (k % 256)) := by
  intro s
  have hSound : s.Sound fifoSize rxBuf.length total := Exchange.Sound.run hPos hInt hRun
  clear_value s
  have hStream : s.received ++ s.inFlight = s.client.stream := hSound.carried.symm
  have hLength : s.client.stream.length = s.client.bytesSent.toNat := by
    rw [hSound.client.stream_eq, length_segment]
  have hSum := hSound.client.sum_eq
  have hBack : s.received.length + s.inFlight.length = s.client.bytesSent.toNat := by
    rw [← hLength, ← hStream, List.length_append]
  refine ⟨hStream, hBack, by omega, fun k hk => ?_⟩
  have hByte := hSound.client.getElem?_stream (k := k) (by omega)
  rwa [← hStream, List.getElem?_append_left hk] at hByte

/-- A chunk written in part goes to the server and one byte of it comes back. -/
def partialExchange : List ExchangeInput :=
  [.client (.test false), .client (.chunk 4 3), .deliver 2, .server .event, .recv 0,
    .server .read, .server (.send ⟨1, false⟩), .client (.after false), .client (.test false),
    .client (.chunk 4 2), .recv 1]

theorem exchange_echoes_partial :
    ((exchange 4).run (.start 5 [0, 0, 0]) partialExchange).received ++
        ((exchange 4).run (.start 5 [0, 0, 0]) partialExchange).inFlight =
      ((exchange 4).run (.start 5 [0, 0, 0]) partialExchange).client.stream := by
  have hRun : (exchange 4).Admits (.start 5 [0, 0, 0]) partialExchange := by
    decide +kernel
  exact (exchange_echoes (by decide) (by decide) hRun).1

namespace Exchange

variable {fifoSize length : Nat} {total : UInt64} {s : Exchange}

/-- The server gets on within its loops. -/
def pcWork : RxPc → Nat
  | .send => 0
  | .read => 2
  | .returned => 3
  | .test => 4

/-- What is still to be done for the bytes in flight. A byte costs less the
further it has come. -/
def work (s : Exchange) : Nat :=
  8 * s.toServer.length + 7 * s.server.fifo.length + 6 * s.server.pending.length +
    s.toClient.length + pcWork s.server.pc

end Exchange

end DpdkPerf.UdpEcho
