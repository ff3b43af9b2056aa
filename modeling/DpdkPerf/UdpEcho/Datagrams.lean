import DpdkPerf.UdpEcho.Echo
import Mathlib.Logic.Function.Iterate

/-! The RX handler on a session of datagrams. The count of bytes it starts
with has the headers in it, and a read returns a payload alone. -/
namespace DpdkPerf.UdpEcho

def queuedBytes (header : Nat) (queue : List (List UInt8)) : Nat :=
  (queue.map fun payload => header + payload.length).sum

/-- Datagrams, of the first of which `offset` bytes have been read. The size
of a fifo is a u32. -/
structure DgramFifo (header : Nat) where
  queue : List (List UInt8)
  offset : Nat
  offset_le : ∀ payload ∈ queue.head?, offset ≤ payload.length
  fits : queuedBytes header queue < 2 ^ 32

namespace DgramFifo

variable {header : Nat}

theorem queuedBytes_cons (payload : List UInt8) (rest : List (List UInt8)) :
    queuedBytes header (payload :: rest) = header + payload.length + queuedBytes header rest :=
  List.sum_cons

/-- The first datagram, with its header, is gone. -/
def advance (f : DgramFifo header) : DgramFifo header where
  queue := f.queue.tail
  offset := 0
  offset_le := fun _ _ => Nat.zero_le _
  fits := by
    have hFits := f.fits
    cases hQueue : f.queue with
    | nil => exact Nat.two_pow_pos 32
    | cons payload rest =>
        rw [hQueue, queuedBytes_cons] at hFits
        rw [List.tail_cons]
        omega

/-- More of the first datagram has been read. -/
def seek (f : DgramFifo header) (offset : Nat)
    (h : ∀ payload ∈ f.queue.head?, offset ≤ payload.length) : DgramFifo header :=
  { f with offset := offset, offset_le := h }

/-- A datagram that does not fit is not queued. -/
def enqueue (f : DgramFifo header) (payload : List UInt8) : DgramFifo header :=
  if h : queuedBytes header (f.queue ++ [payload]) < 2 ^ 32 then
    { queue := f.queue ++ [payload]
      offset := if f.queue = [] then 0 else f.offset
      offset_le := by
        cases hQueue : f.queue with
        | nil => simp
        | cons first rest => simpa [hQueue] using f.offset_le
      fits := h }
  else f

/-- `app_recv_dgram_raw`. -/
def recvRaw (f : DgramFifo header) (n : Nat) : Int32 × List UInt8 × DgramFifo header :=
  match hQueue : f.queue with
  | [] => (0, [], f)
  | payload :: _ =>
      let bytes := (payload.drop f.offset).take n
      if hRest : f.offset + bytes.length < payload.length then
        (Int32.ofNat bytes.length, bytes, f.seek (f.offset + bytes.length) (by
          rw [hQueue]
          rintro first ⟨⟩
          exact Nat.le_of_lt hRest))
      else (Int32.ofNat bytes.length, bytes, f.advance)

/-- The payload bytes that are still to be read. -/
def remaining (f : DgramFifo header) : Nat :=
  (f.queue.map List.length).sum - f.offset

end DgramFifo

def dgramFifo (header : Nat) : RxFifo (DgramFifo header) where
  maxDequeue f := UInt32.ofNat (queuedBytes header f.queue)
  recvRaw f n := f.recvRaw n.toNat
  enqueue := DgramFifo.enqueue

section

variable {φ : Type}

/-- The input of the next step of a call. `app_send` gives its next answer,
which is at most what it is offered. -/
def nextInput (answers : Nat → Int32) (sends : Nat) (s : ServerRx φ) : RxInput :=
  match s.pc with
  | .send => .send ⟨min (answers sends) s.nRead, false⟩
  | .test => .test false
  | _ => .read

/-- A step of a call in which `time_to_stop` is never set and nothing arrives,
and the number of calls of `app_send` so far. -/
def callStep (F : RxFifo φ) (haveReturn : Bool) (answers : Nat → Int32)
    (c : ServerRx φ × Nat) : ServerRx φ × Nat :=
  if c.1.pc = .returned then c
  else ((serverRx F haveReturn).next c.1 (nextInput answers c.2 c.1),
    if c.1.pc = .send then c.2 + 1 else c.2)

end

/-- Whatever `app_send` answers, as long as it accepts data again and again,
the call returns after finitely many steps and leaves no datagram. -/
def Drains {header : Nat} (haveReturn : Bool) (s : ServerRx (DgramFifo header)) : Prop :=
  ∀ answers : Nat → Int32, (∀ n, ∃ m, n ≤ m ∧ 0 < answers m) →
    ∃ n, ((callStep (dgramFifo header) haveReturn answers)^[n] (s.enter (dgramFifo header), 0)).1.pc =
        .returned ∧
      ((callStep (dgramFifo header) haveReturn answers)^[n]
        (s.enter (dgramFifo header), 0)).1.fifo.queue = []

/-- A read returns what it takes off the payloads. -/
theorem DgramFifo.recvRaw_spec {header : Nat} (f : DgramFifo header) (k : Nat) :
    ∃ n bytes f', f.recvRaw k = (Int32.ofNat n, bytes, f') ∧ n + f'.remaining = f.remaining := by
  rw [recvRaw]
  split
  · exact ⟨0, [], f, rfl, Nat.zero_add _⟩
  · rename_i payload rest hQueue
    have hOffset : f.offset ≤ payload.length := f.offset_le payload (by rw [hQueue]; rfl)
    have hSum : (f.queue.map List.length).sum = payload.length + (rest.map List.length).sum := by
      rw [hQueue, List.map_cons, List.sum_cons]
    have hTaken : ((payload.drop f.offset).take k).length ≤ payload.length - f.offset := by
      rw [List.length_take, List.length_drop]
      exact Nat.min_le_right ..
    dsimp only
    split
    · rename_i hRest
      refine ⟨_, _, _, rfl, ?_⟩
      show _ + ((f.queue.map List.length).sum - (f.offset + _)) =
        (f.queue.map List.length).sum - f.offset
      omega
    · rename_i hAll
      refine ⟨_, _, _, rfl, ?_⟩
      show _ + ((f.queue.tail.map List.length).sum - 0) =
        (f.queue.map List.length).sum - f.offset
      rw [hQueue, List.tail_cons] at *
      omega

/-- The count is above what the reads can take off it. -/
structure ServerRx.Overcounts {header : Nat} (s : ServerRx (DgramFifo header)) : Prop where
  running : s.pc ≠ .returned
  lt : s.fifo.remaining < s.maxDequeue.toNat

theorem send_or_test (p : Prop) [Decidable p] : (if p then RxPc.send else .test) ≠ .returned := by
  split <;> simp

section

variable {header : Nat} {haveReturn : Bool} {s : ServerRx (DgramFifo header)}

/-- A read takes no more off the count than off the payloads. -/
theorem ServerRx.Overcounts.read (h : s.Overcounts) :
    (s.read (dgramFifo header) haveReturn).Overcounts := by
  obtain ⟨n, bytes, f', hRecv, hTaken⟩ := s.fifo.recvRaw_spec s.maxTransfer.toNat
  have hLt := h.lt
  have hBound := s.maxDequeue.toNat_lt
  have hValue : (UInt32.ofNat n).toNat = n := by
    rw [UInt32.toNat_ofNat', Nat.mod_eq_of_lt (by omega)]
  have hFifo : (s.read (dgramFifo header) haveReturn).fifo = f' := by
    simp only [ServerRx.read, dgramFifo, hRecv]
  have hCount : (s.read (dgramFifo header) haveReturn).maxDequeue =
      if 0 < Int32.ofNat n then s.maxDequeue - UInt32.ofNat n else s.maxDequeue := by
    simp only [ServerRx.read, dgramFifo, hRecv, Int32.toUInt32_ofNat']
  refine ⟨?_, ?_⟩
  · exact send_or_test _
  · rw [hFifo, hCount]
    split
    · rw [UInt32.toNat_sub_of_le _ _ (UInt32.le_iff_toNat_le.mpr (by omega)), hValue]
      omega
    · omega

theorem ServerRx.Overcounts.send (h : s.Overcounts) (a : SendAnswer) : (s.send a).Overcounts := by
  exact ⟨send_or_test _, h.lt⟩

/-- The test of the loop finds the count positive, and the loop goes on. -/
theorem ServerRx.Overcounts.test (h : s.Overcounts) : (s.test false).Overcounts := by
  have hMore : 0 < s.maxDequeue :=
    UInt32.lt_iff_toNat_lt.mpr (Nat.lt_of_le_of_lt (Nat.zero_le _) h.lt)
  refine ⟨?_, h.lt⟩
  simp [ServerRx.test, hMore]

/-- Once the count is above the payloads it stays so, and the call does not
return. -/
theorem ServerRx.Overcounts.callStep {answers : Nat → Int32} {sends : Nat} (h : s.Overcounts) :
    (callStep (dgramFifo header) haveReturn answers (s, sends)).1.Overcounts := by
  rw [UdpEcho.callStep, if_neg h.running]
  cases hPc : s.pc with
  | returned => exact absurd hPc h.running
  | read =>
      rw [nextInput, hPc]
      exact h.read
  | send =>
      rw [nextInput, hPc]
      exact h.send _
  | test =>
      rw [nextInput, hPc]
      exact h.test

/-- With a datagram queued the call never returns. -/
theorem never_returns (hHeader : 0 < header) (hQueued : s.fifo.queue ≠ [])
    (answers : Nat → Int32) (n : Nat) :
    ((UdpEcho.callStep (dgramFifo header) haveReturn answers)^[n]
      (s.enter (dgramFifo header), 0)).1.Overcounts := by
  have hPayloads (queue : List (List UInt8)) :
      (queue.map List.length).sum + header * queue.length = queuedBytes header queue := by
    induction queue with
    | nil => rfl
    | cons payload rest ih =>
        rw [List.map_cons, List.sum_cons, List.length_cons, DgramFifo.queuedBytes_cons,
          Nat.mul_succ]
        omega
  have hHeaders : 0 < header * s.fifo.queue.length :=
    Nat.mul_pos hHeader (List.length_pos_of_ne_nil hQueued)
  have hValue : (UInt32.ofNat (queuedBytes header s.fifo.queue)).toNat =
      queuedBytes header s.fifo.queue := by
    rw [UInt32.toNat_ofNat', Nat.mod_eq_of_lt s.fifo.fits]
  have hLt : s.fifo.remaining < queuedBytes header s.fifo.queue := by
    have hSum := hPayloads s.fifo.queue
    rw [DgramFifo.remaining]
    omega
  have hPositive : UInt32.ofNat (queuedBytes header s.fifo.queue) ≠ 0 := by
    intro hZero
    rw [hZero] at hValue
    have hNat : (0 : UInt32).toNat = 0 := rfl
    omega
  have hEnter : (s.enter (dgramFifo header)).Overcounts := by
    refine ⟨?_, ?_⟩
    · simp [ServerRx.enter, dgramFifo, hPositive]
    · show s.fifo.remaining < (UInt32.ofNat (queuedBytes header s.fifo.queue)).toNat
      rw [hValue]
      exact hLt
  induction n with
  | zero => exact hEnter
  | succ n ih =>
      rw [Function.iterate_succ_apply']
      exact ih.callStep

/-- A call drains the fifo if and only if there is nothing in it. -/
theorem serverHandleFifoEventRx_drains_iff (hHeader : 0 < header) :
    Drains haveReturn s ↔ s.fifo.queue = [] := by
  constructor
  · intro hDrains
    by_contra hQueued
    obtain ⟨n, hReturned, -⟩ := hDrains (fun _ => 1) (fun n => ⟨n, Nat.le_refl n, by decide⟩)
    exact (never_returns hHeader hQueued (fun _ => 1) n).running hReturned
  · intro hEmpty answers _
    have hZero : UInt32.ofNat (queuedBytes header s.fifo.queue) = 0 := by
      rw [hEmpty]
      rfl
    exact ⟨0, by simp [ServerRx.enter, dgramFifo, hZero], hEmpty⟩

end

/-- An event that was handled already. -/
theorem serverHandleFifoEventRx_drains_iff_empty :
    Drains true (⟨⟨[], 0, fun _ h => by simp at h, by decide⟩, [0, 0, 0, 0], .returned, 0, 0, 0⟩ :
        ServerRx (DgramFifo 16)) ↔ ([] : List (List UInt8)) = [] :=
  serverHandleFifoEventRx_drains_iff (by decide)

/-- One datagram of two bytes is read and sent back, and the call goes on. -/
theorem not_drains :
    ¬ Drains true (⟨⟨[[1, 2]], 0, fun _ _ => Nat.zero_le _, by decide⟩, [0, 0, 0, 0], .returned,
      0, 0, 0⟩ : ServerRx (DgramFifo 16)) := by
  intro hDrains
  obtain ⟨n, hReturned, -⟩ := hDrains (fun _ => 1) (fun n => ⟨n, Nat.le_refl n, by decide⟩)
  exact (never_returns (by decide) (by simp) (fun _ => 1) n).running hReturned

end DpdkPerf.UdpEcho
