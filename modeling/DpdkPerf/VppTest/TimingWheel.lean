import DpdkPerf.Machine.Run
import DpdkPerf.Machine.Timers

/-! The test of the timing wheel: events are put into a wheel, the wheel is
advanced round by round, and what it answers is compared with the times of the
events. The wheel itself is not part of the program, so its answers are given
to the rounds. The errors in seconds and what is printed are left out. -/
namespace DpdkPerf.VppTest

/-- What the command line and `timing_wheel_init` fix. -/
structure WheelOptions where
  syntheticTime : Bool
  validate : Bool
  /-- `tm->total_iterate_time != 0`. -/
  iterTime : Bool
  log2ClocksPerBin : Nat
  /-- `1 << w->log2_clocks_per_bin` is the shift of an `int`. -/
  log2_lt : log2ClocksPerBin < 31

/-- What `set_event` draws: a random number in synthetic time, and in real
time the clocks that are added. -/
structure Draw where
  randomU32 : UInt32
  delay : UInt64
  deriving DecidableEq, Repr

/-- The integers of `test_timing_wheel_main`, for `n` events. -/
structure TestTimingWheel (n : Nat) where
  nIter : Nat
  events : Fin n → Nat
  iter : Nat
  nExpired : UInt64
  nEventsInWheel : UInt64
  /-- `expired_bitmap[1]`. -/
  expiredBitmap : Finset (Fin n)
  errorHist : List UInt32

/-- What a round is given: the CPU clock, the answer of
`timing_wheel_advance`, where the wheel stands after it, what `set_event`
draws for an event that has expired, and whether the time is up. -/
structure Round (n : Nat) where
  clock : UInt64
  expired : List (Fin n)
  minNextTime : UInt64
  currentTimeIndex : UInt64
  draw : Fin n → Draw
  timeUp : Bool

/-- What a round checks, in this order. -/
inductive Check (n : Nat) where
  /-- `min_next_time[0] > tm->events[i]`. -/
  | nextAfterExpired (i : Fin n)
  /-- `min_next_time[0] <= tm->events[i]`. -/
  | nextUpToPending (i : Fin n)
  /-- Event must be scheduled in correct bin. -/
  | correctBin (j : Fin n)
  /-- `is_expired == is_expired_w`. -/
  | isExpired (i : Fin n)
  /-- `min next time wrong`. -/
  | minNextTime
  deriving DecidableEq, Repr

/-- `~0`. -/
def maxTime : Nat := 2 ^ 64 - 1

variable {n : Nat} (o : WheelOptions) (zvec : Int → Nat)

def WheelOptions.bin (time : Nat) : Nat := time >>> o.log2ClocksPerBin

/-- The time that `set_event` gives an event. In synthetic time the division by
an `n_iter` of zero traps; that is in `WheelRun.start`, as the loop calls it only
with a positive one. -/
def setEvent (nIter : Nat) (currentTimeIndex : UInt64) (draw : Draw) : Nat :=
  let cpuTime := (currentTimeIndex.toNat <<< o.log2ClocksPerBin) % 2 ^ 64
  (cpuTime + if o.syntheticTime then draw.randomU32.toNat % nIter else draw.delay.toNat) % 2 ^ 64

def vecValidate (v : List UInt32) (i : Nat) : List UInt32 :=
  v ++ List.replicate (i + 1 - v.length) 0

/-- `error_hist[idt] += 1`, with room made for it. -/
def countError (errorHist : List UInt32) (idt : Nat) : List UInt32 :=
  (vecValidate errorHist idt).modify idt (· + 1)

/-- The checks of a round, those of the bin in synthetic time only. -/
def Round.checks (r : Round n) : List (Check n) :=
  (if o.validate then
      (List.finRange n).flatMap fun i => [.nextAfterExpired i, .nextUpToPending i] else []) ++
    (if o.syntheticTime then r.expired.map .correctBin else []) ++
    (if o.validate then (List.finRange n).map .isExpired else []) ++ [.minNextTime]

namespace TestTimingWheel

variable (t : TestTimingWheel n) (r : Round n)

def cpuTime : Nat :=
  if o.syntheticTime then (t.iter <<< o.log2ClocksPerBin) % 2 ^ 64 else r.clock.toNat

/-- The condition of the loop. -/
def Running : Prop := t.iter < t.nIter ∨ 0 < t.nEventsInWheel

instance : Decidable t.Running := inferInstanceAs (Decidable (_ ∨ _))

/-- `expired_bitmap[1]` with the answer of the round. -/
def bitmapAfter : Finset (Fin n) := t.expiredBitmap ∪ r.expired.toFinset

/-- `is_expired`, by the time of the event. -/
def IsExpired (i : Fin n) : Prop := o.bin (t.events i) ≤ o.bin (t.cpuTime o r)

instance (i : Fin n) : Decidable (t.IsExpired o r i) := inferInstanceAs (Decidable (_ ≤ _))

/-- `dt_cpu`, an i64. -/
def dtCpu (j : Fin n) : Int := ((t.cpuTime o r : Int) - t.events j).bmod (2 ^ 64)

/-- `min_next_time[1]`. -/
def minNextTime : Nat :=
  (List.finRange n).foldl
    (fun next i => if i ∈ t.bitmapAfter r then next else min next (t.events i)) maxTime

def CheckHolds : Check n → Prop
  | .nextAfterExpired i => t.IsExpired o r i → t.events i < r.minNextTime.toNat
  | .nextUpToPending i => ¬ t.IsExpired o r i → r.minNextTime.toNat ≤ t.events i
  | .correctBin j => 0 ≤ t.dtCpu o r j ∧ t.dtCpu o r j ≤ 1 <<< o.log2ClocksPerBin
  | .isExpired i => t.IsExpired o r i ↔ i ∈ t.bitmapAfter r
  | .minNextTime => r.minNextTime.toNat = t.minNextTime r

instance : (c : Check n) → Decidable (t.CheckHolds o r c)
  | .nextAfterExpired i =>
      inferInstanceAs (Decidable (t.IsExpired o r i → t.events i < r.minNextTime.toNat))
  | .nextUpToPending i =>
      inferInstanceAs (Decidable (¬ t.IsExpired o r i → r.minNextTime.toNat ≤ t.events i))
  | .correctBin _ => inferInstanceAs (Decidable (_ ∧ _))
  | .isExpired i => inferInstanceAs (Decidable (t.IsExpired o r i ↔ i ∈ t.bitmapAfter r))
  | .minNextTime => inferInstanceAs (Decidable (_ = _))

/-- The first check that fails aborts the test. -/
def firstFailed : Option (Check n) := (r.checks o).find? fun c => ¬ t.CheckHolds o r c

/-- `tm->n_iter` once the time is up. -/
def nIterAfter : Nat := if r.timeUp then t.iter else t.nIter

/-- The time an event gets that is put into the wheel again. -/
def renewed (j : Fin n) : Nat := setEvent o (t.nIterAfter r) r.currentTimeIndex (r.draw j)

/-- A round in which no check fails. -/
def next : TestTimingWheel n :=
  let again := t.iter < t.nIterAfter r
  let count := UInt64.ofNat r.expired.length
  let nEventsInWheel := t.nEventsInWheel - count
  { nIter := t.nIterAfter r
    events := fun i => if again ∧ i ∈ r.expired then t.renewed o r i else t.events i
    iter := t.iter + 1
    nExpired := t.nExpired + count
    nEventsInWheel := if again then nEventsInWheel + count else nEventsInWheel
    expiredBitmap :=
      if again then t.bitmapAfter r \ r.expired.toFinset else t.bitmapAfter r
    errorHist := r.expired.foldl (fun hist j =>
      countError hist (zvec (o.bin (t.cpuTime o r) - o.bin (t.events j)))) t.errorHist }

end TestTimingWheel

/-- The test and, by its calls, what is in the wheel: the time each event was
last entered with, unless it has been handed out since. `now` is the time of
the last round, and `failed` says that a check or a division has ended the
test. -/
structure WheelRun (n : Nat) where
  test : TestTimingWheel n
  wheel : Timers (Fin n) Nat
  now : Nat
  failed : Bool

/-- Up to the loop. The first call of `set_event` traps if there are no
iterations to draw from. -/
def WheelRun.start (nIter : Nat) (currentTimeIndex : UInt64) (draw : Fin n → Draw) :
    WheelRun n where
  test :=
    { nIter := if o.iterTime then maxTime else nIter
      events := fun i => setEvent o nIter currentTimeIndex (draw i)
      iter := 0
      nExpired := 0
      nEventsInWheel := UInt64.ofNat n
      expiredBitmap := ∅
      errorHist := List.replicate 1024 0 }
  wheel := fun i => some (setEvent o nIter currentTimeIndex (draw i))
  now := 0
  failed := o.syntheticTime && nIter == 0 && n != 0

/-- The clock does not go back and is not in its last bin. What the wheel
answers is left open. -/
structure WheelRun.Enabled (s : WheelRun n) (r : Round n) : Prop where
  goesOn : s.failed = false
  running : s.test.Running
  forward : s.now ≤ s.test.cpuTime o r
  before_last : o.bin (s.test.cpuTime o r) < o.bin maxTime
  timeUp : r.timeUp = true → o.iterTime = true

/-- The loop of `test_timing_wheel_main`. -/
def testTimingWheelMain : Machine (WheelRun n) (Round n) (Option (Check n)) where
  enabled s r := s.Enabled o r
  next s r :=
    if s.test.firstFailed o r = none then
      { test := s.test.next o zvec r
        wheel :=
          if s.test.iter < s.test.nIterAfter r then
            (s.wheel.remove r.expired).renew r.expired (s.test.renewed o r)
          else s.wheel.remove r.expired
        now := s.test.cpuTime o r
        failed := false }
    else { s with failed := true }
  output s r := s.test.firstFailed o r

instance (s : WheelRun n) (r : Round n) : Decidable (s.Enabled o r) :=
  decidable_of_iff
    (s.failed = false ∧ s.test.Running ∧ s.now ≤ s.test.cpuTime o r ∧
      o.bin (s.test.cpuTime o r) < o.bin maxTime ∧ (r.timeUp = true → o.iterTime = true))
    ⟨fun ⟨h1, h2, h3, h4, h5⟩ => ⟨h1, h2, h3, h4, h5⟩,
      fun ⟨h1, h2, h3, h4, h5⟩ => ⟨h1, h2, h3, h4, h5⟩⟩

instance (s : WheelRun n) (r : Round n) :
    Decidable ((testTimingWheelMain o zvec).enabled s r) :=
  inferInstanceAs (Decidable (s.Enabled o r))

end DpdkPerf.VppTest
