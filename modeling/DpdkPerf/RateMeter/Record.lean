import DpdkPerf.Machine.Windows
import Mathlib.Data.List.Chain
import Mathlib.Data.List.ReduceOption
import Mathlib.Data.Nat.ModEq

/-! The rate meter of status.h: an array with a published value and an
accumulator for each figure, in turn, and the time of the last publication
at the end. -/
namespace DpdkPerf.RateMeter

abbrev Status := Fin 7 → UInt64

namespace Status

def set (status : Status) (i : Fin 7) (x : UInt64) : Status := Function.update status i x

@[simp] theorem set_apply (status : Status) (i j : Fin 7) (x : UInt64) :
    status.set i x j = if j = i then x else status j :=
  Function.update_apply status i x j

end Status

def statusCall : Fin 7 := 0
def statusPps : Fin 7 := 1
def statusBytes : Fin 7 := 2
def statusAll : Fin 7 := 3

/-- When the figures were published. -/
def Status.time (status : Status) : UInt64 := status (2 * statusAll)

/-- The array of one thread, and how often the thread has read the clock. -/
structure Meter where
  status : Status
  readings : Nat

/-- The arguments of one call of `record`, next to the array. -/
structure Call where
  bytes : UInt32
  pps : UInt32
  deriving DecidableEq, Repr

variable (clock : Nat → UInt64) (feq : UInt64)

def Nondecreasing (clock : Nat → UInt64) : Prop := ∀ n, clock n ≤ clock (n + 1)

/-- The first statements of `record`. -/
def accumulate (status : Status) (call : Call) : Status :=
  let status := status.set (2 * statusBytes + 1) (status (2 * statusBytes + 1) + call.bytes.toUInt64)
  let status := status.set (2 * statusPps + 1) (status (2 * statusPps + 1) + call.pps.toUInt64)
  status.set (2 * statusCall + 1) (status (2 * statusCall + 1) + 1)

/-- What `record` does once the window is over. It reads the clock again for
the time it stores. -/
def publish (status : Status) (now : UInt64) : Status :=
  let status := status.set (2 * statusBytes) (status (2 * statusBytes + 1) * 8)
  let status := status.set (2 * statusPps) (status (2 * statusPps + 1))
  let status := status.set (2 * statusCall) (status (2 * statusCall + 1))
  let status := status.set (2 * statusBytes + 1) 0
  let status := status.set (2 * statusPps + 1) 0
  let status := status.set (2 * statusCall + 1) 0
  status.set (2 * statusAll) now

/-- The array is returned when its figures are printed. -/
def record (m : Meter) (call : Call) : Meter × Option Status :=
  let status := accumulate m.status call
  if clock m.readings - status (2 * statusAll) < feq then (⟨status, m.readings + 1⟩, none)
  else
    let status := publish status (clock (m.readings + 1))
    (⟨status, m.readings + 2⟩, some status)

def meter : Machine Meter Call (Option Status) where
  enabled _ _ := True
  next m call := (record clock feq m call).1
  output m call := (record clock feq m call).2

/-- The array of a thread before its first call. -/
def start : Meter := ⟨fun _ => 0, 0⟩

/-- The window is over when the next call comes. -/
def isOver (m : Meter) (_ : Call) : Bool :=
  !decide (clock m.readings - m.status.time < feq)

def windowsOf (calls : List Call) : Windows Call :=
  (meter clock feq).windows (isOver clock feq) start calls

/-- The arrays printed by a sequence of calls. -/
def printed (calls : List Call) : List Status :=
  ((meter clock feq).trace start calls).reduceOption

inductive Figure where
  | call | pps | bytes
  deriving DecidableEq, Repr

namespace Figure

def index : Figure → Fin 7
  | call => statusCall
  | pps => statusPps
  | bytes => statusBytes

def published (f : Figure) : Fin 7 := 2 * f.index

def current (f : Figure) : Fin 7 := 2 * f.index + 1

/-- What one call adds to the figure. -/
def amount (f : Figure) (call : Call) : Nat :=
  match f with
  | .call => 1
  | pps => call.pps.toNat
  | bytes => call.bytes.toNat

/-- Bytes are published as bits. -/
def scale : Figure → Nat
  | call => 1
  | pps => 1
  | bytes => 8

def total (f : Figure) (window : List Call) : Nat := Windows.total f.amount window

@[simp] theorem total_nil (f : Figure) : f.total [] = 0 := rfl

@[simp] theorem total_append (f : Figure) (first second : List Call) :
    f.total (first ++ second) = f.total first + f.total second :=
  Windows.total_append f.amount first second

@[simp] theorem total_singleton (f : Figure) (call : Call) : f.total [call] = f.amount call :=
  Windows.total_singleton f.amount call

end Figure

variable {clock feq} {m : Meter} {call : Call} {calls : List Call}

@[simp] theorem accumulate_current (status : Status) (f : Figure) :
    accumulate status call f.current = status f.current + .ofNat (f.amount call) := by
  cases f <;> simp [accumulate, Figure.current, Figure.index, Figure.amount, statusCall, statusPps,
    statusBytes]

@[simp] theorem accumulate_published (status : Status) (f : Figure) :
    accumulate status call f.published = status f.published := by
  cases f <;> simp [accumulate, Figure.published, Figure.index, statusCall, statusPps, statusBytes]

@[simp] theorem accumulate_time (status : Status) :
    (accumulate status call).time = status.time := by
  simp [accumulate, Status.time, statusCall, statusPps, statusBytes, statusAll]

@[simp] theorem publish_published (status : Status) (now : UInt64) (f : Figure) :
    publish status now f.published = .ofNat f.scale * status f.current := by
  cases f <;> simp [publish, Figure.published, Figure.current, Figure.index, Figure.scale,
    statusCall, statusPps, statusBytes, statusAll, UInt64.mul_comm]

@[simp] theorem publish_current (status : Status) (now : UInt64) (f : Figure) :
    publish status now f.current = 0 := by
  cases f <;> simp [publish, Figure.current, Figure.index, statusCall, statusPps, statusBytes,
    statusAll]

@[simp] theorem publish_time (status : Status) (now : UInt64) :
    (publish status now).time = now := by
  simp [publish, Status.time, statusAll]

/-- In an open window a call is added up and nothing is printed. -/
theorem record_open (h : isOver clock feq m call = false) :
    record clock feq m call = (⟨accumulate m.status call, m.readings + 1⟩, none) := by
  have hBefore : clock m.readings - m.status.time < feq := by
    simpa [isOver] using h
  rw [← accumulate_time m.status] at hBefore
  exact if_pos hBefore

/-- The call that ends a window is added up first, and then the row is
published and printed. -/
theorem record_over (h : isOver clock feq m call = true) :
    record clock feq m call =
      (⟨publish (accumulate m.status call) (clock (m.readings + 1)), m.readings + 2⟩,
        some (publish (accumulate m.status call) (clock (m.readings + 1)))) := by
  have hAfter : ¬ clock m.readings - m.status.time < feq := by
    simpa [isOver] using h
  rw [← accumulate_time m.status] at hAfter
  exact if_neg hAfter

/-- The last call prints behind all others. -/
theorem printed_concat (calls : List Call) (call : Call) :
    printed clock feq (calls ++ [call]) =
      printed clock feq calls ++
        ((meter clock feq).output ((meter clock feq).run start calls) call).toList := by
  rw [printed, Machine.trace_append, List.reduceOption_append]
  cases h : (meter clock feq).output ((meter clock feq).run start calls) call with
  | none => simp [h, printed]
  | some status => simp [h, printed]

/-- The accumulators hold the totals of the open window, and each window that
was closed is published with its own totals. -/
structure Metered (clock : Nat → UInt64) (feq : UInt64) (calls : List Call) (m : Meter) :
    Prop where
  current : ∀ f : Figure,
    m.status f.current = .ofNat (f.total (windowsOf clock feq calls).current)
  published : ∀ f : Figure,
    (printed clock feq calls).map (· f.published) =
      (windowsOf clock feq calls).closed.map fun window => .ofNat (f.scale * f.total window)

/-- The row of every run tells its windows. -/
theorem metered (calls : List Call) :
    Metered clock feq calls ((meter clock feq).run start calls) := by
  induction calls using List.reverseRecOn with
  | nil => exact ⟨fun _ => rfl, fun _ => rfl⟩
  | append_singleton past call ih =>
      have hWindows : windowsOf clock feq (past ++ [call]) =
          (windowsOf clock feq past).push call
            (isOver clock feq ((meter clock feq).run start past) call) :=
        Machine.windows_concat ..
      have hPrinted := @printed_concat clock feq past call
      rw [Machine.run_append]
      generalize (meter clock feq).run start past = m at *
      cases hOver : isOver clock feq m call with
      | false =>
          rw [hOver, Windows.push_false] at hWindows
          have hRecord := record_open hOver
          constructor
          · intro f
            simp [hWindows, meter, hRecord, ih.current f]
          · intro f
            simp [hWindows, hPrinted, meter, hRecord, ih.published f]
      | true =>
          rw [hOver, Windows.push_true] at hWindows
          have hRecord := record_over hOver
          constructor
          · intro f
            simp [hWindows, meter, hRecord]
          · intro f
            simp [hWindows, hPrinted, meter, hRecord, ih.published f, ih.current f]

/-- The time stored last is not ahead of the clock. -/
theorem last_le (hClock : Nondecreasing clock) (calls : List Call) :
    ((meter clock feq).run start calls).status.time ≤
      clock ((meter clock feq).run start calls).readings := by
  induction calls using List.reverseRecOn with
  | nil => exact UInt64.le_iff_toNat_le.mpr (Nat.zero_le _)
  | append_singleton past call ih =>
      rw [Machine.run_append]
      generalize (meter clock feq).run start past = m at *
      cases hOver : isOver clock feq m call with
      | false =>
          have hNext : clock m.readings ≤ clock (m.readings + 1) := hClock _
          simpa [meter, record_open hOver] using UInt64.le_trans ih hNext
      | true =>
          have hNext : clock (m.readings + 1) ≤ clock (m.readings + 2) := hClock _
          simpa [meter, record_over hOver] using hNext

def FeqApart (feq first second : UInt64) : Prop := first.toNat + feq.toNat ≤ second.toNat

/-- A window is closed no earlier than `feq` ticks after the time stored last. -/
theorem feq_le_of_isOver (hClock : Nondecreasing clock)
    (hLast : m.status.time ≤ clock m.readings) (hOver : isOver clock feq m call = true) :
    FeqApart feq (m.status.time) (clock (m.readings + 1)) := by
  have hAfter : feq ≤ clock m.readings - m.status.time := by
    simpa [isOver] using hOver
  have hNext : clock m.readings ≤ clock (m.readings + 1) := hClock _
  rw [UInt64.le_iff_toNat_le] at hLast hAfter hNext
  rw [UInt64.toNat_sub_of_le _ _ (UInt64.le_iff_toNat_le.mpr hLast)] at hAfter
  rw [FeqApart]
  omega

/-- The times printed, oldest first. -/
def times (clock : Nat → UInt64) (feq : UInt64) (calls : List Call) : List UInt64 :=
  (printed clock feq calls).map Status.time

/-- The zero of the fresh array counts as a time too. -/
theorem times_apart (hClock : Nondecreasing clock) (calls : List Call) :
    (0 :: times clock feq calls).IsChain (FeqApart feq) ∧
      (0 :: times clock feq calls).getLast? =
        some (((meter clock feq).run start calls).status.time) := by
  induction calls using List.reverseRecOn with
  | nil => exact ⟨List.isChain_singleton 0, rfl⟩
  | append_singleton past call ih =>
      have hLast := @last_le clock feq hClock past
      have hTimes : times clock feq (past ++ [call]) = times clock feq past ++
          (((meter clock feq).output ((meter clock feq).run start past) call).toList).map
            Status.time := by
        rw [times, printed_concat, List.map_append]
        rfl
      rw [Machine.run_append]
      generalize (meter clock feq).run start past = m at *
      cases hOver : isOver clock feq m call with
      | false => simpa [hTimes, meter, record_open hOver] using ih
      | true =>
          have hApart := feq_le_of_isOver hClock hLast hOver
          rw [hTimes, ← List.cons_append]
          constructor
          · apply List.isChain_append.mpr
            refine ⟨ih.1, by simp [meter, record_over hOver], ?_⟩
            rw [ih.2]
            simpa [meter, record_over hOver] using hApart
          · rw [List.getLast?_append]
            simp [meter, record_over hOver]

/-- Whatever the calls and the clock, every window is published with its own
totals and none is lost: the totals of the closed windows and the accumulators
make up what all calls were given. -/
theorem record_conserves (hClock : Nondecreasing clock) (calls : List Call) :
    let m := (meter clock feq).run start calls
    let windows := windowsOf clock feq calls
    (∀ f : Figure, f.total calls ≡
      (windows.closed.map f.total).sum + (m.status f.current).toNat [MOD 2 ^ 64]) ∧
    (∀ f : Figure, (printed clock feq calls).map (· f.published) =
      windows.closed.map fun window => .ofNat (f.scale * f.total window)) ∧
    (∀ call, (record clock feq m call).2 = none → ∀ f : Figure,
      (record clock feq m call).1.status f.published = m.status f.published) ∧
    (times clock feq calls).IsChain (FeqApart feq) := by
  intro m windows
  have hMetered := @metered clock feq calls
  refine ⟨fun f => ?_, hMetered.published, fun call hNone f => ?_,
    (times_apart hClock calls).1.tail⟩
  · have hTotal : f.total calls =
        (windows.closed.map f.total).sum + f.total windows.current :=
      Machine.total_windows (meter clock feq) (isOver clock feq) start calls f.amount
    have hCurrent : (m.status f.current).toNat = f.total windows.current % 2 ^ 64 := by
      rw [hMetered.current f]
      exact UInt64.toNat_ofNat'
    rw [hTotal, hCurrent]
    exact (Nat.mod_modEq _ _).symm.add_left _
  · cases hOver : isOver clock feq m call with
    | false => simp [record_open hOver]
    | true => simp [record_over hOver] at hNone

/-- Five calls at one tick a reading. The third and the fifth close a window. -/
theorem record_conserves_five :
    let clock := fun n => UInt64.ofNat (min n 9)
    let calls : List Call := [⟨100, 1⟩, ⟨200, 1⟩, ⟨300, 1⟩, ⟨400, 1⟩, ⟨500, 1⟩]
    times clock 2 calls = [3, 6] ∧ (times clock 2 calls).IsChain (FeqApart 2) := by
  intro clock calls
  have hClock : Nondecreasing clock := by
    intro n
    rw [UInt64.le_iff_toNat_le, UInt64.toNat_ofNat', UInt64.toNat_ofNat']
    omega
  exact ⟨by decide +kernel, (record_conserves hClock calls).2.2.2⟩

end DpdkPerf.RateMeter
