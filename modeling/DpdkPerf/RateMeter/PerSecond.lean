import DpdkPerf.RateMeter.Record
import Mathlib.Algebra.Order.Field.Basic
import Mathlib.Data.Rat.Cast.Order
import Mathlib.Tactic.FieldSimp
import Mathlib.Tactic.Linarith
import Mathlib.Tactic.Ring

/-! The figures are printed as rates for each second. They are the totals of
a window, and a window lasts until a call comes. -/
namespace DpdkPerf.RateMeter

variable (clock : Nat → UInt64) (feq : UInt64)

/-- A count over some ticks as a figure for each second, to within one. -/
def IsRate (count ticks : Nat) (figure : UInt64) : Prop :=
  |(figure.toNat : ℚ) - count / (ticks / feq.toNat)| ≤ 1

/-- The calls since the last publication, up to and with one more call. -/
def sincePublication (past : List Call) (call : Call) : List Call :=
  (windowsOf clock feq past).current ++ [call]

/-- What a figure counts since the last publication, bits and not bytes. -/
def countSince (past : List Call) (call : Call) (f : Figure) : Nat :=
  f.scale * f.total (sincePublication clock feq past call)

/-- Each time an array is printed, its packets and its bits are rates over
the time since the last one. A fresh array has the time zero. -/
def PublishesRates (calls : List Call) : Prop :=
  ∀ before call after (status : Status), calls = before ++ call :: after →
    let m := (meter clock feq).run start before
    (meter clock feq).output m call = some status →
      ∀ f ∈ [Figure.pps, Figure.bytes],
        IsRate feq (countSince clock feq before call f)
          (status.time.toNat - m.status.time.toNat) (status f.published)

/-- A window of some ticks that ends so soon that its count is a rate: each
count makes the time that it may be too long shorter. A count from 2^64 on is
published without its multiples of that. -/
def EndsInTime (count ticks : Nat) : Prop :=
  if count < 2 ^ 64 then count * (ticks - feq.toNat) ≤ ticks
  else |(count * (ticks - feq.toNat) - (count / 2 ^ 64 : Nat) * 2 ^ 64 * ticks : ℤ)| ≤ ticks

instance (count ticks : Nat) : Decidable (EndsInTime feq count ticks) :=
  if h : count < 2 ^ 64 then
    decidable_of_iff (count * (ticks - feq.toNat) ≤ ticks) (by rw [EndsInTime, if_pos h])
  else
    decidable_of_iff
      (|(count * (ticks - feq.toNat) - (count / 2 ^ 64 : Nat) * 2 ^ 64 * ticks : ℤ)| ≤ ticks)
      (by rw [EndsInTime, if_neg h])

def WindowsEndInTime (calls : List Call) : Prop :=
  ∀ before call after, calls = before ++ call :: after →
    let m := (meter clock feq).run start before
    isOver clock feq m call = true →
      ∀ f ∈ [Figure.pps, Figure.bytes],
        EndsInTime feq (countSince clock feq before call f)
          ((clock (m.readings + 1)).toNat - m.status.time.toNat)

variable {clock feq}

/-- What is published is off by the ticks that the window is too long, for each
count, and by what does not fit its word. -/
theorem isRate_iff {count ticks : Nat} (hFeq : 0 < feq.toNat) (hTicks : 0 < ticks) :
    IsRate feq count ticks (.ofNat count) ↔
      |(count * (ticks - feq.toNat) - (count / 2 ^ 64 : Nat) * 2 ^ 64 * ticks : ℤ)| ≤ ticks := by
  have hFeqPos : (0 : ℚ) < feq.toNat := Nat.cast_pos.mpr hFeq
  have hTicksPos : (0 : ℚ) < ticks := Nat.cast_pos.mpr hTicks
  have hFigure : ((UInt64.ofNat count).toNat : ℚ) = count - (count / 2 ^ 64 : Nat) * 2 ^ 64 := by
    have hSplit := Nat.div_add_mod count (2 ^ 64)
    have hCast : ((2 ^ 64 : ℚ)) * (count / 2 ^ 64 : Nat) + (count % 2 ^ 64 : Nat) = count := by
      exact_mod_cast hSplit
    rw [UInt64.toNat_ofNat']
    linarith
  have hQuotient : ((UInt64.ofNat count).toNat : ℚ) - count / (ticks / feq.toNat) =
      (count * (ticks - feq.toNat) - (count / 2 ^ 64 : Nat) * 2 ^ 64 * ticks) / ticks := by
    rw [hFigure]
    field_simp
    ring
  rw [IsRate, hQuotient, abs_div, abs_of_pos hTicksPos, div_le_one hTicksPos,
    ← @Int.cast_le ℚ, Int.cast_abs]
  push_cast
  rfl

/-- In a window that is long enough to be closed. -/
theorem isRate_iff_endsInTime {count ticks : Nat} (hFeq : 0 < feq.toNat)
    (hTicks : feq.toNat ≤ ticks) :
    IsRate feq count ticks (.ofNat count) ↔ EndsInTime feq count ticks := by
  rw [isRate_iff hFeq (hFeq.trans_le hTicks), EndsInTime]
  by_cases hCount : count < 2 ^ 64
  · have hOver : (count * (ticks - feq.toNat) : ℤ) = (count * (ticks - feq.toNat) : Nat) := by
      rw [Nat.cast_mul, Nat.cast_sub hTicks]
    rw [if_pos hCount, Nat.div_eq_of_lt hCount, hOver, Nat.cast_zero, zero_mul, zero_mul, sub_zero,
      Nat.abs_cast, Nat.cast_le]
  · rw [if_neg hCount]

/-- The array a call prints, and the time it took since the last one. -/
theorem output_over {m : Meter} {call : Call} {status : Status} :
    (meter clock feq).output m call = some status ↔
      isOver clock feq m call = true ∧
        publish (accumulate m.status call) (clock (m.readings + 1)) = status := by
  cases hOver : isOver clock feq m call with
  | false => simp [meter, record_open hOver]
  | true => simp [meter, record_over hOver]

/-- What is published is the count since the last window, modulo 2^64. -/
theorem publishedTotal (past : List Call) (call : Call) (f : Figure) :
    publish (accumulate ((meter clock feq).run start past).status call)
        (clock (((meter clock feq).run start past).readings + 1)) f.published =
      .ofNat (countSince clock feq past call f) := by
  simp [countSince, sincePublication, (metered past).current f]

/-- One printed figure is a rate if and only if its window ends in time. -/
theorem isRate_publish_iff (hClock : Nondecreasing clock) (hFeq : 0 < feq) {past : List Call}
    {call : Call} (hOver : isOver clock feq ((meter clock feq).run start past) call = true)
    (f : Figure) :
    let m := (meter clock feq).run start past
    let status := publish (accumulate m.status call) (clock (m.readings + 1))
    IsRate feq (countSince clock feq past call f)
        (status.time.toNat - m.status.time.toNat) (status f.published) ↔
      EndsInTime feq (countSince clock feq past call f)
        ((clock (m.readings + 1)).toNat - m.status.time.toNat) := by
  intro m status
  have hFeqPos : 0 < feq.toNat := UInt64.lt_iff_toNat_lt.mp hFeq
  have hApart : FeqApart feq m.status.time (clock (m.readings + 1)) :=
    feq_le_of_isOver hClock (last_le hClock past) hOver
  have hTicks : feq.toNat ≤ (clock (m.readings + 1)).toNat - m.status.time.toNat := by
    rw [FeqApart] at hApart
    omega
  rw [show status f.published = .ofNat _ from publishedTotal past call f,
    show status.time = _ from publish_time ..]
  exact isRate_iff_endsInTime hFeqPos hTicks

/-- The printed figures of a run are rates if and only if each of its windows
ends in time for its counts. -/
theorem publishesRates_iff (hClock : Nondecreasing clock) (hFeq : 0 < feq) (calls : List Call) :
    PublishesRates clock feq calls ↔ WindowsEndInTime clock feq calls := by
  constructor
  · intro h before call after hSplit m hOver f hf
    exact (isRate_publish_iff hClock hFeq hOver f).mp
      (h before call after _ hSplit (output_over.mpr ⟨hOver, rfl⟩) f hf)
  · intro h before call after status hSplit m hOutput f hf
    obtain ⟨hOver, rfl⟩ := output_over.mp hOutput
    exact (isRate_publish_iff hClock hFeq hOver f).mpr
      (h before call after hSplit hOver f hf)

/-- Readings of ten ticks for the first publication, and of fifty then. -/
def pausing (n : Nat) : UInt64 := if n < 2 then 10 else 50

theorem nondecreasing_pausing : Nondecreasing pausing := by
  intro n
  rcases Nat.lt_or_ge (n + 1) 2 with h | h
  · rw [pausing, pausing, if_pos h, if_pos (Nat.lt_of_succ_lt h)]
    exact UInt64.le_refl _
  · rw [show pausing (n + 1) = 50 from if_neg (Nat.not_lt.mpr h), pausing]
    split_ifs <;> decide

/-- A packet in a window of ten ticks, and none in the forty ticks after it. -/
theorem publishesRates_iff_pausing :
    WindowsEndInTime pausing 10 [⟨64, 1⟩, ⟨0, 0⟩] ∧
      PublishesRates pausing 10 [⟨64, 1⟩, ⟨0, 0⟩] := by
  have hInTime : WindowsEndInTime pausing 10 [⟨64, 1⟩, ⟨0, 0⟩] := by
    intro before call after hSplit m _
    rcases before with _ | ⟨first, _ | ⟨second, rest⟩⟩
    · obtain ⟨rfl, -⟩ := List.cons_eq_cons.mp hSplit
      revert m
      decide +kernel
    · obtain ⟨rfl, hRest⟩ := List.cons_eq_cons.mp hSplit
      obtain ⟨rfl, -⟩ := List.cons_eq_cons.mp hRest
      revert m
      decide +kernel
    · have hLength := congrArg List.length hSplit
      simp at hLength
  exact ⟨hInTime, (publishesRates_iff nondecreasing_pausing (by decide) _).mpr hInTime⟩

/-- A hundred packets in four seconds are printed as a hundred a second. -/
theorem not_publishesRates :
    Nondecreasing pausing ∧ ¬ PublishesRates pausing 10 [⟨64, 1⟩, ⟨6400, 100⟩] := by
  refine ⟨nondecreasing_pausing, fun h => ?_⟩
  have hOver : isOver pausing 10 ((meter pausing 10).run start [⟨64, 1⟩]) ⟨6400, 100⟩ = true := rfl
  have hRate := h [_] _ [] _ rfl (output_over.mpr ⟨hOver, rfl⟩) .pps (List.mem_cons_self ..)
  have hTime := (isRate_publish_iff nondecreasing_pausing (by decide) hOver .pps).mp hRate
  revert hTime
  decide +kernel

end DpdkPerf.RateMeter
