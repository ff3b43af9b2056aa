import DpdkPerf.Machine.Run
import Mathlib.Tactic.Linarith
import Mathlib.Tactic.NormNum
import Mathlib.Data.Rat.Defs
import Mathlib.Algebra.Order.Ring.Rat

/-! The process node of process-test. It waits for events or for the end of a
period, and after an event goes on with what is left of the period. -/
namespace DpdkPerf.ProcessTest

def examplePollPeriod : ℚ := 1

/-- A wait that ends: how long it took, and the type of the event if it ended
with one. -/
structure Wakeup where
  elapsed : ℚ
  eventType : Option UInt64
  deriving DecidableEq

/-- The warning of a turn, and whether a new period begins. -/
structure Turn where
  unhandled : Option UInt64
  renewed : Bool
  deriving DecidableEq

/-- A wait ends with an event or when its time is up. The state is
`poll_time_remaining`, of which `vlib_process_wait_for_event_or_clock` returns
what is left. -/
def exampleProcess (suspendTimeIsZero : ℚ → Bool) : Machine ℚ Wakeup Turn where
  enabled pollTimeRemaining w :=
    0 ≤ w.elapsed ∧ (w.eventType = none → pollTimeRemaining ≤ w.elapsed)
  next pollTimeRemaining w :=
    let pollTimeRemaining := pollTimeRemaining - w.elapsed
    if suspendTimeIsZero pollTimeRemaining then examplePollPeriod else pollTimeRemaining
  output pollTimeRemaining w :=
    ⟨w.eventType, suspendTimeIsZero (pollTimeRemaining - w.elapsed)⟩

def waited (ws : List Wakeup) : ℚ := (ws.map Wakeup.elapsed).sum

/-- The periods that have begun after the first. -/
def renewals (turns : List Turn) : Nat := turns.countP Turn.renewed

variable {suspendTimeIsZero : ℚ → Bool} {ε late r : ℚ} {ws : List Wakeup}

/-- No wait ends later than this after its time. -/
def Punctual (late : ℚ) (pollTimeRemaining : ℚ) (w : Wakeup) : Prop :=
  w.elapsed ≤ pollTimeRemaining + late

theorem next_renewed {w : Wakeup} (h : suspendTimeIsZero (r - w.elapsed) = true) :
    (exampleProcess suspendTimeIsZero).next r w = examplePollPeriod :=
  if_pos h

theorem next_goesOn {w : Wakeup} (h : ¬ suspendTimeIsZero (r - w.elapsed) = true) :
    (exampleProcess suspendTimeIsZero).next r w = r - w.elapsed :=
  if_neg h

theorem renewals_cons (r : ℚ) (w : Wakeup) (ws : List Wakeup) :
    renewals ((exampleProcess suspendTimeIsZero).trace r (w :: ws)) =
      renewals ((exampleProcess suspendTimeIsZero).trace
        ((exampleProcess suspendTimeIsZero).next r w) ws) +
        if suspendTimeIsZero (r - w.elapsed) then 1 else 0 :=
  List.countP_cons

/-- A period is used up but for less than `ε`, and is outrun by no more than the
delay of a wait. -/
theorem periods_run (hZero : ∀ t, suspendTimeIsZero t = true ↔ t < ε)
    (hLate : (exampleProcess suspendTimeIsZero).Meets (Punctual late) r ws) :
    let n : ℚ := renewals ((exampleProcess suspendTimeIsZero).trace r ws)
    let left := (exampleProcess suspendTimeIsZero).run r ws
    n * (examplePollPeriod - ε) ≤ waited ws + left - r ∧
      waited ws + left - r ≤ n * (examplePollPeriod + late) := by
  induction ws generalizing r with
  | nil => simp [renewals, waited]
  | cons w ws ih =>
      rw [Machine.meets_cons] at hLate
      obtain ⟨hFirst, hRest⟩ := hLate
      have hPunctual : w.elapsed ≤ r + late := hFirst
      obtain ⟨hLower, hUpper⟩ := ih hRest
      have hWaited : waited (w :: ws) = w.elapsed + waited ws := List.sum_cons
      by_cases hEnd : suspendTimeIsZero (r - w.elapsed) = true
      · have hSmall : r - w.elapsed < ε := (hZero _).mp hEnd
        rw [next_renewed hEnd] at hLower hUpper
        rw [renewals_cons, if_pos hEnd, hWaited, Machine.run_cons, next_renewed hEnd, Nat.cast_succ]
        constructor <;> linarith
      · rw [next_goesOn hEnd] at hLower hUpper
        rw [renewals_cons, if_neg hEnd, hWaited, Machine.run_cons, next_goesOn hEnd, Nat.add_zero]
        constructor <;> linarith

/-- What is left of a period is no less than `ε`, and no more than a period. -/
theorem remaining_run (hZero : ∀ t, suspendTimeIsZero t = true ↔ t < ε)
    (hPeriod : ε ≤ examplePollPeriod)
    (hRun : (exampleProcess suspendTimeIsZero).Admits r ws)
    (hStart : ε ≤ r ∧ r ≤ examplePollPeriod) :
    ε ≤ (exampleProcess suspendTimeIsZero).run r ws ∧
      (exampleProcess suspendTimeIsZero).run r ws ≤ examplePollPeriod := by
  refine hRun.invariant_run (I := fun r => ε ≤ r ∧ r ≤ examplePollPeriod)
    (fun r w hEnabled hr => ?_) hStart
  by_cases hEnd : suspendTimeIsZero (r - w.elapsed) = true
  · rw [next_renewed hEnd]
    exact ⟨hPeriod, le_rfl⟩
  · have hLarge : ε ≤ r - w.elapsed := not_lt.mp fun h => hEnd ((hZero _).mpr h)
    have hElapsed : 0 ≤ w.elapsed := hEnabled.1
    rw [next_goesOn hEnd]
    exact ⟨hLarge, by linarith⟩

/-- However many events come, and whenever: the periods neither run fast nor
stand still. -/
theorem exampleProcess_periods (hZero : ∀ t, suspendTimeIsZero t = true ↔ t < ε)
    (hEps : 0 ≤ ε) (hPeriod : ε ≤ examplePollPeriod) (hLateNonneg : 0 ≤ late)
    (hRun : (exampleProcess suspendTimeIsZero).Admits examplePollPeriod ws)
    (hLate : (exampleProcess suspendTimeIsZero).Meets (Punctual late) examplePollPeriod ws) :
    let n : ℚ := renewals ((exampleProcess suspendTimeIsZero).trace examplePollPeriod ws)
    n * (examplePollPeriod - ε) ≤ waited ws ∧
      waited ws ≤ (n + 1) * (examplePollPeriod + late) := by
  intro n
  obtain ⟨hLower, hUpper⟩ := periods_run hZero hLate
  obtain ⟨hLeft, hMost⟩ := remaining_run hZero hPeriod hRun ⟨hPeriod, le_rfl⟩
  have hMore : (n + 1) * (examplePollPeriod + late) =
      n * (examplePollPeriod + late) + (examplePollPeriod + late) := add_one_mul _ _
  constructor
  · linarith
  · rw [hMore]
    linarith

/-- An event after a quarter of a period, and its end. -/
def quarterEvent : List Wakeup := [⟨1 / 4, some 1⟩, ⟨3 / 4, none⟩]

theorem exampleProcess_periods_quarter :
    let n : ℚ := renewals ((exampleProcess fun t => decide (t < 1 / 100000)).trace
      examplePollPeriod quarterEvent)
    n * (examplePollPeriod - 1 / 100000) ≤ waited quarterEvent ∧
      waited quarterEvent ≤ (n + 1) * (examplePollPeriod + 0) :=
  exampleProcess_periods (fun _ => decide_eq_true_iff) (by norm_num)
    (by norm_num [examplePollPeriod]) le_rfl
    (by norm_num [quarterEvent, exampleProcess, examplePollPeriod, Option.some_ne_none])
    (by norm_num [quarterEvent, exampleProcess, examplePollPeriod, Punctual])

end DpdkPerf.ProcessTest
