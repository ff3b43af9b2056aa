import DpdkPerf.Machine.Run
import Mathlib.Algebra.BigOperators.Group.Finset.Piecewise
import Mathlib.Data.Fintype.BigOperators
import Mathlib.Tactic.Ring.RingNF

/-! Shared counters that threads update with a load and a later store, beside
the number the counter should show: the sum of what each thread counts for. -/
namespace DpdkPerf

section Tally

variable {Thread Local : Type*} [Fintype Thread]

/-- The sum of what the threads count for. -/
def tally (weight : Local → Int) (threads : Thread → Local) : Int :=
  ∑ k, weight (threads k)

variable {weight : Local → Int} {threads : Thread → Local}

/-- One thread moves and the others stay. -/
theorem tally_update [DecidableEq Thread] (k : Thread) (after : Local) :
    tally weight (Function.update threads k after) =
      tally weight threads + (weight after - weight (threads k)) := by
  have hSame : ∀ j ∈ Finset.univ.erase k,
      weight (Function.update threads k after j) = weight (threads j) := by
    intro j hj
    rw [Function.update_of_ne (Finset.ne_of_mem_erase hj)]
  unfold tally
  rw [← Finset.add_sum_erase _ _ (Finset.mem_univ k), Finset.sum_congr rfl hSame,
    ← Finset.add_sum_erase _ (fun j => weight (threads j)) (Finset.mem_univ k),
    Function.update_self]
  ring

theorem tally_update_same [DecidableEq Thread] {k : Thread} {after : Local}
    (hWeight : weight after = weight (threads k)) :
    tally weight (Function.update threads k after) = tally weight threads := by
  rw [tally_update, hWeight, sub_self, add_zero]

theorem tally_of_zero (hZero : ∀ k, weight (threads k) = 0) : tally weight threads = 0 :=
  Finset.sum_eq_zero fun k _ => hZero k

/-- Where each thread that has a property counts for `c`, the sum is `c` times
their number. -/
theorem tally_eq_card (p : Local → Prop) [DecidablePred p] (c : Int)
    (hWeight : ∀ l, weight l = if p l then c else 0) :
    tally weight threads = (Finset.univ.filter fun k => p (threads k)).card * c := by
  unfold tally
  rw [Finset.sum_congr rfl fun k _ => hWeight (threads k), ← Finset.sum_filter,
    Finset.sum_const, nsmul_eq_mul]

end Tally

namespace Machine

variable {State Input Output : Type*} {M : Machine State Input Output}

/-- A step that stores writes back the value some thread has loaded, changed
by as much as the sum changes. Any other step leaves both alone. -/
def Updates (M : Machine State Input Output) (count sum : State → Int)
    (stored : State → Input → Option Int) (s : State) (i : Input) : Prop :=
  match stored s i with
  | none => count (M.next s i) = count s ∧ sum (M.next s i) = sum s
  | some loaded => ∃ change, count (M.next s i) = loaded + change ∧
      sum (M.next s i) = sum s + change

variable {count sum : State → Int} {stored : State → Input → Option Int} {s : State}
  {inputs : List Input}

/-- A counter updated without a lock shows the sum throughout a run exactly
if every store finds the value that was loaded for it. -/
theorem Meets.counter_exact_iff (hMeets : M.Meets (M.Updates count sum stored) s inputs)
    (hStart : count s = sum s) :
    M.Always (fun s => count s = sum s) s inputs ↔
      M.Meets (fun s i => ∀ loaded ∈ stored s i, loaded = count s) s inputs := by
  refine hMeets.always_iff (I := fun s => count s = sum s) hStart (fun _ h => h) ?keep ?lost
  case keep =>
    intro s i hStep hFound hSum
    unfold Updates at hStep
    cases hStored : stored s i with
    | none =>
        rw [hStored] at hStep
        rw [hStep.1, hStep.2, hSum]
    | some loaded =>
        rw [hStored] at hStep
        obtain ⟨change, hCount, hNext⟩ := hStep
        rw [hCount, hNext, hFound loaded hStored, hSum]
  case lost =>
    intro s i hStep hLost hSum hNext
    unfold Updates at hStep
    cases hStored : stored s i with
    | none =>
        apply hLost
        intro loaded hLoaded
        rw [hStored] at hLoaded
        cases hLoaded
    | some loaded =>
        rw [hStored] at hStep
        obtain ⟨change, hCount, hSum'⟩ := hStep
        apply hLost
        intro loaded' hLoaded
        rw [hStored] at hLoaded
        cases hLoaded
        rw [hCount, hSum'] at hNext
        rw [hSum]
        exact add_right_cancel hNext

end Machine
end DpdkPerf
