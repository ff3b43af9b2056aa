import Mathlib.Data.Nat.Notation

/-! Loops that count down what is left: one round at a time, or four at a time
while there are four and then one at a time. A round may be undefined. -/
namespace DpdkPerf

variable {σ : Type*}

/-- `while (n > 0) { one; n -= 1 }`. -/
def singles (one : σ → Option σ) : Nat → σ → Option σ
  | 0, s => some s
  | n + 1, s => (one s).bind fun s => singles one n s

/-- `while (n >= 4) { four; n -= 4 }`, where the body sees `n`, and then the
rounds that are left. -/
def unrolled (four : Nat → σ → Option σ) (one : σ → Option σ) : Nat → σ → Option σ
  | n + 4, s => (four (n + 4) s).bind fun s => unrolled four one n s
  | n, s => singles one n s

variable {four : Nat → σ → Option σ} {one : σ → Option σ} {I : Nat → σ → Prop}

/-- An invariant of what is left and the state. -/
theorem singles_spec (hOne : ∀ n s, I (n + 1) s → ∃ s', one s = some s' ∧ I n s') :
    ∀ n s, I n s → ∃ s', singles one n s = some s' ∧ I 0 s' := by
  intro n
  induction n with
  | zero => exact fun s h => ⟨s, rfl, h⟩
  | succ n ih =>
      intro s h
      obtain ⟨s', hStep, hNext⟩ := hOne n s h
      rw [singles, hStep]
      exact ih s' hNext

/-- An unrolled loop keeps what both of its bodies keep, and comes to its end.
-/
theorem unrolled_spec (hFour : ∀ n s, I (n + 4) s → ∃ s', four (n + 4) s = some s' ∧ I n s')
    (hOne : ∀ n s, I (n + 1) s → ∃ s', one s = some s' ∧ I n s') :
    ∀ n s, I n s → ∃ s', unrolled four one n s = some s' ∧ I 0 s' := by
  intro n s
  fun_induction unrolled four one n s with
  | case1 n s ih =>
      intro h
      obtain ⟨s', hStep, hNext⟩ := hFour n s h
      rw [hStep]
      exact ih s' hNext
  | case2 n s hFew => exact singles_spec hOne n s

end DpdkPerf
