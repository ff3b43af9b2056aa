import DpdkPerf.Machine.Run
import Mathlib.Algebra.BigOperators.Group.List.Basic

/-! Runs cut into windows: some steps close the window that is open, and
every step belongs to one window. -/
namespace DpdkPerf

/-- The oldest window first, and the inputs of a window in order. -/
structure Windows (Input : Type*) where
  closed : List (List Input) := []
  current : List Input := []

namespace Windows

variable {Input : Type*}

/-- The next input is the last one of the open window if it closes it. -/
def push (w : Windows Input) (i : Input) (closes : Bool) : Windows Input :=
  if closes then ⟨w.closed ++ [w.current ++ [i]], []⟩ else ⟨w.closed, w.current ++ [i]⟩

/-- The inputs of all windows. -/
def inputs (w : Windows Input) : List Input := w.closed.flatten ++ w.current

/-- The total of an amount over a window. -/
def total (amount : Input → Nat) (window : List Input) : Nat := (window.map amount).sum

@[simp] theorem push_true (w : Windows Input) (i : Input) :
    w.push i true = ⟨w.closed ++ [w.current ++ [i]], []⟩ := rfl

@[simp] theorem push_false (w : Windows Input) (i : Input) :
    w.push i false = ⟨w.closed, w.current ++ [i]⟩ := rfl

@[simp] theorem inputs_push (w : Windows Input) (i : Input) (closes : Bool) :
    (w.push i closes).inputs = w.inputs ++ [i] := by
  cases closes <;> simp [inputs]

@[simp] theorem total_nil (amount : Input → Nat) : total amount [] = 0 := rfl

@[simp] theorem total_append (amount : Input → Nat) (first second : List Input) :
    total amount (first ++ second) = total amount first + total amount second := by
  simp [total]

@[simp] theorem total_singleton (amount : Input → Nat) (i : Input) :
    total amount [i] = amount i := by
  simp [total]

/-- Nothing is lost between two windows, and nothing is in both. -/
theorem total_inputs (w : Windows Input) (amount : Input → Nat) :
    total amount w.inputs = (w.closed.map (total amount)).sum + total amount w.current := by
  have hClosed : total amount w.closed.flatten = (w.closed.map (total amount)).sum := by
    simp only [total, List.map_flatten, List.sum_flatten, List.map_map]
    rfl
  rw [inputs, total_append, hClosed]

end Windows

namespace Machine

variable {State Input Output : Type*} (M : Machine State Input Output)
  (closes : State → Input → Bool)

def windows (s : State) (inputs : List Input) : Windows Input :=
  (M.visits s inputs).foldl (fun w v => w.push v.2 (closes v.1 v.2)) {}

@[simp] theorem windows_nil (s : State) : M.windows closes s [] = {} := rfl

@[simp] theorem windows_concat (s : State) (inputs : List Input) (i : Input) :
    M.windows closes s (inputs ++ [i]) =
      (M.windows closes s inputs).push i (closes (M.run s inputs) i) := by
  simp [windows, visits]

/-- The windows of a run share its inputs out, none lost and none twice. -/
theorem inputs_windows (s : State) (inputs : List Input) :
    (M.windows closes s inputs).inputs = inputs := by
  induction inputs using List.reverseRecOn with
  | nil => rfl
  | append_singleton past i ih => rw [windows_concat, Windows.inputs_push, ih]

/-- The total of a run is that of its closed windows and of the open one. -/
theorem total_windows (s : State) (inputs : List Input) (amount : Input → Nat) :
    Windows.total amount inputs =
      ((M.windows closes s inputs).closed.map (Windows.total amount)).sum +
        Windows.total amount (M.windows closes s inputs).current := by
  rw [← Windows.total_inputs, inputs_windows]

end Machine

end DpdkPerf
