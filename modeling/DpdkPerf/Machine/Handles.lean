import Mathlib.Data.Finset.Basic

/-! Resources that a program takes, uses and gives back by their handles. A log
of such operations is watched with the handles that are held. -/
namespace DpdkPerf

inductive HandleOp (H : Type*) where
  | acquire (handle : H)
  | use (handle : H)
  | release (handle : H)
  deriving DecidableEq, Repr

variable {H : Type*} [DecidableEq H]

/-- Only what is not held is taken, and only what is held is used or given
back. -/
def HandleOp.watch (held : Finset H) : HandleOp H → Option (Finset H)
  | acquire handle => if handle ∈ held then none else some (insert handle held)
  | use handle => if handle ∈ held then some held else none
  | release handle => if handle ∈ held then some (held.erase handle) else none

/-- The log keeps to that, and leaves these handles held. -/
def Leaves (held : Finset H) (log : List (HandleOp H)) (held' : Finset H) : Prop :=
  log.foldlM HandleOp.watch held = some held'

variable {held held' held'' : Finset H} {handle : H} {log more : List (HandleOp H)}

theorem leaves_nil (held : Finset H) : Leaves held [] held := rfl

/-- Logs compose: the second starts with what the first has left. -/
theorem Leaves.append (h : Leaves held log held') (hMore : Leaves held' more held'') :
    Leaves held (log ++ more) held'' := by
  unfold Leaves at h hMore ⊢
  rw [List.foldlM_append, h]
  exact hMore

/-- Each part leaves what is held as it was. -/
theorem Leaves.flatMap {X : Type*} {parts : X → List (HandleOp H)} {xs : List X}
    (h : ∀ x ∈ xs, Leaves held (parts x) held) : Leaves held (xs.flatMap parts) held := by
  induction xs with
  | nil => exact leaves_nil held
  | cons x xs ih =>
      rw [List.forall_mem_cons] at h
      rw [List.flatMap_cons]
      exact h.1.append (ih h.2)

/-- A handle may be acquired when it is not held. -/
theorem leaves_acquire (h : handle ∉ held) :
    Leaves held [.acquire handle] (insert handle held) := by
  unfold Leaves
  rw [List.foldlM_cons, HandleOp.watch, if_neg h]
  rfl

theorem leaves_use (h : handle ∈ held) : Leaves held [.use handle] held := by
  unfold Leaves
  rw [List.foldlM_cons, HandleOp.watch, if_pos h]
  rfl

/-- What is held may be given back, and is not held then. -/
theorem leaves_release (h : handle ∈ held) :
    Leaves held [.release handle] (held.erase handle) := by
  unfold Leaves
  rw [List.foldlM_cons, HandleOp.watch, if_pos h]
  rfl

/-- What is taken first and given back last is held by nobody in the end. -/
theorem Leaves.bracket (hNew : handle ∉ held)
    (h : Leaves (insert handle held) log (insert handle held)) :
    Leaves held (.acquire handle :: (log ++ [.release handle])) held := by
  have hBack : (insert handle held).erase handle = held := Finset.erase_insert hNew
  have hAll := ((leaves_acquire hNew).append h).append
    (leaves_release (Finset.mem_insert_self handle held))
  rw [hBack] at hAll
  exact hAll

end DpdkPerf
