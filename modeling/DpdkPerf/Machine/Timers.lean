import Mathlib.Data.Fintype.Card
import Mathlib.Order.Bounds.Basic

/-! A store of timers: which events are pending, and the time of each. An
advance takes events out of it. It is timely when it takes exactly those that
are due and tells the earliest time of those that stay. -/
namespace DpdkPerf

/-- A minimum over some of the elements of a list. -/
theorem isLeast_foldl_min {ι τ : Type*} [LinearOrder τ] (skip : ι → Prop) [DecidablePred skip]
    (time : ι → τ) (items : List ι) (top : τ) :
    IsLeast (insert top {e | ∃ i ∈ items, ¬ skip i ∧ time i = e})
      (items.foldl (fun next i => if skip i then next else min next (time i)) top) := by
  induction items generalizing top with
  | nil => simp
  | cons i rest ih =>
      rw [List.foldl_cons]
      obtain ⟨hMem, hLe⟩ := ih (if skip i then top else min top (time i))
      by_cases hSkip : skip i
      · rw [if_pos hSkip] at hMem hLe ⊢
        constructor
        · rcases hMem with hTop | ⟨j, hj, hRest⟩
          · exact Or.inl hTop
          · exact Or.inr ⟨j, List.mem_cons_of_mem i hj, hRest⟩
        · rintro e (rfl | ⟨j, hj, hNot, rfl⟩)
          · exact hLe (Or.inl rfl)
          · rcases List.mem_cons.mp hj with rfl | hj
            · exact absurd hSkip hNot
            · exact hLe (Or.inr ⟨j, hj, hNot, rfl⟩)
      · rw [if_neg hSkip] at hMem hLe ⊢
        have hMin := hLe (Or.inl rfl)
        constructor
        · rcases hMem with hTop | ⟨j, hj, hRest⟩
          · rw [hTop]
            rcases min_choice top (time i) with hFirst | hSecond
            · exact Or.inl hFirst
            · exact Or.inr ⟨i, List.mem_cons_self, hSkip, hSecond.symm⟩
          · exact Or.inr ⟨j, List.mem_cons_of_mem i hj, hRest⟩
        · rintro e (rfl | ⟨j, hj, hNot, rfl⟩)
          · exact hMin.trans (min_le_left _ _)
          · rcases List.mem_cons.mp hj with rfl | hj
            · exact hMin.trans (min_le_right _ _)
            · exact hLe (Or.inr ⟨j, hj, hNot, rfl⟩)

/-- The time of each pending event. -/
abbrev Timers (ι τ : Type*) := ι → Option τ

namespace Timers

variable {ι τ : Type*} [DecidableEq ι] {T : Timers ι τ} {i : ι} {gone : List ι} {time : ι → τ}

def remove (T : Timers ι τ) (gone : List ι) : Timers ι τ :=
  fun i => if i ∈ gone then none else T i

/-- Events entered again after they were taken out. -/
def renew (T : Timers ι τ) (again : List ι) (time : ι → τ) : Timers ι τ :=
  fun i => if i ∈ again then some (time i) else T i

/-- The events taken out are pending, and none is taken out twice. -/
structure Takes (T : Timers ι τ) (gone : List ι) : Prop where
  nodup : gone.Nodup
  pending : ∀ i ∈ gone, T i ≠ none

instance (T : Timers ι τ) (gone : List ι) : Decidable (T.Takes gone) :=
  decidable_of_iff (gone.Nodup ∧ ∀ i ∈ gone, (T i).isSome = true)
    ⟨fun h => ⟨h.1, fun i hi => Option.isSome_iff_ne_none.mp (h.2 i hi)⟩,
      fun h => ⟨h.nodup, fun i hi => Option.isSome_iff_ne_none.mpr (h.pending i hi)⟩⟩

/-- `next` is the earliest time left, or `top` if none is earlier. -/
structure Timely [Preorder τ] (T : Timers ι τ) (due : τ → Prop) (top : τ) (gone : List ι)
    (next : τ) : Prop where
  mem_iff : ∀ i t, T i = some t → (i ∈ gone ↔ due t)
  next : IsLeast (insert top {t | ∃ i, T.remove gone i = some t}) next

theorem remove_of_mem (h : i ∈ gone) : T.remove gone i = none := if_pos h

theorem remove_of_notMem (h : i ∉ gone) : T.remove gone i = T i := if_neg h

theorem remove_eq_some {t : τ} : T.remove gone i = some t ↔ i ∉ gone ∧ T i = some t := by
  by_cases h : i ∈ gone
  · rw [remove_of_mem h]
    exact iff_of_false (fun hNone => by cases hNone) fun hBoth => hBoth.1 h
  · rw [remove_of_notMem h]
    exact (and_iff_right h).symm

theorem renew_of_mem {again : List ι} (h : i ∈ again) : T.renew again time i = some (time i) :=
  if_pos h

theorem renew_of_notMem {again : List ι} (h : i ∉ again) : T.renew again time i = T i := if_neg h

section Next

variable [LinearOrder τ] {due : τ → Prop} {top next : τ} {t : τ}

theorem Timely.not_due (h : T.Timely due top gone next) (hStays : T.remove gone i = some t) :
    ¬ due t := by
  obtain ⟨hNot, hTime⟩ := remove_eq_some.mp hStays
  exact fun hDue => hNot ((h.mem_iff i t hTime).mpr hDue)

theorem Timely.next_le (h : T.Timely due top gone next) (hStays : T.remove gone i = some t) :
    next ≤ t :=
  h.next.2 (Or.inr ⟨i, hStays⟩)

/-- What was due comes before all that stays. -/
theorem Timely.lt_next (h : T.Timely due top gone next)
    (hDown : ∀ s t, s ≤ t → due t → due s) (hDue : due t) (hTop : t < top) : t < next := by
  rcases h.next.1 with hNext | ⟨i, hStays⟩
  · exact hNext ▸ hTop
  · by_contra hNot
    exact h.not_due hStays (hDown next t (not_lt.mp hNot) hDue)

end Next

section Count

variable [Fintype ι]

/-- The pending events. -/
def pending (T : Timers ι τ) : Finset ι := Finset.univ.filter fun i => (T i).isSome

omit [DecidableEq ι] in
theorem mem_pending : i ∈ T.pending ↔ T i ≠ none := by
  rw [pending, Finset.mem_filter, Option.isSome_iff_ne_none]
  exact and_iff_right (Finset.mem_univ i)

theorem pending_remove : (T.remove gone).pending = T.pending \ gone.toFinset := by
  ext i
  rw [Finset.mem_sdiff, List.mem_toFinset, mem_pending, mem_pending]
  by_cases h : i ∈ gone
  · rw [remove_of_mem h]
    exact iff_of_false (fun hNone => hNone rfl) fun hBoth => hBoth.2 h
  · rw [remove_of_notMem h]
    exact (and_iff_left h).symm

/-- What is entered again is pending with all that was. -/
theorem pending_renew {again : List ι} :
    (T.renew again time).pending = T.pending ∪ again.toFinset := by
  ext i
  rw [Finset.mem_union, List.mem_toFinset, mem_pending, mem_pending]
  by_cases h : i ∈ again
  · rw [renew_of_mem h]
    exact iff_of_true (fun hNone => by cases hNone) (Or.inr h)
  · rw [renew_of_notMem h]
    exact (or_iff_left h).symm

/-- Nothing is lost and nothing is taken twice. -/
theorem Takes.card_remove (h : T.Takes gone) :
    (T.remove gone).pending.card + gone.length = T.pending.card := by
  have hSub : gone.toFinset ⊆ T.pending := fun i hMem =>
    mem_pending.mpr (h.pending i (List.mem_toFinset.mp hMem))
  rw [pending_remove, ← List.toFinset_card_of_nodup h.nodup]
  exact Finset.card_sdiff_add_card_eq_card hSub

/-- As many events are entered again as were taken out. -/
theorem Takes.card_renew (h : T.Takes gone) :
    ((T.remove gone).renew gone time).pending.card = T.pending.card := by
  have hSub : gone.toFinset ⊆ T.pending := fun i hMem =>
    mem_pending.mpr (h.pending i (List.mem_toFinset.mp hMem))
  rw [pending_renew, pending_remove, Finset.sdiff_union_of_subset hSub]

end Count

end Timers

end DpdkPerf
