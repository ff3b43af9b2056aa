import Mathlib.Data.List.AList

/-! An array that has elements at some indices only, and knows how many. -/
namespace DpdkPerf

abbrev SparseArray (α : Type*) := AList fun _ : Nat => α

namespace SparseArray

variable {α : Type*} {a : SparseArray α} {values : List α}

def count (a : SparseArray α) : Nat := a.entries.length

/-- The elements are these values, from index 1 on. -/
structure Holds (a : SparseArray α) (values : List α) : Prop where
  count : a.count = values.length
  lookup : ∀ i, a.lookup i = if i = 0 then none else values[i - 1]?

theorem holds_empty : (∅ : SparseArray α).Holds [] where
  count := rfl
  lookup i := by simp

/-- A value assigned behind the last one. -/
theorem Holds.push (h : a.Holds values) {k : Nat} (hLast : k = values.length + 1) (value : α) :
    SparseArray.Holds (a.insert k value) (values ++ [value]) := by
  subst hLast
  have hNone : a.lookup (values.length + 1) = none := by
    rw [h.lookup, if_neg (Nat.succ_ne_zero _)]
    simp
  constructor
  · show (a.insert (values.length + 1) value).entries.length = _
    rw [AList.entries_insert_of_notMem (AList.lookup_eq_none.mp hNone), List.length_cons,
      List.length_append, List.length_singleton]
    exact congrArg (· + 1) h.count
  · intro i
    by_cases hLast : i = values.length + 1
    · subst hLast
      rw [AList.lookup_insert, if_neg (Nat.succ_ne_zero _)]
      simp
    · rw [AList.lookup_insert_ne hLast, h.lookup]
      by_cases hZero : i = 0
      · rw [if_pos hZero, if_pos hZero]
      · rw [if_neg hZero, if_neg hZero]
        by_cases hBefore : i - 1 < values.length
        · rw [List.getElem?_append_left hBefore]
        · rw [List.getElem?_eq_none (by omega), List.getElem?_eq_none (by simp; omega)]

/-- Values that come in blocks of one length, each block made of one item. -/
theorem Holds.lookup_block {β : Type*} {f : β → List α} {width : Nat}
    (hWidth : ∀ item, (f item).length = width) {before rest : List β} {item : β}
    (h : a.Holds ((before ++ item :: rest).flatMap f)) {k : Nat} (hk : k < width) :
    a.lookup (width * before.length + 1 + k) = (f item)[k]? := by
  have hBefore : (before.flatMap f).length = width * before.length := by
    rw [List.length_flatMap, List.map_congr_left fun item _ => hWidth item, List.map_const',
      List.sum_replicate_nat, Nat.mul_comm]
  have hIndex : width * before.length + 1 + k - 1 = (before.flatMap f).length + k := by
    rw [hBefore]
    omega
  have hHere : k < (f item).length := by
    rw [hWidth item]
    exact hk
  rw [h.lookup, if_neg (by omega), hIndex, List.flatMap_append, List.flatMap_cons,
    List.getElem?_append_right (Nat.le_add_right _ _), Nat.add_sub_cancel_left,
    List.getElem?_append_left hHere]

/-- An array of blocks has a whole number of them. -/
theorem Holds.count_blocks {β : Type*} {f : β → List α} {width : Nat}
    (hWidth : ∀ item, (f item).length = width) {items : List β} (h : a.Holds (items.flatMap f)) :
    a.count = width * items.length := by
  rw [h.count, List.length_flatMap, List.map_congr_left fun item _ => hWidth item, List.map_const',
    List.sum_replicate_nat, Nat.mul_comm]

end SparseArray

end DpdkPerf
