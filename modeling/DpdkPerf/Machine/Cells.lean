import Mathlib.Logic.Function.Basic
import Mathlib.Data.List.Basic

/-! An array of fixed size whose entries may not have been written yet. A read
of such an entry and a write outside the array are undefined. -/
namespace DpdkPerf

structure Cells (size : Nat) (α : Type*) where
  entry : Fin size → Option α

namespace Cells

variable {size : Nat} {α : Type*}

def read (m : Cells size α) (i : Nat) : Option α := if h : i < size then m.entry ⟨i, h⟩ else none

def write (m : Cells size α) (i : Nat) (v : α) : Option (Cells size α) :=
  if h : i < size then some ⟨Function.update m.entry ⟨i, h⟩ (some v)⟩ else none

/-- `for (i = top - 1; i >= low; i--) m[gap + i] = m[i]`. The signed `i` may
go down to -1. -/
def moveUp (gap low : Nat) : (top : Nat) → Cells size α → Option (Cells size α)
  | 0, m => some m
  | i + 1, m =>
      if low ≤ i then do
        let v ← m.read i
        let m ← m.write (gap + i) v
        moveUp gap low i m
      else some m

/-- `for (; n > 0; i++, n--) m[i] = v`. -/
def fill (v : α) : (i n : Nat) → Cells size α → Option (Cells size α)
  | _, 0, m => some m
  | i, n + 1, m => do
      let m ← m.write i v
      fill v (i + 1) n m

/-- The first entries written with a list, the others not written. -/
def ofList (vs : List α) : Cells size α := ⟨fun i => vs[i.val]?⟩

/-- Arrays that read alike everywhere are equal. -/
theorem ext_read {m m' : Cells size α} (h : ∀ i, m.read i = m'.read i) : m = m' := by
  obtain ⟨f⟩ := m
  obtain ⟨g⟩ := m'
  congr
  funext i
  have hRead := h i.val
  unfold read at hRead
  rwa [dif_pos i.isLt, dif_pos i.isLt] at hRead

theorem read_of_ge (m : Cells size α) {i : Nat} (h : size ≤ i) : m.read i = none :=
  dif_neg (Nat.not_lt.mpr h)

/-- A write inside the array is defined and changes the entry written. -/
theorem write_spec (m : Cells size α) {i : Nat} (h : i < size) (v : α) :
    ∃ m', m.write i v = some m' ∧ ∀ j, m'.read j = if j = i then some v else m.read j := by
  refine ⟨_, dif_pos h, ?_⟩
  intro j
  unfold read
  by_cases hj : j < size
  · rw [dif_pos hj, dif_pos hj]
    show Function.update m.entry ⟨i, h⟩ (some v) ⟨j, hj⟩ = _
    rw [Function.update_apply]
    simp only [Fin.mk.injEq]
  · rw [dif_neg hj, dif_neg hj, if_neg (by omega)]

/-- A write that is defined was inside the array. -/
theorem lt_of_write {m m' : Cells size α} {i : Nat} {v : α} (h : m.write i v = some m') :
    i < size := by
  by_contra hi
  rw [write, dif_neg hi] at h
  simp at h

theorem read_of_write {m m' : Cells size α} {i : Nat} {v : α} (h : m.write i v = some m')
    (j : Nat) : m'.read j = if j = i then some v else m.read j := by
  obtain ⟨m₁, hWrite, hRead⟩ := write_spec m (lt_of_write h) v
  rw [← hRead, Option.some.inj (hWrite.symm.trans h)]

/-- An array made from a list reads as the list does. -/
theorem read_ofList {vs : List α} (h : vs.length ≤ size) (i : Nat) :
    (ofList vs : Cells size α).read i = vs[i]? := by
  by_cases hi : i < size
  · exact dif_pos hi
  · rw [read_of_ge _ (Nat.not_lt.mp hi), List.getElem?_eq_none (by omega)]

/-- The next entry after a list extends the list. -/
theorem write_ofList {vs : List α} (h : vs.length < size) (v : α) :
    (ofList vs : Cells size α).write vs.length v = some (ofList (vs ++ [v])) := by
  obtain ⟨m', hWrite, hRead⟩ := write_spec (ofList vs) h v
  rw [hWrite]
  congr
  apply ext_read
  intro j
  rw [hRead, read_ofList (Nat.le_of_lt h), read_ofList (by rw [List.length_append]; exact h)]
  rcases Nat.lt_trichotomy j vs.length with hj | rfl | hj
  · rw [if_neg (Nat.ne_of_lt hj), List.getElem?_append_left hj]
  · simp
  · rw [if_neg (Nat.ne_of_gt hj), List.getElem?_eq_none (by omega),
      List.getElem?_eq_none (by simp; omega)]

/-- Every entry is read before anything is written over it. -/
theorem moveUp_spec (gap low top : Nat) (m : Cells size α) (hFits : gap + top ≤ size)
    (hWritten : ∀ i, low ≤ i → i < top → (m.read i).isSome) :
    ∃ m', moveUp gap low top m = some m' ∧
      ∀ j, m'.read j =
        if gap + low ≤ j ∧ j < gap + top then m.read (j - gap) else m.read j := by
  induction top generalizing m with
  | zero => exact ⟨m, rfl, fun j => (if_neg (by omega)).symm⟩
  | succ i ih =>
      unfold moveUp
      by_cases hLow : low ≤ i
      · obtain ⟨v, hv⟩ := Option.isSome_iff_exists.mp (hWritten i hLow (Nat.lt_succ_self i))
        obtain ⟨m₁, hWrite, hRead⟩ := write_spec m (show gap + i < size by omega) v
        have hBelow : ∀ j, j < gap + i → m₁.read j = m.read j := fun j hj => by
          rw [hRead, if_neg (Nat.ne_of_lt hj)]
        obtain ⟨m', hMove, hMoved⟩ := ih m₁ (by omega) fun j hl hj => by
          rw [hBelow j (by omega)]
          exact hWritten j hl (by omega)
        refine ⟨m', ?_, ?_⟩
        · rw [if_pos hLow, hv]
          show (m.write (gap + i) v).bind _ = _
          rw [hWrite]
          exact hMove
        · intro j
          rw [hMoved]
          by_cases hj : j = gap + i
          · subst hj
            rw [if_neg (by omega), if_pos (by omega), hRead, if_pos rfl, Nat.add_sub_cancel_left,
              hv]
          · have hSame : m₁.read j = m.read j := by rw [hRead, if_neg hj]
            have hIff : (gap + low ≤ j ∧ j < gap + i) ↔ (gap + low ≤ j ∧ j < gap + (i + 1)) := by
              omega
            simp only [hIff, hSame]
            split
            · rw [hBelow (j - gap) (by omega)]
            · rfl
      · rw [if_neg hLow]
        exact ⟨m, rfl, fun j => (if_neg (by omega)).symm⟩

/-- A fill inside the array is defined and changes just the entries it runs
over. -/
theorem fill_spec (v : α) (i n : Nat) (m : Cells size α) (hFits : i + n ≤ size) :
    ∃ m', fill v i n m = some m' ∧
      ∀ j, m'.read j = if i ≤ j ∧ j < i + n then some v else m.read j := by
  induction n generalizing i m with
  | zero => exact ⟨m, rfl, fun j => (if_neg (by omega)).symm⟩
  | succ n ih =>
      obtain ⟨m₁, hWrite, hRead⟩ := write_spec m (show i < size by omega) v
      obtain ⟨m', hFill, hFilled⟩ := ih (i + 1) m₁ (by omega)
      refine ⟨m', ?_, ?_⟩
      · show (m.write i v).bind _ = _
        rw [hWrite]
        exact hFill
      · intro j
        rw [hFilled, hRead]
        by_cases hj : j = i
        · rw [if_neg (by omega), if_pos hj, if_pos (by omega)]
        · have hIff : (i + 1 ≤ j ∧ j < i + 1 + n) ↔ (i ≤ j ∧ j < i + (n + 1)) := by omega
          simp only [hIff, if_neg hj]

/-- A list with a gap filled in, entry by entry. -/
theorem getElem?_insert (before after : List α) (v : α) (gap j : Nat) :
    (before ++ List.replicate gap v ++ after)[j]? =
      if j < before.length + gap then if j < before.length then before[j]? else some v
      else after[j - (before.length + gap)]? := by
  rw [List.getElem?_append, List.length_append, List.length_replicate]
  split
  · rw [List.getElem?_append, List.getElem?_replicate]
    split
    · rfl
    · rw [if_pos (by omega)]
  · rfl

/-- Moving the entries behind a position up and filling the gap inserts there. -/
theorem moveUp_fill (size : Nat) (before after : List α) (v : α) (gap : Nat)
    (hFits : before.length + after.length + gap ≤ size) :
    ((moveUp gap before.length (before ++ after).length
        (ofList (before ++ after) : Cells size α)).bind (fill v before.length gap))
      = some (ofList (before ++ List.replicate gap v ++ after)) := by
  have hAll : (before ++ after).length = before.length + after.length := List.length_append
  have hLength : (before ++ after).length ≤ size := by omega
  obtain ⟨m₁, hMove, hMoved⟩ := moveUp_spec gap before.length (before ++ after).length
    (ofList (before ++ after) : Cells size α) (by omega) (fun i _ hi => by
      rw [read_ofList hLength, List.getElem?_eq_getElem hi]
      rfl)
  obtain ⟨m', hFill, hFilled⟩ := fill_spec v before.length gap m₁ (by omega)
  rw [hMove, Option.bind_some, hFill]
  congr
  apply ext_read
  intro j
  rw [hFilled, hMoved, read_ofList hLength, read_ofList hLength, read_ofList (by simp; omega),
    getElem?_insert]
  by_cases hBefore : j < before.length
  · rw [if_neg (by omega), if_neg (by omega), if_pos (by omega), if_pos hBefore,
      List.getElem?_append_left hBefore]
  · by_cases hGap : j < before.length + gap
    · rw [if_pos (by omega), if_pos hGap, if_neg hBefore]
    · rw [if_neg (by omega), if_neg hGap]
      by_cases hAfter : j < gap + (before ++ after).length
      · rw [if_pos (by omega), List.getElem?_append_right (by omega)]
        congr 1
        omega
      · rw [if_neg (by omega), List.getElem?_eq_none (by omega),
          List.getElem?_eq_none (by omega)]

end Cells

end DpdkPerf
