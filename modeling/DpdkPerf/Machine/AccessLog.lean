import DpdkPerf.Machine.Cells
import Mathlib.Data.List.Infix

/-! An array as C sees it: an index may be anything, and an entry holds
something before it is written. The accesses are kept in their order, so that
what they must be can be said of them. -/
namespace DpdkPerf

inductive Access where
  | read (i : Int)
  | write (i : Int)
  deriving DecidableEq, Repr

def Access.index : Access → Int
  | .read i => i
  | .write i => i

/-- Accesses to an array: none outside it, and no read of an entry that was
not written before. -/
structure Disciplined (size : Nat) (accesses : List Access) : Prop where
  inRange : ∀ access ∈ accesses, 0 ≤ access.index ∧ access.index < size
  writtenBefore : ∀ earlier i, earlier ++ [.read i] <+: accesses → .write i ∈ earlier

namespace Disciplined

variable {size : Nat} {accesses : List Access} {i : Int}

theorem nil : Disciplined size [] where
  inRange := by simp
  writtenBefore := by simp

/-- A write inside the array keeps the discipline, whatever came before. -/
theorem concat_write (h : Disciplined size accesses) (hLow : 0 ≤ i) (hHigh : i < size) :
    Disciplined size (accesses ++ [.write i]) where
  inRange access hMem := by
    rcases List.mem_append.mp hMem with hMem | hMem
    · exact h.inRange access hMem
    · rw [List.mem_singleton.mp hMem]
      exact ⟨hLow, hHigh⟩
  writtenBefore earlier j hPrefix := by
    rcases List.prefix_concat_iff.mp hPrefix with hAll | hPrefix
    · simp at hAll
    · exact h.writtenBefore earlier j hPrefix

/-- An entry may be read once it has been written. -/
theorem concat_read (h : Disciplined size accesses) (hWritten : .write i ∈ accesses) :
    Disciplined size (accesses ++ [.read i]) where
  inRange access hMem := by
    rcases List.mem_append.mp hMem with hMem | hMem
    · exact h.inRange access hMem
    · rw [List.mem_singleton.mp hMem]
      exact h.inRange (.write i) hWritten
  writtenBefore earlier j hPrefix := by
    rcases List.prefix_concat_iff.mp hPrefix with hAll | hPrefix
    · obtain ⟨rfl, hRead⟩ := List.append_inj' hAll rfl
      simp only [List.cons.injEq, Access.read.injEq, and_true] at hRead
      rwa [hRead]
    · exact h.writtenBefore earlier j hPrefix

end Disciplined

structure RawArray (α : Type*) where
  value : Int → α
  accesses : List Access := []

namespace RawArray

variable {size : Nat} {α : Type*} {a : RawArray α} {m m' : Cells size α} {i : Nat} {v : α}

def read (a : RawArray α) (i : Int) : α × RawArray α :=
  (a.value i, { a with accesses := a.accesses ++ [.read i] })

def write (a : RawArray α) (i : Int) (v : α) : RawArray α where
  value := Function.update a.value i v
  accesses := a.accesses ++ [.write i]

/-- The entries written are these, and no access has been undefined. -/
structure Holds (a : RawArray α) (m : Cells size α) : Prop where
  disciplined : Disciplined size a.accesses
  written : ∀ i v, m.read i = some v → a.value i = v ∧ .write (i : Int) ∈ a.accesses

theorem holds_ofList_nil (value : Int → α) :
    (⟨value, []⟩ : RawArray α).Holds (.ofList [] : Cells size α) where
  disciplined := .nil
  written i v h := by simp [Cells.read_ofList] at h

theorem Holds.fst_read (h : a.Holds m) (hRead : m.read i = some v) : (a.read i).1 = v :=
  (h.written i v hRead).1

theorem Holds.snd_read (h : a.Holds m) (hRead : m.read i = some v) : (a.read i).2.Holds m where
  disciplined := h.disciplined.concat_read (h.written i v hRead).2
  written j w hj := ⟨(h.written j w hj).1, List.mem_append_left _ (h.written j w hj).2⟩

/-- A write that the cells allow is the same write in C. -/
theorem Holds.write (h : a.Holds m) (hWrite : m.write i v = some m') :
    (a.write i v).Holds m' where
  disciplined := h.disciplined.concat_write (by omega) (by
    have hLt := Cells.lt_of_write hWrite
    omega)
  written j w hj := by
    rw [Cells.read_of_write hWrite] at hj
    by_cases hSame : j = i
    · subst hSame
      rw [if_pos rfl] at hj
      refine ⟨?_, by simp [RawArray.write]⟩
      simpa [RawArray.write] using Option.some.inj hj
    · rw [if_neg hSame] at hj
      obtain ⟨hValue, hWritten⟩ := h.written j w hj
      refine ⟨?_, List.mem_append_left _ hWritten⟩
      show Function.update a.value i v j = w
      rw [Function.update_of_ne (by omega), hValue]

end RawArray

end DpdkPerf
