import Mathlib.Algebra.Ring.Int.Defs
import Mathlib.Algebra.Ring.Nat

/-! Signed and unsigned words of 64 bits, as long as the values fit. -/
namespace DpdkPerf

theorem toInt_add_of_fits (a b : Int64) (hLow : -2 ^ 63 ≤ a.toInt + b.toInt)
    (hHigh : a.toInt + b.toInt < 2 ^ 63) : (a + b).toInt = a.toInt + b.toInt := by
  rw [Int64.toInt_add, Int.bmod_eq_of_le (by omega) (by omega)]

theorem toInt_sub_of_fits (a b : Int64) (hLow : -2 ^ 63 ≤ a.toInt - b.toInt)
    (hHigh : a.toInt - b.toInt < 2 ^ 63) : (a - b).toInt = a.toInt - b.toInt := by
  rw [Int64.toInt_sub, Int.bmod_eq_of_le (by omega) (by omega)]

theorem lt_iff_of_toNat {x : UInt64} {n : Nat} (h : x.toNat = n) (y : UInt64) :
    x < y ↔ n < y.toNat := by
  rw [UInt64.lt_iff_toNat_lt, h]

theorem pos_iff_of_toNat {x : UInt64} {n : Nat} (h : x.toNat = n) : 0 < x ↔ 0 < n := by
  rw [UInt64.lt_iff_toNat_lt, h]
  rfl

theorem le_iff_of_toNat {x : UInt64} {n : Nat} (h : x.toNat = n) (y : UInt64) :
    y ≤ x ↔ y.toNat ≤ n := by
  rw [UInt64.le_iff_toNat_le, h]

theorem toNat_add_of_fits (x y : UInt64) (h : x.toNat + y.toNat < 2 ^ 64) :
    (x + y).toNat = x.toNat + y.toNat := by
  rw [UInt64.toNat_add, Nat.mod_eq_of_lt h]

/-- A word below the sign bit keeps its value when it is read as signed. -/
theorem toInt_toInt64_of_fits (x : UInt64) (h : x.toNat < 2 ^ 63) : x.toInt64.toInt = x.toNat := by
  have hBits : x.toBitVec.toNat = x.toNat := rfl
  have hWord := BitVec.toInt_eq_toNat_of_lt (x := x.toBitVec) (by omega)
  rw [hBits] at hWord
  exact hWord

/-- From 0 it is -1. -/
theorem toInt_toInt64_sub_one (x : UInt64) (h : x.toNat < 2 ^ 63) :
    (x - 1).toInt64.toInt = x.toNat - 1 := by
  have hWord : (x - 1).toInt64 = x.toInt64 - 1 := rfl
  have hFits := toInt_toInt64_of_fits x h
  rw [hWord, toInt_sub_of_fits _ _ (by simp; omega) (by simp; omega), hFits, Int64.toInt_one]

theorem toInt_toInt32_of_fits (x : UInt64) (h : x.toNat < 2 ^ 31) :
    x.toUInt32.toInt32.toInt = x.toNat := by
  have hBits : x.toUInt32.toBitVec.toNat = x.toNat := by
    show x.toUInt32.toNat = x.toNat
    rw [UInt64.toNat_toUInt32]
    omega
  have hWord := BitVec.toInt_eq_toNat_of_lt (x := x.toUInt32.toBitVec) (by omega)
  rw [hBits] at hWord
  exact hWord

/-- A signed word that holds a natural number keeps it as an unsigned one. -/
theorem toNat_toUInt64_of_toInt {a : Int64} {n : Nat} (h : a.toInt = n) :
    a.toUInt64.toNat = n := by
  have hNonneg : 0 ≤ a := Int64.le_iff_toInt_le.mpr (by rw [h, Int64.toInt_zero]; omega)
  rw [Int64.toNat_toUInt64_of_le hNonneg]
  show a.toInt.toNat = n
  rw [h, Int.toNat_natCast]

theorem toInt_add_one {a : Int64} {n : Nat} (h : a.toInt = n) (hFits : n + 1 < 2 ^ 63) :
    (a + 1).toInt = (n + 1 : Nat) := by
  rw [toInt_add_of_fits a 1 (by simp; omega) (by simp; omega), h, Int64.toInt_one]
  rfl

end DpdkPerf
