import Mathlib.Algebra.Ring.Nat
import Mathlib.Data.List.Basic

/-! Packed little-endian records: a list of unsigned fields, each with a
width in bytes, laid out one after the other without padding. -/
namespace DpdkPerf.PackedStruct

/-- The low `width` bytes of a number, least significant first. -/
def leBytes : Nat → Nat → List UInt8
  | 0, _ => []
  | width + 1, value => UInt8.ofNat value :: leBytes width (value / 256)

def leValue : List UInt8 → Nat
  | [] => 0
  | byte :: rest => byte.toNat + 256 * leValue rest

@[simp] theorem length_leBytes (width value : Nat) : (leBytes width value).length = width := by
  induction width generalizing value with
  | zero => rfl
  | succ width ih => rw [leBytes, List.length_cons, ih]

/-- What is written into a field reads back up to the field's width. -/
theorem leValue_leBytes (width value : Nat) :
    leValue (leBytes width value) = value % 256 ^ width := by
  induction width generalizing value with
  | zero => simp [leBytes, leValue, Nat.mod_one]
  | succ width ih =>
      have hByte : (UInt8.ofNat value).toNat = value % 256 := rfl
      rw [leBytes, leValue, ih, hByte, Nat.pow_succ, Nat.mul_comm (256 ^ width), Nat.mod_mul]

theorem leValue_leBytes_of_lt {width value : Nat} (h : value < 256 ^ width) :
    leValue (leBytes width value) = value := by
  rw [leValue_leBytes, Nat.mod_eq_of_lt h]

/-- The bytes of a field are those of the value read from it. -/
theorem leBytes_leValue (bytes : List UInt8) : leBytes bytes.length (leValue bytes) = bytes := by
  induction bytes with
  | nil => rfl
  | cons byte rest ih =>
      have hLow : UInt8.ofNat (byte.toNat + 256 * leValue rest) = byte := by
        apply UInt8.toNat_inj.mp
        have hByte := byte.toNat_lt
        rw [UInt8.toNat_ofNat']
        omega
      have hHigh : (byte.toNat + 256 * leValue rest) / 256 = leValue rest := by
        have hByte := byte.toNat_lt
        omega
      rw [List.length_cons, leBytes, leValue, hLow, hHigh, ih]

/-- A field cannot hold more than its bytes do. -/
theorem leValue_lt (bytes : List UInt8) : leValue bytes < 256 ^ bytes.length := by
  induction bytes with
  | nil => simp [leValue]
  | cons byte rest ih =>
      have hByte := byte.toNat_lt
      rw [leValue, List.length_cons, Nat.pow_succ]
      omega

/-- The bytes of a record, given as widths and values. -/
def pack (fields : List (Nat × Nat)) : List UInt8 :=
  fields.flatMap fun field => leBytes field.1 field.2

/-- The values of the fields of the given widths at the front of a buffer. -/
def unpack : List Nat → List UInt8 → List Nat
  | [], _ => []
  | width :: rest, bytes => leValue (bytes.take width) :: unpack rest (bytes.drop width)

theorem length_pack (fields : List (Nat × Nat)) :
    (pack fields).length = (fields.map Prod.fst).sum := by
  simp [pack, List.length_flatMap]

/-- A record whose values fit their widths is read back as it was written. -/
theorem unpack_pack {fields : List (Nat × Nat)} (h : ∀ field ∈ fields, field.2 < 256 ^ field.1) :
    unpack (fields.map Prod.fst) (pack fields) = fields.map Prod.snd := by
  induction fields with
  | nil => rfl
  | cons field rest ih =>
      rw [List.forall_mem_cons] at h
      have hPack : pack (field :: rest) = leBytes field.1 field.2 ++ pack rest := rfl
      have hTake : (pack (field :: rest)).take field.1 = leBytes field.1 field.2 := by
        rw [hPack, List.take_left' (length_leBytes _ _)]
      have hDrop : (pack (field :: rest)).drop field.1 = pack rest := by
        rw [hPack, List.drop_left' (length_leBytes _ _)]
      rw [List.map_cons, List.map_cons, unpack, hTake, hDrop, leValue_leBytes_of_lt h.1, ih h.2]

end DpdkPerf.PackedStruct
