/-
# Mmocraft.Lib.MachineInt -- conversions between fixed-width integers

The value of an integer after conversion to a signed 32-bit or an unsigned 64-bit type, both
modulo the width, with the range lemmas that remove the conversion where nothing wraps.
-/
import Mathlib.Algebra.Group.Nat.Defs
import Mathlib.Algebra.Order.Group.Int
import Mathlib.Tactic.Common

namespace Mmocraft.Lib

/-- The value after conversion to a signed 32-bit integer. -/
def int32 (x : Int) : Int := Int.bmod x 4294967296

/-- The value after conversion to an unsigned 64-bit integer. -/
def sizeT (x : Int) : Nat := (x % 18446744073709551616).toNat

/-- The value after conversion to an unsigned 32-bit integer. -/
def ulong (x : Int) : Nat := (x % 4294967296).toNat

theorem ulong_of_nonneg {x : Int} (hlo : 0 ≤ x) (hhi : x < 2 ^ 32) : ulong x = x.toNat := by
  unfold ulong
  rw [Int.emod_eq_of_lt hlo (by omega)]

theorem int32_of_range {x : Int} (hlo : -2 ^ 31 ≤ x) (hhi : x < 2 ^ 31) : int32 x = x := by
  unfold int32
  rw [Int.bmod_eq_of_le] <;> omega

/-- One step above the signed range wraps to the negative side. -/
theorem int32_of_overflow {x : Int} (hlo : 2 ^ 31 ≤ x) (hhi : x < 2 ^ 32) :
    int32 x = x - 2 ^ 32 := by
  unfold int32
  rw [Int.bmod_def]
  omega

theorem sizeT_of_nonneg {x : Int} (hlo : 0 ≤ x) (hhi : x < 2 ^ 64) : sizeT x = x.toNat := by
  unfold sizeT
  rw [Int.emod_eq_of_lt hlo (by omega)]

/-- A negative integer becomes a huge size. -/
theorem sizeT_of_neg {x : Int} (hlo : -2 ^ 63 ≤ x) (hhi : x < 0) : 2 ^ 63 ≤ sizeT x := by
  unfold sizeT
  omega

theorem int32_lt (x : Int) : int32 x < 2 ^ 31 := by
  unfold int32
  rw [Int.bmod_def]
  omega

theorem le_int32 (x : Int) : -2 ^ 31 ≤ int32 x := by
  unfold int32
  rw [Int.bmod_def]
  omega

/-- A size computed in 32 bits is exact below `2 ^ 31`, and nowhere above. -/
theorem sizeT_int32_eq_iff {x : Int} (hlo : 0 ≤ x) (hhi : x < 2 ^ 63) :
    (sizeT (int32 x) : Int) = x ↔ x < 2 ^ 31 := by
  have hlt := int32_lt x
  have hle := le_int32 x
  constructor
  · intro h
    rcases Int.lt_or_le (int32 x) 0 with hneg | hpos
    · have hhuge := sizeT_of_neg (by omega) hneg
      omega
    · rw [sizeT_of_nonneg hpos (by omega)] at h
      omega
  · intro h
    rw [int32_of_range (by omega) h, sizeT_of_nonneg hlo (by omega)]
    exact Int.toNat_of_nonneg hlo

/-- An integer survives 16 bits exactly inside their signed range. -/
theorem toInt_ofInt16_eq_iff {x : Int} : (BitVec.ofInt 16 x).toInt = x ↔ -2 ^ 15 ≤ x ∧ x < 2 ^ 15 := by
  rw [BitVec.toInt_ofInt, Int.bmod_def]
  constructor <;> intro h <;> omega

/-! ## Differences sent in one byte -/

/-- A difference of 16 bits that a signed byte holds. -/
def FitsByte (d : BitVec 16) : Prop := -128 ≤ d.toInt ∧ d.toInt < 128

instance (d : BitVec 16) : Decidable (FitsByte d) :=
  inferInstanceAs (Decidable (-128 ≤ d.toInt ∧ d.toInt < 128))

theorem FitsByte.of_natAbs {d : BitVec 16} (h : d.toInt.natAbs ≤ 32) : FitsByte d := by
  unfold FitsByte
  omega

/-- Such a difference survives the byte. -/
theorem FitsByte.signExtend_setWidth {d : BitVec 16} (h : FitsByte d) :
    (d.setWidth 8).signExtend 16 = d := by
  obtain ⟨hlow, hhigh⟩ := h
  apply BitVec.eq_of_toInt_eq
  rw [BitVec.toInt_signExtend_of_le (by decide), BitVec.toInt_setWidth]
  rw [BitVec.toInt_eq_toNat_bmod] at *
  have hlt := d.isLt
  simp only [Int.bmod] at *
  omega

/-- Only such a difference survives the byte. -/
theorem fitsByte_of_signExtend_setWidth {d : BitVec 16} (h : (d.setWidth 8).signExtend 16 = d) :
    FitsByte d := by
  have hint : d.toInt = (d.setWidth 8).toInt := by
    rw [← BitVec.toInt_signExtend_of_le (show 8 ≤ 16 by decide), h]
  have hlow := BitVec.le_toInt (d.setWidth 8)
  have hhigh := BitVec.toInt_lt (x := d.setWidth 8)
  unfold FitsByte
  omega

/-- Such a difference moves a base to the latest value only from where it was taken. -/
theorem FitsByte.add_signExtend_eq_iff {latest taken : BitVec 16} (h : FitsByte (latest - taken))
    (base : BitVec 16) :
    base + ((latest - taken).setWidth 8).signExtend 16 = latest ↔ base = taken := by
  rw [h.signExtend_setWidth]
  constructor
  · intro hmoved
    bv_omega
  · rintro rfl
    bv_omega

end Mmocraft.Lib
