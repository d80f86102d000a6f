/-
# Mmocraft.Net.ConnectionKey -- handles of connections

A `ConnectionKey` packs the index of a slot of the connection table and the 32-bit tick at which the
connection was created.
-/
import Mathlib.Algebra.Group.Nat.Defs
import Mathlib.Data.List.Basic
import Mathlib.Tactic.Common

namespace Mmocraft.Net

/-- `ConnectionKey`, by its two halves; the default is the key whose raw value is zero. -/
structure ConnectionKey where
  index : Nat := 0
  createdAt : Nat := 0
  deriving DecidableEq, Repr, Inhabited

namespace ConnectionKey

/-- `ConnectionKey(index, created_at)` and `raw()`: the tick in the high half, the index in the low
half. -/
def raw (key : ConnectionKey) : BitVec 64 :=
  BitVec.ofNat 64 key.index ||| BitVec.ofNat 64 key.createdAt <<< 32

/-- `ConnectionKey(raw_key)`, by `index()` and `created_at()`. -/
def ofRaw (raw : BitVec 64) : ConnectionKey :=
  { index := (raw &&& 0xFFFFFFFF).toNat, createdAt := (raw >>> 32).toNat }

/-- The halves of a key fit their fields. -/
def Fits (key : ConnectionKey) : Prop := key.index < 2 ^ 32 ∧ key.createdAt < 2 ^ 32

theorem toNat_raw {key : ConnectionKey} (h : key.Fits) :
    key.raw.toNat = key.createdAt * 2 ^ 32 + key.index := by
  obtain ⟨hindex, hcreated⟩ := h
  have hshift : (BitVec.ofNat 64 key.createdAt <<< 32).toNat = key.createdAt <<< 32 := by
    have hlt : key.createdAt % 2 ^ 64 = key.createdAt := Nat.mod_eq_of_lt (by omega)
    rw [BitVec.toNat_shiftLeft, BitVec.toNat_ofNat, hlt, Nat.shiftLeft_eq]
    exact Nat.mod_eq_of_lt (by omega)
  rw [raw, BitVec.toNat_or, hshift, BitVec.toNat_ofNat, Nat.mod_eq_of_lt (by omega), Nat.or_comm,
    ← Nat.shiftLeft_add_eq_or_of_lt hindex, Nat.shiftLeft_eq]

/-- Unpacking gives back what was packed. -/
theorem ofRaw_raw {key : ConnectionKey} (h : key.Fits) : ofRaw key.raw = key := by
  obtain ⟨hindex, hcreated⟩ := id h
  have hlow : (key.raw &&& 0xFFFFFFFF).toNat = key.index := by
    rw [BitVec.toNat_and, toNat_raw h, show (0xFFFFFFFF : BitVec 64).toNat = 2 ^ 32 - 1 from rfl,
      Nat.and_two_pow_sub_one_eq_mod]
    omega
  have hhigh : (key.raw >>> 32).toNat = key.createdAt := by
    rw [BitVec.toNat_ushiftRight, toNat_raw h, Nat.shiftRight_eq_div_pow]
    omega
  cases key
  simp_all only [ofRaw]

theorem fits_ofRaw (raw : BitVec 64) : (ofRaw raw).Fits := by
  constructor
  · show (raw &&& 0xFFFFFFFF).toNat < 2 ^ 32
    rw [BitVec.toNat_and, show (0xFFFFFFFF : BitVec 64).toNat = 2 ^ 32 - 1 from rfl,
      Nat.and_two_pow_sub_one_eq_mod]
    omega
  · show (raw >>> 32).toNat < 2 ^ 32
    rw [BitVec.toNat_ushiftRight, Nat.shiftRight_eq_div_pow]
    omega

/-- Packing gives back what was unpacked. -/
theorem raw_ofRaw (raw : BitVec 64) : (ofRaw raw).raw = raw := by
  apply BitVec.eq_of_toNat_eq
  rw [toNat_raw (fits_ofRaw raw)]
  show (raw >>> 32).toNat * 2 ^ 32 + (raw &&& 0xFFFFFFFF).toNat = raw.toNat
  rw [BitVec.toNat_and, show (0xFFFFFFFF : BitVec 64).toNat = 2 ^ 32 - 1 from rfl,
    Nat.and_two_pow_sub_one_eq_mod, BitVec.toNat_ushiftRight, Nat.shiftRight_eq_div_pow]
  omega

theorem raw_inj {key key' : ConnectionKey} (h : key.Fits) (h' : key'.Fits)
    (heq : key.raw = key'.raw) : key = key' := by
  rw [← ofRaw_raw h, heq, ofRaw_raw h']

end ConnectionKey

/-- `util::current_monotonic_tick32`, from the 64-bit tick. -/
def monotonicTick32 (now : Nat) : Nat := now % 2 ^ 32

end Mmocraft.Net
