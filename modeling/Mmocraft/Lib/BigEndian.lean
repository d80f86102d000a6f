/-
# Mmocraft.Lib.BigEndian -- big-endian integers and byte swapping

The network representation of integers as lists of bytes, the byte swap of a 16-bit word, the bytes of
a word in memory, and the laws that a reader of either needs.
-/
import Mathlib.Algebra.Group.Nat.Defs
import Mathlib.Data.List.Induction
import Mathlib.Tactic.Common

namespace Mmocraft.Lib

/-- The two bytes of `n` modulo `2 ^ 16`, most significant first. -/
def be16 (n : Nat) : List UInt8 := [UInt8.ofNat (n / 256), UInt8.ofNat n]

/-- The four bytes of `n` modulo `2 ^ 32`, most significant first. -/
def be32 (n : Nat) : List UInt8 := be16 (n / 2 ^ 16) ++ be16 n

/-- The number that a list of bytes denotes, most significant byte first. -/
def ofBigEndian (bs : List UInt8) : Nat := bs.foldl (fun acc b => acc * 256 + b.toNat) 0

@[simp] theorem length_be16 (n : Nat) : (be16 n).length = 2 := rfl

@[simp] theorem length_be32 (n : Nat) : (be32 n).length = 4 := rfl

theorem ofBigEndian_be16 {n : Nat} (h : n < 2 ^ 16) : ofBigEndian (be16 n) = n := by
  simp only [ofBigEndian, be16, List.foldl_cons, List.foldl_nil, UInt8.toNat_ofNat']
  omega

theorem ofBigEndian_be32 {n : Nat} (h : n < 2 ^ 32) : ofBigEndian (be32 n) = n := by
  simp only [ofBigEndian, be32, be16, List.cons_append, List.nil_append, List.foldl_cons, List.foldl_nil,
    UInt8.toNat_ofNat']
  omega

/-! ## Any number of bytes -/

/-- The `size` bytes of `n` modulo `256 ^ size`, most significant first. -/
def bigEndian : Nat → Nat → List UInt8
  | 0, _ => []
  | size + 1, n => bigEndian size (n / 256) ++ [UInt8.ofNat n]

@[simp] theorem length_bigEndian (size n : Nat) : (bigEndian size n).length = size := by
  induction size generalizing n with
  | zero => rfl
  | succ size ih => rw [bigEndian, List.length_append, ih, List.length_singleton]

theorem ofBigEndian_append_singleton (bs : List UInt8) (b : UInt8) :
    ofBigEndian (bs ++ [b]) = ofBigEndian bs * 256 + b.toNat := by
  rw [ofBigEndian, List.foldl_append, List.foldl_cons, List.foldl_nil, ofBigEndian]

/-- A number that fits is read back. -/
theorem ofBigEndian_bigEndian {size n : Nat} (h : n < 256 ^ size) : ofBigEndian (bigEndian size n) = n := by
  induction size generalizing n with
  | zero =>
      rw [Nat.pow_zero, Nat.lt_one_iff] at h
      rw [h]
      rfl
  | succ size ih =>
      have hhigh : n / 256 < 256 ^ size := by
        rw [Nat.div_lt_iff_lt_mul (by decide), ← Nat.pow_succ]
        exact h
      rw [bigEndian, ofBigEndian_append_singleton, ih hhigh, UInt8.toNat_ofNat']
      exact Nat.div_add_mod' n 256

/-- Bytes are written back. -/
theorem bigEndian_ofBigEndian (bs : List UInt8) : bigEndian bs.length (ofBigEndian bs) = bs := by
  induction bs using List.reverseRecOn with
  | nil => rfl
  | append_singleton bs b ih =>
      have hb : b.toNat < 256 := b.toNat_lt
      have hhigh : (ofBigEndian bs * 256 + b.toNat) / 256 = ofBigEndian bs := by omega
      have hlow : UInt8.ofNat (ofBigEndian bs * 256 + b.toNat) = b := by
        apply UInt8.toNat_inj.mp
        rw [UInt8.toNat_ofNat']
        omega
      rw [List.length_append, List.length_singleton, bigEndian, ofBigEndian_append_singleton, hhigh, hlow, ih]

theorem ofBigEndian_lt (bs : List UInt8) : ofBigEndian bs < 256 ^ bs.length := by
  induction bs using List.reverseRecOn with
  | nil => exact Nat.one_pos
  | append_singleton bs b ih =>
      have hb : b.toNat < 256 := b.toNat_lt
      rw [ofBigEndian_append_singleton, List.length_append, List.length_singleton, Nat.pow_succ]
      omega

/-! ## Exchanged bytes -/

/-- The two bytes of a 16-bit word, exchanged. -/
def byteswap16 (w : BitVec 16) : BitVec 16 := BitVec.ofNat 16 (w.toNat % 256 * 256 + w.toNat / 256)

@[simp] theorem byteswap16_byteswap16 (w : BitVec 16) : byteswap16 (byteswap16 w) = w := by
  apply BitVec.eq_of_toNat_eq
  have hw : w.toNat < 2 ^ 16 := w.isLt
  have hhigh : w.toNat / 256 < 256 := by omega
  have hlow : w.toNat % 256 < 256 := Nat.mod_lt _ (by decide)
  have hsplit : w.toNat / 256 * 256 + w.toNat % 256 = w.toNat := Nat.div_add_mod' _ _
  simp only [byteswap16, BitVec.toNat_ofNat]
  generalize w.toNat / 256 = high at *
  generalize w.toNat % 256 = low at *
  rw [Nat.mod_eq_of_lt (by omega : low * 256 + high < 2 ^ 16),
    show (low * 256 + high) % 256 = high by omega, show (low * 256 + high) / 256 = low by omega,
    hsplit, Nat.mod_eq_of_lt hw]

/-! ## Words in memory -/

/-- The two bytes of a 16-bit word as a little-endian machine stores it. -/
def littleEndian16 (w : BitVec 16) : List UInt8 := [UInt8.ofNat w.toNat, UInt8.ofNat (w.toNat / 256)]

/-- The word that such a machine loads from two bytes. -/
def ofLittleEndian16 (low high : UInt8) : BitVec 16 := BitVec.ofNat 16 (high.toNat * 256 + low.toNat)

@[simp] theorem length_littleEndian16 (w : BitVec 16) : (littleEndian16 w).length = 2 := rfl

/-- A stored word is loaded. -/
@[simp] theorem ofLittleEndian16_bytes (w : BitVec 16) :
    ofLittleEndian16 (UInt8.ofNat w.toNat) (UInt8.ofNat (w.toNat / 256)) = w := by
  apply BitVec.eq_of_toNat_eq
  have hw : w.toNat < 2 ^ 16 := w.isLt
  simp only [ofLittleEndian16, BitVec.toNat_ofNat, UInt8.toNat_ofNat']
  omega

/-- The bytes of a swapped word are the big-endian bytes of the word. -/
theorem littleEndian16_byteswap16 (w : BitVec 16) :
    littleEndian16 (byteswap16 w) = bigEndian 2 w.toNat := by
  have hw : w.toNat < 2 ^ 16 := w.isLt
  have hswap : (byteswap16 w).toNat = w.toNat % 256 * 256 + w.toNat / 256 := by
    rw [byteswap16, BitVec.toNat_ofNat]
    omega
  have hlow : UInt8.ofNat (w.toNat % 256 * 256 + w.toNat / 256) = UInt8.ofNat (w.toNat / 256) := by
    apply UInt8.toNat_inj.mp
    rw [UInt8.toNat_ofNat', UInt8.toNat_ofNat']
    omega
  have hhigh : UInt8.ofNat ((w.toNat % 256 * 256 + w.toNat / 256) / 256) = UInt8.ofNat w.toNat := by
    have hdiv : (w.toNat % 256 * 256 + w.toNat / 256) / 256 = w.toNat % 256 := by
      rw [Nat.mul_comm, Nat.mul_add_div (by decide), Nat.div_eq_of_lt (by omega), Nat.add_zero]
    apply UInt8.toNat_inj.mp
    rw [hdiv, UInt8.toNat_ofNat', UInt8.toNat_ofNat', Nat.mod_mod]
  rw [littleEndian16, hswap, hlow, hhigh]
  rfl

end Mmocraft.Lib
