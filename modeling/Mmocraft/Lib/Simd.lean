/-
# Mmocraft.Lib.Simd -- registers of bytes and their lanes

A register of `n` bytes, least significant byte first.  An operation on lanes of `w` bytes reads each lane
as a number in base 256, computes with the number and writes it back, so that bits move from byte to byte.
The rules below say when they do not: a shift or a sum of lanes is one of bytes where no byte overflows,
and what a right shift moves in from the next byte stays above the bits that are kept.
-/
import Mathlib.Data.Nat.Digits.Defs
import Mathlib.Data.List.OfFn
import Mathlib.Tactic.Common

namespace Mmocraft.Lib.Simd

/-- A register of `n` bytes. -/
abbrev Reg (n : Nat) := Fin n → UInt8

variable {n : Nat}

/-- A byte of a register, zero behind its end. -/
def byte (x : Reg n) (i : Nat) : UInt8 := if h : i < n then x ⟨i, h⟩ else 0

@[simp] theorem byte_val (x : Reg n) (i : Fin n) : byte x i.val = x i := dif_pos i.isLt

theorem byte_of_lt (x : Reg n) {i : Nat} (h : i < n) : byte x i = x ⟨i, h⟩ := dif_pos h

/-! ## Lanes -/

/-- The number whose bytes are given. -/
def number (w : Nat) (bytes : Nat → UInt8) : Nat :=
  Nat.ofDigits 256 ((List.range w).map fun b => (bytes b).toNat)

/-- A lane of `w` bytes as a number. -/
def lane (w : Nat) (x : Reg n) (j : Nat) : Nat := number w fun b => byte x (w * j + b)

/-- The register with the given lanes.  What does not fit a lane is cut off. -/
def ofLanes (n w : Nat) (v : Nat → Nat) : Reg n := fun i => UInt8.ofNat (v (i / w) / 256 ^ (i.val % w))

theorem ofDigits_div_pow_mod {ds : List Nat} (hds : ∀ d ∈ ds, d < 256) (b : Nat) :
    Nat.ofDigits 256 ds / 256 ^ b % 256 = ds.getD b 0 := by
  induction ds generalizing b with
  | nil => simp
  | cons d ds ih =>
      have hd := hds d List.mem_cons_self
      rw [Nat.ofDigits_cons]
      cases b with
      | zero =>
          rw [pow_zero, Nat.div_one, List.getD_cons_zero]
          omega
      | succ b =>
          rw [List.getD_cons_succ, ← ih fun e he => hds e (List.mem_cons_of_mem d he)]
          rw [pow_succ', ← Nat.div_div_eq_div_mul]
          congr 2
          omega

/-- A byte of a number. -/
theorem number_div_pow_mod {w b : Nat} (hb : b < w) (bytes : Nat → UInt8) :
    number w bytes / 256 ^ b % 256 = (bytes b).toNat := by
  have hds : ∀ d ∈ (List.range w).map fun b => (bytes b).toNat, d < 256 := by
    intro d hd
    obtain ⟨c, -, rfl⟩ := List.mem_map.mp hd
    exact (bytes c).toNat_lt
  rw [number, ofDigits_div_pow_mod hds, List.getD_eq_getElem?_getD, List.getElem?_map,
    List.getElem?_range hb]
  rfl

/-- A lane that is a number written by its bytes is written back as these bytes. -/
theorem ofLanes_number {w : Nat} (hw : 0 < w) (bytes : Nat → Nat → UInt8) (i : Fin n) :
    ofLanes n w (fun j => number w (bytes j)) i = bytes (i / w) (i % w) := by
  rw [ofLanes, ← UInt8.toNat_inj, UInt8.toNat_ofNat']
  exact number_div_pow_mod (Nat.mod_lt _ hw) _

/-- Where no product overflows, a number times `k` is its bytes times `k`. -/
theorem number_mul {w k : Nat} {bytes : Nat → UInt8} (h : ∀ b < w, (bytes b).toNat * k < 256) :
    number w bytes * k = number w fun b => UInt8.ofNat ((bytes b).toNat * k) := by
  rw [number, number, mul_comm, Nat.mul_ofDigits, List.map_map]
  congr 1
  refine List.map_congr_left fun b hb => ?_
  rw [Function.comp_apply, UInt8.toNat_ofNat', Nat.mod_eq_of_lt (h b (List.mem_range.mp hb)), mul_comm]

/-- Where no sum overflows, the sum of two numbers is the sums of their bytes. -/
theorem number_add {w : Nat} {f g : Nat → UInt8} (h : ∀ b < w, (f b).toNat + (g b).toNat < 256) :
    number w f + number w g = number w fun b => f b + g b := by
  rw [number, number, number, Nat.ofDigits_add_ofDigits_eq_ofDigits_zipWith_of_length_eq (by simp)]
  congr 1
  rw [List.zipWith_map_left, List.zipWith_map_right, List.zipWith_self]
  refine List.map_congr_left fun b hb => ?_
  rw [UInt8.toNat_add, Nat.mod_eq_of_lt (h b (List.mem_range.mp hb))]

/-! ## Operations -/

/-- `_mm_set_epi64x`, `_mm256_set_epi32` and the like: the lanes, the most significant first. -/
def setLanes (n w : Nat) (lanes : List Nat) : Reg n := ofLanes n w fun j => lanes.reverse.getD j 0

/-- `_mm256_set1_epi8`. -/
def set1 (n : Nat) (b : UInt8) : Reg n := fun _ => b

/-- `_mm256_setzero_si256`. -/
def setZero (n : Nat) : Reg n := fun _ => 0

/-- `_mm256_add_epi8`. -/
def addBytes (x y : Reg n) : Reg n := fun i => x i + y i

/-- `_mm256_sub_epi8`. -/
def subBytes (x y : Reg n) : Reg n := fun i => x i - y i

/-- `_mm256_and_si256`. -/
def andBytes (x y : Reg n) : Reg n := fun i => x i &&& y i

/-- `_mm256_or_si256`. -/
def orBytes (x y : Reg n) : Reg n := fun i => x i ||| y i

/-- `_mm256_blendv_epi8`: a byte of `y` where the mask's is negative. -/
def blendv (x y mask : Reg n) : Reg n := fun i => if 128 ≤ mask i then y i else x i

/-- `_mm256_srli_epi64` and the like. -/
def srli (w : Nat) (x : Reg n) (k : Nat) : Reg n := ofLanes n w fun j => lane w x j / 2 ^ k

/-- `_mm256_slli_epi64` and the like. -/
def slli (w : Nat) (x : Reg n) (k : Nat) : Reg n := ofLanes n w fun j => lane w x j * 2 ^ k

/-- `_mm256_sllv_epi32`: each lane by the count in the same lane, to zero if all its bits leave. -/
def sllv (w : Nat) (x counts : Reg n) : Reg n :=
  ofLanes n w fun j => if lane w counts j < 8 * w then lane w x j * 2 ^ lane w counts j else 0

/-- `_mm256_shuffle_epi8`: within each half of 16 bytes, the byte that the index names, or zero. -/
def shuffle (x index : Reg n) : Reg n :=
  fun i => if 128 ≤ index i then 0 else byte x (i / 16 * 16 + (index i).toNat % 16)

/-- `_mm256_unpacklo_epi8`: within each half of 16 bytes, its lower bytes in turn. -/
def unpackLo (x y : Reg n) : Reg n :=
  fun i => byte (if i.val % 2 = 0 then x else y) (i / 16 * 16 + i % 16 / 2)

/-- `_mm256_unpackhi_epi8`: within each half of 16 bytes, its upper bytes in turn. -/
def unpackHi (x y : Reg n) : Reg n :=
  fun i => byte (if i.val % 2 = 0 then x else y) (i / 16 * 16 + 8 + i % 16 / 2)

/-- `_mm256_hadd_epi32`: within each half of 16 bytes, the sums of neighbouring lanes of `x` and then
of `y`. -/
def hadd (w : Nat) (x y : Reg n) : Reg n :=
  ofLanes n w fun j =>
    let half := 16 / w
    let source := if j % half < half / 2 then x else y
    let k := j / half * half + j % (half / 2) * 2
    lane w source k + lane w source (k + 1)

/-- `_mm256_permute4x64_epi64`: each lane of 8 bytes by two bits of the immediate. -/
def permute4x64 (x : Reg n) (imm : Nat) : Reg n := ofLanes n 8 fun j => lane 8 x (imm / 4 ^ j % 4)

/-- `_mm256_castsi128_si256`.  The upper half is not defined. -/
def castUp (upper x : Reg 16) : Reg 32 := fun i => if i.val < 16 then byte x i else byte upper (i - 16)

/-- `_mm256_castsi256_si128`. -/
def castDown (x : Reg 32) : Reg 16 := fun i => byte x i

/-- `_mm256_inserti128_si256` with the immediate 1. -/
def insertUpper (x : Reg 32) (y : Reg 16) : Reg 32 := castUp y (castDown x)

/-- `_mm256_loadu_si256` and the like. -/
def load (n : Nat) (mem : List UInt8) : Reg n := fun i => mem.getD i 0

/-- The bytes of a register, as they are stored. -/
def store (x : Reg n) : List UInt8 := List.ofFn x

/-- `_mm256_extract_epi16` and the like, as the bytes are stored. -/
def extractLane (w : Nat) (x : Reg n) (j : Nat) : List UInt8 := (List.range w).map fun b => byte x (w * j + b)

/-- `_mm256_insert_epi16` and the like, of the bytes as they are loaded. -/
def insertLane (w : Nat) (x : Reg n) (bytes : List UInt8) (j : Nat) : Reg n :=
  fun i => if i.val / w = j then bytes.getD (i % w) 0 else x i

/-! ## Where bytes do not touch -/

theorem lane_eq {w j b : Nat} (x : Reg n) (hb : b < w) : lane w x j / 256 ^ b % 256 =
    (byte x (w * j + b)).toNat :=
  number_div_pow_mod hb _

theorem byte_lane (x : Reg n) (w : Nat) (i : Fin n) : byte x (w * (i / w) + i % w) = x i := by
  rw [Nat.div_add_mod, byte_val]

/-- A left shift that loses no bit of a byte. -/
theorem slli_apply {w k : Nat} (hw : 0 < w) {x : Reg n} (h : ∀ i, (x i).toNat * 2 ^ k < 256) (i : Fin n) :
    slli w x k i = UInt8.ofNat ((x i).toNat * 2 ^ k) := by
  have hbyte : ∀ i, (byte x i).toNat * 2 ^ k < 256 := by
    intro i
    rw [byte]
    split_ifs
    · exact h _
    · simp
  have hlane (j : Nat) : lane w x j * 2 ^ k =
      number w fun b => UInt8.ofNat ((byte x (w * j + b)).toNat * 2 ^ k) :=
    number_mul fun b _ => hbyte _
  rw [slli, funext hlane, ofLanes_number hw, byte_lane]

/-- A right shift, below the bits that come from the next byte. -/
theorem srli_mod {w k : Nat} (hw : 0 < w) (hk : k ≤ 8) (x : Reg n) (i : Fin n) :
    (srli w x k i).toNat % 2 ^ (8 - k) = (x i).toNat / 2 ^ k := by
  have hpow : 2 ^ (8 - k) * 2 ^ k = 256 := by
    rw [← pow_add, Nat.sub_add_cancel hk]
    rfl
  have hbyte := lane_eq (j := i / w) x (Nat.mod_lt i.val hw)
  rw [byte_lane] at hbyte
  rw [srli, ofLanes, UInt8.toNat_ofNat', Nat.mod_mod_of_dvd _ (pow_dvd_pow 2 (Nat.sub_le 8 k)),
    Nat.div_right_comm, ← hbyte]
  generalize lane w x (i / w) / 256 ^ (i.val % w) = v
  rw [← Nat.mod_mul_left_div_self, hpow]

/-- A left shift by the count of the byte's own lane, which loses no bit of a byte. -/
theorem byte_sllv {w c : Nat} (hw : 0 < w) {x counts : Reg n} {i : Nat} (hi : i < n)
    (hc : lane w counts (i / w) = c) (hcount : c < 8 * w) (h : ∀ i, (x i).toNat * 2 ^ c < 256) :
    byte (sllv w x counts) i = UInt8.ofNat ((byte x i).toNat * 2 ^ c) := by
  have hbyte : ∀ b < w, (byte x (w * (i / w) + b)).toNat * 2 ^ c < 256 := by
    intro b _
    rw [byte]
    split_ifs
    · exact h _
    · simp
  have hlane : lane w x (i / w) * 2 ^ c = number w fun b =>
      UInt8.ofNat ((byte x (w * (i / w) + b)).toNat * 2 ^ c) := number_mul hbyte
  rw [byte_of_lt _ hi, sllv, ofLanes, hc, if_pos hcount, hlane, ← UInt8.toNat_inj, UInt8.toNat_ofNat']
  rw [number_div_pow_mod (Nat.mod_lt _ hw), Nat.div_add_mod]

/-- A sum of neighbouring lanes of the first operand that overflows in no byte. -/
theorem byte_hadd {w k : Nat} (hw : 0 < w) {x y : Reg n} {i : Nat} (hi : i < n)
    (hsource : i / w % (16 / w) < 16 / w / 2)
    (hk : i / w / (16 / w) * (16 / w) + i / w % (16 / w / 2) * 2 = k)
    (h : ∀ b < w, (byte x (w * k + b)).toNat + (byte x (w * (k + 1) + b)).toNat < 256) :
    byte (hadd w x y) i = byte x (w * k + i % w) + byte x (w * (k + 1) + i % w) := by
  have hlane : lane w x k + lane w x (k + 1) =
      number w fun b => byte x (w * k + b) + byte x (w * (k + 1) + b) := number_add h
  rw [byte_of_lt _ hi]
  simp only [hadd, ofLanes]
  rw [if_pos hsource, hk, hlane, ← UInt8.toNat_inj, UInt8.toNat_ofNat']
  exact number_div_pow_mod (Nat.mod_lt _ hw) _

theorem byte_permute4x64 (x : Reg n) (imm : Nat) {i : Nat} (hi : i < n) :
    byte (permute4x64 x imm) i = byte x (8 * (imm / 4 ^ (i / 8) % 4) + i % 8) := by
  rw [byte_of_lt _ hi, permute4x64, ofLanes, ← UInt8.toNat_inj, UInt8.toNat_ofNat']
  exact lane_eq x (Nat.mod_lt _ (by decide))

end Mmocraft.Lib.Simd
