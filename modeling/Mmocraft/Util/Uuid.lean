/-
# Mmocraft.Util.Uuid -- the text of a UUID in AVX2

`util::uuid` draws sixteen random bytes, marks them as a version 4 UUID and returns their text.  `m128itos`
writes the text with vector instructions, `stom128i` reads it back.  Bits cross bytes and bytes cross lanes
on the way, one half of the widened register is never defined, and the text is stored in three overlapping
pieces.  What comes out is the plain text: the bytes in lower-case hexadecimal, in groups of 8, 4, 4, 4 and
12 digits.

The instructions are functions on registers, byte by byte (`Lib.Simd`), and each step of the source is
followed by what it leaves in each byte. The undefined half of the widened register is a parameter that the
result does not depend on.
-/
import Mathlib.Data.Fintype.Fin
import Mathlib.Tactic.FinCases
import Mmocraft.Lib.Memory
import Mmocraft.Lib.Simd

namespace Mmocraft.Util.Uuid

open Mmocraft.Lib Mmocraft.Lib.Simd

/-! ## The text, written plainly -/

/-- A hexadecimal digit in lower case. -/
def hexDigit (d : Nat) : UInt8 := UInt8.ofNat (if d < 10 then 0x30 + d else 0x57 + d)

/-- The digits of the bytes, the higher half of a byte first. -/
def nibble (x : Reg 16) (i : Fin 32) : Nat :=
  if i.val % 2 = 0 then (byte x (i / 2)).toNat / 16 else (byte x (i / 2)).toNat % 16

theorem nibble_lt (x : Reg 16) (i : Fin 32) : nibble x i < 16 := by
  have := (byte x (i / 2)).toNat_lt
  rw [nibble]
  split_ifs <;> omega

def hexDigits (x : Reg 16) : Reg 32 := fun i => hexDigit (nibble x i)

def dashByte : UInt8 := 0x2D

/-- Digits in groups of 8, 4, 4, 4 and 12. -/
def grouped (digits : Reg 32) : List UInt8 :=
  let group (i n : Nat) := (List.range n).map fun b => byte digits (i + b)
  group 0 8 ++ [dashByte] ++ group 8 4 ++ [dashByte] ++ group 12 4 ++ [dashByte] ++ group 16 4 ++
    [dashByte] ++ group 20 12

theorem grouped_eq (d : Reg 32) : grouped d = [d 0, d 1, d 2, d 3, d 4, d 5, d 6, d 7, dashByte,
    d 8, d 9, d 10, d 11, dashByte, d 12, d 13, d 14, d 15, dashByte, d 16, d 17, d 18, d 19, dashByte,
    d 20, d 21, d 22, d 23, d 24, d 25, d 26, d 27, d 28, d 29, d 30, d 31] := rfl

/-- Where a digit stands in the text. -/
def position (i : Nat) : Nat :=
  if i < 8 then i else if i < 12 then i + 1 else if i < 16 then i + 2 else if i < 20 then i + 3 else i + 4

theorem getD_grouped (d : Reg 32) (i : Fin 32) : (grouped d).getD (position i) 0 = d i := by
  rw [grouped_eq]
  fin_cases i <;> rfl

/-- The text of a UUID. -/
def uuidText (x : Reg 16) : List UInt8 := grouped (hexDigits x)

/-! ## `m128itos` -/

/-- Expand each byte to two. -/
def expandBytes (upper x : Reg 16) : Reg 32 :=
  let mask := set1 32 0x0F
  let a := castUp upper x
  let as := srli 8 a 4
  let lo := unpackLo as a
  let hi := castDown (unpackHi as a)
  let c := insertUpper lo hi
  andBytes c mask

/-- Translate each digit to its representation. -/
def translateDigits (d : Reg 32) : Reg 32 :=
  let add := set1 32 0x06
  let alphaMask := set1 32 0x10
  let alphaOffset := set1 32 0x57
  let alpha := slli 8 (andBytes (addBytes d add) alphaMask) 3
  let offset := blendv (slli 8 add 3) alphaOffset alpha
  addBytes d offset

def dashShuffle : Reg 32 :=
  setLanes 32 4 [0x0b0a0908, 0x07060504, 0x80030201, 0x00808080, 0x0d0c800b, 0x0a090880, 0x07060504, 0x03020100]

def dash : Reg 32 :=
  setLanes 32 8 [0x0000000000000000, 0x2d000000002d0000, 0x00002d000000002d, 0x0000000000000000]

/-- Add dashes between the blocks, in three stores. -/
def addDashes (res : Reg 32) (mem : List UInt8) : List UInt8 :=
  let resd := orBytes (shuffle res dashShuffle) dash
  let mem := Memory.write mem 0 (store resd)
  let mem := Memory.write mem 16 (extractLane 2 res 7)
  Memory.write mem 32 (extractLane 4 res 7)

/-- `m128itos`, with what the cast leaves in the upper half. -/
def m128itos (upper x : Reg 16) (mem : List UInt8) : List UInt8 :=
  addDashes (translateDigits (expandBytes upper x)) mem

/-! ## `stom128i` -/

def removeShuffle : Reg 32 :=
  setLanes 32 4 [0x80808080, 0x0f0e0d0c, 0x0b0a0908, 0x06050403, 0x80800f0e, 0x0c0b0a09, 0x07060504, 0x03020100]

/-- Remove dashes. -/
def removeDashes (mem : List UInt8) : Reg 32 :=
  let x := shuffle (load 32 mem) removeShuffle
  let x := insertLane 2 x (Memory.read mem 16 2) 7
  insertLane 4 x (Memory.read mem 32 4) 7

/-- Translate each representation to its value. -/
def translateAscii (x : Reg 32) : Reg 32 :=
  let sub := set1 32 0x2F
  let mask := set1 32 0x20
  let alphaOffset := set1 32 0x28
  let digitsOffset := set1 32 0x01
  let a := subBytes x sub
  let alpha := slli 8 (andBytes a mask) 2
  let subMask := blendv digitsOffset alphaOffset alpha
  subBytes a subMask

def unweave : Reg 32 :=
  setLanes 32 4 [0x0f0d0b09, 0x0e0c0a08, 0x07050301, 0x06040200, 0x0f0d0b09, 0x0e0c0a08, 0x07050301, 0x06040200]

def shift : Reg 32 :=
  setLanes 32 4 [0x00000000, 0x00000004, 0x00000000, 0x00000004, 0x00000000, 0x00000004, 0x00000000, 0x00000004]

/-- Shift the higher digits and add them to the lower. -/
def packDigits (a : Reg 32) : Reg 16 :=
  let a := shuffle a unweave
  let a := sllv 4 a shift
  let a := hadd 4 a (setZero 32)
  let a := permute4x64 a 0b00001000
  castDown a

/-- `stom128i`. -/
def stom128i (mem : List UInt8) : Reg 16 := packDigits (translateAscii (removeDashes mem))

/-! ## Writing -/

theorem toNat_and_low (b : UInt8) : (b &&& 0x0F).toNat = b.toNat % 16 := by
  rw [UInt8.toNat_and]
  exact Nat.and_two_pow_sub_one_eq_mod b.toNat 4

theorem castUp_lower (upper x : Reg 16) {i : Nat} (hi : i < 16) :
    byte (castUp upper x) i = byte x i := by
  rw [byte_of_lt _ (show i < 32 by omega), castUp, if_pos hi]

/-- The lower halves of both unpacked registers are joined to the bytes in order. -/
theorem insertUpper_unpack (x y : Reg 32) (i : Fin 32) :
    insertUpper (unpackLo x y) (castDown (unpackHi x y)) i =
      byte (if i.val % 2 = 0 then x else y) (i / 2) := by
  by_cases hlow : i.val < 16
  · rw [insertUpper, castUp, if_pos hlow, byte_of_lt _ hlow, castDown, byte_of_lt _ i.isLt, unpackLo]
    congr 1
    simp only
    omega
  · have hhigh : i.val - 16 < 16 := by omega
    rw [insertUpper, castUp, if_neg hlow, byte_of_lt _ hhigh, castDown,
      byte_of_lt _ (show i.val - 16 < 32 by omega), unpackHi]
    have hparity : (i.val - 16) % 2 = i.val % 2 := by omega
    simp only [hparity]
    congr 1
    omega

/-- The two digits of each byte.  What the cast leaves undefined is not read. -/
theorem expandBytes_apply (upper x : Reg 16) (i : Fin 32) :
    (expandBytes upper x i).toNat = nibble x i := by
  have hhalf : i.val / 2 < 16 := by omega
  rw [nibble]
  simp only [expandBytes, andBytes, set1, insertUpper_unpack, toNat_and_low]
  rw [← castUp_lower upper x hhalf]
  split_ifs
  · have hin : i.val / 2 < 32 := by omega
    rw [byte_of_lt _ hin, byte_of_lt _ hin]
    exact srli_mod (by decide) (by decide) _ _
  · rfl

/-- `0` to `9` and `a` to `f`. -/
theorem translateDigits_apply {d : Reg 32} (hd : ∀ i, (d i).toNat < 16) (i : Fin 32) :
    translateDigits d i = hexDigit (d i).toNat := by
  have hadd : slli 8 (set1 32 0x06) 3 i = 0x30 := slli_apply (by decide) (fun _ => show 6 * 2 ^ 3 < 256 by decide) i
  have halpha := slli_apply (w := 8) (k := 3) (x := andBytes (addBytes d (set1 32 0x06)) (set1 32 0x10))
    (by decide) (fun j => by
      have : (d j + 0x06 &&& 0x10).toNat ≤ 16 := by
        rw [UInt8.toNat_and]
        exact Nat.and_le_right
      simp only [andBytes, addBytes, set1]
      omega) i
  have hbyte : ∀ k < 16, UInt8.ofNat k +
      (if 128 ≤ UInt8.ofNat ((UInt8.ofNat k + 0x06 &&& 0x10).toNat * 2 ^ 3) then 0x57 else 0x30) =
        hexDigit k := by decide
  have := hbyte (d i).toNat (hd i)
  rw [UInt8.ofNat_toNat] at this
  rw [← this]
  simp only [translateDigits, addBytes, blendv, hadd, set1]
  simp only [addBytes, andBytes, set1] at halpha
  rw [← halpha]

/-- Where the shuffle names no digit, the dash or nothing comes. -/
theorem dashed_eq (res : Reg 32) : orBytes (shuffle res dashShuffle) dash = fun i =>
    if 128 ≤ dashShuffle i then dash i else byte res (i / 16 * 16 + (dashShuffle i).toNat % 16) := by
  have hdash : ∀ i, ¬ 128 ≤ dashShuffle i → dash i = 0 := by decide
  funext i
  rw [orBytes, shuffle]
  split_ifs with h
  · exact UInt8.zero_or
  · rw [hdash i h, UInt8.or_zero]

/-- What the first store leaves open is what the other two fill in. -/
theorem store_dashed (res : Reg 32) : store (orBytes (shuffle res dashShuffle) dash) =
    [res 0, res 1, res 2, res 3, res 4, res 5, res 6, res 7, dashByte, res 8, res 9, res 10, res 11, dashByte,
      res 12, res 13, 0, 0, dashByte, res 16, res 17, res 18, res 19, dashByte, res 20, res 21, res 22, res 23,
      res 24, res 25, res 26, res 27] := by
  rw [dashed_eq]
  rfl

/-- The three stores of the digits and dashes. -/
theorem addDashes_eq (res : Reg 32) {mem : List UInt8} (hmem : mem.length = 36) :
    addDashes res mem = grouped res := by
  have hrest : (mem.drop 32).drop 4 = [] := List.drop_eq_nil_of_le (by rw [List.length_drop]; omega)
  have hlast : addDashes res mem = grouped res ++ (mem.drop 32).drop 4 := by
    simp only [addDashes]
    rw [store_dashed, grouped_eq]
    rfl
  rw [hlast, hrest, List.append_nil]

/-- `m128itos` writes the text of its argument. -/
theorem m128itos_eq (upper x : Reg 16) {mem : List UInt8} (hmem : mem.length = 36) :
    m128itos upper x mem = uuidText x := by
  have hdigits : translateDigits (expandBytes upper x) = hexDigits x := by
    funext i
    rw [translateDigits_apply fun i => (expandBytes_apply upper x i).symm ▸ nibble_lt x i,
      expandBytes_apply, hexDigits]
  rw [m128itos, hdigits, addDashes_eq _ hmem, uuidText]

/-! ## Reading -/

/-- Each digit from its position: the shuffle moves the most, the others are inserted. -/
theorem removeDashes_apply (mem : List UInt8) (i : Fin 32) :
    removeDashes mem i = mem.getD (position i) 0 := by
  have hshuffle : ∀ i : Fin 32, i.val / 4 ≠ 7 → i.val / 2 ≠ 7 → ¬ 128 ≤ removeShuffle i ∧
      i / 16 * 16 + (removeShuffle i).toNat % 16 = position i ∧ position i < 32 := by decide
  have hread (off n b : Nat) (hb : b < n) : (Memory.read mem off n).getD b 0 = mem.getD (off + b) 0 := by
    rw [Memory.read, List.getD_eq_getElem?_getD, List.getElem?_take_of_lt hb, List.getElem?_drop,
      List.getD_eq_getElem?_getD]
  simp only [removeDashes, insertLane]
  split_ifs with h4 h2
  · have hposition : ∀ i : Fin 32, i.val / 4 = 7 → 32 + i % 4 = position i := by decide
    rw [hread 32 4 _ (Nat.mod_lt _ (by decide)), hposition i h4]
  · have hposition : ∀ i : Fin 32, i.val / 2 = 7 → 16 + i % 2 = position i := by decide
    rw [hread 16 2 _ (Nat.mod_lt _ (by decide)), hposition i h2]
  · obtain ⟨hneg, hindex, hin⟩ := hshuffle i h4 h2
    rw [shuffle, if_neg hneg, hindex, byte_of_lt _ hin, load]

/-- The digits of a text in groups. -/
theorem removeDashes_grouped (digits : Reg 32) : removeDashes (grouped digits) = digits := by
  funext i
  rw [removeDashes_apply, getD_grouped]

/-- The value of a digit. -/
theorem translateAscii_apply {x : Reg 32} {d : Fin 32 → Nat} (hd : ∀ i, d i < 16)
    (hx : ∀ i, x i = hexDigit (d i)) (i : Fin 32) : translateAscii x i = UInt8.ofNat (d i) := by
  have halpha := slli_apply (w := 8) (k := 2) (x := andBytes (subBytes x (set1 32 0x2F)) (set1 32 0x20))
    (by decide) (fun j => by
      have : (x j - 0x2F &&& 0x20).toNat ≤ 32 := by
        rw [UInt8.toNat_and]
        exact Nat.and_le_right
      simp only [andBytes, subBytes, set1]
      omega) i
  have hbyte : ∀ k < 16, hexDigit k - 0x2F -
      (if 128 ≤ UInt8.ofNat ((hexDigit k - 0x2F &&& 0x20).toNat * 2 ^ 2) then 0x28 else 0x01) =
        UInt8.ofNat k := by decide
  rw [← hbyte (d i) (hd i)]
  simp only [andBytes, subBytes, set1] at halpha
  simp only [translateAscii, subBytes, blendv, set1]
  rw [← hx i, ← halpha]

/-- Where the two digits of byte `i` are after the shuffle: at `place i`, and four bytes on. -/
def place (i : Fin 16) : Nat := 16 * (i / 8) + 8 * (i.val % 8 / 4) + i % 4

theorem place_lt (i : Fin 16) : place i + 4 < 32 := by
  rw [place]
  omega

theorem shuffle_unweave (a : Reg 32) (i : Fin 16) :
    byte (shuffle a unweave) (place i) = byte a (2 * i) ∧
      byte (shuffle a unweave) (place i + 4) = byte a (2 * i + 1) := by
  have hfirst : ∀ i : Fin 16, ¬ 128 ≤ byte unweave (place i) ∧
      place i / 16 * 16 + (byte unweave (place i)).toNat % 16 = 2 * i := by decide
  have hsecond : ∀ i : Fin 16, ¬ 128 ≤ byte unweave (place i + 4) ∧
      (place i + 4) / 16 * 16 + (byte unweave (place i + 4)).toNat % 16 = 2 * i + 1 := by decide
  have hlt := place_lt i
  constructor
  · rw [byte_of_lt _ (by omega), shuffle, ← byte_of_lt unweave, if_neg (hfirst i).1, (hfirst i).2]
  · rw [byte_of_lt _ hlt, shuffle, ← byte_of_lt unweave, if_neg (hsecond i).1, (hsecond i).2]

/-- The first of the two is shifted up. -/
theorem sllv_shift {s : Reg 32} (hs : ∀ i, (s i).toNat < 16) (i : Fin 16) :
    byte (sllv 4 s shift) (place i) = UInt8.ofNat ((byte s (place i)).toNat * 16) ∧
      byte (sllv 4 s shift) (place i + 4) = byte s (place i + 4) := by
  have hcounts : ∀ i : Fin 16, lane 4 shift (place i / 4) = 4 ∧ lane 4 shift ((place i + 4) / 4) = 0 := by
    decide
  have hlt := place_lt i
  constructor
  · exact byte_sllv (by decide) (by omega) (hcounts i).1 (by decide) fun j => by
      have := hs j
      omega
  · rw [byte_sllv (by decide) hlt (hcounts i).2 (by decide) fun j => by have := hs j; omega]
    rw [pow_zero, mul_one, UInt8.ofNat_toNat]

theorem byte_lt_of_forall {n : Nat} {x : Reg n} {k : Nat} (hk : 0 < k) (h : ∀ i, (x i).toNat < k) (i : Nat) :
    (byte x i).toNat < k := by
  rw [byte]
  split_ifs
  · exact h _
  · exact hk

/-- Two digits make a byte. -/
theorem packDigits_apply {a : Reg 32} (ha : ∀ i, (a i).toNat < 16) (i : Fin 16) :
    packDigits a i = UInt8.ofNat (16 * (byte a (2 * i)).toNat + (byte a (2 * i + 1)).toNat) := by
  have hs : ∀ j, (shuffle a unweave j).toNat < 16 := by
    intro j
    rw [shuffle]
    split_ifs
    · decide
    · exact byte_lt_of_forall (by decide) ha _
  have hpair (i : Fin 16) : byte (sllv 4 (shuffle a unweave) shift) (place i) =
        UInt8.ofNat ((byte a (2 * i)).toNat * 16) ∧
      byte (sllv 4 (shuffle a unweave) shift) (place i + 4) = byte a (2 * i + 1) := by
    rw [(sllv_shift hs i).1, (sllv_shift hs i).2, (shuffle_unweave a i).1, (shuffle_unweave a i).2]
    exact ⟨rfl, rfl⟩
  have hdigit := byte_lt_of_forall (by decide) ha
  -- The lanes of the sum hold the digits of four bytes, none of which overflows.
  have hsum : byte (hadd 4 (sllv 4 (shuffle a unweave) shift) (setZero 32)) (16 * (i / 8) + i % 8) =
      byte (sllv 4 (shuffle a unweave) shift) (place i) +
        byte (sllv 4 (shuffle a unweave) shift) (place i + 4) := by
    rw [byte_hadd (k := 4 * (i / 8) + i.val % 8 / 4 * 2) (by decide) (by omega) (by omega) (by omega)]
    · rw [place]
      congr 2 <;> omega
    · intro b hb
      have hfirst : 4 * (4 * (i / 8) + i.val % 8 / 4 * 2) + b = place ⟨i / 4 * 4 + b, by omega⟩ := by
        simp only [place]
        omega
      have hsecond : 4 * (4 * (i / 8) + i.val % 8 / 4 * 2 + 1) + b = place ⟨i / 4 * 4 + b, by omega⟩ + 4 := by
        omega
      rw [hsecond, hfirst, (hpair _).1, (hpair _).2, UInt8.toNat_ofNat']
      have := hdigit (2 * (i / 4 * 4 + b))
      have := hdigit (2 * (i / 4 * 4 + b) + 1)
      simp only
      omega
  have hindex : ∀ i : Fin 16,
      8 * (0b00001000 / 4 ^ (i.val / 8) % 4) + i.val % 8 = 16 * (i.val / 8) + i.val % 8 := by decide
  rw [packDigits, castDown, byte_permute4x64 _ _ (by omega), hindex, hsum, (hpair i).1, (hpair i).2]
  rw [← UInt8.toNat_inj, UInt8.toNat_add, UInt8.toNat_ofNat', UInt8.toNat_ofNat']
  omega

/-- The byte of two digits of a text. -/
theorem stom128i_grouped {digits : Reg 32} {d : Fin 32 → Nat} (hd : ∀ i, d i < 16)
    (hdigits : ∀ i, digits i = hexDigit (d i)) (i : Fin 16) : stom128i (grouped digits) i =
      UInt8.ofNat (16 * d ⟨2 * i, by omega⟩ + d ⟨2 * i + 1, by omega⟩) := by
  have hvalue := translateAscii_apply hd hdigits
  have hdigit : ∀ i, (translateAscii digits i).toNat < 16 := by
    intro i
    have := hd i
    rw [hvalue, UInt8.toNat_ofNat']
    omega
  have hfirst := hd ⟨2 * i, by omega⟩
  have hsecond := hd ⟨2 * i + 1, by omega⟩
  rw [stom128i, removeDashes_grouped, packDigits_apply hdigit, byte_of_lt _ (show 2 * i.val < 32 by omega),
    byte_of_lt _ (show 2 * i.val + 1 < 32 by omega), hvalue, hvalue, UInt8.toNat_ofNat', UInt8.toNat_ofNat',
    ← UInt8.toNat_inj, UInt8.toNat_ofNat', UInt8.toNat_ofNat']
  omega

/-- `stom128i` reads a text back. -/
theorem stom128i_uuidText (x : Reg 16) : stom128i (uuidText x) = x := by
  funext i
  have hi := (x i).toNat_lt
  have hhigh : nibble x ⟨2 * i, by omega⟩ = (x i).toNat / 16 := by
    rw [nibble, if_pos (by simp), Nat.mul_div_cancel_left _ (by decide), byte_val]
  have hlow : nibble x ⟨2 * i + 1, by omega⟩ = (x i).toNat % 16 := by
    rw [nibble, if_neg (by simp only; omega), show (2 * i.val + 1) / 2 = i by omega, byte_val]
  rw [uuidText, stom128i_grouped (nibble_lt x) (fun i => (rfl : hexDigits x i = hexDigit (nibble x i))), hhigh, hlow, ← UInt8.toNat_inj,
    UInt8.toNat_ofNat']
  omega

/-! ## The two together -/

/-- Groups of digits in lower case, with dashes between them. -/
def IsUuidText (text : List UInt8) : Prop :=
  ∃ d : Fin 32 → Nat, (∀ i, d i < 16) ∧ text = grouped fun i => hexDigit (d i)

theorem isUuidText_uuidText (x : Reg 16) : IsUuidText (uuidText x) := ⟨nibble x, nibble_lt x, rfl⟩

theorem uuidText_stom128i {text : List UInt8} (h : IsUuidText text) : uuidText (stom128i text) = text := by
  obtain ⟨d, hd, rfl⟩ := h
  rw [uuidText]
  congr 1
  funext i
  have hfirst := hd ⟨2 * (i / 2), by omega⟩
  have hsecond := hd ⟨2 * (i / 2) + 1, by omega⟩
  rw [hexDigits, nibble, byte_of_lt _ (show i.val / 2 < 16 by omega), stom128i_grouped hd fun _ => rfl,
    UInt8.toNat_ofNat']
  congr 1
  simp only
  split_ifs with heven
  · have hi : (⟨2 * (i.val / 2), by omega⟩ : Fin 32) = i := Fin.ext (by simp only; omega)
    rw [hi] at hfirst ⊢
    omega
  · have hi : (⟨2 * (i.val / 2) + 1, by omega⟩ : Fin 32) = i := Fin.ext (by simp only; omega)
    rw [hi] at hsecond ⊢
    omega

/-- **The text of a UUID and back.** `m128itos` fills any 36 bytes with the plain text, whatever the cast
left undefined, and `stom128i` reads it back.  A text that was read is written again as it was exactly if
it has its digits in lower case and its dashes in place: `stom128i` takes any other text for one of these. -/
theorem m128itos_stom128i (upper x : Reg 16) {mem : List UInt8} (hmem : mem.length = 36) :
    m128itos upper x mem = uuidText x ∧ stom128i (m128itos upper x mem) = x ∧
      (m128itos upper (stom128i mem) mem = mem ↔ IsUuidText mem) := by
  refine ⟨m128itos_eq upper x hmem, ?_, ?_⟩
  · rw [m128itos_eq upper x hmem, stom128i_uuidText]
  · rw [m128itos_eq upper _ hmem]
    exact ⟨fun h => h ▸ isUuidText_uuidText _, uuidText_stom128i⟩

/-- Sixteen bytes with all digits. -/
def counting : Reg 16 := fun i => UInt8.ofNat (17 * i)

theorem m128itos_stom128i_counting :
    m128itos (set1 16 0xFF) counting (List.replicate 36 0x41) = uuidText counting ∧
      stom128i (m128itos (set1 16 0xFF) counting (List.replicate 36 0x41)) = counting :=
  have h := m128itos_stom128i (set1 16 0xFF) counting
    (show (List.replicate 36 (0x41 : UInt8)).length = 36 by decide)
  ⟨h.1, h.2.1⟩

example : uuidText counting =
    "00112233-4455-6677-8899-aabbccddeeff".toList.map fun c => UInt8.ofNat c.toNat := by decide

/-! ## `getUUID` -/

/-- `getUUID` on two draws. -/
def getUUID (x y : UInt64) : Reg 16 :=
  let andMask := setLanes 16 8 [0xFFFFFFFFFFFFFF3F, 0xFF0FFFFFFFFFFFFF]
  let orMask := setLanes 16 8 [0x0000000000000080, 0x0040000000000000]
  let n := setLanes 16 8 [x.toNat, y.toNat]
  orBytes (andBytes n andMask) orMask

/-- `util::uuid`: the string of 36 characters, resized before it is written. -/
def uuid (upper : Reg 16) (x y : UInt64) : List UInt8 :=
  m128itos upper (getUUID x y) (List.replicate 36 0)

/-- **What `util::uuid` returns is a version 4 UUID**, for every two draws: its text is well formed, the
third group starts with `4` and the fourth with one of `8`, `9`, `a` and `b`, and the text reads back as the
sixteen bytes. Only the six bits that the version and the variant fix are not those of the generator. -/
theorem uuid_version (upper : Reg 16) (x y : UInt64) :
    IsUuidText (uuid upper x y) ∧ stom128i (uuid upper x y) = getUUID x y ∧
      (uuid upper x y).getD 14 0 = 0x34 ∧ (uuid upper x y).getD 19 0 ∈ [0x38, 0x39, 0x61, 0x62] := by
  have htext : uuid upper x y = uuidText (getUUID x y) := m128itos_eq upper _ (by decide)
  have hversion : ∀ k < 16, hexDigit ((UInt8.ofNat k ||| 0x40).toNat / 16) = 0x34 := by decide
  have hvariant : ∀ k < 64, hexDigit ((UInt8.ofNat k ||| 0x80).toNat / 16) ∈ [0x38, 0x39, 0x61, 0x62] := by
    decide
  have hlow (b : UInt8) : (b &&& 0x0F).toNat < 16 := by
    rw [toNat_and_low]
    exact Nat.mod_lt _ (by decide)
  have hsix (b : UInt8) : (b &&& 0x3F).toNat < 64 := by
    rw [UInt8.toNat_and]
    exact Nat.lt_succ_of_le Nat.and_le_right
  have hbyte6 := hversion _ (hlow (setLanes 16 8 [x.toNat, y.toNat] 6))
  have hbyte8 := hvariant _ (hsix (setLanes 16 8 [x.toNat, y.toNat] 8))
  rw [UInt8.ofNat_toNat] at hbyte6 hbyte8
  rw [htext]
  refine ⟨isUuidText_uuidText _, stom128i_uuidText _, ?_, ?_⟩
  · rw [uuidText, grouped_eq]
    exact hbyte6
  · rw [uuidText, grouped_eq]
    exact hbyte8

end Mmocraft.Util.Uuid
