/-
# Mmocraft.Lib.Bitmap -- sets of numbers as words of bits

Bit `j` of a bitmap is bit `j % w` of word `j / w`.  Setting and clearing one bit leave the others alone,
and the scan for the lowest set bit, word by word, finds the least member of the set.
-/
import Mathlib.Data.List.Basic
import Mathlib.Tactic.Common

namespace Mmocraft.Lib.Bitmap

variable {w : Nat}

/-- Whether the number is a member. -/
def bit (words : List (BitVec w)) (j : Nat) : Bool := (words.getD (j / w) 0).getLsbD (j % w)

def setBit (words : List (BitVec w)) (j : Nat) : List (BitVec w) :=
  words.set (j / w) (words.getD (j / w) 0 ||| BitVec.twoPow w (j % w))

def clearBit (words : List (BitVec w)) (j : Nat) : List (BitVec w) :=
  words.set (j / w) (words.getD (j / w) 0 &&& ~~~BitVec.twoPow w (j % w))

/-- The position of the lowest set bit of a word that is not zero. -/
def lowestBit (word : BitVec w) : Nat := (List.range w).findIdx (word.getLsbD ·)

/-- The scan: the first word that is not zero, and its lowest set bit. -/
def firstSet : List (BitVec w) → Option Nat
  | [] => none
  | word :: words => if word = 0 then (firstSet words).map (w + ·) else some (lowestBit word)

@[simp] theorem length_setBit (words : List (BitVec w)) (j : Nat) :
    (setBit words j).length = words.length := List.length_set

@[simp] theorem length_clearBit (words : List (BitVec w)) (j : Nat) :
    (clearBit words j).length = words.length := List.length_set

theorem getD_set (words : List (BitVec w)) (i k : Nat) (word : BitVec w) (hi : i < words.length) :
    (words.set i word).getD k 0 = if k = i then word else words.getD k 0 := by
  rw [List.getD_eq_getElem?_getD, List.getD_eq_getElem?_getD, List.getElem?_set]
  rcases eq_or_ne k i with rfl | hne
  · rw [if_pos rfl, if_pos rfl, if_pos hi, Option.getD_some]
  · rw [if_neg hne.symm, if_neg hne]

theorem div_lt (hw : 0 < w) {words : List (BitVec w)} {j : Nat} (hj : j < words.length * w) :
    j / w < words.length := (Nat.div_lt_iff_lt_mul hw).mpr hj

/-- A number is determined by its word and its place there. -/
theorem eq_of_div_mod {j k : Nat} (hdiv : k / w = j / w) (hmod : k % w = j % w) : k = j := by
  rw [← Nat.div_add_mod k w, hdiv, hmod, Nat.div_add_mod]

/-- An update of one word, bit by bit. -/
theorem bit_set (hw : 0 < w) {words : List (BitVec w)} {j : Nat} (hj : j < words.length * w)
    {word : BitVec w} {b : Bool}
    (hword : ∀ i, i < w → word.getLsbD i =
      if i = j % w then b else (words.getD (j / w) 0).getLsbD i) (k : Nat) :
    bit (words.set (j / w) word) k = if k = j then b else bit words k := by
  rw [bit, getD_set words _ _ _ (div_lt hw hj)]
  rcases eq_or_ne (k / w) (j / w) with hdiv | hdiv
  · rw [if_pos hdiv, hword _ (Nat.mod_lt _ hw)]
    rcases eq_or_ne (k % w) (j % w) with hmod | hmod
    · rw [if_pos hmod, if_pos (eq_of_div_mod hdiv hmod)]
    · have hne : k ≠ j := fun h => hmod (congrArg (· % w) h)
      rw [if_neg hmod, if_neg hne, bit, hdiv]
  · have hne : k ≠ j := fun h => hdiv (congrArg (· / w) h)
    rw [if_neg hdiv, if_neg hne, bit]

/-- **Setting a bit adds one member.** -/
theorem bit_setBit (hw : 0 < w) {words : List (BitVec w)} {j : Nat} (hj : j < words.length * w) (k : Nat) :
    bit (setBit words j) k = if k = j then true else bit words k := by
  refine bit_set hw hj (fun i hi => ?_) k
  rw [BitVec.getLsbD_or, BitVec.getLsbD_twoPow]
  have hlt := Nat.mod_lt j hw
  rcases eq_or_ne i (j % w) with rfl | hne
  · simp [hlt]
  · simp [hne, hne.symm]

/-- **Clearing a bit removes one member.** -/
theorem bit_clearBit (hw : 0 < w) {words : List (BitVec w)} {j : Nat} (hj : j < words.length * w)
    (k : Nat) : bit (clearBit words j) k = if k = j then false else bit words k := by
  refine bit_set hw hj (fun i hi => ?_) k
  rw [BitVec.getLsbD_and, BitVec.getLsbD_not, BitVec.getLsbD_twoPow]
  have hlt := Nat.mod_lt j hw
  rcases eq_or_ne i (j % w) with rfl | hne
  · simp [hlt]
  · simp [hne, hne.symm, hi]

/-- Past the words there is nothing. -/
theorem bit_of_le (hw : 0 < w) {words : List (BitVec w)} {j : Nat} (hj : words.length * w ≤ j) :
    bit words j = false := by
  have hdiv : words.length ≤ j / w := (Nat.le_div_iff_mul_le hw).mpr hj
  rw [bit, List.getD_eq_getElem?_getD, List.getElem?_eq_none hdiv, Option.getD_none]
  exact BitVec.getLsbD_zero

/-- A bitmap of full words has all the numbers below its size. -/
theorem bit_replicate_allOnes (hw : 0 < w) {n j : Nat} (hj : j < n * w) :
    bit (List.replicate n (BitVec.allOnes w)) j = true := by
  have hdiv : j / w < n := (Nat.div_lt_iff_lt_mul hw).mpr hj
  rw [bit, List.getD_eq_getElem?_getD, List.getElem?_replicate, if_pos hdiv, Option.getD_some,
    BitVec.getLsbD_allOnes]
  exact decide_eq_true (Nat.mod_lt _ hw)

theorem bit_cons_of_lt {word : BitVec w} {words : List (BitVec w)} {j : Nat} (hj : j < w) :
    bit (word :: words) j = word.getLsbD j := by
  rw [bit, Nat.div_eq_of_lt hj, Nat.mod_eq_of_lt hj, List.getD_cons_zero]

theorem bit_cons_add (hw : 0 < w) {word : BitVec w} {words : List (BitVec w)} (j : Nat) :
    bit (word :: words) (w + j) = bit words j := by
  rw [bit, Nat.add_div_left _ hw, Nat.add_mod_left, List.getD_cons_succ, bit]

/-- What the scan of one word finds. -/
theorem lowestBit_spec {word : BitVec w} (h : word ≠ 0) :
    lowestBit word < w ∧ word.getLsbD (lowestBit word) = true ∧
      ∀ i, i < lowestBit word → word.getLsbD i = false := by
  have hexists : ∃ i ∈ List.range w, word.getLsbD i = true := by
    by_contra hnone
    refine h (BitVec.eq_of_getLsbD_eq fun i hi => ?_)
    have hfalse : word.getLsbD i ≠ true := fun hi' => hnone ⟨i, List.mem_range.mpr hi, hi'⟩
    rw [Bool.eq_false_iff.mpr hfalse]
    exact BitVec.getLsbD_zero.symm
  have hlt : lowestBit word < (List.range w).length := List.findIdx_lt_length_of_exists hexists
  have hget : (List.range w).get ⟨lowestBit word, hlt⟩ = lowestBit word := List.getElem_range hlt
  have hfound : word.getLsbD ((List.range w).get ⟨lowestBit word, hlt⟩) = true :=
    List.findIdx_getElem (w := hlt)
  rw [hget] at hfound
  refine ⟨by rwa [List.length_range] at hlt, hfound, fun i hi => ?_⟩
  have hnot := List.not_of_lt_findIdx (p := (word.getLsbD ·)) hi
  simpa only [List.getElem_range, Bool.not_eq_true] using hnot

/-- **The scan finds the least member**, if there is one. -/
theorem firstSet_spec (hw : 0 < w) {words : List (BitVec w)} {j : Nat} (hj : bit words j = true) :
    ∃ i, firstSet words = some i ∧ bit words i = true ∧ ∀ k, k < i → bit words k = false := by
  induction words generalizing j with
  | nil =>
      rw [bit_of_le hw (by simp)] at hj
      exact nomatch hj
  | cons word words ih =>
      rw [firstSet]
      rcases eq_or_ne word 0 with rfl | hne
      · -- nothing is in the first word, and the scan goes on behind it
        have hzero : ∀ k, k < w → bit ((0 : BitVec w) :: words) k = false := fun k hk => by
          rw [bit_cons_of_lt hk]
          exact BitVec.getLsbD_zero
        have hle : w ≤ j := by
          by_contra hlt
          rw [hzero j (by omega)] at hj
          exact nomatch hj
        obtain ⟨j, rfl⟩ := Nat.exists_eq_add_of_le hle
        rw [bit_cons_add hw] at hj
        obtain ⟨i, hfirst, hi, hleast⟩ := ih hj
        refine ⟨w + i, by rw [if_pos rfl, hfirst]; rfl, by rwa [bit_cons_add hw], fun k hk => ?_⟩
        rcases Nat.lt_or_ge k w with hlt | hge
        · exact hzero k hlt
        · obtain ⟨k, rfl⟩ := Nat.exists_eq_add_of_le hge
          rw [bit_cons_add hw]
          exact hleast k (by omega)
      · -- a member in the first word is less than all others
        obtain ⟨hlt, hbit, hleast⟩ := lowestBit_spec hne
        refine ⟨lowestBit word, by rw [if_neg hne], by rwa [bit_cons_of_lt hlt], fun k hk => ?_⟩
        rw [bit_cons_of_lt (by omega)]
        exact hleast k hk

end Mmocraft.Lib.Bitmap
