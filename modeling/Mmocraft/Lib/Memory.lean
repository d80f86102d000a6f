/-
# Mmocraft.Lib.Memory -- a flat memory as a list of cells

Reading a range and overwriting a range of a fixed-size memory, with the laws that a buffer proof
needs: a write keeps the size, reads back what it wrote, and leaves every disjoint range alone.
-/
import Mathlib.Data.List.Basic
import Mathlib.Tactic.Common

namespace Mmocraft.Lib.Memory

universe u

variable {α : Type u}

/-- The `len` cells from offset `off` on. -/
def read (mem : List α) (off len : Nat) : List α := (mem.drop off).take len

/-- Overwrite the cells from offset `off` on. -/
def write (mem : List α) (off : Nat) (bs : List α) : List α :=
  mem.take off ++ bs ++ mem.drop (off + bs.length)

@[simp] theorem read_zero_length (mem : List α) (off : Nat) : read mem off 0 = [] := by
  simp [read]

theorem length_read {mem : List α} {off len : Nat} (h : off + len ≤ mem.length) :
    (read mem off len).length = len := by
  simp only [read, List.length_take, List.length_drop]
  omega

theorem length_write {mem : List α} {off : Nat} {bs : List α} (h : off + bs.length ≤ mem.length) :
    (write mem off bs).length = mem.length := by
  simp only [write, List.length_append, List.length_take, List.length_drop]
  omega

@[simp] theorem write_nil (mem : List α) (off : Nat) : write mem off [] = mem := by
  simp [write]

/-- Two adjacent ranges read as one. -/
theorem read_add (mem : List α) (off a b : Nat) :
    read mem off (a + b) = read mem off a ++ read mem (off + a) b := by
  simp only [read, List.take_add, List.drop_drop]

/-- Dropping from a range shortens it from the left. -/
theorem drop_read (mem : List α) (off len k : Nat) :
    (read mem off len).drop k = read mem (off + k) (len - k) := by
  simp only [read, List.drop_take, List.drop_drop]

theorem take_read (mem : List α) (off len k : Nat) (h : k ≤ len) :
    (read mem off len).take k = read mem off k := by
  simp only [read, List.take_take, Nat.min_eq_left h]

/-- A write reads back. -/
theorem read_write_self {mem : List α} {off : Nat} {bs : List α}
    (h : off ≤ mem.length) : read (write mem off bs) off bs.length = bs := by
  have htake : (mem.take off).length = off := List.length_take_of_le h
  simp only [read, write, List.append_assoc]
  rw [List.drop_append_of_le_length (by omega), List.drop_eq_nil_of_le (by omega),
    List.nil_append, List.take_left]

/-- A range below the write is untouched. -/
theorem read_write_below {mem : List α} {off off' len : Nat} {bs : List α}
    (h : off' + len ≤ off) (hoff : off ≤ mem.length) :
    read (write mem off bs) off' len = read mem off' len := by
  have htake : (mem.take off).length = off := List.length_take_of_le hoff
  simp only [read, write, List.append_assoc]
  rw [List.drop_append_of_le_length (by omega),
    List.take_append_of_le_length (by simp only [List.length_drop]; omega), List.drop_take,
    List.take_take, Nat.min_eq_left (by omega)]

/-- A write right behind a range extends it. -/
theorem read_write_append {mem : List α} {off len : Nat} {bs : List α} (h : off + len ≤ mem.length) :
    read (write mem (off + len) bs) off (len + bs.length) = read mem off len ++ bs := by
  rw [read_add, read_write_below (Nat.le_refl _) h, read_write_self h]

/-- A range above the write is untouched. -/
theorem read_write_above {mem : List α} {off off' len : Nat} {bs : List α}
    (h : off + bs.length ≤ off') (hoff : off ≤ mem.length) :
    read (write mem off bs) off' len = read mem off' len := by
  have hpre : (mem.take off ++ bs).length = off + bs.length := by
    simp only [List.length_append, List.length_take, Nat.min_eq_left hoff]
  obtain ⟨k, rfl⟩ : ∃ k, off' = off + bs.length + k := ⟨off' - (off + bs.length), by omega⟩
  simp only [read, write]
  congr 1
  rw [← hpre, List.drop_append, List.drop_eq_nil_of_le (by omega), List.nil_append]
  rw [show (mem.take off ++ bs).length + k - (mem.take off ++ bs).length = k by omega,
    List.drop_drop, hpre]

/-! ## Single cells -/

/-- A cell inside the write is what was written, every other one is what it was. -/
theorem getElem?_write {mem : List α} {off : Nat} {bs : List α} (h : off + bs.length ≤ mem.length) (i : Nat) :
    (write mem off bs)[i]? = if off ≤ i ∧ i < off + bs.length then bs[i - off]? else mem[i]? := by
  have htake : (mem.take off).length = off := List.length_take_of_le (by omega)
  have hpre : (mem.take off ++ bs).length = off + bs.length := by rw [List.length_append, htake]
  rw [write]
  by_cases hbelow : i < off
  · rw [if_neg (by omega), List.append_assoc, List.getElem?_append_left (by omega),
      List.getElem?_take_of_lt hbelow]
  by_cases hinside : i < off + bs.length
  · rw [if_pos (by omega), List.getElem?_append_left (by omega), List.getElem?_append_right (by omega), htake]
  · rw [if_neg (by omega), List.getElem?_append_right (by omega), hpre, List.getElem?_drop]
    congr 1
    omega

/-- Overwrite the `len` cells from offset `off` on by one value. -/
def fill (mem : List α) (off len : Nat) (b : α) : List α := write mem off (List.replicate len b)

theorem length_fill {mem : List α} {off len : Nat} {b : α} (h : off + len ≤ mem.length) :
    (fill mem off len b).length = mem.length :=
  length_write (by rwa [List.length_replicate])

theorem getElem?_fill {mem : List α} {off len : Nat} (b : α) (h : off + len ≤ mem.length) (i : Nat) :
    (fill mem off len b)[i]? = if off ≤ i ∧ i < off + len then some b else mem[i]? := by
  rw [fill, getElem?_write (by rwa [List.length_replicate]), List.length_replicate]
  split_ifs with hin
  · rw [List.getElem?_replicate, if_pos (by omega)]
  · rfl

end Mmocraft.Lib.Memory
