/-
# Mmocraft.Lib.Chunks -- a list cut into pieces of one size

`chunksOf n l` cuts a list into pieces of `n` elements, the last of which may be shorter.  A proof about
them goes by the front piece and the rest, which is shorter.
-/
import Mathlib.Data.List.Basic
import Mathlib.Tactic.Common

namespace Mmocraft.Lib

universe u

variable {α : Type u} {n : Nat}

/-- The pieces of a list, `n` elements each. -/
def chunksOf (n : Nat) (l : List α) : List (List α) :=
  (List.range ((l.length + n - 1) / n)).map fun i => (l.drop (i * n)).take n

theorem length_chunksOf (n : Nat) (l : List α) : (chunksOf n l).length = (l.length + n - 1) / n := by
  rw [chunksOf, List.length_map, List.length_range]

@[simp] theorem chunksOf_nil (n : Nat) : chunksOf n ([] : List α) = [] := by
  rcases Nat.eq_zero_or_pos n with rfl | hn
  · rw [chunksOf, Nat.div_zero]
    rfl
  · rw [chunksOf, List.length_nil, Nat.zero_add, Nat.div_eq_of_lt (by omega)]
    rfl

/-- The front piece and those of the rest. -/
theorem chunksOf_of_ne_nil (hn : 0 < n) {l : List α} (hl : l ≠ []) :
    chunksOf n l = l.take n :: chunksOf n (l.drop n) := by
  have hlen := List.length_pos_of_ne_nil hl
  have hcount : (l.length + n - 1) / n = ((l.drop n).length + n - 1) / n + 1 := by
    rw [List.length_drop]
    rcases Nat.lt_or_ge n l.length with hlt | hge
    · rw [show l.length + n - 1 = l.length - n + n - 1 + n by omega, Nat.add_div_right _ hn]
    · rw [show l.length + n - 1 = l.length - 1 + n by omega, Nat.add_div_right _ hn,
        show l.length - n + n - 1 = n - 1 by omega, Nat.div_eq_of_lt (by omega),
        Nat.div_eq_of_lt (by omega)]
  rw [chunksOf, hcount, List.range_succ_eq_map, List.map_cons, List.map_map, chunksOf]
  congr 1
  · rw [Nat.zero_mul, List.drop_zero]
  · refine List.map_congr_left fun i _ => ?_
    rw [Function.comp_apply, List.drop_drop, Nat.succ_mul, Nat.add_comm n]

/-- **Induction on the pieces.** -/
theorem chunks_induction (hn : 0 < n) {P : List α → Prop} (nil : P [])
    (front : ∀ l, l ≠ [] → P (l.drop n) → P l) (l : List α) : P l := by
  induction hlen : l.length using Nat.strongRecOn generalizing l with
  | ind k ih =>
      rcases eq_or_ne l [] with rfl | hl
      · exact nil
      · have hpos := List.length_pos_of_ne_nil hl
        exact front l hl (ih (l.drop n).length (by rw [List.length_drop]; omega) (l.drop n) rfl)

/-- The pieces make up the list. -/
theorem flatten_chunksOf (hn : 0 < n) (l : List α) : (chunksOf n l).flatten = l := by
  induction l using chunks_induction hn with
  | nil => rw [chunksOf_nil, List.flatten_nil]
  | front l hl ih => rw [chunksOf_of_ne_nil hn hl, List.flatten_cons, ih, List.take_append_drop]

theorem length_le_of_mem_chunksOf {l piece : List α} (h : piece ∈ chunksOf n l) : piece.length ≤ n := by
  obtain ⟨i, -, rfl⟩ := List.mem_map.mp h
  exact List.length_take_le _ _

end Mmocraft.Lib
