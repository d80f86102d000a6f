/-
# Mmocraft.Lib.Updates -- folds that update one entry after the other

A table is a function, and a record of a list updates the entry of its key.  Where no two of the
records that matter share a key, an entry holds what its own records make of it, one after the
other.  A memory is a list of cells, and a record may write one of them: a cell holds what the last
record wrote that names it.
-/
import Mathlib.Data.List.Induction
import Mathlib.Logic.Function.Iterate

namespace Mmocraft.Lib

universe u v w

/-! ## Entries of a table -/

section Entries

variable {ι : Type u} {κ : Type v} {β : Type w} [DecidableEq ι] [DecidableEq κ]

/-- Each record of the list changes the entry of its key. -/
def updateAll (key : ι → κ) (g : ι → β → β) (table : κ → β) (ps : List ι) : κ → β :=
  ps.foldl (fun table p => Function.update table (key p) (g p (table (key p)))) table

/-- The entry of a record, if no other record of the list has its key. -/
theorem updateAll_apply {key : ι → κ} (g : ι → β → β) (table : κ → β) {ps : List ι} {q : ι}
    (hkey : ∀ p ∈ ps, key p = key q → p = q) :
    updateAll key g table ps (key q) = (g q)^[ps.count q] (table (key q)) := by
  induction ps generalizing table with
  | nil => rfl
  | cons p ps ih =>
      have hrest := ih (Function.update table (key p) (g p (table (key p))))
        fun r hr => hkey r (List.mem_cons_of_mem p hr)
      rw [updateAll, List.foldl_cons, ← updateAll, hrest, List.count_cons]
      by_cases hpq : p = q
      · rw [hpq, Function.update_self, beq_self_eq_true, if_pos rfl, Function.iterate_succ_apply]
      · have hne : key q ≠ key p := fun heq => hpq (hkey p List.mem_cons_self heq.symm)
        rw [Function.update_of_ne hne, beq_false_of_ne hpq]
        rfl

/-- A list that has the record at most once. -/
theorem iterate_count_of_nodup (f : β → β) {ps : List ι} {q : ι} (hone : q ∈ ps → ps.count q = 1)
    (x : β) : f^[ps.count q] x = if q ∈ ps then f x else x := by
  split_ifs with hq
  · rw [hone hq, Function.iterate_one]
  · rw [List.count_eq_zero.mpr hq, Function.iterate_zero, id]

/-- A record that does not depend on the entry leaves the same, however often it comes. -/
theorem iterate_const (b : β) (n : Nat) (x : β) :
    (fun _ => b)^[n] x = if n = 0 then x else b := by
  cases n with
  | zero => rfl
  | succ n =>
      rw [Function.iterate_succ_apply', if_neg (Nat.succ_ne_zero n)]

end Entries

/-! ## Cells of a memory -/

section Cells

variable {ι : Type u} {α : Type v} (cell : ι → Option Nat) (value : ι → α)

/-- A record writes the cell it names, if it names one. -/
def writeCell (cells : List α) (p : ι) : List α :=
  match cell p with
  | none => cells
  | some i => cells.set i (value p)

@[simp] theorem length_writeCell (cells : List α) (p : ι) :
    (writeCell cell value cells p).length = cells.length := by
  unfold writeCell
  split
  · rfl
  · exact List.length_set

theorem length_foldl_writeCell (cells : List α) (ps : List ι) :
    (ps.foldl (writeCell cell value) cells).length = cells.length := by
  induction ps generalizing cells with
  | nil => rfl
  | cons p ps ih => rw [List.foldl_cons, ih, length_writeCell]

theorem getElem?_writeCell {cells : List α} {i : Nat} (hi : i < cells.length) (p : ι) :
    (writeCell cell value cells p)[i]? = if cell p = some i then some (value p) else cells[i]? := by
  unfold writeCell
  split
  · rename_i hcell
    rw [hcell, if_neg (by simp)]
  · rename_i j hcell
    rw [hcell, List.getElem?_set]
    by_cases hj : j = i
    · rw [if_pos hj, if_pos (by rw [hj]; exact hi), if_pos (by rw [hj])]
    · rw [if_neg hj, if_neg (by simpa using hj)]

/-- **The last writer wins.** -/
theorem getElem?_foldl_writeCell {cells : List α} {i : Nat} (hi : i < cells.length) (ps : List ι) :
    (ps.foldl (writeCell cell value) cells)[i]? =
      ((ps.filter fun p => decide (cell p = some i)).getLast?.map value).or cells[i]? := by
  induction ps using List.reverseRecOn with
  | nil => rfl
  | append_singleton ps p ih =>
      have hi' : i < (ps.foldl (writeCell cell value) cells).length := by
        rwa [length_foldl_writeCell]
      rw [List.foldl_append, List.foldl_cons, List.foldl_nil, getElem?_writeCell cell value hi',
        List.filter_append]
      by_cases hp : cell p = some i
      · simp [hp]
      · rw [if_neg hp, ih]
        simp [hp]

end Cells

end Mmocraft.Lib
