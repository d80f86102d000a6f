/-
# Mmocraft.Lib.Fields -- fields of a record in a buffer

A reader takes a value from the front of a buffer.  `Inverts` says that a reader and a writer of values
of a fixed width are inverse to each other, on the values that are valid.  A record is read by reading
its fields one after the other, and a stream of records by reading until the buffer is empty.
-/
import Mathlib.Data.List.Basic
import Mathlib.Tactic.Common

namespace Mmocraft.Lib

universe u v

variable {β : Type u} {α : Type v}

/-- A reader takes a value from the front of a buffer, if it is there. -/
abbrev Reader (β : Type u) (α : Type v) := List β → Option (α × List β)

/-- The reader and the writer of a field of fixed width. -/
structure Inverts (read : Reader β α) (write : α → List β) (Valid : α → Prop) (width : Nat) : Prop where
  length_write : ∀ a, (write a).length = width
  read_write : ∀ a rest, Valid a → read (write a ++ rest) = some (a, rest)
  write_read : ∀ buf, width ≤ buf.length →
    ∃ a rest, read buf = some (a, rest) ∧ write a ++ rest = buf ∧ Valid a

namespace Inverts

variable {read : Reader β α} {write : α → List β} {Valid : α → Prop} {width : Nat}

/-- A buffer starts with a field, if it is long enough. -/
theorem exists_write (h : Inverts read write Valid width) {buf : List β} {n : Nat}
    (hbuf : buf.length = width + n) : ∃ a rest, Valid a ∧ buf = write a ++ rest ∧ rest.length = n := by
  obtain ⟨a, rest, -, hwrite, hvalid⟩ := h.write_read buf (by omega)
  have hlength := congrArg List.length hwrite
  rw [List.length_append, h.length_write] at hlength
  exact ⟨a, rest, hvalid, hwrite.symm, by omega⟩

/-- A buffer of the width of a field is one. -/
theorem exists_write_nil (h : Inverts read write Valid width) {buf : List β} (hbuf : buf.length = width) :
    ∃ a, Valid a ∧ buf = write a := by
  obtain ⟨a, rest, hvalid, hsplit, hrest⟩ := h.exists_write (n := 0) hbuf
  obtain rfl := List.eq_nil_of_length_eq_zero hrest
  exact ⟨a, hvalid, hsplit.trans (List.append_nil _)⟩

end Inverts

/-! ## Records of one width -/

section Records

variable {write : α → List β} {width : Nat}

theorem length_flatMap_of_width (hwidth : ∀ a, (write a).length = width) (as : List α) :
    (as.flatMap write).length = as.length * width := by
  induction as with
  | nil => simp
  | cons a as ih => rw [List.flatMap_cons, List.length_append, hwidth, ih, List.length_cons,
      Nat.succ_mul, Nat.add_comm]

/-- **The slice at the place of a record is the record.** -/
theorem slice_flatMap (hwidth : ∀ a, (write a).length = width) {as : List α} {i : Nat}
    (hi : i < as.length) :
    ((as.flatMap write).drop (i * width)).take width = write as[i] := by
  induction as generalizing i with
  | nil => exact absurd hi (Nat.not_lt_zero i)
  | cons a as ih =>
      rw [List.flatMap_cons]
      cases i with
      | zero => rw [Nat.zero_mul, List.drop_zero, List.take_left' (hwidth a), List.getElem_cons_zero]
      | succ i =>
          have hskip : (i + 1) * width = (write a).length + i * width := by
            rw [hwidth, Nat.succ_mul, Nat.add_comm]
          rw [hskip, List.drop_append, List.drop_eq_nil_of_le (by omega), List.nil_append,
            Nat.add_sub_cancel_left, List.getElem_cons_succ]
          exact ih (Nat.lt_of_succ_lt_succ hi)

end Records

/-! ## Streams -/

/-- Read records until the buffer is empty, at most `fuel` of them. -/
def readAll (read : Reader β α) : Nat → List β → Option (List α)
  | _, [] => some []
  | 0, _ :: _ => none
  | fuel + 1, buf@(_ :: _) =>
      (read buf).bind fun r => (readAll read fuel r.2).map (r.1 :: ·)

/-- **A stream of records is read back.** -/
theorem readAll_flatMap {read : Reader β α} {write : α → List β} {as : List α}
    (hread : ∀ a ∈ as, ∀ rest, read (write a ++ rest) = some (a, rest)) (hwrite : ∀ a ∈ as, write a ≠ [])
    {fuel : Nat} (hfuel : as.length ≤ fuel) : readAll read fuel (as.flatMap write) = some as := by
  induction as generalizing fuel with
  | nil =>
      cases fuel <;> rfl
  | cons a as ih =>
      obtain ⟨fuel, rfl⟩ : ∃ n, fuel = n + 1 := ⟨fuel - 1, by rw [List.length_cons] at hfuel; omega⟩
      obtain ⟨b, bs, hcons⟩ := List.exists_cons_of_ne_nil (hwrite a List.mem_cons_self)
      have hrest := ih (fun a' h => hread a' (List.mem_cons_of_mem a h))
        (fun a' h => hwrite a' (List.mem_cons_of_mem a h)) (Nat.le_of_succ_le_succ hfuel)
      have hfirst := hread a List.mem_cons_self (as.flatMap write)
      rw [List.flatMap_cons]
      rw [hcons, List.cons_append] at hfirst ⊢
      rw [readAll, hfirst, Option.bind_some, hrest]
      rfl

end Mmocraft.Lib
