/-
# Mmocraft.Lib.Ranges -- ranges of a memory that several parties write

Reservations are ranges of one memory.  The facts here are those a proof about parties that reserve
first and write later needs: a range above all others is disjoint from them, and a write leaves what
lies in a disjoint range.  The parties under way are a list from which the `k`-th is taken.
-/
import Mmocraft.Lib.Memory

namespace Mmocraft.Lib

universe u

/-- The cells from `start` on, `len` of them. -/
structure Range where
  start : Nat
  len : Nat
  deriving DecidableEq, Repr

namespace Range

def stop (r : Range) : Nat := r.start + r.len

/-- One range ends before the other begins. -/
def Disjoint (r r' : Range) : Prop := r.stop ≤ r'.start ∨ r'.stop ≤ r.start

instance (r r' : Range) : Decidable (r.Disjoint r') :=
  inferInstanceAs (Decidable (r.stop ≤ r'.start ∨ r'.stop ≤ r.start))

theorem Disjoint.symm {r r' : Range} (h : r.Disjoint r') : r'.Disjoint r := Or.symm h

/-- The range lies within another one. -/
def Inside (r r' : Range) : Prop := r'.start ≤ r.start ∧ r.stop ≤ r'.stop

instance (r r' : Range) : Decidable (r.Inside r') :=
  inferInstanceAs (Decidable (r'.start ≤ r.start ∧ r.stop ≤ r'.stop))

/-- What lies within disjoint ranges is disjoint. -/
theorem Disjoint.of_inside {r r' q q' : Range} (h : q.Disjoint q') (hr : r.Inside q) (hr' : r'.Inside q') :
    r.Disjoint r' := by
  rcases h with hbelow | habove
  · exact Or.inl (Nat.le_trans hr.2 (Nat.le_trans hbelow hr'.1))
  · exact Or.inr (Nat.le_trans hr'.2 (Nat.le_trans habove hr.1))

/-- The `i`-th slice of a memory that is cut into slices of one size. -/
def slice (size i : Nat) : Range := ⟨size * i, size⟩

theorem slice_stop (size i : Nat) : (slice size i).stop = size * (i + 1) := (Nat.mul_succ size i).symm

/-- Different slices share no cell. -/
theorem slice_disjoint (size : Nat) {i j : Nat} (h : i ≠ j) : (slice size i).Disjoint (slice size j) := by
  rcases Nat.lt_or_gt_of_ne h with hlt | hgt
  · apply Or.inl
    rw [slice_stop]
    exact Nat.mul_le_mul_left size hlt
  · apply Or.inr
    rw [slice_stop]
    exact Nat.mul_le_mul_left size hgt

/-- The first slices end within their memory. -/
theorem slice_stop_le (size : Nat) {i n : Nat} (h : i < n) : (slice size i).stop ≤ size * n := by
  rw [slice_stop]
  exact Nat.mul_le_mul_left size h

end Range

/-- A write leaves a disjoint range as it was. -/
theorem Memory.read_write_of_disjoint {α : Type u} {mem : List α} {off off' len : Nat} {bs : List α}
    (h : Range.Disjoint ⟨off, bs.length⟩ ⟨off', len⟩) (hoff : off ≤ mem.length) :
    Memory.read (Memory.write mem off bs) off' len = Memory.read mem off' len := by
  rcases h with habove | hbelow
  · exact Memory.read_write_above habove hoff
  · exact Memory.read_write_below hbelow hoff

/-- A list around its `k`-th element. -/
theorem exists_split_of_getElem? {α : Type u} {l : List α} {k : Nat} {a : α} (h : l[k]? = some a) :
    ∃ l₁ l₂, l = l₁ ++ a :: l₂ ∧ (∀ b, l.set k b = l₁ ++ b :: l₂) ∧ l.eraseIdx k = l₁ ++ l₂ := by
  obtain ⟨hk, ha⟩ := List.getElem?_eq_some_iff.mp h
  refine ⟨l.take k, l.drop (k + 1), ?_, fun b => ?_, List.eraseIdx_eq_take_drop_succ l k⟩
  · rw [← ha, ← List.drop_eq_getElem_cons hk, List.take_append_drop]
  · rw [List.set_eq_take_append_cons_drop, if_pos hk]

end Mmocraft.Lib
