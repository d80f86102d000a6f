/-
# Mmocraft.Lib.SharedObjects -- objects that live as long as somebody holds them

Objects with reference counts: one is made with its first holder, a holder can be copied, and the object is
destroyed when its last holder is released.  `HeldBy h holders` says that the counts are those of a
multiset of holders; it is kept by each operation with the obvious change of the multiset.  What counting is
for then follows: an object is alive exactly while somebody holds it, and is destroyed once.
-/
import Mathlib.Data.List.Nodup
import Mathlib.Data.Multiset.Count
import Mathlib.Tactic.Common

namespace Mmocraft.Lib

/-- Objects by number, in the order in which they are made. -/
structure SharedObjects where
  made : Nat := 0
  useCount : Nat → Nat := fun _ => 0
  /-- The objects that were destroyed, in order. -/
  destroyed : List Nat := []

namespace SharedObjects

/-- A new object, with one holder. -/
def make (h : SharedObjects) : SharedObjects :=
  { h with made := h.made + 1, useCount := Function.update h.useCount h.made 1 }

/-- One more holder of an object. -/
def copy (h : SharedObjects) (x : Nat) : SharedObjects :=
  { h with useCount := Function.update h.useCount x (h.useCount x + 1) }

/-- One holder less; the last one takes the object along. -/
def release (h : SharedObjects) (x : Nat) : SharedObjects :=
  { h with
    useCount := Function.update h.useCount x (h.useCount x - 1)
    destroyed := if h.useCount x = 1 then h.destroyed ++ [x] else h.destroyed }

/-- The object was made and not destroyed. -/
def Alive (h : SharedObjects) (x : Nat) : Prop := x < h.made ∧ x ∉ h.destroyed

/-- The holders are those of the multiset. -/
structure HeldBy (h : SharedObjects) (holders : Multiset Nat) : Prop where
  useCount : ∀ x, h.useCount x = holders.count x
  made : ∀ x ∈ holders, x < h.made
  destroyed : ∀ x, x ∈ h.destroyed ↔ x < h.made ∧ x ∉ holders
  /-- Nothing is destroyed twice. -/
  nodup : h.destroyed.Nodup

namespace HeldBy

variable {h : SharedObjects} {holders : Multiset Nat} {x : Nat}

theorem new : HeldBy {} 0 where
  useCount x := (Multiset.count_zero x).symm
  made x hx := absurd hx (Multiset.notMem_zero x)
  destroyed x := iff_of_false List.not_mem_nil fun hx => Nat.not_lt_zero x hx.1
  nodup := List.nodup_nil

theorem make (hh : HeldBy h holders) : HeldBy h.make (h.made ::ₘ holders) := by
  have hfresh : h.made ∉ holders := fun hmem => Nat.lt_irrefl _ (hh.made _ hmem)
  refine ⟨fun x => ?_, fun x hx => ?_, fun x => ?_, hh.nodup⟩
  · by_cases hx : x = h.made
    · subst hx
      rw [Multiset.count_cons_self, Multiset.count_eq_zero_of_notMem hfresh]
      exact Function.update_self ..
    · rw [Multiset.count_cons_of_ne hx, ← hh.useCount x]
      exact Function.update_of_ne hx ..
  · show x < h.made + 1
    rcases Multiset.mem_cons.mp hx with rfl | hx
    · exact Nat.lt_succ_self _
    · exact Nat.lt_succ_of_lt (hh.made x hx)
  · show x ∈ h.destroyed ↔ x < h.made + 1 ∧ x ∉ h.made ::ₘ holders
    rw [hh.destroyed x, Multiset.mem_cons, not_or]
    -- the new object is held
    constructor
    · rintro ⟨hlt, hx⟩
      exact ⟨Nat.lt_succ_of_lt hlt, Nat.ne_of_lt hlt, hx⟩
    · rintro ⟨hlt, hne, hx⟩
      exact ⟨Nat.lt_of_le_of_ne (Nat.le_of_lt_succ hlt) hne, hx⟩

theorem copy (hh : HeldBy h holders) (hx : x ∈ holders) : HeldBy (h.copy x) (x ::ₘ holders) := by
  refine ⟨fun y => ?_, fun y hy => ?_, fun y => ?_, hh.nodup⟩
  · by_cases hy : y = x
    · subst hy
      rw [Multiset.count_cons_self, ← hh.useCount y]
      exact Function.update_self ..
    · rw [Multiset.count_cons_of_ne hy, ← hh.useCount y]
      exact Function.update_of_ne hy ..
  · rcases Multiset.mem_cons.mp hy with rfl | hy
    · exact hh.made y hx
    · exact hh.made y hy
  · show y ∈ h.destroyed ↔ y < h.made ∧ y ∉ x ::ₘ holders
    rw [hh.destroyed y, Multiset.mem_cons, not_or]
    constructor
    · rintro ⟨hmade, hy⟩
      exact ⟨hmade, fun heq => hy (heq ▸ hx), hy⟩
    · rintro ⟨hmade, -, hy⟩
      exact ⟨hmade, hy⟩

theorem release (hh : HeldBy h (x ::ₘ holders)) : HeldBy (h.release x) holders := by
  have hself : h.useCount x = holders.count x + 1 := by rw [hh.useCount, Multiset.count_cons_self]
  have hmade : x < h.made := hh.made x (Multiset.mem_cons_self x holders)
  have hcount : ∀ y, (h.release x).useCount y = holders.count y := by
    intro y
    by_cases hy : y = x
    · subst hy
      refine (Function.update_self ..).trans ?_
      rw [hself, Nat.add_sub_cancel]
    · rw [← Multiset.count_cons_of_ne hy holders, ← hh.useCount y]
      exact Function.update_of_ne hy ..
  suffices hdestroyed : (∀ y, y ∈ (h.release x).destroyed ↔ y < h.made ∧ y ∉ holders) ∧
      (h.release x).destroyed.Nodup from
    ⟨hcount, fun y hy => hh.made y (Multiset.mem_cons_of_mem hy), hdestroyed.1, hdestroyed.2⟩
  by_cases hlast : x ∈ holders
  · -- somebody else still holds the object
    have hpos : 0 < holders.count x := Multiset.count_pos.mpr hlast
    have hkept : (h.release x).destroyed = h.destroyed := if_neg (by omega)
    rw [hkept]
    refine ⟨fun y => ?_, hh.nodup⟩
    rw [hh.destroyed y, Multiset.mem_cons, not_or]
    constructor
    · rintro ⟨hy, -, hnot⟩
      exact ⟨hy, hnot⟩
    · rintro ⟨hy, hnot⟩
      exact ⟨hy, fun heq => hnot (heq ▸ hlast), hnot⟩
  · have hone : h.useCount x = 1 := by rw [hself, Multiset.count_eq_zero_of_notMem hlast]
    have hgone : (h.release x).destroyed = h.destroyed ++ [x] := if_pos hone
    have hbefore : x ∉ h.destroyed := fun hx =>
      ((hh.destroyed x).mp hx).2 (Multiset.mem_cons_self x holders)
    rw [hgone]
    refine ⟨fun y => ?_, ?_⟩
    · rw [List.mem_append, List.mem_singleton, hh.destroyed y, Multiset.mem_cons, not_or]
      constructor
      · rintro (⟨hy, -, hnot⟩ | rfl)
        · exact ⟨hy, hnot⟩
        · exact ⟨hmade, hlast⟩
      · rintro ⟨hy, hnot⟩
        by_cases heq : y = x
        · exact Or.inr heq
        · exact Or.inl ⟨hy, heq, hnot⟩
    · rw [List.nodup_append]
      refine ⟨hh.nodup, List.nodup_singleton x, fun a ha b hb heq => hbefore ?_⟩
      rw [← List.mem_singleton.mp hb, ← heq]
      exact ha

/-- **An object is alive exactly while it is held.** -/
theorem alive_iff (hh : HeldBy h holders) : h.Alive x ↔ x ∈ holders := by
  rw [Alive, hh.destroyed x]
  constructor
  · rintro ⟨hmade, hnot⟩
    by_contra hx
    exact hnot ⟨hmade, hx⟩
  · intro hx
    exact ⟨hh.made x hx, fun hgone => hgone.2 hx⟩

/-- **Nothing is alive** exactly when nobody holds anything. -/
theorem none_alive_iff (hh : HeldBy h holders) : (∀ x, ¬ h.Alive x) ↔ holders = 0 := by
  simp only [hh.alive_iff]
  exact ⟨Multiset.eq_zero_of_forall_notMem, fun hnone x => hnone ▸ Multiset.notMem_zero x⟩

end HeldBy

end SharedObjects

end Mmocraft.Lib
