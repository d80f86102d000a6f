/-
# Mmocraft.Lib.Bounds -- computations that index arrays

An array of `n` elements is a function on `Fin n`, and an index reaches it through `checkIndex`, which
stops the computation when the index is out of range.  A computation is in bounds if it is not
stopped; the rules below say when, from the outermost step inwards.
-/
import Mathlib.Tactic.Common

namespace Mmocraft.Lib

universe u

/-- An access outside an array. -/
structure OutOfRange where
  size : Nat
  index : Int
  deriving DecidableEq, Repr

/-- The element of an array of `n` elements that an index denotes. -/
def checkIndex (n : Nat) (i : Int) : Except OutOfRange (Fin n) :=
  if h : 0 ≤ i ∧ i < n then .ok ⟨i.toNat, by omega⟩ else .error ⟨n, i⟩

/-- No access of the computation is out of range. -/
def InBounds {α : Type u} (x : Except OutOfRange α) : Prop := ∃ a, x = .ok a

instance {α : Type u} (x : Except OutOfRange α) : Decidable (InBounds x) :=
  match x with
  | .ok a => isTrue ⟨a, rfl⟩
  | .error _ => isFalse fun ⟨_, h⟩ => nomatch h

section Rules

variable {α β : Type u}

@[simp] theorem inBounds_pure (a : α) : InBounds (pure a : Except OutOfRange α) := ⟨a, rfl⟩

theorem checkIndex_eq_ok_iff {n : Nat} {i : Int} {k : Fin n} :
    checkIndex n i = .ok k ↔ i = k.val := by
  unfold checkIndex
  split_ifs with h
  · rw [Except.ok.injEq, Fin.ext_iff]
    show i.toNat = k.val ↔ _
    omega
  · refine iff_of_false (fun heq => nomatch heq) fun heq => h ?_
    have hlt := k.isLt
    omega

@[simp] theorem inBounds_checkIndex (n : Nat) (i : Int) :
    InBounds (checkIndex n i) ↔ 0 ≤ i ∧ i < n := by
  constructor
  · rintro ⟨k, hk⟩
    have hlt := k.isLt
    rw [checkIndex_eq_ok_iff] at hk
    omega
  · intro h
    exact ⟨_, dif_pos h⟩

theorem bind_eq_ok {x : Except OutOfRange α} {f : α → Except OutOfRange β} {b : β} :
    (x >>= f) = .ok b ↔ ∃ a, x = .ok a ∧ f a = .ok b := by
  cases x with
  | ok a =>
      show f a = .ok b ↔ _
      exact ⟨fun h => ⟨a, rfl, h⟩, fun ⟨_, ha, h⟩ => Except.ok.inj ha ▸ h⟩
  | error e => exact iff_of_false (fun h => nomatch h) fun ⟨_, h, _⟩ => nomatch h

/-- A sequence of two computations. -/
theorem inBounds_bind (x : Except OutOfRange α) (f : α → Except OutOfRange β) :
    InBounds (x >>= f) ↔ InBounds x ∧ ∀ a, x = .ok a → InBounds (f a) := by
  constructor
  · rintro ⟨b, hb⟩
    obtain ⟨a, hx, hf⟩ := bind_eq_ok.mp hb
    exact ⟨⟨a, hx⟩, fun a' ha' => ⟨b, Except.ok.inj (hx.symm.trans ha') ▸ hf⟩⟩
  · rintro ⟨⟨a, hx⟩, h⟩
    obtain ⟨b, hb⟩ := h a hx
    exact ⟨b, bind_eq_ok.mpr ⟨a, hx, hb⟩⟩

/-- What follows a computation does not matter if it is always in bounds. -/
theorem inBounds_bind_of_forall (x : Except OutOfRange α) {f : α → Except OutOfRange β}
    (hf : ∀ a, InBounds (f a)) : InBounds (x >>= f) ↔ InBounds x := by
  rw [inBounds_bind]
  exact and_iff_left fun a _ => hf a

/-- A computation that starts with an index. -/
theorem inBounds_checkIndex_bind (n : Nat) (i : Int) {γ : Type}
    (f : Fin n → Except OutOfRange γ) :
    InBounds (checkIndex n i >>= f) ↔
      InBounds (checkIndex n i) ∧ ∀ k : Fin n, i = k.val → InBounds (f k) := by
  rw [inBounds_bind]
  simp only [checkIndex_eq_ok_iff]

end Rules

end Mmocraft.Lib
