/-
# Mmocraft.Lib.Places -- what a list of places holds together

A system of several threads keeps one record for each of them, and a step changes the record of one.
What all of them hold together is a sum over the list: a count of tokens, or a multiset of items.  The
rules below say how the sum changes with one place, and what a bound on it says about two places.
-/
import Mathlib.Algebra.BigOperators.Group.List.Basic
import Mathlib.Algebra.Order.BigOperators.Group.List
import Mathlib.Algebra.Order.Group.Multiset
import Mathlib.Algebra.Order.Group.Nat

namespace Mmocraft.Lib

universe u v

variable {α : Type u} {M : Type v}

/-- What the places hold together. -/
def held [AddMonoid M] (f : α → M) (places : List α) : M := (places.map f).sum

section Sums

variable [AddCommMonoid M] {f : α → M}

@[simp] theorem held_nil : held f [] = 0 := rfl

theorem held_cons (a : α) (places : List α) : held f (a :: places) = f a + held f places := by
  rw [held, held, List.map_cons, List.sum_cons]

/-- A new place adds what it holds. -/
theorem held_concat (a : α) (places : List α) : held f (places ++ [a]) = held f places + f a := by
  rw [held, held, List.map_append, List.sum_append, List.map_singleton, List.sum_singleton]

/-- A change of one place, with what it held before on the other side. -/
theorem held_set {places : List α} {k : Nat} {a : α} (ha : places[k]? = some a) (b : α) :
    held f (places.set k b) + f a = held f places + f b := by
  induction places generalizing k with
  | nil => exact absurd ha (by simp)
  | cons c places ih =>
      cases k with
      | zero =>
          obtain rfl : c = a := by simpa using ha
          rw [List.set_cons_zero, held_cons, held_cons, add_right_comm, add_comm (f b), add_right_comm]
      | succ k =>
          rw [List.set_cons_succ, held_cons, held_cons, add_assoc, ih (by simpa using ha), add_assoc]

/-- A place is given something. -/
theorem held_set_add {places : List α} {k : Nat} {a b : α} {x : M} (ha : places[k]? = some a)
    (hf : f b = f a + x) : held f (places.set k b) = held f places + x := by
  induction places generalizing k with
  | nil => exact absurd ha (by simp)
  | cons c places ih =>
      cases k with
      | zero =>
          obtain rfl : c = a := by simpa using ha
          rw [List.set_cons_zero, held_cons, held_cons, hf, add_right_comm]
      | succ k => rw [List.set_cons_succ, held_cons, held_cons, ih (by simpa using ha), add_assoc]

/-- A change of one place that leaves what it holds. -/
theorem held_set_eq {places : List α} {k : Nat} {a b : α} (ha : places[k]? = some a) (hf : f b = f a) :
    held f (places.set k b) = held f places := by
  rw [held_set_add (x := 0) ha (by rw [hf, add_zero]), add_zero]

/-- Something is taken from a place. -/
theorem held_set_remove {places : List α} {k : Nat} {a b : α} {x : M} (ha : places[k]? = some a)
    (hf : f a = f b + x) : held f places = held f (places.set k b) + x := by
  have hk : k < places.length := (List.getElem?_eq_some_iff.mp ha).1
  have hset : (places.set k b)[k]? = some b := List.getElem?_set_self hk
  have hback : (places.set k b).set k a = places := by
    rw [List.set_set, ← (List.getElem?_eq_some_iff.mp ha).2, List.set_getElem_self]
  rw [← held_set_add hset hf, hback]

/-- Places that hold nothing hold nothing together. -/
theorem held_eq_zero {places : List α} (h : ∀ a ∈ places, f a = 0) : held f places = 0 := by
  induction places with
  | nil => rfl
  | cons a places ih =>
      rw [held_cons, h a List.mem_cons_self, ih fun b hb => h b (List.mem_cons_of_mem a hb), add_zero]

theorem held_congr {g : α → M} {places : List α} (h : ∀ a ∈ places, f a = g a) :
    held f places = held g places :=
  congrArg List.sum (List.map_congr_left h)

/-- What the places hold of two things together. -/
theorem held_add (f g : α → M) (places : List α) :
    held (fun a => f a + g a) places = held f places + held g places := by
  induction places with
  | nil => exact (add_zero 0).symm
  | cons a places ih => rw [held_cons, held_cons, held_cons, ih, add_add_add_comm]

end Sums

/-- An item is held by one of the places. -/
theorem mem_held {β : Type v} {f : α → Multiset β} {places : List α} {x : β} :
    x ∈ held f places ↔ ∃ a ∈ places, x ∈ f a := by
  induction places with
  | nil => simp
  | cons a places ih => simp only [held_cons, Multiset.mem_add, ih, List.mem_cons, exists_eq_or_imp]

/-! ## Counts -/

section Counts

variable {f : α → Nat}

/-- One place holds no more than all. -/
theorem le_held {places : List α} {k : Nat} {a : α} (ha : places[k]? = some a) : f a ≤ held f places :=
  List.single_le_sum (fun _ _ => Nat.zero_le _) _ (List.mem_map_of_mem (List.mem_of_getElem? ha))

/-- Two places hold no more than all. -/
theorem add_le_held {places : List α} {j k : Nat} {a b : α} (ha : places[j]? = some a)
    (hb : places[k]? = some b) (hjk : j ≠ k) : f a + f b ≤ held f places := by
  induction places generalizing j k with
  | nil => exact absurd ha (by simp)
  | cons c places ih =>
      rw [held_cons]
      cases j with
      | zero =>
          obtain rfl : c = a := by simpa using ha
          obtain ⟨k, rfl⟩ := Nat.exists_eq_succ_of_ne_zero (Ne.symm hjk)
          have : f b ≤ held f places := le_held (k := k) (by simpa using hb)
          omega
      | succ j =>
          cases k with
          | zero =>
              obtain rfl : c = b := by simpa using hb
              have : f a ≤ held f places := le_held (k := j) (by simpa using ha)
              omega
          | succ k =>
              have := ih (by simpa using ha) (by simpa using hb) (by omega)
              omega

/-- Of a single token, no two places have one each. -/
theorem eq_of_held_le_one {places : List α} {j k : Nat} {a b : α} (h : held f places ≤ 1)
    (ha : places[j]? = some a) (hb : places[k]? = some b) (hfa : 0 < f a) (hfb : 0 < f b) : j = k := by
  by_contra hjk
  have := add_le_held (f := f) ha hb hjk
  omega

end Counts

/-- Where one place holds all tokens, what goes with a token is in that place. -/
theorem held_eq_single [AddCommMonoid M] {f : α → M} {g : α → Nat} {places : List α} {k : Nat} {a : α}
    (ha : places[k]? = some a) (hg : held g places ≤ g a) (hf : ∀ b, g b = 0 → f b = 0) :
    held f places = f a := by
  induction places generalizing k with
  | nil => exact absurd ha (by simp)
  | cons c places ih =>
      rw [held_cons] at hg
      rw [held_cons]
      cases k with
      | zero =>
          obtain rfl : c = a := by simpa using ha
          rw [held_eq_zero fun b hb => ?_, add_zero]
          obtain ⟨j, hj⟩ := List.getElem?_of_mem hb
          have := le_held (f := g) hj
          exact hf b (by omega)
      | succ k =>
          have hk : places[k]? = some a := by simpa using ha
          have := le_held (f := g) hk
          rw [hf c (by omega), zero_add, ih hk (by omega)]

end Mmocraft.Lib
