/-
# Mmocraft.Lib.WhileLoop -- loops that may not end

A loop is given by one turn of it: `body s` is the state behind the turn, or `none` where the condition of
the loop does not hold.  `whileLoop` runs it for a number of turns, and `Returns` abstracts from that
number.  There is a rule for each way a loop is reasoned about: the exit, one turn, and an invariant that
never lets it come to its exit.
-/
import Mathlib.Tactic.Common

namespace Mmocraft.Lib

universe u

variable {σ : Type u} {body : σ → Option σ}

/-- Run the loop for less than `fuel` turns. -/
def whileLoop (body : σ → Option σ) : Nat → σ → Option σ
  | 0, _ => none
  | fuel + 1, s =>
      match body s with
      | none => some s
      | some s' => whileLoop body fuel s'

/-- From `s` the loop ends, in `r`. -/
def Returns (body : σ → Option σ) (s r : σ) : Prop := ∃ fuel, whileLoop body fuel s = some r

/-- More fuel does not change what the loop returns. -/
theorem whileLoop_mono {fuel fuel' : Nat} {s r : σ} (h : whileLoop body fuel s = some r)
    (hle : fuel ≤ fuel') : whileLoop body fuel' s = some r := by
  induction fuel generalizing fuel' s with
  | zero => exact nomatch h
  | succ fuel ih =>
      obtain ⟨fuel', rfl⟩ : ∃ k, fuel' = k + 1 := ⟨fuel' - 1, by omega⟩
      rw [whileLoop] at h ⊢
      cases hbody : body s with
      | none =>
          rw [hbody] at h
          exact h
      | some s' =>
          rw [hbody] at h
          exact ih h (Nat.le_of_succ_le_succ hle)

/-- The loop ends where its condition does not hold. -/
theorem Returns.exit {s : σ} (h : body s = none) : Returns body s s := ⟨1, by rw [whileLoop, h]⟩

/-- One turn in front of a loop that ends. -/
theorem Returns.turn {s s' r : σ} (h : body s = some s') (hrest : Returns body s' r) :
    Returns body s r := by
  obtain ⟨fuel, hfuel⟩ := hrest
  exact ⟨fuel + 1, by rw [whileLoop, h]; exact hfuel⟩

/-- **The rule of total correctness.**  Every turn keeps `I` and makes `μ` smaller: the loop ends, in a state
with `I` where its condition does not hold. -/
theorem exists_returns {I : σ → Prop} (μ : σ → Nat)
    (hturn : ∀ s s', I s → body s = some s' → I s' ∧ μ s' < μ s) {s : σ} (hs : I s) :
    ∃ r, Returns body s r ∧ I r ∧ body r = none := by
  induction hμ : μ s using Nat.strongRecOn generalizing s with
  | ind m ih =>
      cases hbody : body s with
      | none => exact ⟨s, Returns.exit hbody, hs, hbody⟩
      | some s' =>
          obtain ⟨hs', hlt⟩ := hturn s s' hs hbody
          obtain ⟨r, hreturns, hr⟩ := ih (μ s') (hμ ▸ hlt) hs' rfl
          exact ⟨r, hreturns.turn hbody, hr⟩

/-- A loop that never comes to its exit does not end. -/
theorem whileLoop_eq_none {I : σ → Prop} (hturn : ∀ s, I s → ∃ s', body s = some s' ∧ I s') {s : σ}
    (hs : I s) (fuel : Nat) : whileLoop body fuel s = none := by
  induction fuel generalizing s with
  | zero => rfl
  | succ fuel ih =>
      obtain ⟨s', hbody, hs'⟩ := hturn s hs
      rw [whileLoop, hbody]
      exact ih hs'

end Mmocraft.Lib
