/-
# Mmocraft.Lib.Runs -- finite runs of a partial step function

A transition system here is a partial step function `step : σ → ε → Option σ`: `ε` names the
events, and `none` says that the event is not enabled in the state.  `run` folds a list of events.
The rules below are the induction principles every reachability argument of the development uses:
an invariant of all runs, an invariant of the runs whose events all satisfy a guard evaluated in
the state they start from, and an invariant that also sees the events taken so far.
-/
import Mathlib.Data.List.Basic
import Mathlib.Tactic.Common

namespace Mmocraft.Lib

universe u v w

variable {σ : Type u} {ε : Type v}

/-- Run a list of events, stopping at the first one that is not enabled. -/
def run (step : σ → ε → Option σ) : σ → List ε → Option σ
  | s, [] => some s
  | s, e :: es => (step s e).bind fun s' => run step s' es

/-- Every event of the list satisfies the guard in the state in which it is taken. -/
def Along (step : σ → ε → Option σ) (G : σ → ε → Prop) : σ → List ε → Prop
  | _, [] => True
  | s, e :: es => G s e ∧ ∀ s', step s e = some s' → Along step G s' es

instance decidableAlong (step : σ → ε → Option σ) (G : σ → ε → Prop) [∀ s e, Decidable (G s e)] :
    (s : σ) → (es : List ε) → Decidable (Along step G s es)
  | _, [] => isTrue trivial
  | s, e :: es =>
      match h : step s e with
      | none => decidable_of_iff (G s e) ⟨fun hG => ⟨hG, fun _ hs' => nomatch h.symm.trans hs'⟩,
          And.left⟩
      | some s' =>
          letI := decidableAlong step G s' es
          decidable_of_iff (G s e ∧ Along step G s' es)
            ⟨fun hG => ⟨hG.1, fun _ ht => Option.some.inj (h.symm.trans ht) ▸ hG.2⟩,
              fun hG => ⟨hG.1, hG.2 s' h⟩⟩

section Rules

variable {step : σ → ε → Option σ}

@[simp] theorem run_nil (s : σ) : run step s [] = some s := rfl

theorem run_cons (s : σ) (e : ε) (es : List ε) :
    run step s (e :: es) = (step s e).bind fun s' => run step s' es := rfl

theorem run_cons_eq_some {s t : σ} {e : ε} {es : List ε} :
    run step s (e :: es) = some t ↔ ∃ s', step s e = some s' ∧ run step s' es = some t := by
  rw [run_cons, Option.bind_eq_some_iff]

theorem run_append (s : σ) (es fs : List ε) :
    run step s (es ++ fs) = (run step s es).bind fun s' => run step s' fs := by
  induction es generalizing s with
  | nil => rfl
  | cons e es ih =>
      simp only [List.cons_append, run_cons]
      cases step s e with
      | none => rfl
      | some s' => exact ih s'

theorem run_append_eq_some {s t : σ} {es fs : List ε} :
    run step s (es ++ fs) = some t ↔ ∃ s', run step s es = some s' ∧ run step s' fs = some t := by
  rw [run_append, Option.bind_eq_some_iff]

/-- A run of one event is that event. -/
theorem run_singleton (s : σ) (e : ε) : run step s [e] = step s e := by
  rw [run_cons]
  cases step s e <;> rfl

/-- A run that goes through ends in the state it ends in. -/
theorem run_getD {s t : σ} {es : List ε} (h : (run step s es).isSome = true) :
    run step s es = some ((run step s es).getD t) := by
  obtain ⟨s', hs'⟩ := Option.isSome_iff_exists.mp h
  rw [hs', Option.getD_some]

theorem Along.of_forall {G : σ → ε → Prop} (h : ∀ s e, G s e) {s : σ} {es : List ε} :
    Along step G s es := by
  induction es generalizing s with
  | nil => trivial
  | cons e es ih => exact ⟨h s e, fun s' _ => ih⟩

/-- A guard that every event of the list meets in every state. -/
theorem Along.of_forall_mem {G : σ → ε → Prop} {es : List ε} (h : ∀ e ∈ es, ∀ s, G s e) {s : σ} :
    Along step G s es := by
  induction es generalizing s with
  | nil => trivial
  | cons e es ih =>
      exact ⟨h e List.mem_cons_self s, fun _ _ => ih fun e he => h e (List.mem_cons_of_mem _ he)⟩

theorem Along.and {G H : σ → ε → Prop} {s : σ} {es : List ε} (hG : Along step G s es)
    (hH : Along step H s es) : Along step (fun s e => G s e ∧ H s e) s es := by
  induction es generalizing s with
  | nil => trivial
  | cons e es ih => exact ⟨⟨hG.1, hH.1⟩, fun s' hs' => ih (hG.2 s' hs') (hH.2 s' hs')⟩

/-- **Invariant rule.** What holds initially and is preserved by every step holds after every
run. -/
theorem run_invariant {P : σ → Prop} (pres : ∀ s e s', P s → step s e = some s' → P s')
    {s t : σ} {es : List ε} (hs : P s) (hrun : run step s es = some t) : P t := by
  induction es generalizing s with
  | nil =>
      obtain rfl : s = t := by simpa using hrun
      exact hs
  | cons e es ih =>
      obtain ⟨s', hs', ht⟩ := run_cons_eq_some.mp hrun
      exact ih (pres s e s' hs hs') ht

/-- **Guarded invariant rule.** As `run_invariant`, for runs whose events all satisfy `G`. -/
theorem run_invariant_along {P : σ → Prop} {G : σ → ε → Prop}
    (pres : ∀ s e s', P s → G s e → step s e = some s' → P s')
    {s t : σ} {es : List ε} (hs : P s) (hG : Along step G s es) (hrun : run step s es = some t) :
    P t := by
  induction es generalizing s with
  | nil =>
      obtain rfl : s = t := by simpa using hrun
      exact hs
  | cons e es ih =>
      obtain ⟨s', hs', ht⟩ := run_cons_eq_some.mp hrun
      exact ih (pres s e s' hs hG.1 hs') (hG.2 s' hs') ht

/-- **Exact guard rule.** Where the steps that meet `G` keep the invariant, the others do damage, and
damage stays, a run is without damage exactly if all its steps meet `G`. -/
theorem run_iff_along {P D : σ → Prop} {G : σ → ε → Prop}
    (pres : ∀ s e s', P s → G s e → step s e = some s' → P s')
    (damage : ∀ s e s', P s → ¬ G s e → step s e = some s' → D s')
    (stays : ∀ s e s', D s → step s e = some s' → D s') (sound : ∀ s, P s → ¬ D s)
    {s t : σ} {es : List ε} (hs : P s) (hrun : run step s es = some t) :
    ¬ D t ↔ Along step G s es := by
  refine ⟨fun hD => ?_, fun hG => sound t (run_invariant_along pres hs hG hrun)⟩
  induction es generalizing s with
  | nil => trivial
  | cons e es ih =>
      obtain ⟨s', hs', ht⟩ := run_cons_eq_some.mp hrun
      have hG : G s e := by
        by_contra hG
        exact hD (run_invariant stays (damage s e s' hs hG hs') ht)
      refine ⟨hG, fun s'' hs'' => ?_⟩
      obtain rfl := Option.some.inj (hs'.symm.trans hs'')
      exact ih (pres s e s' hs hG hs') ht

/-- **Progress rule.** Events that all lower a measure are no more than the measure. -/
theorem run_length_le {P : σ → Prop} {G : ε → Prop} {μ : σ → Nat}
    (pres : ∀ s e s', P s → step s e = some s' → P s')
    (dec : ∀ s e s', P s → G e → step s e = some s' → μ s' < μ s)
    {s t : σ} {es : List ε} (hs : P s) (hG : ∀ e ∈ es, G e) (hrun : run step s es = some t) :
    es.length ≤ μ s := by
  induction es generalizing s with
  | nil => exact Nat.zero_le _
  | cons e es ih =>
      obtain ⟨s', hs', ht⟩ := run_cons_eq_some.mp hrun
      have hfirst := dec s e s' hs (hG e List.mem_cons_self) hs'
      have hrest := ih (pres s e s' hs hs') (fun e he => hG e (List.mem_cons_of_mem _ he)) ht
      rw [List.length_cons]
      omega

/-- Every state that the events lead to has the property. -/
def EachState (step : σ → ε → Option σ) (R : σ → Prop) : σ → List ε → Prop :=
  Along step fun s e => ∀ s', step s e = some s' → R s'

/-- **Exact guard rule for each state.** Where the steps that meet `G` keep an invariant that implies the
property, and the others lead to a state without it, every state of a run has the property exactly if all
its steps meet `G`. -/
theorem eachState_iff_along {P R : σ → Prop} {G : σ → ε → Prop}
    (pres : ∀ s e s', P s → G s e → step s e = some s' → P s') (sound : ∀ s, P s → R s)
    (damage : ∀ s e s', P s → ¬ G s e → step s e = some s' → ¬ R s') {s t : σ} {es : List ε} (hs : P s)
    (hrun : run step s es = some t) : EachState step R s es ↔ Along step G s es := by
  induction es generalizing s with
  | nil => exact iff_of_true trivial trivial
  | cons e es ih =>
      obtain ⟨s', hs', ht⟩ := run_cons_eq_some.mp hrun
      have hnext : ∀ s'', step s e = some s'' → s'' = s' := fun s'' h =>
        Option.some.inj (h.symm.trans hs')
      constructor
      · rintro ⟨hR, hrest⟩
        have hG : G s e := by
          by_contra hG
          exact damage s e s' hs hG hs' (hR s' hs')
        refine ⟨hG, fun s'' h => ?_⟩
        obtain rfl := hnext s'' h
        exact (ih (pres s e s'' hs hG hs') ht).mp (hrest s'' hs')
      · rintro ⟨hG, hrest⟩
        have hP := pres s e s' hs hG hs'
        refine ⟨fun s'' h => ?_, fun s'' h => ?_⟩
        · rw [hnext s'' h]
          exact sound s' hP
        · obtain rfl := hnext s'' h
          exact (ih hP ht).mpr (hrest s'' hs')

/-- **Traced invariant rule.** The invariant may mention the events taken so far. -/
theorem run_invariant_trace {P : List ε → σ → Prop}
    (pres : ∀ es e s s', P es s → step s e = some s' → P (es ++ [e]) s')
    {s t : σ} {es : List ε} (hs : P [] s) (hrun : run step s es = some t) : P es t := by
  suffices h : ∀ (pre : List ε) (s : σ), P pre s → run step s es = some t → P (pre ++ es) t by
    simpa using h [] s hs hrun
  clear hs hrun s
  induction es with
  | nil =>
      intro pre s hp hrun
      obtain rfl : s = t := by simpa using hrun
      simpa using hp
  | cons e es ih =>
      intro pre s hp hrun
      obtain ⟨s', hs', ht⟩ := run_cons_eq_some.mp hrun
      have := ih (pre ++ [e]) s' (pres pre e s s' hp hs') ht
      simpa using this

/-- A value carried along a run: each event updates it, in the state in which it is taken. -/
def follow {α : Type w} (step : σ → ε → Option σ) (f : α → σ → ε → α) : α → σ → List ε → α
  | a, _, [] => a
  | a, s, e :: es =>
      match step s e with
      | none => a
      | some s' => follow step f (f a s e) s' es

/-- **Carried invariant rule.** As `run_invariant_along`, for a state together with a carried
value. -/
theorem run_invariant_follow {α : Type w} {f : α → σ → ε → α} {P : α → σ → Prop} {G : σ → ε → Prop}
    (pres : ∀ a s e s', P a s → G s e → step s e = some s' → P (f a s e) s')
    {a : α} {s t : σ} {es : List ε} (hs : P a s) (hG : Along step G s es)
    (hrun : run step s es = some t) : P (follow step f a s es) t := by
  induction es generalizing a s with
  | nil =>
      obtain rfl : s = t := by simpa using hrun
      exact hs
  | cons e es ih =>
      obtain ⟨s', hs', ht⟩ := run_cons_eq_some.mp hrun
      rw [follow, hs']
      exact ih (pres a s e s' hs hG.1 hs') (hG.2 s' hs') ht

/-- **Carried exact guard rule.** As `run_iff_along`, for a state together with a carried value. -/
theorem follow_iff_along {α : Type w} {f : α → σ → ε → α} {P D : α → σ → Prop} {G : σ → ε → Prop}
    (pres : ∀ a s e s', P a s → G s e → step s e = some s' → P (f a s e) s')
    (damage : ∀ a s e s', P a s → ¬ G s e → step s e = some s' → D (f a s e) s')
    (stays : ∀ a s e s', D a s → step s e = some s' → D (f a s e) s') (sound : ∀ a s, P a s → ¬ D a s)
    {a : α} {s t : σ} {es : List ε} (hs : P a s) (hrun : run step s es = some t) :
    P (follow step f a s es) t ↔ Along step G s es := by
  refine ⟨fun hP => ?_, fun hG => run_invariant_follow pres hs hG hrun⟩
  induction es generalizing a s with
  | nil => trivial
  | cons e es ih =>
      obtain ⟨s', hs', ht⟩ := run_cons_eq_some.mp hrun
      rw [follow, hs'] at hP
      have hG : G s e := by
        by_contra hG
        have hD : D (follow step f (f a s e) s' es) t :=
          run_invariant_follow (P := D) (G := fun _ _ => True)
            (fun a s e s' h _ hstep => stays a s e s' h hstep) (damage a s e s' hs hG hs')
            (Along.of_forall fun _ _ => trivial) ht
        exact sound _ t hP hD
      refine ⟨hG, fun s'' hs'' => ?_⟩
      obtain rfl := Option.some.inj (hs'.symm.trans hs'')
      exact ih (pres a s e s' hs hG hs') ht hP

end Rules

end Mmocraft.Lib
