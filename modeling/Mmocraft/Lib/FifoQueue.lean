/-
# Mmocraft.Lib.FifoQueue -- buffers that implement a queue

A buffer with pushes that can be refused and with pops, run beside the queue that it should be.  A push
is made only if what was pushed since the queue was last empty fits the capacity: a buffer that only
moves its ends forward and starts again when it is empty has room then.  `Simulates` is the relation
between the states of the buffer and the queue that one proves of it, under a condition on the pushes.
-/
import Mmocraft.Lib.Runs

namespace Mmocraft.Lib

universe u v

/-- A buffer: what a push does and whether it is accepted, what a pop does, and what is in it. -/
structure QueueImpl (σ : Type u) (α : Type v) where
  capacity : Nat
  push : σ → List α → σ × Bool
  pop : σ → Nat → σ
  contents : σ → List α

namespace QueueImpl

variable {σ : Type u} {α : Type v}

/-- A buffer beside its queue, with the number of elements pushed since the queue was last empty, and
whether every push was accepted. -/
structure Beside (σ : Type u) (α : Type v) where
  impl : σ
  queue : List α := []
  pushed : Nat := 0
  accepted : Bool := true

inductive Op (α : Type v) where
  | push (xs : List α)
  | pop (n : Nat)

/-- The count starts again when the queue is empty. -/
def sinceEmpty (queue : List α) (pushed : Nat) : Nat := if queue.isEmpty then 0 else pushed

theorem sinceEmpty_of_ne_nil {queue : List α} (h : queue ≠ []) (pushed : Nat) :
    sinceEmpty queue pushed = pushed := by
  rw [sinceEmpty, if_neg (by simpa using h)]

/-- No more is popped than is in the queue. -/
def step (I : QueueImpl σ α) (s : Beside σ α) : Op α → Option (Beside σ α)
  | .push xs =>
      if s.pushed + xs.length ≤ I.capacity then
        some { impl := (I.push s.impl xs).1
               queue := s.queue ++ xs
               pushed := sinceEmpty (s.queue ++ xs) (s.pushed + xs.length)
               accepted := s.accepted && (I.push s.impl xs).2 }
      else none
  | .pop n =>
      if n ≤ s.queue.length then
        some { s with impl := I.pop s.impl n
                      queue := s.queue.drop n
                      pushed := sinceEmpty (s.queue.drop n) s.pushed }
      else none

/-- Every push was accepted, and the buffer holds what the queue holds. -/
structure Agrees (I : QueueImpl σ α) (s : Beside σ α) : Prop where
  accepted : s.accepted = true
  contents : I.contents s.impl = s.queue

/-- The pushes meet a condition that may look at the queue. -/
def Guard (G : List α → List α → Prop) (s : Beside σ α) : Op α → Prop
  | .push xs => G s.queue xs
  | .pop _ => True

instance (G : List α → List α → Prop) [∀ q xs, Decidable (G q xs)] (s : Beside σ α) (op : Op α) :
    Decidable (Guard G s op) :=
  match op with
  | .push xs => inferInstanceAs (Decidable (G s.queue xs))
  | .pop _ => inferInstanceAs (Decidable True)

/-- `R` relates the states of the buffer to the queue and to the number pushed since it was empty, as
long as the pushes meet `G`. -/
structure Simulates (I : QueueImpl σ α) (G : List α → List α → Prop) (R : σ → List α → Nat → Prop) :
    Prop where
  contents : ∀ {s q k}, R s q k → I.contents s = q
  push : ∀ {s q k xs}, R s q k → G q xs → k + xs.length ≤ I.capacity →
    (I.push s xs).2 = true ∧ R (I.push s xs).1 (q ++ xs) (sinceEmpty (q ++ xs) (k + xs.length))
  pop : ∀ {s q k n}, R s q k → n ≤ q.length → R (I.pop s n) (q.drop n) (sinceEmpty (q.drop n) k)

namespace Simulates

variable {I : QueueImpl σ α} {G : List α → List α → Prop} {R : σ → List α → Nat → Prop}

/-- What one operation preserves. -/
theorem step (h : Simulates I G R) (s : Beside σ α) (op : Op α) (s' : Beside σ α)
    (hs : R s.impl s.queue s.pushed ∧ s.accepted = true) (hG : Guard G s op)
    (hstep : I.step s op = some s') : R s'.impl s'.queue s'.pushed ∧ s'.accepted = true := by
  obtain ⟨hR, haccepted⟩ := hs
  cases op with
  | push xs =>
      simp only [QueueImpl.step, Option.ite_none_right_eq_some, Option.some.injEq] at hstep
      obtain ⟨hfit, rfl⟩ := hstep
      obtain ⟨hok, hR'⟩ := h.push hR hG hfit
      exact ⟨hR', by simp only [haccepted, hok, Bool.and_self]⟩
  | pop n =>
      simp only [QueueImpl.step, Option.ite_none_right_eq_some, Option.some.injEq] at hstep
      obtain ⟨hn, rfl⟩ := hstep
      exact ⟨h.pop hR hn, haccepted⟩

/-- **The buffer is the queue**, after every run whose pushes meet the condition. -/
theorem agrees (h : Simulates I G R) {s : σ} (hs : R s [] 0) {ops : List (Op α)} {t : Beside σ α}
    (hG : Along I.step (Guard G) { impl := s } ops) (hrun : run I.step { impl := s } ops = some t) :
    I.Agrees t := by
  obtain ⟨hR, haccepted⟩ := run_invariant_along h.step ⟨hs, rfl⟩ hG hrun
  exact ⟨haccepted, h.contents hR⟩

/-- As `agrees`, where every push meets the condition. -/
theorem agrees_of_forall (h : Simulates I (fun _ _ => True) R) {s : σ} (hs : R s [] 0)
    {ops : List (Op α)} {t : Beside σ α} (hrun : run I.step { impl := s } ops = some t) :
    I.Agrees t := by
  refine h.agrees hs (Along.of_forall fun s op => ?_) hrun
  cases op <;> trivial

end Simulates

end QueueImpl

end Mmocraft.Lib
