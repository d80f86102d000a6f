/-
# Mmocraft.Lib.BufferedTask -- tasks that swap what was pushed for what is handled

A buffered task collects records in one or more channels.  Each channel has a live side, where pushes
arrive, and an output side, which belongs to the handler.  Scheduling the task exchanges the sides;
a run of the handler is given the output and ends with the output cleared.  `Lawful` says what the
operations have to do, and the rule of this module is that a lawful task delivers each accepted record
exactly once and in order, whatever is interleaved.
-/
import Mathlib.Logic.Function.Basic
import Mmocraft.Lib.Runs

namespace Mmocraft.Lib

universe u v w

/-- The operations of a buffered task with state `τ` and a channel of records for each `i : ι`. -/
structure BufferedTask (τ : Type u) (ι : Type v) (α : ι → Type w) where
  live : τ → (i : ι) → List (α i)
  output : τ → (i : ι) → List (α i)
  /-- No run of the task is due or in progress. -/
  idle : τ → Bool
  /-- A run of the task is due. -/
  queued : τ → Bool
  /-- Push a record; the flag says whether it was accepted. -/
  push : τ → (i : ι) → α i → τ × Bool
  ready : τ → Nat → Bool
  /-- Exchange the sides; the flag says whether the run could be queued. -/
  schedule : τ → Nat → Bool → τ
  /-- The end of a run. -/
  finish : τ → τ

namespace BufferedTask

variable {τ : Type u} {ι : Type v} {α : ι → Type w}

/-- The laws of a buffered task. A push appends to the input of one channel or changes nothing, a schedule
exchanges input and output, and the end of a run clears the output and nothing else. -/
structure Lawful [DecidableEq ι] (T : BufferedTask τ ι α) : Prop where
  push_accepted : ∀ t i a, (T.push t i a).2 = true →
    T.live (T.push t i a).1 = Function.update (T.live t) i (T.live t i ++ [a])
  push_refused : ∀ t i a, (T.push t i a).2 = false → (T.push t i a).1 = t
  push_output : ∀ t i a, T.output (T.push t i a).1 = T.output t
  push_idle : ∀ t i a, T.idle (T.push t i a).1 = T.idle t
  push_queued : ∀ t i a, T.queued (T.push t i a).1 = T.queued t
  idle_of_ready : ∀ t now, T.ready t now = true → T.idle t = true
  schedule_live : ∀ t now posted, T.live (T.schedule t now posted) = T.output t
  schedule_output : ∀ t now posted, T.output (T.schedule t now posted) = T.live t
  schedule_idle : ∀ t now posted, T.idle (T.schedule t now posted) = false
  finish_live : ∀ t, T.live (T.finish t) = T.live t
  finish_output : ∀ t i, T.output (T.finish t) i = []
  finish_queued : ∀ t, T.queued (T.finish t) = false

/-- A task in the course of a run, with what was pushed and what was given to its handler so far. -/
structure Delivery (τ : Type u) (ι : Type v) (α : ι → Type w) where
  task : τ
  /-- The handler is running. -/
  running : Bool := false
  handled : (i : ι) → List (α i) := fun _ => []
  pushed : (i : ι) → List (α i) := fun _ => []

/-- The events around a buffered task. -/
inductive Event (ι : Type v) (α : ι → Type w) where
  | push (i : ι) (a : α i)
  /-- Whether to schedule the task is decided at `now`, and it is scheduled at `later`. -/
  | schedule (now later : Nat) (posted : Bool)
  /-- The queued run begins: the handler is given the output. -/
  | start
  /-- The handler returns. -/
  | finish

variable [DecidableEq ι]

def step (T : BufferedTask τ ι α) (c : Delivery τ ι α) : Event ι α → Option (Delivery τ ι α)
  | .push i a =>
      let result := T.push c.task i a
      some { c with
        task := result.1
        pushed := if result.2 then Function.update c.pushed i (c.pushed i ++ [a]) else c.pushed }
  | .schedule now later posted =>
      some (if T.ready c.task now then { c with task := T.schedule c.task later posted } else c)
  | .start =>
      if T.queued c.task && !c.running then
        some { c with running := true, handled := fun i => c.handled i ++ T.output c.task i }
      else none
  | .finish => if c.running then some { c with task := T.finish c.task, running := false } else none

/-- The records of a channel that were not given to the handler yet. -/
def waiting (T : BufferedTask τ ι α) (c : Delivery τ ι α) (i : ι) : List (α i) :=
  (if c.running then [] else T.output c.task i) ++ T.live c.task i

/-- What was handled, followed by what waits, is what was pushed; a refused push changes nothing; and
no decision to schedule exchanges the sides while the handler runs. -/
structure DeliversOnce (T : BufferedTask τ ι α) (c : Delivery τ ι α) : Prop where
  delivered : ∀ i, c.handled i ++ T.waiting c i = c.pushed i
  refused : ∀ i a, (T.push c.task i a).2 = false → T.step c (.push i a) = some c
  undisturbed : c.running = true → ∀ now later posted,
    T.step c (.schedule now later posted) = some c

/-- The invariant: an idle task has handed over and cleared everything it took. What was pushed to a channel
is what was handled and what is waiting, in this order, at any time. -/
structure Invariant (T : BufferedTask τ ι α) (c : Delivery τ ι α) : Prop where
  delivered : ∀ i, c.handled i ++ T.waiting c i = c.pushed i
  output_of_idle : T.idle c.task = true → ∀ i, T.output c.task i = []
  not_running_of_idle : T.idle c.task = true → c.running = false
  not_queued_of_idle : T.idle c.task = true → T.queued c.task = false

/-- The handler takes over the output as a whole. -/
theorem Invariant.start {T : BufferedTask τ ι α} {c : Delivery τ ι α} (h : T.Invariant c) {c' : Delivery τ ι α}
    (hstep : T.step c .start = some c') : T.Invariant c' := by
  simp only [step] at hstep
  split_ifs at hstep with hguard
  obtain rfl := Option.some.inj hstep
  rw [Bool.and_eq_true, Bool.not_eq_true'] at hguard
  obtain ⟨hqueued, hrunning⟩ := hguard
  have hbusy : T.idle c.task ≠ true := fun hidle =>
    absurd (hqueued.symm.trans (h.not_queued_of_idle hidle)) (by decide)
  refine ⟨fun i => ?_, fun hidle => absurd hidle hbusy, fun hidle => absurd hidle hbusy,
    fun hidle => absurd hidle hbusy⟩
  have hi := h.delivered i
  rw [waiting, hrunning] at hi
  simpa [waiting, List.append_assoc] using hi

namespace Lawful

variable {T : BufferedTask τ ι α} (hT : T.Lawful)

include hT

theorem invariant_push {c : Delivery τ ι α} (h : T.Invariant c) (i : ι) (a : α i)
    {c' : Delivery τ ι α} (hstep : T.step c (.push i a) = some c') : T.Invariant c' := by
  obtain rfl := Option.some.inj hstep
  refine ⟨fun j => ?_, fun hidle j => ?_, fun hidle => ?_, fun hidle => ?_⟩
  · show c.handled j ++ ((if c.running then [] else T.output (T.push c.task i a).1 j) ++
      T.live (T.push c.task i a).1 j) = _
    rw [hT.push_output]
    cases haccepted : (T.push c.task i a).2 with
    | false =>
        rw [hT.push_refused _ _ _ haccepted]
        exact h.delivered j
    | true =>
        rw [hT.push_accepted _ _ _ haccepted]
        dsimp only
        rw [if_pos rfl]
        have hj := h.delivered j
        rw [waiting] at hj
        by_cases hji : j = i
        · subst hji
          rw [Function.update_self, Function.update_self, ← hj]
          simp only [List.append_assoc]
        · rw [Function.update_of_ne hji, Function.update_of_ne hji, hj]
  · rw [hT.push_output]
    exact h.output_of_idle (hT.push_idle c.task i a ▸ hidle) j
  · exact h.not_running_of_idle (hT.push_idle c.task i a ▸ hidle)
  · rw [hT.push_queued]
    exact h.not_queued_of_idle (hT.push_idle c.task i a ▸ hidle)

/-- Only an idle task is scheduled, so the output it gives up is empty. -/
theorem invariant_schedule {c : Delivery τ ι α} (h : T.Invariant c) (now later : Nat) (posted : Bool)
    {c' : Delivery τ ι α} (hstep : T.step c (.schedule now later posted) = some c') :
    T.Invariant c' := by
  obtain rfl := Option.some.inj hstep
  cases hready : T.ready c.task now with
  | false => exact h
  | true =>
      have hidle := hT.idle_of_ready _ _ hready
      have hbusy := hT.schedule_idle c.task later posted
      rw [if_pos rfl]
      refine ⟨fun i => ?_, fun h => ?_, fun h => ?_, fun h => ?_⟩
      · have hi := h.delivered i
        rw [waiting, h.not_running_of_idle hidle, h.output_of_idle hidle] at hi
        rw [waiting, h.not_running_of_idle hidle, hT.schedule_live, hT.schedule_output,
          h.output_of_idle hidle, List.append_nil]
        exact hi
      all_goals exact absurd (h.symm.trans hbusy) (by decide)

theorem invariant_finish {c : Delivery τ ι α} (h : T.Invariant c) {c' : Delivery τ ι α}
    (hstep : T.step c .finish = some c') : T.Invariant c' := by
  simp only [step] at hstep
  split_ifs at hstep with hrunning
  obtain rfl := Option.some.inj hstep
  refine ⟨fun i => ?_, fun _ i => hT.finish_output c.task i, fun _ => rfl,
    fun _ => hT.finish_queued c.task⟩
  have hi := h.delivered i
  rw [waiting, hrunning] at hi
  simpa [waiting, hT.finish_output, hT.finish_live] using hi

/-- The invariant survives a run. -/
theorem invariant_run {c c' : Delivery τ ι α} (h : T.Invariant c) {es : List (Event ι α)}
    (hrun : run T.step c es = some c') : T.Invariant c' := by
  refine run_invariant (P := T.Invariant) (fun c e c' h hstep => ?_) h hrun
  cases e with
  | push i a => exact hT.invariant_push h i a hstep
  | schedule now later posted => exact hT.invariant_schedule h now later posted hstep
  | start => exact h.start hstep
  | finish => exact hT.invariant_finish h hstep

/-- **Delivery.** After every run a lawful task that started empty has delivered each accepted record
exactly once and in order. -/
theorem deliversOnce {t : τ} (hlive : ∀ i, T.live t i = []) (houtput : ∀ i, T.output t i = [])
    (hqueued : T.queued t = false) {es : List (Event ι α)} {c : Delivery τ ι α}
    (hrun : run T.step { task := t } es = some c) : T.DeliversOnce c := by
  have hinit : T.Invariant ({ task := t } : Delivery τ ι α) :=
    ⟨fun i => by simp [waiting, hlive, houtput], fun _ => houtput, fun _ => rfl, fun _ => hqueued⟩
  have hinv := hT.invariant_run hinit hrun
  refine ⟨hinv.delivered, fun i a hrefused => ?_, fun hrunning now later posted => ?_⟩
  · rw [step, hT.push_refused _ _ _ hrefused, hrefused, if_neg Bool.false_ne_true]
  · have hbusy : T.ready c.task now ≠ true := fun hready =>
      absurd (hrunning.symm.trans (hinv.not_running_of_idle (hT.idle_of_ready _ _ hready))) (by decide)
    exact congrArg some (if_neg hbusy)

end Lawful

end BufferedTask

end Mmocraft.Lib
