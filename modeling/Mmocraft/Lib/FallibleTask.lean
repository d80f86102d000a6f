/-
# Mmocraft.Lib.FallibleTask -- buffered tasks whose runs can fail

A run of a buffered task can fail in two places: it is scheduled, but its completion cannot be queued; or
its handler is given the output and throws.  `Recovers` says what a task must be like in spite of that: it
is marked as processing exactly while a run is queued or in progress, what it took is handled or still
held, and an idle task has nothing left in its output.

A task that marks itself before the completion is queued, and takes the mark back at the end of a handler
that returns, recovers exactly as long as neither failure happens.  After the first one it is processing
for ever.  The rule is proved for a family of tasks that run side by side.
-/
import Mmocraft.Lib.BufferedTask

namespace Mmocraft.Lib

universe u v w

/-- A buffered task with the mark it is scheduled by, and the operation that takes its completion out of
the queue. -/
structure FallibleTask (τ : Type u) (ι : Type v) (α : ι → Type w) extends BufferedTask τ ι α where
  processing : τ → Bool
  dequeue : τ → τ

namespace FallibleTask

variable {τ : Type u} {ι : Type v} {α : ι → Type w}

/-- The laws of a fallible task. -/
structure Lawful [DecidableEq ι] (T : FallibleTask τ ι α) : Prop extends T.toBufferedTask.Lawful where
  processing_of_idle : ∀ t, T.idle t = true → T.processing t = false
  push_processing : ∀ t i a, T.processing (T.push t i a).1 = T.processing t
  schedule_processing : ∀ t now posted, T.processing (T.schedule t now posted) = true
  schedule_queued : ∀ t now posted, T.queued (T.schedule t now posted) = posted
  finish_processing : ∀ t, T.processing (T.finish t) = false
  dequeue_live : ∀ t, T.live (T.dequeue t) = T.live t
  dequeue_output : ∀ t, T.output (T.dequeue t) = T.output t
  dequeue_idle : ∀ t, T.idle (T.dequeue t) = T.idle t
  dequeue_processing : ∀ t, T.processing (T.dequeue t) = T.processing t
  dequeue_queued : ∀ t, T.queued (T.dequeue t) = false

/-- A task in the course of its runs, with what was pushed and what its handler returned from so far. -/
structure Execution (τ : Type u) (ι : Type v) (α : ι → Type w) where
  task : τ
  /-- The completion is being executed. -/
  running : Bool := false
  handled : (i : ι) → List (α i) := fun _ => []
  pushed : (i : ι) → List (α i) := fun _ => []

/-- The events around a fallible task. -/
inductive Event (ι : Type v) (α : ι → Type w) where
  | push (i : ι) (a : α i)
  /-- Whether to schedule the task is decided at `now`, and it is scheduled at `later`; `posted` says
  whether its completion gets into the queue. -/
  | visit (now later : Nat) (posted : Bool)
  /-- The queued completion is taken out, and the handler begins. -/
  | dequeue
  /-- The handler returns. -/
  | finish
  /-- The handler throws, and whoever called it goes on. -/
  | throw

/-- What no failure may take away. The first field is what a failure breaks: a mark without a run that would
take it back. -/
structure Recovers (T : FallibleTask τ ι α) (c : Execution τ ι α) : Prop where
  processing_iff : T.processing c.task = true ↔ T.queued c.task = true ∨ c.running = true
  held : ∀ i, c.handled i ++ T.output c.task i ++ T.live c.task i = c.pushed i
  output_of_idle : T.idle c.task = true → ∀ i, T.output c.task i = []

/-- The task is marked, and no run of it will take the mark back. It is not ready, because it is marked, and
nothing else changes the mark. -/
structure Disabled (T : FallibleTask τ ι α) (c : Execution τ ι α) : Prop where
  processing : T.processing c.task = true
  not_queued : T.queued c.task = false
  not_running : c.running = false

theorem Disabled.not_recovers {T : FallibleTask τ ι α} {c : Execution τ ι α} (h : T.Disabled c) :
    ¬ T.Recovers c := by
  intro hrecovers
  rcases hrecovers.processing_iff.mp h.processing with hq | hr
  · exact absurd (hq.symm.trans h.not_queued) (by decide)
  · exact absurd (hr.symm.trans h.not_running) (by decide)

variable [DecidableEq ι]

def step (T : FallibleTask τ ι α) (c : Execution τ ι α) : Event ι α → Option (Execution τ ι α)
  | .push i a =>
      let result := T.push c.task i a
      some { c with
        task := result.1
        pushed := if result.2 then Function.update c.pushed i (c.pushed i ++ [a]) else c.pushed }
  | .visit now later posted =>
      some (if T.ready c.task now then { c with task := T.schedule c.task later posted } else c)
  | .dequeue =>
      if T.queued c.task && !c.running then some { c with task := T.dequeue c.task, running := true }
      else none
  | .finish =>
      if c.running then
        some { c with
          task := T.finish c.task
          running := false
          handled := fun i => c.handled i ++ T.output c.task i }
      else none
  | .throw => if c.running then some { c with running := false } else none

/-- The event is no failure. -/
def NoFailure (T : FallibleTask τ ι α) (c : Execution τ ι α) : Event ι α → Prop
  | .visit now _ posted => T.ready c.task now = true → posted = true
  | .throw => False
  | _ => True

/-- The task recovers, and is not queued while it runs. -/
structure Invariant (T : FallibleTask τ ι α) (c : Execution τ ι α) : Prop extends T.Recovers c where
  not_queued_of_running : c.running = true → T.queued c.task = false

namespace Lawful

variable {T : FallibleTask τ ι α} (hT : T.Lawful)

include hT

/-- An idle task is neither queued nor running. -/
theorem unused_of_idle {c : Execution τ ι α} (h : T.Invariant c) (hidle : T.idle c.task = true) :
    T.queued c.task = false ∧ c.running = false := by
  have hprocessing : ¬ (T.queued c.task = true ∨ c.running = true) := by
    rw [← h.processing_iff, hT.processing_of_idle _ hidle]
    exact Bool.false_ne_true
  exact ⟨Bool.eq_false_iff.mpr fun hq => hprocessing (.inl hq),
    Bool.eq_false_iff.mpr fun hr => hprocessing (.inr hr)⟩

theorem invariant_push {c : Execution τ ι α} (h : T.Invariant c) (i : ι) (a : α i)
    {c' : Execution τ ι α} (hstep : T.step c (.push i a) = some c') : T.Invariant c' := by
  obtain rfl := Option.some.inj hstep
  refine ⟨⟨?_, fun j => ?_, fun hidle j => ?_⟩, fun hrunning => ?_⟩
  · show T.processing (T.push c.task i a).1 = true ↔ T.queued (T.push c.task i a).1 = true ∨ _
    rw [hT.push_processing, hT.push_queued]
    exact h.processing_iff
  · show c.handled j ++ T.output (T.push c.task i a).1 j ++ T.live (T.push c.task i a).1 j = _
    rw [hT.push_output]
    cases haccepted : (T.push c.task i a).2 with
    | false =>
        rw [hT.push_refused _ _ _ haccepted]
        exact h.held j
    | true =>
        rw [hT.push_accepted _ _ _ haccepted]
        dsimp only
        rw [if_pos rfl]
        by_cases hji : j = i
        · subst hji
          rw [Function.update_self, Function.update_self, ← List.append_assoc, h.held]
        · rw [Function.update_of_ne hji, Function.update_of_ne hji, h.held]
  · show T.output (T.push c.task i a).1 j = []
    rw [hT.push_output]
    exact h.output_of_idle (hT.push_idle c.task i a ▸ hidle) j
  · show T.queued (T.push c.task i a).1 = false
    rw [hT.push_queued]
    exact h.not_queued_of_running hrunning

/-- A visit that schedules the task finds it idle, with an empty output. -/
theorem invariant_visit {c : Execution τ ι α} (h : T.Invariant c) {now later : Nat} {posted : Bool}
    (hposted : T.ready c.task now = true → posted = true) {c' : Execution τ ι α}
    (hstep : T.step c (.visit now later posted) = some c') : T.Invariant c' := by
  obtain rfl := Option.some.inj hstep
  cases hready : T.ready c.task now with
  | false => exact h
  | true =>
      obtain rfl := hposted hready
      have hidle := hT.idle_of_ready _ _ hready
      obtain ⟨-, hrunning⟩ := hT.unused_of_idle h hidle
      rw [if_pos rfl]
      refine ⟨⟨?_, fun i => ?_, fun hbusy => ?_⟩, fun hr => ?_⟩
      · exact iff_of_true (hT.schedule_processing ..) (.inl (hT.schedule_queued ..))
      · show c.handled i ++ T.output (T.schedule c.task later true) i ++
          T.live (T.schedule c.task later true) i = c.pushed i
        have hi := h.held i
        rw [h.output_of_idle hidle, List.append_nil] at hi
        rw [hT.schedule_live, hT.schedule_output, h.output_of_idle hidle, List.append_nil, hi]
      · exact absurd (hbusy.symm.trans (hT.schedule_idle ..)) (by decide)
      · exact absurd (hr.symm.trans hrunning) (by decide)

theorem invariant_dequeue {c : Execution τ ι α} (h : T.Invariant c) {c' : Execution τ ι α}
    (hstep : T.step c .dequeue = some c') : T.Invariant c' := by
  simp only [step] at hstep
  split_ifs at hstep with hguard
  obtain rfl := Option.some.inj hstep
  rw [Bool.and_eq_true] at hguard
  have hprocessing : T.processing c.task = true := h.processing_iff.mpr (.inl hguard.1)
  refine ⟨⟨?_, fun i => ?_, fun hidle i => ?_⟩, fun _ => hT.dequeue_queued c.task⟩
  · exact iff_of_true ((hT.dequeue_processing c.task).trans hprocessing) (.inr rfl)
  · show c.handled i ++ T.output (T.dequeue c.task) i ++ T.live (T.dequeue c.task) i = c.pushed i
    rw [hT.dequeue_output, hT.dequeue_live]
    exact h.held i
  · show T.output (T.dequeue c.task) i = []
    rw [hT.dequeue_output]
    exact h.output_of_idle ((hT.dequeue_idle c.task).symm.trans hidle) i

/-- The end of a run hands the output over and clears it. -/
theorem invariant_finish {c : Execution τ ι α} (h : T.Invariant c) {c' : Execution τ ι α}
    (hstep : T.step c .finish = some c') : T.Invariant c' := by
  simp only [step] at hstep
  split_ifs at hstep
  obtain rfl := Option.some.inj hstep
  refine ⟨⟨?_, fun i => ?_, fun _ i => hT.finish_output c.task i⟩, fun hrunning => nomatch hrunning⟩
  · show T.processing (T.finish c.task) = true ↔ T.queued (T.finish c.task) = true ∨ false = true
    rw [hT.finish_processing, hT.finish_queued]
    simp
  · show c.handled i ++ T.output c.task i ++ T.output (T.finish c.task) i ++ T.live (T.finish c.task) i =
      c.pushed i
    rw [hT.finish_output, hT.finish_live, List.append_nil]
    exact h.held i

/-- Events that are no failures keep the invariant. -/
theorem invariant_step {c c' : Execution τ ι α} {e : Event ι α} (h : T.Invariant c) (he : T.NoFailure c e)
    (hstep : T.step c e = some c') : T.Invariant c' := by
  cases e with
  | push i a => exact hT.invariant_push h i a hstep
  | visit now later posted => exact hT.invariant_visit h he hstep
  | dequeue => exact hT.invariant_dequeue h hstep
  | finish => exact hT.invariant_finish h hstep
  | throw => exact he.elim

/-- **A failure disables the task.** -/
theorem disabled_of_failure {c c' : Execution τ ι α} {e : Event ι α} (h : T.Invariant c)
    (he : ¬ T.NoFailure c e) (hstep : T.step c e = some c') : T.Disabled c' := by
  cases e with
  | push i a => exact absurd trivial he
  | dequeue => exact absurd trivial he
  | finish => exact absurd trivial he
  | visit now later posted =>
      -- the task was ready, and its completion did not get into the queue
      obtain ⟨hready, hposted⟩ : T.ready c.task now = true ∧ ¬ posted = true := by
        simpa [NoFailure] using he
      obtain rfl := Bool.eq_false_iff.mpr hposted
      obtain rfl := Option.some.inj hstep
      obtain ⟨-, hrunning⟩ := hT.unused_of_idle h (hT.idle_of_ready _ _ hready)
      rw [if_pos hready]
      exact ⟨hT.schedule_processing .., hT.schedule_queued .., hrunning⟩
  | throw =>
      simp only [step] at hstep
      split_ifs at hstep with hrunning
      obtain rfl := Option.some.inj hstep
      exact ⟨h.processing_iff.mpr (.inr hrunning), h.not_queued_of_running hrunning, rfl⟩

/-- **A disabled task stays disabled**, and its handler is never called again. -/
theorem disabled_step {c c' : Execution τ ι α} {e : Event ι α} (h : T.Disabled c)
    (hstep : T.step c e = some c') : T.Disabled c' ∧ c'.handled = c.handled := by
  cases e with
  | push i a =>
      obtain rfl := Option.some.inj hstep
      exact ⟨⟨(hT.push_processing ..).trans h.processing, (hT.push_queued ..).trans h.not_queued,
        h.not_running⟩, rfl⟩
  | visit now later posted =>
      obtain rfl := Option.some.inj hstep
      have hready : ¬ T.ready c.task now = true := fun hready =>
        absurd (h.processing.symm.trans (hT.processing_of_idle _ (hT.idle_of_ready _ _ hready)))
          (by decide)
      rw [if_neg hready]
      exact ⟨h, rfl⟩
  | dequeue =>
      simp only [step, h.not_queued, Bool.false_and] at hstep
      exact nomatch hstep
  | finish =>
      simp only [step, h.not_running] at hstep
      exact nomatch hstep
  | throw =>
      simp only [step, h.not_running] at hstep
      exact nomatch hstep

end Lawful

/-! ## Tasks side by side -/

section Family

variable {κ : Type u} [DecidableEq κ] {τ : κ → Type v} {ι : κ → Type w} {α : (k : κ) → ι k → Type w}
  [(k : κ) → DecidableEq (ι k)] (T : (k : κ) → FallibleTask (τ k) (ι k) (α k))

/-- An event of one of the tasks. -/
def stepEach (s : (k : κ) → Execution (τ k) (ι k) (α k)) (e : (k : κ) × Event (ι k) (α k)) :
    Option ((k : κ) → Execution (τ k) (ι k) (α k)) :=
  ((T e.1).step (s e.1) e.2).map (Function.update s e.1)

/-- Every task recovers. -/
def AllRecover (s : (k : κ) → Execution (τ k) (ι k) (α k)) : Prop := ∀ k, (T k).Recovers (s k)

omit [DecidableEq κ] [(k : κ) → DecidableEq (ι k)] in
variable {T} in
theorem not_allRecover {s : (k : κ) → Execution (τ k) (ι k) (α k)} {k : κ} (h : (T k).Disabled (s k)) :
    ¬ AllRecover T s := fun hall => h.not_recovers (hall k)

/-- The event is no failure of its task. -/
def NoFailureOf (s : (k : κ) → Execution (τ k) (ι k) (α k)) (e : (k : κ) × Event (ι k) (α k)) : Prop :=
  (T e.1).NoFailure (s e.1) e.2

variable {T}

/-- **Recovery.**  In every state of a run all tasks recover, exactly if no event of the run is a
failure. -/
theorem eachState_recovers_iff (hT : ∀ k, (T k).Lawful) {t : (k : κ) → τ k}
    (hlive : ∀ k i, (T k).live (t k) i = []) (houtput : ∀ k i, (T k).output (t k) i = [])
    (hqueued : ∀ k, (T k).queued (t k) = false) (hprocessing : ∀ k, (T k).processing (t k) = false)
    {es : List ((k : κ) × Event (ι k) (α k))} {s : (k : κ) → Execution (τ k) (ι k) (α k)}
    (hrun : run (stepEach T) (fun k => { task := t k }) es = some s) :
    EachState (stepEach T) (AllRecover T) (fun k => { task := t k }) es ↔
      Along (stepEach T) (NoFailureOf T) (fun k => { task := t k }) es := by
  have hinit : ∀ k, (T k).Invariant { task := t k } := by
    intro k
    refine ⟨⟨?_, fun i => ?_, fun _ => houtput k⟩, fun hrunning => nomatch hrunning⟩
    · rw [hprocessing, hqueued]
      simp
    · rw [hlive, houtput]
      rfl
  refine eachState_iff_along (P := fun s => ∀ k, (T k).Invariant (s k)) ?_ ?_ ?_ hinit hrun
  · intro s e s' hs he hstep j
    obtain ⟨c, hc, rfl⟩ := Option.map_eq_some_iff.mp hstep
    by_cases hj : j = e.1
    · subst hj
      rw [Function.update_self]
      exact (hT e.1).invariant_step (hs e.1) he hc
    · rw [Function.update_of_ne hj]
      exact hs j
  · exact fun s hs k => (hs k).toRecovers
  · intro s e s' hs he hstep hall
    obtain ⟨c, hc, rfl⟩ := Option.map_eq_some_iff.mp hstep
    have hdisabled := (hT e.1).disabled_of_failure (hs e.1) he hc
    rw [← Function.update_self e.1 c s] at hdisabled
    exact not_allRecover hdisabled hall

/-- **No recovery.**  Whatever happens to the tasks, one that is disabled stays so, and its handler is given
nothing any more. -/
theorem disabled_of_run (hT : ∀ k, (T k).Lawful) {s t : (k : κ) → Execution (τ k) (ι k) (α k)} {k : κ}
    (h : (T k).Disabled (s k)) {es : List ((k : κ) × Event (ι k) (α k))}
    (hrun : run (stepEach T) s es = some t) :
    (T k).Disabled (t k) ∧ (t k).handled = (s k).handled := by
  refine run_invariant (P := fun u => (T k).Disabled (u k) ∧ (u k).handled = (s k).handled) ?_ ⟨h, rfl⟩ hrun
  rintro u e u' ⟨hu, hhandled⟩ hstep
  obtain ⟨c, hc, rfl⟩ := Option.map_eq_some_iff.mp hstep
  by_cases hk : k = e.1
  · subst hk
    obtain ⟨hdisabled, hsame⟩ := (hT e.1).disabled_step hu hc
    rw [Function.update_self]
    exact ⟨hdisabled, hsame.trans hhandled⟩
  · rw [Function.update_of_ne hk]
    exact ⟨hu, hhandled⟩

end Family

end FallibleTask

end Mmocraft.Lib
