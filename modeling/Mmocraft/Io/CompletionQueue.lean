/-
# Mmocraft.Io.CompletionQueue -- event threads that share one completion queue

`RegisteredIO` has one RIO completion queue, one completion port and any number of event threads in
`run_event_loop_forever`.  RIO puts the completion of a request on the queue, and `RIONotify` arms the
queue for one notification: an entry of the port, whose thread takes the completions off the queue, calls
`RIONotify` again and hands each completion to its event.  The threads interleave at these calls.

There is one token: the queue is armed, or one notification is on its way to a thread, or one thread is
about to call `RIONotify`.  So no two threads are ever at the calls of the completion queue, which RIO does
not synchronize, no completion is left without a notification, and threads that are left alone hand on every
completion exactly once, except those behind one whose handler throws.

Requests and events are types of their own here, so that the loop can be read apart from what it serves. The
three parts are independent: `OneToken` is about who may call, `Accounted` about where each completion is, and
`work` is a measure that every step of a thread lowers. `handled_once` puts them together: threads left alone
come to rest, and at rest the token can only be in the queue and the completions only with their events, or
behind an exception.
-/
import Mathlib.Data.List.Perm.Basic
import Mmocraft.Lib.Places
import Mmocraft.Lib.Runs

namespace Mmocraft.Io

open Mmocraft.Lib

universe u v

variable {ρ : Type u} {ε : Type v}

/-- `max_dequeuing_io_event_results`. -/
def maxDequeuingIoEventResults : Nat := 128

/-- `max_dequeuing_rio_event_results`. -/
def maxDequeuingRioEventResults : Nat := 512

/-! ## The state

A thread is described by what it still has to do: the entries of the port that it took, the call of
`RIONotify` that it owes, and the results that it took and has not handed on. Its place in the code follows
from these.
-/

/-- An `OVERLAPPED_ENTRY`, by the event it points to: the notification (`RioEvent`), or the event of a
task, an accept or a connect. -/
inductive PortEntry (ε : Type v) where
  | rioEvent
  | event (e : ε)
  deriving DecidableEq, Repr

namespace PortEntry

def isRioEvent : PortEntry ε → Bool
  | rioEvent => true
  | event _ => false

def event? : PortEntry ε → Option ε
  | rioEvent => none
  | event e => some e

end PortEntry

/-- The notifications among some entries. -/
def notifications (entries : List (PortEntry ε)) : Nat := entries.countP PortEntry.isRioEvent

@[simp] theorem notifications_nil : notifications ([] : List (PortEntry ε)) = 0 := rfl

@[simp] theorem notifications_append (es fs : List (PortEntry ε)) :
    notifications (es ++ fs) = notifications es + notifications fs := List.countP_append

@[simp] theorem notifications_rioEvent (es : List (PortEntry ε)) :
    notifications (.rioEvent :: es) = notifications es + 1 := List.countP_cons_of_pos rfl

@[simp] theorem notifications_event (e : ε) (es : List (PortEntry ε)) :
    notifications (.event e :: es) = notifications es := List.countP_cons_of_neg Bool.false_ne_true

theorem notifications_take_add_drop (n : Nat) (es : List (PortEntry ε)) :
    notifications (es.take n) + notifications (es.drop n) = notifications es := by
  rw [← notifications_append, List.take_append_drop]

/-- A thread in `run_event_loop_forever`: what is left of its `event_results`, and of the
`RioEvent::on_event_complete` it is in, whether `notify_completion` is still to be called and the results
still to be handed on. -/
structure EventThread (ρ : Type u) (ε : Type v) where
  entries : List (PortEntry ε) := []
  notifying : Bool := false
  results : List ρ := []
  deriving DecidableEq, Repr

/-- `RegisteredIO` with its queue, its port and its threads.  Histories: the requests that completed, the
results that were handed on and those that an exception left behind, and the other events that were posted
and that were completed. -/
structure CompletionLoop (ρ : Type u) (ε : Type v) where
  completions : List ρ := []
  armed : Bool := false
  entries : List (PortEntry ε) := []
  threads : List (EventThread ρ ε) := []
  completed : List ρ := []
  dispatched : List ρ := []
  dropped : List ρ := []
  posted : List ε := []
  executed : List ε := []
  deriving DecidableEq, Repr

namespace EventThread

/-- Back at `dequeue_event_results`. -/
def idle (t : EventThread ρ ε) : Bool := t.entries.isEmpty && !t.notifying && t.results.isEmpty

/-- The next call is `dequeue_rio_event_result`. -/
def dequeuing (t : EventThread ρ ε) : Bool :=
  !t.notifying && t.results.isEmpty && (t.entries.head?.any PortEntry.isRioEvent)

/-- The next call is one of `RIODequeueCompletion` and `RIONotify`. -/
def atRioCall (t : EventThread ρ ε) : Bool := t.notifying || t.dequeuing

theorem idle_iff {t : EventThread ρ ε} :
    t.idle = true ↔ t.entries = [] ∧ t.notifying = false ∧ t.results = [] := by
  simp [idle, and_assoc]

theorem dequeuing_iff {t : EventThread ρ ε} :
    t.dequeuing = true ↔ t.notifying = false ∧ t.results = [] ∧ ∃ rest, t.entries = .rioEvent :: rest := by
  obtain ⟨entries, notifying, results⟩ := t
  cases entries with
  | nil => simp [dequeuing]
  | cons entry entries => cases entry <;> simp [dequeuing, PortEntry.isRioEvent]

/-- The notifications the thread has taken. -/
def notified (t : EventThread ρ ε) : Nat := notifications t.entries

/-- The call of `RIONotify` the thread owes. -/
def owed (t : EventThread ρ ε) : Nat := t.notifying.toNat

/-- A thread at a call of the queue holds a token. -/
theorem token_of_atRioCall {t : EventThread ρ ε} (h : t.atRioCall = true) : 0 < t.notified + t.owed := by
  rw [atRioCall, Bool.or_eq_true] at h
  obtain h | h := h
  · rw [owed, h, Bool.toNat_true]
    omega
  · obtain ⟨-, -, rest, hrest⟩ := dequeuing_iff.mp h
    rw [notified, hrest, notifications_rioEvent]
    omega

end EventThread

namespace CompletionLoop

/-! ## The calls

Each call is one step, possible for a thread whose place it is. How many entries or completions a call takes
is left open, up to the size of the array that the source gives it.
-/

/-- `RIONotify`.  It fails on a queue that is armed, notifies at once of a queue that is not empty, and
arms one that is. -/
def rioNotify (s : CompletionLoop ρ ε) : CompletionLoop ρ ε :=
  if s.armed then s
  else if s.completions.isEmpty then { s with armed := true }
  else { s with entries := s.entries ++ [.rioEvent] }

/-- The constructor: an empty queue that is armed, and no thread. -/
def new : CompletionLoop ρ ε := rioNotify {}

/-- RIO completes a request. -/
def complete (s : CompletionLoop ρ ε) (r : ρ) : CompletionLoop ρ ε :=
  { s with
    completions := s.completions ++ [r]
    completed := s.completed ++ [r]
    armed := false
    entries := if s.armed then s.entries ++ [.rioEvent] else s.entries }

/-- `schedule_task`, or an accept or a connect that completes. -/
def post (s : CompletionLoop ρ ε) (e : ε) : CompletionLoop ρ ε :=
  { s with entries := s.entries ++ [.event e], posted := s.posted ++ [e] }

/-- `spawn_event_thread`. -/
def spawnEventThread (s : CompletionLoop ρ ε) : CompletionLoop ρ ε :=
  { s with threads := s.threads ++ [{}] }

/-- `dequeue_event_results`, which returns with `n` entries of the port. -/
def dequeueEventResults (s : CompletionLoop ρ ε) (k n : Nat) : Option (CompletionLoop ρ ε) :=
  (s.threads[k]?).bind fun t =>
    if t.idle ∧ 0 < n ∧ n ≤ maxDequeuingIoEventResults ∧ n ≤ s.entries.length then
      some { s with
        entries := s.entries.drop n
        threads := s.threads.set k { t with entries := s.entries.take n } }
    else none

/-- `dequeue_rio_event_result`, which returns with `n` completions: with none only of an empty queue.
`on_event_complete` returns early then, and does not call `notify_completion`. -/
def dequeueRioEventResult (s : CompletionLoop ρ ε) (k n : Nat) : Option (CompletionLoop ρ ε) :=
  (s.threads[k]?).bind fun t =>
    if t.dequeuing ∧ n ≤ maxDequeuingRioEventResults ∧ n ≤ s.completions.length ∧
        (n = 0 → s.completions = []) then
      some { s with
        completions := s.completions.drop n
        threads := s.threads.set k
          { entries := t.entries.tail, notifying := decide (0 < n), results := s.completions.take n } }
    else none

/-- `notify_completion`. -/
def notifyCompletion (s : CompletionLoop ρ ε) (k : Nat) : Option (CompletionLoop ρ ε) :=
  (s.threads[k]?).bind fun t =>
    if t.notifying then
      some { s.rioNotify with threads := s.threads.set k { t with notifying := false } }
    else none

/-- `io_event->on_event_complete` for the next result.  An exception leaves the loop over the results. -/
def dispatch (s : CompletionLoop ρ ε) (k : Nat) (throws : Bool) : Option (CompletionLoop ρ ε) :=
  (s.threads[k]?).bind fun t =>
    match t.notifying, t.results with
    | false, r :: results =>
        some { s with
          dispatched := s.dispatched ++ [r]
          dropped := if throws then s.dropped ++ results else s.dropped
          threads := s.threads.set k { t with results := if throws then [] else results } }
    | _, _ => none

/-- `event->on_event_complete` for an entry that is no notification.  An exception is caught in the loop
over the entries. -/
def execute (s : CompletionLoop ρ ε) (k : Nat) : Option (CompletionLoop ρ ε) :=
  (s.threads[k]?).bind fun t =>
    match t.notifying, t.results, t.entries with
    | false, [], .event e :: entries =>
        some { s with
          executed := s.executed ++ [e]
          threads := s.threads.set k { t with entries := entries } }
    | _, _, _ => none

/-! ## Runs -/

/-- What can happen next. -/
inductive LoopEvent (ρ : Type u) (ε : Type v) where
  | complete (r : ρ)
  | post (e : ε)
  | spawnEventThread
  | dequeueEventResults (k n : Nat)
  | dequeueRioEventResult (k n : Nat)
  | notifyCompletion (k : Nat)
  | dispatch (k : Nat) (throws : Bool)
  | execute (k : Nat)
  deriving DecidableEq, Repr

/-- A step of an event thread. -/
def LoopEvent.ofThread : LoopEvent ρ ε → Bool
  | complete _ | post _ | spawnEventThread => false
  | dequeueEventResults _ _ | dequeueRioEventResult _ _ | notifyCompletion _ | dispatch _ _ | execute _ =>
      true

/-- The handler of a result throws. -/
def LoopEvent.throws : LoopEvent ρ ε → Bool
  | dispatch _ throws => throws
  | _ => false

def step (s : CompletionLoop ρ ε) : LoopEvent ρ ε → Option (CompletionLoop ρ ε)
  | .complete r => some (s.complete r)
  | .post e => some (s.post e)
  | .spawnEventThread => some s.spawnEventThread
  | .dequeueEventResults k n => s.dequeueEventResults k n
  | .dequeueRioEventResult k n => s.dequeueRioEventResult k n
  | .notifyCompletion k => s.notifyCompletion k
  | .dispatch k throws => s.dispatch k throws
  | .execute k => s.execute k

variable {s s' t : CompletionLoop ρ ε} {k n : Nat}

/-! ## What each call does

For each call, when it is possible and what it leaves; the proofs below use these and do not unfold the
calls.
-/

/-- A thread without work takes entries of the port. -/
theorem dequeueEventResults_some (h : s.dequeueEventResults k n = some s') :
    ∃ t, s.threads[k]? = some t ∧ t.entries = [] ∧ t.notifying = false ∧ t.results = [] ∧ 0 < n ∧
      n ≤ s.entries.length ∧
      s' = { s with
        entries := s.entries.drop n
        threads := s.threads.set k { t with entries := s.entries.take n } } := by
  obtain ⟨t, ht, hthen⟩ := Option.bind_eq_some_iff.mp h
  split_ifs at hthen with hif
  obtain ⟨hidle, hpos, -, hle⟩ := hif
  simp only [EventThread.idle, Bool.and_eq_true, List.isEmpty_iff, Bool.not_eq_eq_eq_not, Bool.not_true]
    at hidle
  exact ⟨t, ht, hidle.1.1, hidle.1.2, hidle.2, hpos, hle, (Option.some.inj hthen).symm⟩

/-- A notified thread takes completions of the queue. -/
theorem dequeueRioEventResult_some (h : s.dequeueRioEventResult k n = some s') :
    ∃ t rest, s.threads[k]? = some t ∧ t.dequeuing = true ∧ t.notifying = false ∧ t.results = [] ∧
      t.entries = .rioEvent :: rest ∧ n ≤ s.completions.length ∧ (n = 0 → s.completions = []) ∧
      s' = { s with
        completions := s.completions.drop n
        threads := s.threads.set k
          { entries := rest, notifying := decide (0 < n), results := s.completions.take n } } := by
  obtain ⟨t, ht, hthen⟩ := Option.bind_eq_some_iff.mp h
  split_ifs at hthen with hif
  obtain ⟨hdequeuing, -, hle, hempty⟩ := hif
  obtain ⟨hnotifying, hresults, rest, hentries⟩ := EventThread.dequeuing_iff.mp hdequeuing
  rw [hentries, List.tail_cons] at hthen
  exact ⟨t, rest, ht, hdequeuing, hnotifying, hresults, hentries, hle, hempty,
    (Option.some.inj hthen).symm⟩

/-- Then it calls `RIONotify`. -/
theorem notifyCompletion_some (h : s.notifyCompletion k = some s') :
    ∃ t, s.threads[k]? = some t ∧ t.notifying = true ∧
      s' = { s.rioNotify with threads := s.threads.set k { t with notifying := false } } := by
  obtain ⟨t, ht, hthen⟩ := Option.bind_eq_some_iff.mp h
  split_ifs at hthen with hif
  exact ⟨t, ht, hif, (Option.some.inj hthen).symm⟩

/-- A completion is handed to its event, whose handler may throw. -/
theorem dispatch_some {throws : Bool} (h : s.dispatch k throws = some s') :
    ∃ t r results, s.threads[k]? = some t ∧ t.notifying = false ∧ t.results = r :: results ∧
      s' = { s with
        dispatched := s.dispatched ++ [r]
        dropped := if throws then s.dropped ++ results else s.dropped
        threads := s.threads.set k { t with results := if throws then [] else results } } := by
  obtain ⟨t, ht, hthen⟩ := Option.bind_eq_some_iff.mp h
  obtain ⟨entries, notifying, results⟩ := t
  cases notifying with
  | true => exact absurd hthen (by simp)
  | false =>
      cases results with
      | nil => exact absurd hthen (by simp)
      | cons r results => exact ⟨_, r, results, ht, rfl, rfl, (Option.some.inj hthen).symm⟩

/-- A posted event is executed. -/
theorem execute_some (h : s.execute k = some s') :
    ∃ t e entries, s.threads[k]? = some t ∧ t.notifying = false ∧ t.results = [] ∧
      t.entries = .event e :: entries ∧
      s' = { s with
        executed := s.executed ++ [e]
        threads := s.threads.set k { t with entries := entries } } := by
  obtain ⟨t, ht, hthen⟩ := Option.bind_eq_some_iff.mp h
  obtain ⟨entries, notifying, results⟩ := t
  cases notifying with
  | true => exact absurd hthen (by simp)
  | false =>
      cases results with
      | cons r results => exact absurd hthen (by simp)
      | nil =>
          cases entries with
          | nil => exact absurd hthen (by simp)
          | cons entry entries =>
              cases entry with
              | rioEvent => exact absurd hthen (by simp)
              | event e => exact ⟨_, e, entries, ht, rfl, rfl, rfl, (Option.some.inj hthen).symm⟩

/-! `RIONotify` changes nothing but the flag and the port. -/

theorem rioNotify_eq (s : CompletionLoop ρ ε) :
    ∃ armed entries, s.rioNotify = { s with armed := armed, entries := entries } ∧
      (entries = s.entries ∨ entries = s.entries ++ [.rioEvent]) := by
  rw [rioNotify]
  split_ifs
  · exact ⟨s.armed, s.entries, rfl, .inl rfl⟩
  · exact ⟨true, s.entries, rfl, .inl rfl⟩
  · exact ⟨s.armed, s.entries ++ [.rioEvent], rfl, .inr rfl⟩

/-! ## The token

The token is counted over the queue, the port and the threads. That the count is one is all that is needed
for exclusion; that an armed queue is empty is needed for what the calls find.
-/

/-- Everything that stands for a notification that is due or on its way. -/
def tokens (s : CompletionLoop ρ ε) : Nat :=
  s.armed.toNat + notifications s.entries + held EventThread.notified s.threads +
    held EventThread.owed s.threads

/-- There is one token.  An armed queue is empty, and one of which a notification is on its way is not. -/
structure OneToken (s : CompletionLoop ρ ε) : Prop where
  one : s.tokens = 1
  armed : s.armed = true → s.completions = []
  notified : s.completions = [] →
    notifications s.entries = 0 ∧ held EventThread.notified s.threads = 0

theorem oneToken_new : OneToken (new : CompletionLoop ρ ε) :=
  ⟨rfl, fun _ => rfl, fun _ => ⟨rfl, rfl⟩⟩

/-- A completion uses up the armed queue, and makes a notification of it. -/
theorem OneToken.complete (h : OneToken s) (r : ρ) : OneToken (s.complete r) := by
  have hone := h.one
  refine ⟨?_, fun harmed => absurd harmed Bool.false_ne_true, fun hempty => ?_⟩
  · simp only [tokens, CompletionLoop.complete] at hone ⊢
    cases harmed : s.armed <;> simp [harmed] at hone ⊢ <;> omega
  · exact absurd hempty (by simp [CompletionLoop.complete])

theorem OneToken.post (h : OneToken s) (e : ε) : OneToken (s.post e) := by
  refine ⟨?_, h.armed, fun hempty => ?_⟩
  · have hone := h.one
    simpa [tokens, CompletionLoop.post] using hone
  · simpa [CompletionLoop.post] using h.notified hempty

theorem OneToken.spawnEventThread (h : OneToken s) : OneToken s.spawnEventThread := by
  have hnotified := held_concat (f := EventThread.notified) ({} : EventThread ρ ε) s.threads
  have howed := held_concat (f := EventThread.owed) ({} : EventThread ρ ε) s.threads
  refine ⟨?_, h.armed, fun hempty => ?_⟩
  · rw [← h.one, tokens, tokens, CompletionLoop.spawnEventThread, hnotified, howed]
    rfl
  · rw [CompletionLoop.spawnEventThread, hnotified]
    exact h.notified hempty

theorem OneToken.dequeueEventResults (h : OneToken s) (hcall : s.dequeueEventResults k n = some s') :
    OneToken s' := by
  obtain ⟨t, ht, hentries, hnotifying, hresults, -, -, rfl⟩ := dequeueEventResults_some hcall
  have hnotified := held_set (f := EventThread.notified) ht { t with entries := s.entries.take n }
  have howed : held EventThread.owed (s.threads.set k { t with entries := s.entries.take n }) =
      held EventThread.owed s.threads := held_set_eq ht rfl
  have hsplit := notifications_take_add_drop n s.entries
  simp only [EventThread.notified, hentries, notifications_nil] at hnotified
  have hone := h.one
  refine ⟨?_, h.armed, fun hempty => ?_⟩
  · simp only [tokens] at hone ⊢
    omega
  · have := h.notified hempty
    simp only
    omega

/-- A thread that is about to call `RIODequeueCompletion` finds completions. -/
theorem OneToken.completions_ne_nil (h : OneToken s) {t : EventThread ρ ε} (ht : s.threads[k]? = some t)
    (hcall : t.dequeuing = true) : s.completions ≠ [] := by
  intro hempty
  obtain ⟨-, -, rest, hrest⟩ := EventThread.dequeuing_iff.mp hcall
  have hle := le_held (f := EventThread.notified) ht
  rw [(h.notified hempty).2, EventThread.notified, hrest, notifications_rioEvent] at hle
  omega

/-- The token goes from the notification to the call that is owed. -/
theorem OneToken.dequeueRioEventResult (h : OneToken s)
    (hcall : s.dequeueRioEventResult k n = some s') : OneToken s' := by
  obtain ⟨t, rest, ht, hdequeuing, hnotifying, -, hentries, -, hempty, rfl⟩ :=
    dequeueRioEventResult_some hcall
  have hpos : 0 < n := Nat.pos_of_ne_zero fun hn => h.completions_ne_nil ht hdequeuing (hempty hn)
  have hnotified := held_set (f := EventThread.notified) ht
    { entries := rest, notifying := decide (0 < n), results := s.completions.take n }
  have howed := held_set (f := EventThread.owed) ht
    { entries := rest, notifying := decide (0 < n), results := s.completions.take n }
  simp only [EventThread.notified, EventThread.owed, hentries, hnotifying, hpos, decide_true,
    Bool.toNat_true, Bool.toNat_false, notifications_rioEvent] at hnotified howed
  have hle := le_held (f := EventThread.notified) ht
  have hone := h.one
  rw [EventThread.notified, hentries, notifications_rioEvent] at hle
  simp only [tokens] at hone
  refine ⟨?_, fun harmed => ?_, fun _ => ?_⟩
  · simp only [tokens, hpos, decide_true]
    omega
  · simp only at harmed
    rw [harmed, Bool.toNat_true] at hone
    omega
  · simp only [hpos, decide_true]
    omega

/-- A thread that is about to call `RIONotify` finds the queue not armed. -/
theorem OneToken.not_armed (h : OneToken s) {t : EventThread ρ ε} (ht : s.threads[k]? = some t)
    (hcall : t.notifying = true) : s.armed = false := by
  have hle := le_held (f := EventThread.owed) ht
  have hone := h.one
  rw [EventThread.owed, hcall, Bool.toNat_true] at hle
  rw [tokens] at hone
  cases harmed : s.armed with
  | false => rfl
  | true =>
      rw [harmed, Bool.toNat_true] at hone
      omega

/-- And back to the queue, or to the next notification. -/
theorem OneToken.notifyCompletion (h : OneToken s) (hcall : s.notifyCompletion k = some s') :
    OneToken s' := by
  obtain ⟨t, ht, hnotifying, rfl⟩ := notifyCompletion_some hcall
  have harmed := h.not_armed ht hnotifying
  have hnotified : held EventThread.notified (s.threads.set k { t with notifying := false }) =
      held EventThread.notified s.threads := held_set_eq ht rfl
  have howed := held_set (f := EventThread.owed) ht { t with notifying := false }
  simp only [EventThread.owed, hnotifying, Bool.toNat_true, Bool.toNat_false] at howed
  have hone := h.one
  simp only [tokens, harmed, Bool.toNat_false] at hone
  cases hqueue : s.completions with
  | nil =>
      simp only [rioNotify, harmed, hqueue, List.isEmpty_nil, Bool.false_eq_true, if_false, if_true]
      refine ⟨?_, fun _ => rfl, fun _ => ?_⟩
      · simp only [tokens, Bool.toNat_true]
        omega
      · simp only
        omega
  | cons r completions =>
      simp only [rioNotify, harmed, hqueue, List.isEmpty_cons, Bool.false_eq_true, if_false]
      refine ⟨?_, fun h => absurd h (by simp), fun h => absurd h (by simp)⟩
      simp only [tokens, notifications_append, notifications_rioEvent, notifications_nil,
        Bool.toNat_false]
      omega

theorem OneToken.dispatch (h : OneToken s) {throws : Bool} (hcall : s.dispatch k throws = some s') :
    OneToken s' := by
  obtain ⟨t, r, results, ht, -, -, rfl⟩ := dispatch_some hcall
  have hnotified (rs : List ρ) : held EventThread.notified (s.threads.set k { t with results := rs }) =
      held EventThread.notified s.threads := held_set_eq ht rfl
  have howed (rs : List ρ) : held EventThread.owed (s.threads.set k { t with results := rs }) =
      held EventThread.owed s.threads := held_set_eq ht rfl
  refine ⟨?_, h.armed, fun hempty => ?_⟩
  · rw [← h.one, tokens, tokens, hnotified, howed]
  · rw [hnotified]
    exact h.notified hempty

theorem OneToken.execute (h : OneToken s) (hcall : s.execute k = some s') : OneToken s' := by
  obtain ⟨t, e, entries, ht, -, -, hentries, rfl⟩ := execute_some hcall
  have hnotified : held EventThread.notified (s.threads.set k { t with entries := entries }) =
      held EventThread.notified s.threads :=
    held_set_eq ht (by rw [EventThread.notified, EventThread.notified, hentries, notifications_event])
  have howed : held EventThread.owed (s.threads.set k { t with entries := entries }) =
      held EventThread.owed s.threads := held_set_eq ht rfl
  refine ⟨?_, h.armed, fun hempty => ?_⟩
  · rw [← h.one, tokens, tokens, hnotified, howed]
  · rw [hnotified]
    exact h.notified hempty

theorem OneToken.step (h : OneToken s) {e : LoopEvent ρ ε} (hstep : s.step e = some s') :
    OneToken s' := by
  cases e with
  | complete r => exact Option.some.inj hstep ▸ h.complete r
  | post e => exact Option.some.inj hstep ▸ h.post e
  | spawnEventThread => exact Option.some.inj hstep ▸ h.spawnEventThread
  | dequeueEventResults k n => exact h.dequeueEventResults hstep
  | dequeueRioEventResult k n => exact h.dequeueRioEventResult hstep
  | notifyCompletion k => exact h.notifyCompletion hstep
  | dispatch k throws => exact h.dispatch hstep
  | execute k => exact h.execute hstep

theorem oneToken_run {es : List (LoopEvent ρ ε)} (hrun : run step new es = some s) : OneToken s :=
  run_invariant (fun _ _ _ h hstep => h.step hstep) oneToken_new hrun

/-- **The calls of the completion queue exclude each other.** There is one notification, and whoever has
dequeued it arms the queue again, on every path: so at any time the queue is armed, or the notification is
posted, or it is with one thread (`OneToken`). -/
theorem rioCalls_exclusive {es : List (LoopEvent ρ ε)} (hrun : run step new es = some s) {j k : Nat}
    {a b : EventThread ρ ε} (ha : s.threads[j]? = some a) (hb : s.threads[k]? = some b) :
    (a.atRioCall → b.atRioCall → j = k) ∧ (a.dequeuing → s.completions ≠ []) ∧
      (a.notifying → s.armed = false) := by
  have h := oneToken_run hrun
  refine ⟨fun hja hkb => ?_, h.completions_ne_nil ha, h.not_armed ha⟩
  refine eq_of_held_le_one (f := fun t => t.notified + t.owed) ?_ ha hb
    (EventThread.token_of_atRioCall hja) (EventThread.token_of_atRioCall hkb)
  have hone := h.one
  rw [tokens] at hone
  rw [held_add]
  omega

/-! ## Every completion exactly once

A completion is counted in the places where it can be, for any predicate on completions: what holds of all
counts holds of the lists up to their order. A step moves completions from one place to the next, and a
throw moves the rest of the results of its thread to those that were dropped.
-/

theorem countP_take_add_drop {α : Type u} (p : α → Bool) (n : Nat) (l : List α) :
    (l.take n).countP p + (l.drop n).countP p = l.countP p := by
  rw [← List.countP_append, List.take_append_drop]

theorem countP_cons_eq {α : Type u} (p : α → Bool) (a : α) (l : List α) :
    (a :: l).countP p = [a].countP p + l.countP p := by
  rw [← List.countP_append, List.singleton_append]

/-- The events among some entries that meet `p`. -/
def eventCount (p : ε → Bool) (entries : List (PortEntry ε)) : Nat :=
  (entries.filterMap PortEntry.event?).countP p

@[simp] theorem eventCount_append (p : ε → Bool) (es fs : List (PortEntry ε)) :
    eventCount p (es ++ fs) = eventCount p es + eventCount p fs := by
  rw [eventCount, List.filterMap_append, List.countP_append, eventCount, eventCount]

@[simp] theorem eventCount_nil (p : ε → Bool) : eventCount p [] = 0 := rfl

@[simp] theorem eventCount_rioEvent (p : ε → Bool) (es : List (PortEntry ε)) :
    eventCount p (.rioEvent :: es) = eventCount p es := rfl

@[simp] theorem eventCount_event (p : ε → Bool) (e : ε) (es : List (PortEntry ε)) :
    eventCount p (.event e :: es) = [e].countP p + eventCount p es :=
  countP_cons_eq p e (es.filterMap PortEntry.event?)

/-- Where the completions are that meet `p`. -/
def resultsOf (s : CompletionLoop ρ ε) (p : ρ → Bool) : Nat :=
  s.completions.countP p + held (fun t => t.results.countP p) s.threads + s.dispatched.countP p +
    s.dropped.countP p

/-- Where the other events are that meet `p`. -/
def eventsOf (s : CompletionLoop ρ ε) (p : ε → Bool) : Nat :=
  eventCount p s.entries + held (fun t => eventCount p t.entries) s.threads + s.executed.countP p

/-- Each is in one place. The counts are for any predicate, which is equality of the lists up to order
without a decidable equality on requests. -/
structure Accounted (s : CompletionLoop ρ ε) : Prop where
  completed : ∀ p, s.resultsOf p = s.completed.countP p
  posted : ∀ p, s.eventsOf p = s.posted.countP p

theorem accounted_new : Accounted (new : CompletionLoop ρ ε) := ⟨fun _ => rfl, fun _ => rfl⟩

/-- A step moves results from one place to the next. -/
theorem resultsOf_step {e : LoopEvent ρ ε} (hstep : s.step e = some s') (p : ρ → Bool) :
    s'.resultsOf p + s.completed.countP p = s.resultsOf p + s'.completed.countP p := by
  cases e with
  | complete r =>
      obtain rfl := Option.some.inj hstep
      simp only [resultsOf, complete, List.countP_append]
      omega
  | post e =>
      obtain rfl := Option.some.inj hstep
      rfl
  | spawnEventThread =>
      obtain rfl := Option.some.inj hstep
      have hnew := held_concat (f := fun t => t.results.countP p) ({} : EventThread ρ ε) s.threads
      simp only [List.countP_nil, add_zero] at hnew
      simp only [resultsOf, spawnEventThread, hnew]
  | dequeueEventResults k n =>
      obtain ⟨t, ht, -, -, -, -, -, rfl⟩ := dequeueEventResults_some hstep
      have hset := held_set (f := fun t => t.results.countP p) ht
        { t with entries := s.entries.take n }
      simp only at hset
      simp only [resultsOf]
      omega
  | dequeueRioEventResult k n =>
      obtain ⟨t, rest, ht, -, -, hresults, -, -, -, rfl⟩ := dequeueRioEventResult_some hstep
      have hset := held_set (f := fun t => t.results.countP p) ht
        { entries := rest, notifying := decide (0 < n), results := s.completions.take n }
      have hsplit := countP_take_add_drop p n s.completions
      simp only [hresults, List.countP_nil] at hset
      simp only [resultsOf]
      omega
  | notifyCompletion k =>
      obtain ⟨t, ht, -, rfl⟩ := notifyCompletion_some hstep
      have hset := held_set (f := fun t => t.results.countP p) ht { t with notifying := false }
      obtain ⟨armed, entries, hnotify, -⟩ := s.rioNotify_eq
      simp only at hset
      simp only [resultsOf, hnotify]
      omega
  | dispatch k throws =>
      obtain ⟨t, r, results, ht, -, hresults, rfl⟩ := dispatch_some hstep
      have hset := held_set (f := fun t => t.results.countP p) ht
        { t with results := if throws then [] else results }
      have hsplit := countP_cons_eq p r results
      simp only [hresults] at hset
      simp only [resultsOf, List.countP_append]
      cases throws with
      | false =>
          simp only [Bool.false_eq_true, if_false] at hset ⊢
          omega
      | true =>
          simp only [if_true, List.countP_nil, List.countP_append] at hset ⊢
          omega
  | execute k =>
      obtain ⟨t, e, entries, ht, -, -, -, rfl⟩ := execute_some hstep
      have hset := held_set (f := fun t => t.results.countP p) ht { t with entries := entries }
      simp only at hset
      simp only [resultsOf]
      omega

/-- A step moves the other events from one place to the next. -/
theorem eventsOf_step {e : LoopEvent ρ ε} (hstep : s.step e = some s') (p : ε → Bool) :
    s'.eventsOf p + s.posted.countP p = s.eventsOf p + s'.posted.countP p := by
  cases e with
  | complete r =>
      obtain rfl := Option.some.inj hstep
      simp only [eventsOf, complete]
      split_ifs
      · rw [eventCount_append, eventCount_rioEvent, eventCount_nil]
        rfl
      · rfl
  | post e =>
      obtain rfl := Option.some.inj hstep
      simp only [eventsOf, post, eventCount_append, eventCount_event, eventCount_nil,
        List.countP_append]
      omega
  | spawnEventThread =>
      obtain rfl := Option.some.inj hstep
      have hnew := held_concat (f := fun t => eventCount p t.entries) ({} : EventThread ρ ε) s.threads
      simp only [eventCount_nil, add_zero] at hnew
      simp only [eventsOf, spawnEventThread, hnew]
  | dequeueEventResults k n =>
      obtain ⟨t, ht, hentries, -, -, -, -, rfl⟩ := dequeueEventResults_some hstep
      have hset := held_set (f := fun t => eventCount p t.entries) ht
        { t with entries := s.entries.take n }
      have hsplit := eventCount_append p (s.entries.take n) (s.entries.drop n)
      rw [List.take_append_drop] at hsplit
      simp only [hentries, eventCount_nil] at hset
      simp only [eventsOf]
      omega
  | dequeueRioEventResult k n =>
      obtain ⟨t, rest, ht, -, -, -, hentries, -, -, rfl⟩ := dequeueRioEventResult_some hstep
      have hset := held_set (f := fun t => eventCount p t.entries) ht
        { entries := rest, notifying := decide (0 < n), results := s.completions.take n }
      simp only [hentries, eventCount_rioEvent] at hset
      simp only [eventsOf]
      omega
  | notifyCompletion k =>
      obtain ⟨t, ht, -, rfl⟩ := notifyCompletion_some hstep
      have hset := held_set (f := fun t => eventCount p t.entries) ht { t with notifying := false }
      obtain ⟨armed, entries, hnotify, hentries⟩ := s.rioNotify_eq
      have hcount : eventCount p entries = eventCount p s.entries := by
        obtain rfl | rfl := hentries
        · rfl
        · rw [eventCount_append, eventCount_rioEvent, eventCount_nil, add_zero]
      simp only at hset
      simp only [eventsOf, hnotify, hcount]
      omega
  | dispatch k throws =>
      obtain ⟨t, r, results, ht, -, -, rfl⟩ := dispatch_some hstep
      have hset := held_set (f := fun t => eventCount p t.entries) ht
        { t with results := if throws then [] else results }
      simp only at hset
      simp only [eventsOf]
      omega
  | execute k =>
      obtain ⟨t, e, entries, ht, -, -, hentries, rfl⟩ := execute_some hstep
      have hset := held_set (f := fun t => eventCount p t.entries) ht { t with entries := entries }
      simp only [hentries, eventCount_event] at hset
      simp only [eventsOf, List.countP_append]
      omega

theorem Accounted.step (h : Accounted s) {e : LoopEvent ρ ε} (hstep : s.step e = some s') :
    Accounted s' := by
  refine ⟨fun p => ?_, fun p => ?_⟩
  · have := resultsOf_step hstep p
    have := h.completed p
    omega
  · have := eventsOf_step hstep p
    have := h.posted p
    omega

/-! ## Progress

Each step of a thread lowers `work`, so threads to whom nothing new is given take finitely many steps, and
at most so many as `work` says.
-/

/-- The steps the threads can still take. -/
def threadWork (t : EventThread ρ ε) : Nat :=
  t.entries.length + t.results.length + 3 * t.notifying.toNat

/-- A completion costs at most a notification, its call of `RIONotify` and its handler. -/
def work (s : CompletionLoop ρ ε) : Nat :=
  4 * s.completions.length + 2 * s.entries.length + held threadWork s.threads

/-- Every step of a thread leaves less to do. -/
theorem work_lt (h : OneToken s) {e : LoopEvent ρ ε} (he : e.ofThread) (hstep : s.step e = some s') :
    s'.work < s.work := by
  cases e with
  | complete r => exact absurd he Bool.false_ne_true
  | post e => exact absurd he Bool.false_ne_true
  | spawnEventThread => exact absurd he Bool.false_ne_true
  | dequeueEventResults k n =>
      obtain ⟨t, ht, hentries, -, -, hpos, hle, rfl⟩ := dequeueEventResults_some hstep
      have hset := held_set (f := threadWork) ht { t with entries := s.entries.take n }
      simp only [threadWork, hentries, List.length_nil, List.length_take, Nat.min_eq_left hle]
        at hset
      simp only [work, List.length_drop]
      omega
  | dequeueRioEventResult k n =>
      obtain ⟨t, rest, ht, hdequeuing, hnotifying, hresults, hentries, hle, hempty, rfl⟩ :=
        dequeueRioEventResult_some hstep
      have hpos : 0 < n := Nat.pos_of_ne_zero fun hn => h.completions_ne_nil ht hdequeuing (hempty hn)
      have hset := held_set (f := threadWork) ht
        { entries := rest, notifying := decide (0 < n), results := s.completions.take n }
      simp only [threadWork, hentries, hresults, hnotifying, List.length_nil, List.length_cons,
        List.length_take, Nat.min_eq_left hle, hpos, decide_true, Bool.toNat_true, Bool.toNat_false]
        at hset
      simp only [work, List.length_drop, hpos, decide_true]
      omega
  | notifyCompletion k =>
      obtain ⟨t, ht, hnotifying, rfl⟩ := notifyCompletion_some hstep
      have hset := held_set (f := threadWork) ht { t with notifying := false }
      simp only [threadWork, hnotifying, Bool.toNat_true, Bool.toNat_false] at hset
      obtain ⟨armed, entries, hnotify, hentries⟩ := s.rioNotify_eq
      have hlength : entries.length ≤ s.entries.length + 1 := by
        obtain rfl | rfl := hentries
        · exact Nat.le_succ _
        · rw [List.length_append, List.length_singleton]
      simp only [work, hnotify]
      omega
  | dispatch k throws =>
      obtain ⟨t, r, results, ht, -, hresults, rfl⟩ := dispatch_some hstep
      have hset := held_set (f := threadWork) ht
        { t with results := if throws then [] else results }
      have hle : (if throws then [] else results).length ≤ results.length := by
        split_ifs <;> simp
      simp only [threadWork, hresults, List.length_cons] at hset
      simp only [work]
      omega
  | execute k =>
      obtain ⟨t, e, entries, ht, -, -, hentries, rfl⟩ := execute_some hstep
      have hset := held_set (f := threadWork) ht { t with entries := entries }
      simp only [threadWork, hentries, List.length_cons] at hset
      simp only [work]
      omega

/-! ## Threads that are left alone

When no thread has a step left, the port is empty and all threads are idle. Then the token is with the
queue, which is armed and so empty, and the counts leave no place but the last ones.
-/

/-- A thread that is not idle can take a step. -/
theorem exists_step_of_not_idle {t : EventThread ρ ε} (ht : s.threads[k]? = some t)
    (hidle : t.idle = false) : ∃ e : LoopEvent ρ ε, e.ofThread ∧ (s.step e).isSome := by
  obtain ⟨entries, notifying, results⟩ := t
  cases notifying with
  | true => exact ⟨.notifyCompletion k, rfl, by simp [step, notifyCompletion, ht]⟩
  | false =>
      cases results with
      | cons r results => exact ⟨.dispatch k false, rfl, by simp [step, dispatch, ht]⟩
      | nil =>
          cases entries with
          | nil => exact absurd hidle (by simp [EventThread.idle])
          | cons entry entries =>
              cases entry with
              | event e => exact ⟨.execute k, rfl, by simp [step, execute, ht]⟩
              | rioEvent =>
                  refine ⟨.dequeueRioEventResult k (min maxDequeuingRioEventResults s.completions.length),
                    rfl, ?_⟩
                  have hempty : min maxDequeuingRioEventResults s.completions.length = 0 →
                      s.completions = [] := fun hmin => by
                    rw [← List.length_eq_zero_iff]
                    rw [maxDequeuingRioEventResults] at hmin
                    omega
                  have hdequeuing : (⟨.rioEvent :: entries, false, []⟩ : EventThread ρ ε).dequeuing = true := rfl
                  simp only [step, dequeueRioEventResult, ht, Option.bind_some, hdequeuing, true_and]
                  rw [if_pos ⟨Nat.min_le_left _ _, Nat.min_le_right _ _, hempty⟩, Option.isSome_some]

/-- An idle thread can take what is on the port. -/
theorem exists_step_of_entries {t : EventThread ρ ε} (ht : s.threads[k]? = some t)
    (hidle : t.idle = true) (hentries : s.entries ≠ []) :
    ∃ e : LoopEvent ρ ε, e.ofThread ∧ (s.step e).isSome := by
  have hpos := List.length_pos_iff.mpr hentries
  refine ⟨.dequeueEventResults k 1, rfl, ?_⟩
  simp only [step, dequeueEventResults, ht, Option.bind_some]
  rw [if_pos ⟨hidle, Nat.one_pos, by decide, hpos⟩, Option.isSome_some]

/-- No thread can take a step. -/
def AtRest (s : CompletionLoop ρ ε) : Prop := ∀ e : LoopEvent ρ ε, e.ofThread → s.step e = none

/-- With a thread there is, rest means that nothing is under way. -/
theorem atRest_iff (hthreads : s.threads ≠ []) :
    s.AtRest ↔ s.entries = [] ∧ ∀ t ∈ s.threads, t.idle = true := by
  constructor
  · intro h
    have hnone : ¬ ∃ e : LoopEvent ρ ε, e.ofThread ∧ (s.step e).isSome := by
      rintro ⟨e, he, hsome⟩
      rw [h e he] at hsome
      exact absurd hsome (by simp)
    have hidle : ∀ t ∈ s.threads, t.idle = true := by
      intro t hmem
      obtain ⟨k, hk⟩ := List.getElem?_of_mem hmem
      by_contra hbusy
      exact hnone (exists_step_of_not_idle hk (Bool.eq_false_iff.mpr hbusy))
    refine ⟨?_, hidle⟩
    by_contra hentries
    obtain ⟨t, ht⟩ := List.exists_mem_of_ne_nil _ hthreads
    obtain ⟨k, hk⟩ := List.getElem?_of_mem ht
    exact hnone (exists_step_of_entries hk (hidle t ht) hentries)
  · rintro ⟨hentries, hidle⟩ e he
    by_contra hstep
    obtain ⟨s', hs'⟩ := Option.ne_none_iff_exists'.mp hstep
    have hat {k : Nat} {t : EventThread ρ ε} (ht : s.threads[k]? = some t) :=
      EventThread.idle_iff.mp (hidle t (List.mem_of_getElem? ht))
    cases e with
    | complete r => exact absurd he Bool.false_ne_true
    | post e => exact absurd he Bool.false_ne_true
    | spawnEventThread => exact absurd he Bool.false_ne_true
    | dequeueEventResults k n =>
        obtain ⟨t, -, -, -, -, hpos, hle, -⟩ := dequeueEventResults_some hs'
        rw [hentries, List.length_nil] at hle
        omega
    | dequeueRioEventResult k n =>
        obtain ⟨t, rest, ht, -, -, -, hrest, -⟩ := dequeueRioEventResult_some hs'
        exact absurd ((hat ht).1.symm.trans hrest) (by simp)
    | notifyCompletion k =>
        obtain ⟨t, ht, hnotifying, -⟩ := notifyCompletion_some hs'
        exact absurd ((hat ht).2.1.symm.trans hnotifying) Bool.false_ne_true
    | dispatch k throws =>
        obtain ⟨t, r, results, ht, -, hresults, -⟩ := dispatch_some hs'
        exact absurd ((hat ht).2.2.symm.trans hresults) (by simp)
    | execute k =>
        obtain ⟨t, e, entries, ht, -, -, hevent, -⟩ := execute_some hs'
        exact absurd ((hat ht).1.symm.trans hevent) (by simp)

/-- At rest the token is the armed queue, so that no completion waits. -/
theorem OneToken.armed_of_idle (h : OneToken s) (hentries : s.entries = [])
    (hidle : ∀ t ∈ s.threads, t.idle = true) : s.armed = true ∧ s.completions = [] := by
  have hnotified : held EventThread.notified s.threads = 0 := held_eq_zero fun t ht => by
    rw [EventThread.notified, (EventThread.idle_iff.mp (hidle t ht)).1, notifications_nil]
  have howed : held EventThread.owed s.threads = 0 := held_eq_zero fun t ht => by
    rw [EventThread.owed, (EventThread.idle_iff.mp (hidle t ht)).2.1, Bool.toNat_false]
  have hone := h.one
  rw [tokens, hentries, notifications_nil, hnotified, howed] at hone
  have harmed : s.armed = true := by
    cases harmed : s.armed with
    | true => rfl
    | false => exact absurd (harmed ▸ hone) (by simp)
  exact ⟨harmed, h.armed harmed⟩

/-- What is accounted for and nowhere under way is where it ends. -/
theorem Accounted.perm_of_idle (h : Accounted s) (hcompletions : s.completions = [])
    (hentries : s.entries = []) (hidle : ∀ t ∈ s.threads, t.idle = true) :
    s.completed.Perm (s.dispatched ++ s.dropped) ∧ s.posted.Perm s.executed := by
  classical
  have hresults (p : ρ → Bool) : held (fun t => t.results.countP p) s.threads = 0 :=
    held_eq_zero fun t ht => by rw [(EventThread.idle_iff.mp (hidle t ht)).2.2, List.countP_nil]
  have hevents (p : ε → Bool) : held (fun t => eventCount p t.entries) s.threads = 0 :=
    held_eq_zero fun t ht => by rw [(EventThread.idle_iff.mp (hidle t ht)).1, eventCount_nil]
  refine ⟨List.perm_iff_count.mpr fun r => ?_, List.perm_iff_count.mpr fun e => ?_⟩
  · have := h.completed (· == r)
    rw [resultsOf, hcompletions, hresults, List.countP_nil] at this
    rw [List.count_append, List.count_eq_countP, List.count_eq_countP, List.count_eq_countP, ← this]
    omega
  · have := h.posted (· == e)
    rw [eventsOf, hentries, hevents, eventCount_nil] at this
    rw [List.count_eq_countP, List.count_eq_countP, ← this]
    omega

/-- Only an exception drops results. -/
theorem dropped_step {e : LoopEvent ρ ε} (he : e.throws = false) (hstep : s.step e = some s') :
    s'.dropped = s.dropped := by
  cases e with
  | complete r => exact Option.some.inj hstep ▸ rfl
  | post e => exact Option.some.inj hstep ▸ rfl
  | spawnEventThread => exact Option.some.inj hstep ▸ rfl
  | dequeueEventResults k n =>
      obtain ⟨t, -, -, -, -, -, -, rfl⟩ := dequeueEventResults_some hstep
      rfl
  | dequeueRioEventResult k n =>
      obtain ⟨t, rest, -, -, -, -, -, -, -, rfl⟩ := dequeueRioEventResult_some hstep
      rfl
  | notifyCompletion k =>
      obtain ⟨t, -, -, rfl⟩ := notifyCompletion_some hstep
      obtain ⟨armed, entries, hnotify, -⟩ := s.rioNotify_eq
      rw [hnotify]
  | dispatch k throws =>
      obtain ⟨t, r, results, -, -, -, rfl⟩ := dispatch_some hstep
      rw [show throws = false from he]
      rfl
  | execute k =>
      obtain ⟨t, e, entries, -, -, -, -, rfl⟩ := execute_some hstep
      rfl

theorem dropped_run {es : List (LoopEvent ρ ε)} (hthrows : ∀ e ∈ es, e.throws = false)
    (hrun : run step s es = some s') : s'.dropped = s.dropped :=
  run_invariant_along (P := fun u => u.dropped = s.dropped) (G := fun _ e => e.throws = false)
    (fun _ _ _ hu he hstep => (dropped_step he hstep).trans hu) rfl
    (Along.of_forall_mem fun e he _ => hthrows e he) hrun

/-- **Every completion is handed on exactly once.** Threads that are left alone take a bounded number of
steps, and when none is left to take, the queue is armed and empty, every request that completed was
handed to its event or is among those an exception left behind, and every other event was completed.  If no
handler threw, none was left behind. -/
theorem handled_once {es fs : List (LoopEvent ρ ε)} (hrun : run step new es = some s)
    (hthread : ∀ e ∈ fs, e.ofThread) (hrest : run step s fs = some t) :
    fs.length ≤ s.work ∧ (t.AtRest → t.threads ≠ [] →
      (t.armed ∧ t.completions = []) ∧ t.completed.Perm (t.dispatched ++ t.dropped) ∧
        t.posted.Perm t.executed ∧ ((∀ e ∈ es ++ fs, e.throws = false) → t.dropped = [])) := by
  have hall : run step new (es ++ fs) = some t := run_append_eq_some.mpr ⟨s, hrun, hrest⟩
  have hlength : fs.length ≤ s.work := by
    refine run_length_le (P := OneToken) ?_ ?_ (oneToken_run hrun) hthread hrest
    · exact fun _ _ _ h hstep => h.step hstep
    · exact fun _ _ _ h he hstep => work_lt h he hstep
  refine ⟨hlength, fun hat hthreads => ?_⟩
  obtain ⟨hentries, hidle⟩ := (atRest_iff hthreads).mp hat
  have harmed := (oneToken_run hall).armed_of_idle hentries hidle
  have haccounted : Accounted t :=
    run_invariant (fun _ _ _ h hstep => h.step hstep) accounted_new hall
  obtain ⟨hcompleted, hposted⟩ := haccounted.perm_of_idle harmed.2 hentries hidle
  exact ⟨harmed, hcompleted, hposted, fun hthrows => dropped_run hthrows hall⟩

/-- Two threads, three completions behind one notification, and a task. -/
def twoThreads : List (LoopEvent Nat Nat) :=
  [.spawnEventThread, .spawnEventThread, .complete 5, .post 9, .complete 6, .dequeueEventResults 1 1,
    .complete 7]

/-- The second thread takes two of the completions, is notified of the third, and all is handled. -/
def twoThreadsRest : List (LoopEvent Nat Nat) :=
  [.dequeueRioEventResult 1 2, .notifyCompletion 1, .dequeueEventResults 0 2, .execute 0, .dispatch 1 false,
    .dequeueRioEventResult 0 1, .dispatch 1 false, .notifyCompletion 0, .dispatch 0 false]

/-- While one thread is about to dequeue, there is something to take. -/
theorem rioCalls_exclusive_twoThreads :
    (({ entries := [.rioEvent] } : EventThread Nat Nat).dequeuing → [5, 6, 7] ≠ []) ∧
      ((run step new twoThreads).map (·.completions)) = some [5, 6, 7] :=
  have hrun : run step new twoThreads = some ((run step new twoThreads).getD new) := rfl
  ⟨(rioCalls_exclusive hrun (j := 1) (k := 0) rfl rfl).2.1, rfl⟩

/-- Both threads come to rest after fifteen steps. -/
theorem handled_once_twoThreads :
    twoThreadsRest.length ≤ 15 ∧ ∃ t, run step new (twoThreads ++ twoThreadsRest) = some t ∧
      t.completed.Perm (t.dispatched ++ t.dropped) ∧ t.dropped = [] := by
  have hrun : run step new twoThreads = some ((run step new twoThreads).getD new) := rfl
  have hrest := handled_once (t := (run step new (twoThreads ++ twoThreadsRest)).getD new) hrun
    (show ∀ e ∈ twoThreadsRest, e.ofThread by decide) rfl
  have hat := hrest.2 ((atRest_iff (by decide)).mpr ⟨rfl, by decide⟩) (by decide)
  exact ⟨hrest.1, _, rfl, hat.2.1, hat.2.2.2 (by decide)⟩

end CompletionLoop
end Mmocraft.Io
