/-
# Mmocraft.Util.IntervalTask -- tasks that are run at intervals

`IntervalTaskScheduler::process_tasks` is called whenever somebody gets to it: by the loop of a server, or
while a socket is accepted.  It runs each task whose time has come, and sets the time of the next run once
the task has returned; a task that throws is put off for four periods.  The clock is read before and after
each run, so what it says is part of the call.

Times are numbers here and `size_t` in the source.  No sum of them wraps: a period comes from an enumeration of
ints and is at most 2^31 ms, also when it is shifted by two, and the clock counts the milliseconds since the
system was started in 64 bits.
-/
import Mathlib.Data.List.Count
import Mmocraft.Lib.Runs

namespace Mmocraft.Util

open Mmocraft.Lib

/-- `interval_task_tag_id`. -/
inductive IntervalTaskTag where
  | invalid
  | cleanConnection
  | cleanPlayer
  | announceServer
  deriving DecidableEq, Repr

/-- `IntervalTask`, without its function.  A `Nat` stands for `size_t`. -/
structure IntervalTask where
  tag : IntervalTaskTag
  period : Nat
  expiredAt : Nat
  deriving DecidableEq, Repr

namespace IntervalTask

/-- `process_tasks` was called for the task; `invalid` stands for all of them. -/
def matchesTag (task : IntervalTask) (tag : IntervalTaskTag) : Bool := tag == .invalid || task.tag == tag

def isExpired (task : IntervalTask) (now : Nat) : Bool := decide (task.expiredAt ≤ now)

/-- `invoke_task`, for a run that is over at `finish`. -/
def invoke (task : IntervalTask) (finish : Nat) (throws : Bool) : IntervalTask :=
  { task with expiredAt := finish + if throws then task.period <<< 2 else task.period }

end IntervalTask

/-- What `process_tasks` finds when it gets to a task: the clock before and after its run, and whether it
throws. -/
structure TaskReading where
  start : Nat
  finish : Nat
  throws : Bool := false
  deriving DecidableEq, Repr

/-- A run of a task, by its place in the list, with its period. -/
structure Invocation where
  task : Nat
  period : Nat
  reading : TaskReading
  deriving DecidableEq, Repr

/-- When the task rests until: for a period, and for four after an exception. -/
def Invocation.restsUntil (v : Invocation) : Nat :=
  v.reading.finish + if v.reading.throws then 4 * v.period else v.period

/-- `IntervalTaskScheduler`.  Histories: when each task was scheduled, and the runs, the oldest first. -/
structure IntervalTaskScheduler where
  tasks : List IntervalTask := []
  scheduled : List Nat := []
  invocations : List Invocation := []
  deriving DecidableEq, Repr

namespace IntervalTaskScheduler

/-- `schedule`. -/
def schedule (s : IntervalTaskScheduler) (tag : IntervalTaskTag) (period now : Nat) : IntervalTaskScheduler :=
  { s with
    tasks := s.tasks ++ [{ tag := tag, period := period, expiredAt := now + period }]
    scheduled := s.scheduled ++ [now] }

/-- One round of the loop of `process_tasks`. -/
def processTask (s : IntervalTaskScheduler) (tag : IntervalTaskTag) (readings : Nat → TaskReading) (k : Nat) :
    IntervalTaskScheduler :=
  match s.tasks[k]? with
  | none => s
  | some task =>
      if task.matchesTag tag && task.isExpired (readings k).start then
        { s with
          tasks := s.tasks.set k (task.invoke (readings k).finish (readings k).throws)
          invocations := s.invocations ++ [{ task := k, period := task.period, reading := readings k }] }
      else s

/-- `process_tasks`. -/
def processTasks (s : IntervalTaskScheduler) (tag : IntervalTaskTag) (readings : Nat → TaskReading) :
    IntervalTaskScheduler :=
  (List.range s.tasks.length).foldl (fun s k => s.processTask tag readings k) s

/-! ## When a task is run -/

/-- The time of the next run, by the history alone: when the rest after the last run is over, or a period
after the task was scheduled. -/
def dueAt (s : IntervalTaskScheduler) (k : Nat) (task : IntervalTask) : Nat :=
  match s.invocations.reverse.find? (·.task == k) with
  | some v => v.restsUntil
  | none => s.scheduled.getD k 0 + task.period

/-- The run of task `k` in a call of `process_tasks`, if it is due. -/
def invocation? (s : IntervalTaskScheduler) (tag : IntervalTaskTag) (readings : Nat → TaskReading) (k : Nat) :
    Option Invocation :=
  (s.tasks[k]?).bind fun task =>
    if task.matchesTag tag && decide (s.dueAt k task ≤ (readings k).start) then
      some { task := k, period := task.period, reading := readings k }
    else none

/-- **Intervals.** A call of `process_tasks` runs each task of its tag whose time has come, in order and once,
and no other.  Two runs of one task are its period apart, and four periods after an exception. -/
structure Intervals (s : IntervalTaskScheduler) : Prop where
  runs : ∀ tag readings, (s.processTasks tag readings).invocations =
    s.invocations ++ (List.range s.tasks.length).filterMap (s.invocation? tag readings)
  apart : s.invocations.Pairwise fun v w => v.task = w.task → v.restsUntil ≤ w.reading.start
  period : ∀ v ∈ s.invocations, (s.tasks[v.task]?).map IntervalTask.period = some v.period

variable {s t : IntervalTaskScheduler} {tag : IntervalTaskTag} {readings : Nat → TaskReading}

/-- After a run the time of its task is the end of the rest; that of the others stays. -/
theorem dueAt_append (tasks : List IntervalTask) (v : Invocation) (k : Nat) (task : IntervalTask) :
    ({ s with tasks := tasks, invocations := s.invocations ++ [v] } : IntervalTaskScheduler).dueAt k task =
      if v.task = k then v.restsUntil else s.dueAt k task := by
  unfold dueAt
  rw [List.reverse_append, List.reverse_singleton, List.singleton_append, List.find?_cons]
  by_cases hk : v.task = k
  · rw [if_pos hk, beq_iff_eq.mpr hk]
  · rw [if_neg hk, beq_eq_false_iff_ne.mpr hk]

/-- The next time after a run is the end of its rest. -/
theorem expiredAt_invoke (task : IntervalTask) (k : Nat) (r : TaskReading) :
    (task.invoke r.finish r.throws).expiredAt =
      Invocation.restsUntil { task := k, period := task.period, reading := r } := by
  simp only [Invocation.restsUntil, IntervalTask.invoke, Nat.shiftLeft_eq, Nat.mul_comm]

/-- What one round of the loop does: a task that is due is run, and nothing else happens. -/
theorem processTask_cases (s : IntervalTaskScheduler) (tag : IntervalTaskTag)
    (readings : Nat → TaskReading) (k : Nat) :
    (s.processTask tag readings k = s ∧
      ∀ task, s.tasks[k]? = some task → ¬ (task.matchesTag tag && task.isExpired (readings k).start) = true) ∨
    ∃ task, s.tasks[k]? = some task ∧ (task.matchesTag tag && task.isExpired (readings k).start) = true ∧
      s.processTask tag readings k =
        { s with
          tasks := s.tasks.set k (task.invoke (readings k).finish (readings k).throws)
          invocations := s.invocations ++ [{ task := k, period := task.period, reading := readings k }] } := by
  unfold processTask
  cases hk : s.tasks[k]? with
  | none => exact Or.inl ⟨rfl, fun _ h => nomatch h⟩
  | some task =>
      by_cases hdue : (task.matchesTag tag && task.isExpired (readings k).start) = true
      · exact Or.inr ⟨task, rfl, hdue, if_pos hdue⟩
      · refine Or.inl ⟨if_neg hdue, fun task' htask' => ?_⟩
        obtain rfl := Option.some.inj htask'
        exact hdue

/-! ## What is kept -/

/-- The time of each task is the one its history gives. A time is a function of the history: the last run of
the task, or when it was scheduled. -/
structure Timed (s : IntervalTaskScheduler) : Prop where
  length : s.scheduled.length = s.tasks.length
  expiredAt : ∀ k task, s.tasks[k]? = some task → task.expiredAt = s.dueAt k task
  invoked : ∀ v ∈ s.invocations, ∃ task, s.tasks[v.task]? = some task ∧ task.period = v.period

namespace Timed

theorem new : Timed {} where
  length := rfl
  expiredAt _ _ htask := nomatch htask
  invoked _ hv := absurd hv List.not_mem_nil

theorem schedule (h : Timed s) (tag : IntervalTaskTag) (period now : Nat) :
    Timed (s.schedule tag period now) where
  length := by
    show (s.scheduled ++ [now]).length = (s.tasks ++ [_]).length
    rw [List.length_append, List.length_append, h.length, List.length_singleton, List.length_singleton]
  expiredAt k task htask := by
    rcases Nat.lt_or_ge k s.tasks.length with hlt | hge
    · rw [IntervalTaskScheduler.schedule, List.getElem?_append_left hlt] at htask
      rw [h.expiredAt k task htask]
      unfold dueAt IntervalTaskScheduler.schedule
      have hk : k < s.scheduled.length := h.length ▸ hlt
      simp only [List.getD_eq_getElem?_getD, List.getElem?_append_left hk]
    · -- the new task has not been run yet
      have hnone : s.invocations.reverse.find? (·.task == k) = none := by
        rw [List.find?_eq_none]
        intro v hv hvk
        obtain ⟨task', htask', -⟩ := h.invoked v (List.mem_reverse.mp hv)
        rw [beq_iff_eq.mp hvk] at htask'
        have hlt := (List.getElem?_eq_some_iff.mp htask').1
        omega
      have hk : k = s.tasks.length := by
        have hlt := (List.getElem?_eq_some_iff.mp htask).1
        rw [IntervalTaskScheduler.schedule, List.length_append, List.length_singleton] at hlt
        omega
      have hnow : (s.scheduled ++ [now]).getD k 0 = now := by
        rw [hk, ← h.length, List.getD_eq_getElem?_getD, List.getElem?_concat_length, Option.getD_some]
      rw [hk, IntervalTaskScheduler.schedule, List.getElem?_concat_length] at htask
      obtain rfl := Option.some.inj htask
      unfold dueAt IntervalTaskScheduler.schedule
      rw [hnone, hnow]
  invoked v hv := by
    obtain ⟨task, htask, hperiod⟩ := h.invoked v hv
    refine ⟨task, ?_, hperiod⟩
    show (s.tasks ++ _)[v.task]? = some task
    rw [List.getElem?_append_left (List.getElem?_eq_some_iff.mp htask).1, htask]

theorem processTask (h : Timed s) (tag : IntervalTaskTag) (readings : Nat → TaskReading) (k : Nat) :
    Timed (s.processTask tag readings k) := by
  rcases s.processTask_cases tag readings k with ⟨heq, -⟩ | ⟨task, hk, -, heq⟩
  · rw [heq]
    exact h
  · have hlt := (List.getElem?_eq_some_iff.mp hk).1
    rw [heq]
    refine ⟨?_, fun j other hother => ?_, fun v hv => ?_⟩
    · rw [h.length, List.length_set]
    · by_cases hj : k = j
      · subst hj
        rw [List.getElem?_set_self hlt] at hother
        obtain rfl := Option.some.inj hother
        rw [expiredAt_invoke task k]
        exact ((dueAt_append _ _ _ _).trans (if_pos rfl)).symm
      · rw [List.getElem?_set_ne hj] at hother
        rw [h.expiredAt j other hother]
        exact ((dueAt_append _ _ _ _).trans (if_neg hj)).symm
    · -- a run leaves the periods alone
      have hkept : ∀ (j : Nat) (other : IntervalTask), s.tasks[j]? = some other → ∃ task', (s.tasks.set k
          (task.invoke (readings k).finish (readings k).throws))[j]? = some task' ∧
          task'.period = other.period := by
        intro j other hother
        by_cases hj : k = j
        · subst hj
          obtain rfl := Option.some.inj (hk.symm.trans hother)
          exact ⟨_, List.getElem?_set_self hlt, rfl⟩
        · exact ⟨other, (List.getElem?_set_ne hj).trans hother, rfl⟩
      rcases List.mem_append.mp hv with hv | hv
      · obtain ⟨other, hother, hperiod⟩ := h.invoked v hv
        obtain ⟨task', htask', heq'⟩ := hkept v.task other hother
        exact ⟨task', htask', heq'.trans hperiod⟩
      · rw [List.mem_singleton.mp hv]
        exact hkept k task hk

/-- A round of the loop runs the task exactly if its history says so. -/
theorem processTask_invocations (h : Timed s) (tag : IntervalTaskTag) (readings : Nat → TaskReading) (k : Nat) :
    (s.processTask tag readings k).invocations =
      s.invocations ++ (s.invocation? tag readings k).toList := by
  rcases s.processTask_cases tag readings k with ⟨heq, hnot⟩ | ⟨task, hk, hdue, heq⟩
  · rw [heq]
    suffices hnone : s.invocation? tag readings k = none by rw [hnone, Option.toList_none, List.append_nil]
    unfold invocation?
    cases hk : s.tasks[k]? with
    | none => rfl
    | some task =>
        have hthis := hnot task hk
        rw [IntervalTask.isExpired, h.expiredAt k task hk] at hthis
        exact if_neg hthis
  · rw [IntervalTask.isExpired, h.expiredAt k task hk] at hdue
    rw [heq, invocation?, hk, Option.bind_some, if_pos hdue, Option.toList_some]

end Timed

/-- A round of the loop is nothing to the other tasks. -/
theorem invocation?_processTask {j k : Nat} (hjk : k ≠ j) :
    (s.processTask tag readings k).invocation? tag readings j = s.invocation? tag readings j := by
  rcases s.processTask_cases tag readings k with ⟨heq, -⟩ | ⟨task, -, -, heq⟩
  · rw [heq]
  · rw [heq]
    unfold invocation?
    rw [List.getElem?_set_ne hjk]
    congr 1
    funext other
    rw [dueAt_append, if_neg hjk]

/-- The whole loop, task by task. -/
theorem Timed.foldl_invocations (h : Timed s) {ks : List Nat} (hks : ks.Nodup) :
    (ks.foldl (fun s k => s.processTask tag readings k) s).invocations =
      s.invocations ++ ks.filterMap (s.invocation? tag readings) := by
  induction ks generalizing s with
  | nil => exact (List.append_nil _).symm
  | cons k ks ih =>
      obtain ⟨hk, hks⟩ := List.nodup_cons.mp hks
      have hrest : ks.filterMap ((s.processTask tag readings k).invocation? tag readings) =
          ks.filterMap (s.invocation? tag readings) := by
        apply List.filterMap_congr
        intro j hj
        exact invocation?_processTask fun hkj => hk (hkj ▸ hj)
      rw [List.foldl_cons, ih (h.processTask tag readings k) hks, hrest,
        h.processTask_invocations, List.append_assoc, List.filterMap_cons]
      cases s.invocation? tag readings k <;> rfl

/-! ## Runs -/

/-- The calls of a scheduler. -/
inductive SchedulerCall where
  | schedule (tag : IntervalTaskTag) (period now : Nat)
  | processTasks (tag : IntervalTaskTag) (readings : Nat → TaskReading)

def step (s : IntervalTaskScheduler) : SchedulerCall → Option IntervalTaskScheduler
  | .schedule tag period now => some (s.schedule tag period now)
  | .processTasks tag readings => some (s.processTasks tag readings)

/-- The clock does not go back during a run of a task. -/
def SchedulerCall.ClockForward : SchedulerCall → Prop
  | .schedule .. => True
  | .processTasks _ readings => ∀ k, (readings k).start ≤ (readings k).finish

/-- What is kept: no task is due before its rest is over. -/
structure Ok (s : IntervalTaskScheduler) : Prop extends Timed s where
  resting : ∀ v ∈ s.invocations, ∀ task, s.tasks[v.task]? = some task → v.restsUntil ≤ task.expiredAt
  apart : s.invocations.Pairwise fun v w => v.task = w.task → v.restsUntil ≤ w.reading.start

namespace Ok

theorem new : Ok {} := ⟨Timed.new, fun _ hv => absurd hv List.not_mem_nil, List.Pairwise.nil⟩

theorem schedule (h : Ok s) (tag : IntervalTaskTag) (period now : Nat) : Ok (s.schedule tag period now) := by
  refine ⟨h.toTimed.schedule tag period now, fun v hv task htask => ?_, h.apart⟩
  obtain ⟨task', htask', -⟩ := h.invoked v hv
  rw [IntervalTaskScheduler.schedule,
    List.getElem?_append_left (List.getElem?_eq_some_iff.mp htask').1] at htask
  exact h.resting v hv task htask

/-- A run of a task comes after its rest, and lets it rest again. -/
theorem processTask (h : Ok s) (tag : IntervalTaskTag)
    (hclock : ∀ k, (readings k).start ≤ (readings k).finish) (k : Nat) :
    Ok (s.processTask tag readings k) := by
  have htimed := h.toTimed.processTask tag readings k
  rcases s.processTask_cases tag readings k with ⟨heq, -⟩ | ⟨task, hk, hdue, heq⟩
  · rw [heq]
    exact h
  · rw [Bool.and_eq_true] at hdue
    have hexpired : task.expiredAt ≤ (readings k).start := of_decide_eq_true hdue.2
    have hlt := (List.getElem?_eq_some_iff.mp hk).1
    -- the runs of the task so far rest no longer than until now
    have hover : ∀ v ∈ s.invocations, v.task = k → v.restsUntil ≤ (readings k).start := by
      rintro v hv rfl
      exact Nat.le_trans (h.resting v hv task hk) hexpired
    rw [heq] at htimed ⊢
    refine ⟨htimed, fun v hv other hother => ?_,
      List.pairwise_append.mpr ⟨h.apart, List.pairwise_singleton _ _, ?_⟩⟩
    · by_cases hvk : k = v.task
      · rw [← hvk, List.getElem?_set_self hlt] at hother
        obtain rfl := Option.some.inj hother
        rcases List.mem_append.mp hv with hv | hv
        · have hlater : v.restsUntil ≤ (readings k).finish := Nat.le_trans (hover v hv hvk.symm) (hclock k)
          exact Nat.le_trans hlater (Nat.le_add_right _ _)
        · rw [List.mem_singleton.mp hv]
          exact Nat.le_of_eq (expiredAt_invoke task k (readings k)).symm
      · rw [List.getElem?_set_ne hvk] at hother
        rcases List.mem_append.mp hv with hv | hv
        · exact h.resting v hv other hother
        · exact absurd (congrArg Invocation.task (List.mem_singleton.mp hv)).symm hvk
    · intro v hv w hw hvw
      obtain rfl := List.mem_singleton.mp hw
      exact hover v hv hvw

theorem processTasks (h : Ok s) (tag : IntervalTaskTag)
    (hclock : ∀ k, (readings k).start ≤ (readings k).finish) : Ok (s.processTasks tag readings) := by
  unfold IntervalTaskScheduler.processTasks
  generalize List.range s.tasks.length = ks
  induction ks generalizing s with
  | nil => exact h
  | cons k ks ih => exact ih (h.processTask tag hclock k)

theorem step {call : SchedulerCall} (h : Ok s) (hclock : call.ClockForward) (hstep : s.step call = some t) :
    Ok t := by
  cases call with
  | schedule tag period now =>
      obtain rfl := Option.some.inj hstep
      exact h.schedule tag period now
  | processTasks tag readings =>
      obtain rfl := Option.some.inj hstep
      exact h.processTasks tag hclock

end Ok

/-- **Tasks run when they are due, and not before**, after any calls of `schedule` and `process_tasks`, as long
as the clock does not go back while a task runs.  The times kept in the list are then those that the history
of runs says (`Ok`), and what a call does is read off them. -/
theorem intervals_of_run {calls : List SchedulerCall} (hclock : ∀ call ∈ calls, call.ClockForward)
    (hrun : run step {} calls = some s) : s.Intervals := by
  have h := run_invariant_along (P := Ok) (G := fun _ call => call.ClockForward)
    (fun _ _ _ h hclock hstep => h.step hclock hstep) Ok.new
    (Along.of_forall_mem fun call hcall _ => hclock call hcall) hrun
  refine ⟨fun tag readings => h.toTimed.foldl_invocations List.nodup_range, h.apart, fun v hv => ?_⟩
  obtain ⟨task, htask, hperiod⟩ := h.invoked v hv
  rw [htask, Option.map_some, hperiod]

/-- Both tasks are due and throw, and are put off for four periods; then the clean-up is due again. -/
def putOff : List SchedulerCall :=
  [.schedule .announceServer 5000 0, .schedule .cleanConnection 2000 0,
    .processTasks .invalid fun _ => { start := 6000, finish := 6010, throws := true },
    .processTasks .cleanConnection fun _ => { start := 20000, finish := 20000 }]

theorem intervals_of_run_putOff : ∃ s, run step {} putOff = some s ∧ s.Intervals := by
  refine ⟨_, rfl, intervals_of_run ?_ (rfl : run step {} putOff = _)⟩
  simp [putOff, SchedulerCall.ClockForward]

end IntervalTaskScheduler

end Mmocraft.Util
