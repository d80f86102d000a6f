/-
# Mmocraft.Game.TaskRecovery -- the world tasks and their failures

The five tasks of `world_tasks` as fallible tasks.  `World::tick` visits them one after the other and
schedules those that are ready; the result of `PostQueuedCompletionStatus` is dropped.  The event loop
takes a completion out of the queue and calls the handler of the task; an exception of the handler is
caught there, behind the lines that clear the target and set the state.

So a task recovers as long as there is nothing to recover from: after the first failure its state is
`processing` for ever.
-/
import Mmocraft.Game.TaskDelivery
import Mmocraft.Lib.FallibleTask

namespace Mmocraft.Game

open Mmocraft.Lib Mmocraft.Lib.FallibleTask

/-! ## The tasks -/

namespace Task

def isProcessing (t : Task) : Bool := t.state == .processing

/-- The completion is taken out of the queue; the handler is called before the state is set. -/
def dequeue (t : Task) : Task := { t with completionQueued := false }

theorem isProcessing_of_isUnused {t : Task} (h : t.isUnused = true) : t.isProcessing = false := by
  have hstate : t.state = .unused := by simpa [isUnused] using h
  rw [isProcessing, hstate]
  rfl

end Task

/-- `WorldPlayerTask`. -/
def fallibleWorldPlayerTask : FallibleTask WorldPlayerTask Unit fun _ => Nat where
  toBufferedTask := worldPlayerTask
  processing t := t.isProcessing
  dequeue t := { t with toTask := t.toTask.dequeue }

/-- `BlockSyncTask`. -/
def fallibleBlockSyncTask : FallibleTask BlockSyncTask BlockSyncChannel BlockSyncChannel.Record where
  toBufferedTask := blockSyncTask
  processing t := t.isProcessing
  dequeue t := { t with toTask := t.toTask.dequeue }

/-- `CommonChatTask`. -/
def fallibleCommonChatTask : FallibleTask CommonChatTask Unit fun _ => List UInt8 where
  toBufferedTask := commonChatTask
  processing t := t.isProcessing
  dequeue t := { t with toTask := t.toTask.dequeue }

/-- `SimpleTask`: nothing is pushed to it. -/
def fallibleSimpleTask : FallibleTask Task Empty fun _ => Unit where
  live _ i := nomatch i
  output _ i := nomatch i
  idle t := t.isUnused
  queued t := t.completionQueued
  push _ i := nomatch i
  ready := Task.ready
  schedule := Task.schedule
  finish := Task.finish
  processing t := t.isProcessing
  dequeue := Task.dequeue

/-! ## Their laws -/

theorem fallibleWorldPlayerTask_lawful : fallibleWorldPlayerTask.Lawful where
  toLawful := worldPlayerTask_lawful
  processing_of_idle _ h := Task.isProcessing_of_isUnused h
  push_processing _ _ _ := rfl
  schedule_processing _ _ _ := rfl
  schedule_queued _ _ _ := rfl
  finish_processing _ := rfl
  dequeue_live _ := rfl
  dequeue_output _ := rfl
  dequeue_idle _ := rfl
  dequeue_processing _ := rfl
  dequeue_queued _ := rfl

theorem fallibleBlockSyncTask_lawful : fallibleBlockSyncTask.Lawful where
  toLawful := blockSyncTask_lawful
  processing_of_idle _ h := Task.isProcessing_of_isUnused h
  push_processing _ i _ := by cases i <;> rfl
  schedule_processing _ _ _ := rfl
  schedule_queued _ _ _ := rfl
  finish_processing _ := rfl
  dequeue_live _ := by
    funext i
    cases i <;> rfl
  dequeue_output _ := by
    funext i
    cases i <;> rfl
  dequeue_idle _ := rfl
  dequeue_processing _ := rfl
  dequeue_queued _ := rfl

theorem fallibleCommonChatTask_lawful : fallibleCommonChatTask.Lawful where
  toLawful := commonChatTask_lawful
  processing_of_idle _ h := Task.isProcessing_of_isUnused h
  push_processing _ _ _ := rfl
  schedule_processing _ _ _ := rfl
  schedule_queued _ _ _ := rfl
  finish_processing _ := rfl
  dequeue_live _ := rfl
  dequeue_output _ := rfl
  dequeue_idle _ := rfl
  dequeue_processing _ := rfl
  dequeue_queued _ := rfl

theorem fallibleSimpleTask_lawful : fallibleSimpleTask.Lawful where
  push_accepted _ i := nomatch i
  push_refused _ i := nomatch i
  push_output _ i := nomatch i
  push_idle _ i := nomatch i
  push_queued _ i := nomatch i
  idle_of_ready _ _ h := Task.isUnused_of_ready h
  schedule_live _ _ _ := by
    funext i
    exact nomatch i
  schedule_output _ _ _ := by
    funext i
    exact nomatch i
  schedule_idle _ _ _ := rfl
  finish_live _ := rfl
  finish_output _ i := nomatch i
  finish_queued _ := rfl
  processing_of_idle _ h := Task.isProcessing_of_isUnused h
  push_processing _ i := nomatch i
  schedule_processing _ _ _ := rfl
  schedule_queued _ _ _ := rfl
  finish_processing _ := rfl
  dequeue_live _ := rfl
  dequeue_output _ := rfl
  dequeue_idle _ := rfl
  dequeue_processing _ := rfl
  dequeue_queued _ := rfl

/-! ## The tasks of the world -/

namespace WorldTaskId

/-- The class of the task. -/
def State : WorldTaskId → Type
  | spawnPlayer => WorldPlayerTask
  | disconnectPlayer => WorldPlayerTask
  | syncBlock => BlockSyncTask
  | syncPlayerPosition => Task
  | commonChatTransfer => CommonChatTask

/-- What can be pushed to the task. -/
def Channel : WorldTaskId → Type
  | spawnPlayer => Unit
  | disconnectPlayer => Unit
  | syncBlock => BlockSyncChannel
  | syncPlayerPosition => Empty
  | commonChatTransfer => Unit

instance : (k : WorldTaskId) → DecidableEq k.Channel
  | spawnPlayer => inferInstanceAs (DecidableEq Unit)
  | disconnectPlayer => inferInstanceAs (DecidableEq Unit)
  | syncBlock => inferInstanceAs (DecidableEq BlockSyncChannel)
  | syncPlayerPosition => inferInstanceAs (DecidableEq Empty)
  | commonChatTransfer => inferInstanceAs (DecidableEq Unit)

/-- The records of a channel. -/
def Record : (k : WorldTaskId) → k.Channel → Type
  | spawnPlayer, _ => Nat
  | disconnectPlayer, _ => Nat
  | syncBlock, channel => BlockSyncChannel.Record channel
  | syncPlayerPosition, _ => Unit
  | commonChatTransfer, _ => List UInt8

/-- A task as it is constructed. -/
def new (intervalMs : Nat) : (k : WorldTaskId) → k.State
  | spawnPlayer => ({ intervalMs := intervalMs } : WorldPlayerTask)
  | disconnectPlayer => ({ intervalMs := intervalMs } : WorldPlayerTask)
  | syncBlock => ({ intervalMs := intervalMs } : BlockSyncTask)
  | syncPlayerPosition => ({ intervalMs := intervalMs } : Task)
  | commonChatTransfer => ({ intervalMs := intervalMs } : CommonChatTask)

end WorldTaskId

/-- `world_tasks`. -/
def worldTasks : (k : WorldTaskId) → FallibleTask k.State k.Channel k.Record
  | .spawnPlayer => fallibleWorldPlayerTask
  | .disconnectPlayer => fallibleWorldPlayerTask
  | .syncBlock => fallibleBlockSyncTask
  | .syncPlayerPosition => fallibleSimpleTask
  | .commonChatTransfer => fallibleCommonChatTask

/-- The world tasks before the first tick. -/
def initialTasks (intervalMs : WorldTaskId → Nat) (k : WorldTaskId) : Execution k.State k.Channel k.Record :=
  { task := k.new (intervalMs k) }

theorem worldTasks_lawful (k : WorldTaskId) : (worldTasks k).Lawful := by
  cases k with
  | spawnPlayer => exact fallibleWorldPlayerTask_lawful
  | disconnectPlayer => exact fallibleWorldPlayerTask_lawful
  | syncBlock => exact fallibleBlockSyncTask_lawful
  | syncPlayerPosition => exact fallibleSimpleTask_lawful
  | commonChatTransfer => exact fallibleCommonChatTask_lawful

/-- **The world tasks recover**, in every state of a run, exactly if every completion of a task that is
visited ready gets into the queue and no handler throws. A task is ready again only after its handler has
returned; nothing in the source looks for one that never will. -/
theorem worldTasks_recover_iff {intervalMs : WorldTaskId → Nat}
    {es : List ((k : WorldTaskId) × Event k.Channel k.Record)}
    {s : (k : WorldTaskId) → Execution k.State k.Channel k.Record}
    (hrun : run (stepEach worldTasks) (initialTasks intervalMs) es = some s) :
    EachState (stepEach worldTasks) (AllRecover worldTasks) (initialTasks intervalMs) es ↔
      Along (stepEach worldTasks) (NoFailureOf worldTasks) (initialTasks intervalMs) es := by
  apply eachState_recovers_iff worldTasks_lawful _ _ _ _ hrun
  · intro k i
    cases k with
    | syncBlock => cases i <;> rfl
    | syncPlayerPosition => exact nomatch i
    | _ => rfl
  · intro k i
    cases k with
    | syncBlock => cases i <;> rfl
    | syncPlayerPosition => exact nomatch i
    | _ => rfl
  · intro k
    cases k <;> rfl
  · intro k
    cases k <;> rfl

/-- A player waits for the spawn task, which is scheduled and run. -/
def spawnRound : List ((k : WorldTaskId) × Event k.Channel k.Record) :=
  [⟨.spawnPlayer, .push () (7 : Nat)⟩, ⟨.spawnPlayer, .visit 1 1 true⟩, ⟨.spawnPlayer, .dequeue⟩,
    ⟨.spawnPlayer, .finish⟩]

theorem worldTasks_recover_spawnRound :
    EachState (stepEach worldTasks) (AllRecover worldTasks) (initialTasks fun _ => 100) spawnRound := by
  obtain ⟨s, hs⟩ := Option.isSome_iff_exists.mp
    (show (run (stepEach worldTasks) (initialTasks fun _ => 100) spawnRound).isSome = true from rfl)
  apply (worldTasks_recover_iff hs).mpr
  exact ⟨trivial, fun _ _ => ⟨fun _ => rfl, fun _ _ => ⟨trivial, fun _ _ => ⟨trivial, fun _ _ => trivial⟩⟩⟩⟩

/-- The completion of the spawn task does not get into the queue, or its handler throws: the task is
processing, and neither queued nor executed. -/
theorem spawnTask_disabled :
    (∃ s, run (stepEach worldTasks) (initialTasks fun _ => 100)
        [⟨.spawnPlayer, .push () (7 : Nat)⟩, ⟨.spawnPlayer, .visit 1 1 false⟩] = some s ∧
      (worldTasks .spawnPlayer).Disabled (s .spawnPlayer) ∧ ¬ AllRecover worldTasks s) ∧
    ∃ s, run (stepEach worldTasks) (initialTasks fun _ => 100)
        [⟨.spawnPlayer, .push () (7 : Nat)⟩, ⟨.spawnPlayer, .visit 1 1 true⟩, ⟨.spawnPlayer, .dequeue⟩,
          ⟨.spawnPlayer, .throw⟩] = some s ∧
      (worldTasks .spawnPlayer).Disabled (s .spawnPlayer) ∧ ¬ AllRecover worldTasks s := by
  constructor
  · refine ⟨_, rfl, ?_, ?_⟩
    · exact ⟨rfl, rfl, rfl⟩
    · exact not_allRecover (k := .spawnPlayer) ⟨rfl, rfl, rfl⟩
  · refine ⟨_, rfl, ?_, ?_⟩
    · exact ⟨rfl, rfl, rfl⟩
    · exact not_allRecover (k := .spawnPlayer) ⟨rfl, rfl, rfl⟩

/-- **A world task that has failed is lost.** Once a task is processing with no run of it queued or in
progress, it stays so, whatever happens to it and to the other tasks, and nothing that was pushed to it is
handled any more. -/
theorem worldTasks_disabled_of_run {s t : (k : WorldTaskId) → Execution k.State k.Channel k.Record}
    {k : WorldTaskId} (h : (worldTasks k).Disabled (s k))
    {es : List ((k : WorldTaskId) × Event k.Channel k.Record)}
    (hrun : run (stepEach worldTasks) s es = some t) :
    (worldTasks k).Disabled (t k) ∧ (t k).handled = (s k).handled :=
  disabled_of_run worldTasks_lawful h hrun

/-- A player waits for the spawn task, whose completion does not get into the queue. -/
def lostSpawn : List ((k : WorldTaskId) × Event k.Channel k.Record) :=
  [⟨.spawnPlayer, .push () (7 : Nat)⟩, ⟨.spawnPlayer, .visit 1 1 false⟩]

/-- Another player comes to wait, and ticks go on to visit the tasks. -/
def ticksAfterLoss : List ((k : WorldTaskId) × Event k.Channel k.Record) :=
  [⟨.spawnPlayer, .push () (8 : Nat)⟩, ⟨.syncBlock, .visit 2 2 true⟩, ⟨.spawnPlayer, .visit 5000 5000 true⟩]

/-- Neither of the two is ever spawned. -/
theorem worldTasks_disabled_of_run_lostSpawn :
    ∃ s t, run (stepEach worldTasks) (initialTasks fun _ => 100) lostSpawn = some s ∧
      run (stepEach worldTasks) s ticksAfterLoss = some t ∧
      (worldTasks .spawnPlayer).Disabled (t .spawnPlayer) ∧
      (t .spawnPlayer).handled = (s .spawnPlayer).handled := by
  refine ⟨_, _, rfl, rfl, ?_⟩
  exact worldTasks_disabled_of_run (k := .spawnPlayer) ⟨rfl, rfl, rfl⟩
    (show run (stepEach worldTasks) _ ticksAfterLoss = some _ from rfl)

end Mmocraft.Game
