/-
# Mmocraft.Game.TaskDelivery -- the world tasks deliver exactly once

The three kinds of double-buffered world tasks, seen as buffered tasks: the queue of players and the
input buffer of a history are the live side, the players and the buffer that the handler reads are the
output.  A run of a task is not one event here: it begins with the handler and ends when the handler
has returned, and pushes and ticks fall in between.
-/
import Mmocraft.Game.WorldTask
import Mmocraft.Lib.BufferedTask

namespace Mmocraft.Game

open Mmocraft.Lib Mmocraft.Lib.BufferedTask

/-- A task that is neither scheduled nor handled. -/
def Task.isUnused (t : Task) : Bool := t.state == .unused

/-! ## The three kinds of tasks -/

/-- `WorldPlayerTask`: one channel, of players. -/
def worldPlayerTask : BufferedTask WorldPlayerTask Unit fun _ => Nat where
  live t _ := t.queue
  output t _ := t.target
  idle t := t.isUnused
  queued t := t.completionQueued
  push t _ player := (t.push player, true)
  ready := WorldPlayerTask.ready
  schedule := WorldPlayerTask.schedule
  finish := WorldPlayerTask.finish

/-- What is pushed to a `BlockSyncTask`. -/
inductive BlockSyncChannel where
  | player
  | block
  deriving DecidableEq, Repr

/-- The records of a channel of `BlockSyncTask`. -/
def BlockSyncChannel.Record : BlockSyncChannel → Type
  | player => Nat
  | block => BlockHistoryRecord

/-- `BlockSyncTask`: the players that wait for the level, and the block history. -/
def blockSyncTask : BufferedTask BlockSyncTask BlockSyncChannel BlockSyncChannel.Record where
  live t
    | .player => t.queue
    | .block => t.blockHistory.live
  output t
    | .player => t.target
    | .block => t.blockHistory.output
  idle t := t.isUnused
  queued t := t.completionQueued
  push t
    | .player, player => (t.push player, true)
    | .block, r => t.pushBlock r
  ready := BlockSyncTask.ready
  schedule := BlockSyncTask.schedule
  finish := BlockSyncTask.finish

/-- `CommonChatTask`: one channel, of chat packets. -/
def commonChatTask : BufferedTask CommonChatTask Unit fun _ => List UInt8 where
  live t _ := t.commonChatHistory.live
  output t _ := t.commonChatHistory.output
  idle t := t.isUnused
  queued t := t.completionQueued
  push t _ chatPacketData := t.push chatPacketData
  ready := CommonChatTask.ready
  schedule := CommonChatTask.schedule
  finish := CommonChatTask.finish

/-! ## Their laws -/

theorem Task.isUnused_of_ready {t : Task} {now : Nat} (h : t.ready now = true) :
    t.isUnused = true := by
  rw [Task.ready, Bool.and_eq_true] at h
  exact h.1

theorem worldPlayerTask_lawful : worldPlayerTask.Lawful where
  push_accepted t i a _ := by
    funext j
    rw [Function.update_self]
    rfl
  push_refused t i a h := nomatch h
  push_output _ _ _ := rfl
  push_idle _ _ _ := rfl
  push_queued _ _ _ := rfl
  idle_of_ready t now h := by
    have hready : (t.toTask.ready now && !t.queue.isEmpty) = true := h
    rw [Bool.and_eq_true] at hready
    exact Task.isUnused_of_ready hready.1
  schedule_live _ _ _ := rfl
  schedule_output _ _ _ := rfl
  schedule_idle _ _ _ := rfl
  finish_live _ := rfl
  finish_output _ _ := rfl
  finish_queued _ := rfl

theorem blockSyncTask_lawful : blockSyncTask.Lawful where
  push_accepted t i a h := by
    funext j
    cases i with
    | player =>
        cases j with
        | player =>
            rw [Function.update_self]
            rfl
        | block =>
            rw [Function.update_of_ne (by decide)]
            rfl
    | block =>
        cases j with
        | player =>
            rw [Function.update_of_ne (by decide)]
            rfl
        | block =>
            rw [Function.update_self]
            exact congrArg DoubleBuffering.live (DoubleBuffering.push_of_ok h)
  push_refused t i a h := by
    cases i with
    | player => exact nomatch h
    | block =>
        show { t with blockHistory := _ } = t
        rw [DoubleBuffering.push_of_refused h]
  push_output t i a := by
    funext j
    cases i with
    | player => cases j <;> rfl
    | block =>
        cases j with
        | player => rfl
        | block => exact DoubleBuffering.push_output ..
  push_idle t i a := by cases i <;> rfl
  push_queued t i a := by cases i <;> rfl
  idle_of_ready t now h := by
    have hready : (t.toTask.ready now &&
        (t.blockHistory.hasLiveData (fun _ => historyDataUnitSize) || !t.queue.isEmpty)) = true := h
    rw [Bool.and_eq_true] at hready
    exact Task.isUnused_of_ready hready.1
  schedule_live t now posted := by
    funext j
    cases j <;> rfl
  schedule_output t now posted := by
    funext j
    cases j <;> rfl
  schedule_idle _ _ _ := rfl
  finish_live t := by
    funext j
    cases j <;> rfl
  finish_output t i := by cases i <;> rfl
  finish_queued _ := rfl

theorem commonChatTask_lawful : commonChatTask.Lawful where
  push_accepted t i a h := by
    funext j
    rw [Function.update_self]
    exact congrArg DoubleBuffering.live (DoubleBuffering.push_of_ok h)
  push_refused t i a h := by
    show { t with commonChatHistory := _ } = t
    rw [DoubleBuffering.push_of_refused h]
  push_output t i a := by
    funext j
    exact DoubleBuffering.push_output ..
  push_idle _ _ _ := rfl
  push_queued _ _ _ := rfl
  idle_of_ready t now h := by
    have hready : (t.toTask.ready now && t.commonChatHistory.hasLiveData List.length) = true := h
    rw [Bool.and_eq_true] at hready
    exact Task.isUnused_of_ready hready.1
  schedule_live _ _ _ := rfl
  schedule_output _ _ _ := rfl
  schedule_idle _ _ _ := rfl
  finish_live _ := rfl
  finish_output _ _ := rfl
  finish_queued _ := rfl

/-! ## Delivery -/

/-- **The world tasks.** After every interleaving of pushes, scheduling decisions and runs, with any
clock, each of the tasks has given its handler what was pushed, in order and once, and still holds the
rest; and its buffers are not exchanged while the handler runs. -/
theorem worldTasks_deliverOnce (intervalMs : Nat) :
    (∀ es c, run worldPlayerTask.step { task := { intervalMs := intervalMs } } es = some c →
      worldPlayerTask.DeliversOnce c) ∧
    (∀ es c, run blockSyncTask.step { task := { intervalMs := intervalMs } } es = some c →
      blockSyncTask.DeliversOnce c) ∧
    (∀ es c, run commonChatTask.step { task := { intervalMs := intervalMs } } es = some c →
      commonChatTask.DeliversOnce c) := by
  refine ⟨fun es c hrun => ?_, fun es c hrun => ?_, fun es c hrun => ?_⟩
  · exact worldPlayerTask_lawful.deliversOnce (fun _ => rfl) (fun _ => rfl) rfl hrun
  · refine blockSyncTask_lawful.deliversOnce (fun i => ?_) (fun i => ?_) rfl hrun
    · cases i <;> rfl
    · cases i <;> rfl
  · exact commonChatTask_lawful.deliversOnce (fun _ => rfl) (fun _ => rfl) rfl hrun

/-- A chat packet arrives before the task is scheduled, one while its run waits, one while its handler
runs; the task is scheduled again after the run. -/
def interleavedChat : List (Event Unit fun _ => List UInt8) :=
  [.push () [1], .schedule 1 1 true, .push () [2], .start, .push () [3], .schedule 2 2 true, .finish] ++
  [.schedule 1002 1002 true]

theorem worldTasks_deliverOnce_interleavedChat :
    ∃ c, run commonChatTask.step { task := { intervalMs := 1000 } } interleavedChat = some c ∧
      commonChatTask.DeliversOnce c := by
  obtain ⟨c, hc⟩ := Option.isSome_iff_exists.mp
    (show (run commonChatTask.step { task := { intervalMs := 1000 } } interleavedChat).isSome = true by
      decide)
  exact ⟨c, hc, (worldTasks_deliverOnce 1000).2.2 _ c hc⟩

end Mmocraft.Game
