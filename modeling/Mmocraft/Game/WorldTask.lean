/-
# Mmocraft.Game.WorldTask -- the double-buffered tasks of the world

`io::Task` with its cooldown, and the three kinds of world tasks that swap what was pushed for what
is being handled when they are scheduled.  A task whose completion could not be posted stays in
`State::processing`.

Records are kept whole here, and the only thing that is left of their bytes is their length, by which a push
is refused. That the buffers of the source do the same is shown in `Util.ConcurrentBuffer`, for calls that do
not overlap, and for the bytes of block records in `Game.BlockHistory`.
-/
import Mathlib.Algebra.GroupWithZero.Nat
import Mathlib.Data.List.Basic
import Mathlib.Tactic.Common

namespace Mmocraft.Game

/-- `io::Task::State`. -/
inductive TaskState where
  | unused
  | processing
  | failed
  deriving DecidableEq, Repr

/-- The entries of `world_tasks`, in order. -/
inductive WorldTaskId where
  | spawnPlayer
  | disconnectPlayer
  | syncBlock
  | syncPlayerPosition
  | commonChatTransfer
  deriving DecidableEq, Repr

/-- `io::Task`; `completionQueued` says whether the completion of the task is in the completion
queue. -/
structure Task where
  intervalMs : Nat
  state : TaskState := .unused
  cooldownAt : Nat := 0
  completionQueued : Bool := false
  deriving DecidableEq, Repr

namespace Task

/-- `ready`. -/
def ready (t : Task) (now : Nat) : Bool := t.state == .unused && decide (t.cooldownAt < now)

/-- `set_state(State::processing)` followed by the post of the completion. -/
def schedule (t : Task) (now : Nat) (posted : Bool) : Task :=
  { t with state := .processing, cooldownAt := t.intervalMs + now, completionQueued := posted }

/-- `set_state(State::unused)` at the end of the completion. -/
def finish (t : Task) : Task := { t with state := .unused, completionQueued := false }

end Task

/-- `DoubleBuffering` at record granularity: the records pushed since the last switch, and those of
the buffer that was switched out.  A call is one step; `Util.ConcurrentBuffer` takes its steps apart, and
its whole calls refine these. -/
structure DoubleBuffering (α : Type) where
  live : List α := []
  output : List α := []
  deriving DecidableEq, Repr

namespace DoubleBuffering

variable {α : Type}

/-- `Buffer::push` of a record of `sizeOf` bytes into a buffer of `capacity` bytes. -/
def push (capacity : Nat) (sizeOf : α → Nat) (b : DoubleBuffering α) (a : α) :
    DoubleBuffering α × Bool :=
  if (b.live.map sizeOf).sum + sizeOf a > capacity then (b, false)
  else ({ b with live := b.live ++ [a] }, true)

@[simp] theorem push_output (capacity : Nat) (sizeOf : α → Nat) (b : DoubleBuffering α) (a : α) :
    (b.push capacity sizeOf a).1.output = b.output := by
  unfold push
  split_ifs <;> rfl

theorem push_of_refused {capacity : Nat} {sizeOf : α → Nat} {b : DoubleBuffering α} {a : α}
    (h : (b.push capacity sizeOf a).2 = false) : (b.push capacity sizeOf a).1 = b := by
  unfold push at h ⊢
  split_ifs at h ⊢
  rfl

theorem push_of_ok {capacity : Nat} {sizeOf : α → Nat} {b : DoubleBuffering α} {a : α}
    (h : (b.push capacity sizeOf a).2 = true) :
    (b.push capacity sizeOf a).1 = { b with live := b.live ++ [a] } := by
  unfold push at h ⊢
  split_ifs at h ⊢
  rfl

theorem push_accepts_iff (capacity : Nat) (sizeOf : α → Nat) (b : DoubleBuffering α) (a : α) :
    (b.push capacity sizeOf a).2 = true ↔ (b.live.map sizeOf).sum + sizeOf a ≤ capacity := by
  unfold push
  split_ifs with hfull
  · exact iff_of_false (by simp) (by omega)
  · exact iff_of_true rfl (by omega)

/-- `snapshot`: the two buffers change places. -/
def snapshot (b : DoubleBuffering α) : DoubleBuffering α := { live := b.output, output := b.live }

/-- `clear_snapshot`. -/
def clearSnapshot (b : DoubleBuffering α) : DoubleBuffering α := { b with output := [] }

/-- `has_live_data`: the size of the input buffer is not zero. -/
def hasLiveData (sizeOf : α → Nat) (b : DoubleBuffering α) : Bool := decide (0 < (b.live.map sizeOf).sum)

end DoubleBuffering

/-- `WorldPlayerTask`: players by identity. -/
structure WorldPlayerTask extends Task where
  queue : List Nat := []
  target : List Nat := []
  deriving DecidableEq, Repr

namespace WorldPlayerTask

def ready (t : WorldPlayerTask) (now : Nat) : Bool := t.toTask.ready now && !t.queue.isEmpty

/-- `before_scheduling` and the post of the completion. -/
def schedule (t : WorldPlayerTask) (now : Nat) (posted : Bool) : WorldPlayerTask :=
  { toTask := t.toTask.schedule now posted, queue := t.target, target := t.queue }

def push (t : WorldPlayerTask) (player : Nat) : WorldPlayerTask :=
  { t with queue := t.queue ++ [player] }

/-- The end of `on_event_complete`. -/
def finish (t : WorldPlayerTask) : WorldPlayerTask :=
  { t with toTask := t.toTask.finish, target := [] }

/-- The players the task refers to. -/
def players (t : WorldPlayerTask) : List Nat := t.queue ++ t.target

theorem mem_players_push {t : WorldPlayerTask} {p q : Nat} :
    q ∈ (t.push p).players ↔ q = p ∨ q ∈ t.players := by
  simp only [players, push, List.mem_append, List.mem_singleton]
  tauto

theorem mem_players_schedule {t : WorldPlayerTask} {now : Nat} {posted : Bool} {q : Nat} :
    q ∈ (t.schedule now posted).players ↔ q ∈ t.players := by
  simp only [players, schedule, List.mem_append]
  exact or_comm

theorem count_players_push (t : WorldPlayerTask) (p q : Nat) :
    (t.push q).players.count p = t.players.count p + if q = p then 1 else 0 := by
  simp only [players, push, List.count_append, List.count_singleton, beq_iff_eq]
  omega

theorem count_players_schedule (t : WorldPlayerTask) (now : Nat) (posted : Bool) (p : Nat) :
    (t.schedule now posted).players.count p = t.players.count p := by
  simp only [players, schedule, List.count_append]
  exact Nat.add_comm _ _

theorem mem_players_of_finish {t : WorldPlayerTask} {q : Nat} (h : q ∈ t.finish.players) :
    q ∈ t.players := by
  simp only [players, finish, List.append_nil] at h
  exact List.mem_append_left _ h

theorem mem_players_of_target {t : WorldPlayerTask} {q : Nat} (h : q ∈ t.target) :
    q ∈ t.players := List.mem_append_right _ h

end WorldPlayerTask

/-- `BlockHistoryRecord`, without the packet id, which is the same for all. -/
structure BlockHistoryRecord where
  x : BitVec 16
  y : BitVec 16
  z : BitVec 16
  blockId : UInt8
  deriving DecidableEq, Repr

/-- `BlockHistory::history_data_unit_size`. -/
def historyDataUnitSize : Nat := 8

/-- `config::memory::block_history_capacity`. -/
def blockHistoryCapacity : Nat := 1024 * 8

/-- `config::memory::common_chat_history_capacity`. -/
def commonChatHistoryCapacity : Nat := 8192

/-- `BlockSyncTask`: its players and its block history. -/
structure BlockSyncTask extends WorldPlayerTask where
  blockHistory : DoubleBuffering BlockHistoryRecord := {}
  deriving DecidableEq, Repr

namespace BlockSyncTask

/-- `push` of a player. -/
def push (t : BlockSyncTask) (player : Nat) : BlockSyncTask :=
  { t with toWorldPlayerTask := t.toWorldPlayerTask.push player }

/-- `push` of a block change; `add_record` makes the record of it. -/
def pushBlock (t : BlockSyncTask) (r : BlockHistoryRecord) : BlockSyncTask × Bool :=
  let result := t.blockHistory.push blockHistoryCapacity (fun _ => historyDataUnitSize) r
  ({ t with blockHistory := result.1 }, result.2)

def ready (t : BlockSyncTask) (now : Nat) : Bool :=
  t.toTask.ready now &&
    (t.blockHistory.hasLiveData (fun _ => historyDataUnitSize) || !t.queue.isEmpty)

def schedule (t : BlockSyncTask) (now : Nat) (posted : Bool) : BlockSyncTask :=
  { toWorldPlayerTask := t.toWorldPlayerTask.schedule now posted
    blockHistory := t.blockHistory.snapshot }

def finish (t : BlockSyncTask) : BlockSyncTask :=
  { toWorldPlayerTask := t.toWorldPlayerTask.finish
    blockHistory := t.blockHistory.clearSnapshot }

end BlockSyncTask

/-- `CommonChatTask`. -/
structure CommonChatTask extends Task where
  commonChatHistory : DoubleBuffering (List UInt8) := {}
  deriving DecidableEq, Repr

namespace CommonChatTask

def push (t : CommonChatTask) (chatPacketData : List UInt8) : CommonChatTask × Bool :=
  let result := t.commonChatHistory.push commonChatHistoryCapacity List.length chatPacketData
  ({ t with commonChatHistory := result.1 }, result.2)

def ready (t : CommonChatTask) (now : Nat) : Bool :=
  t.toTask.ready now && t.commonChatHistory.hasLiveData List.length

def schedule (t : CommonChatTask) (now : Nat) (posted : Bool) : CommonChatTask :=
  { toTask := t.toTask.schedule now posted, commonChatHistory := t.commonChatHistory.snapshot }

def finish (t : CommonChatTask) : CommonChatTask :=
  { toTask := t.toTask.finish, commonChatHistory := t.commonChatHistory.clearSnapshot }

end CommonChatTask

end Mmocraft.Game
