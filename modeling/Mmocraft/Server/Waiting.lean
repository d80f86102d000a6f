/-
# Mmocraft.Server.Waiting -- the players that wait for their level or for their spawn

A player in `levelInitializing` waits for `sync_block_task`, one in `spawning` for
`spawn_player_task`.  The task takes its queue when it is scheduled and drops what it took at the end of
its run.  A player that is still waiting then is queued nowhere, and nothing queues it again: the task
forgets whom it could not send to, and all whom it took if its completion was not posted.

`Remembers` is the invariant of one such task, for the level and for the spawn alike: whoever waits is in the
queue, or in the list that the task took while its completion is queued. The moves by which nobody starts to
wait (`NoneStarts`) keep it for free; a tick that queues a player adds it to both sides, and the condition
`LeavesNobody` is what the schedule and the run need.

A callback runs between the sends of a transfer and changes the state of the player that was sent to, so the
players of a run are followed through the whole transfer by `Advances`: each stays as it was, or ends its
stage.
-/
import Mmocraft.Server.ConnectionTable
import Mmocraft.Server.Stages

namespace Mmocraft

open Mmocraft.Lib Mmocraft.Game Mmocraft.Net

/-! ## Waiting

Whoever waits for the level or for the spawn has to be in the queue of that task, or among those its queued
run will serve; otherwise nothing will ever move it on.
-/

/-- The states in which a player waits for a task. -/
def IsWaiting (st : State) : Prop := st = .levelInitializing ∨ st = .spawning

/-- No stage ends in a state of waiting. -/
theorem IsStage.next_not_waiting {cur next : State} (h : IsStage cur next) : ¬ IsWaiting next := by
  rintro (rfl | rfl)
  · exact h.not_begins .levelInitializing
  · exact h.not_begins .spawning

/-- No transition leads into a waiting state. -/
theorem IsStaged.next_not_waiting {st : PlayerState} (h : IsStaged st) : ¬ IsWaiting st.nextState := by
  rcases h with hstage | ⟨-, cur, hstage⟩
  · exact hstage.next_not_waiting
  · exact hstage.next_not_waiting

/-- The posts and the sends of the event succeed. -/
def Event.Accepts : Event → Prop
  | .schedule _ _ posted => posted = true
  | .runTask _ o o' => (∀ k, o k = true) ∧ ∀ k, o' k = true
  | _ => True

namespace Server

/-- An online player is in that state. -/
def Waits (s : Server) (st : State) (p : Nat) : Prop := s.Attached p ∧ (s.players p).state = st

/-- While the task has no run in progress, the players that wait for it are in its queue. -/
def Queues (s : Server) (task : WorldPlayerTask) (st : State) : Prop :=
  task.completionQueued = false → ∀ p, s.Waits st p → p ∈ task.queue

/-- **No joining player is forgotten.** Whoever waits for one of the two tasks while no run of it is under
way is in its queue. -/
structure NoneForgotten (s : Server) : Prop where
  level : s.Queues s.world.syncBlockTask.toWorldPlayerTask .levelInitializing
  spawn : s.Queues s.world.spawnPlayerTask .spawning

/-- A task that is scheduled is posted, if somebody waits for it. -/
def PostsWaiting (s : Server) (task : WorldPlayerTask) (st : State) (posted : Bool) : Prop :=
  posted = true ∨ ∀ p ∈ task.queue, ¬ s.Waits st p

/-- Every player that waits for the run of a task is sent to with success. -/
def ServesWaiting (s : Server) (task : WorldPlayerTask) (st : State) (o : Outcomes) : Prop :=
  ∀ p ∈ task.target, s.Waits st p → ∃ k, task.target[k]? = some p ∧ o k = true

/-- The event leaves no waiting player behind. -/
def LeavesNobody (s : Server) : Event → Prop
  | .schedule .syncBlock now posted => s.world.syncBlockTask.ready now = true →
      s.PostsWaiting s.world.syncBlockTask.toWorldPlayerTask .levelInitializing posted
  | .schedule .spawnPlayer now posted => s.world.spawnPlayerTask.ready now = true →
      s.PostsWaiting s.world.spawnPlayerTask .spawning posted
  | .runTask .syncBlock _ o' =>
      s.ServesWaiting s.world.syncBlockTask.toWorldPlayerTask .levelInitializing o'
  | .runTask .spawnPlayer o _ => s.ServesWaiting s.world.spawnPlayerTask .spawning o
  | _ => True

/-! ## One task

The two tasks that players wait for are the same to this argument: a list that ticks add to, a list that a
run serves, and a state that the callback ends.
-/

/-- The players that wait for the task are in its queue, or taken by its run. -/
def Remembers (s : Server) (task : WorldPlayerTask) (st : State) : Prop :=
  ∀ p, s.Waits st p → p ∈ task.queue ∨ (task.completionQueued = true ∧ p ∈ task.target)

namespace Remembers

variable {s t : Server} {task : WorldPlayerTask} {st : State}

/-- Who is remembered is queued, once nothing is under way. -/
theorem queues (h : s.Remembers task st) : s.Queues task st := by
  intro hidle p hp
  rcases h p hp with hqueue | ⟨hqueued, -⟩
  · exact hqueue
  · rw [hidle] at hqueued
    cases hqueued

/-- The task remembers fewer players as well. -/
theorem kept (h : s.Remembers task st) (hwaits : ∀ p, t.Waits st p → s.Waits st p) :
    t.Remembers task st :=
  fun p hp => h p (hwaits p hp)

/-- One more player waits, and is queued. -/
theorem push (h : s.Remembers task st) {q : Nat} (hwaits : ∀ p, t.Waits st p → p = q ∨ s.Waits st p) :
    t.Remembers (task.push q) st := by
  intro p hp
  rcases hwaits p hp with rfl | hp
  · exact Or.inl (List.mem_append_right _ (List.mem_singleton_self p))
  · exact (h p hp).imp_left (List.mem_append_left _)

/-- The schedule takes the queue, and loses nobody if its completion is posted or nobody waits. -/
theorem schedule (h : s.Remembers task st) {posted : Bool} (hposts : s.PostsWaiting task st posted)
    (now : Nat) : s.Remembers (task.schedule now posted) st := by
  intro p hp
  rcases h p hp with hqueue | ⟨-, htarget⟩
  · rcases hposts with hposted | hnone
    · exact Or.inr ⟨hposted, hqueue⟩
    · exact absurd hp (hnone p hqueue)
  · exact Or.inl htarget

/-- The run of the task leaves nobody of those it took waiting. -/
theorem finish (h : s.Remembers task st) (hwaits : ∀ p, t.Waits st p → s.Waits st p ∧ p ∉ task.target) :
    t.Remembers task.finish st := by
  intro p hp
  obtain ⟨hp, hleft⟩ := hwaits p hp
  rcases h p hp with hqueue | ⟨-, htarget⟩
  · exact Or.inl hqueue
  · exact absurd htarget hleft

end Remembers

/-! ## Changes by which nobody starts to wait -/

/-- From `s` to `t` nobody starts to wait, and the two tasks stay as they are. -/
structure NoneStarts (s t : Server) : Prop where
  waits : ∀ st p, IsWaiting st → t.Waits st p → s.Waits st p
  levelTask : t.world.syncBlockTask.toWorldPlayerTask = s.world.syncBlockTask.toWorldPlayerTask
  spawnTask : t.world.spawnPlayerTask = s.world.spawnPlayerTask

/-- Both tasks remember the players that wait for them. That a run is under way is what the property leaves
open, and where it needs to be kept. -/
structure WaitingOk (s : Server) : Prop where
  level : s.Remembers s.world.syncBlockTask.toWorldPlayerTask .levelInitializing
  spawn : s.Remembers s.world.spawnPlayerTask .spawning

/-- Nobody who waits is forgotten, as long as both tasks remember. -/
theorem WaitingOk.noneForgotten {s : Server} (h : s.WaitingOk) : s.NoneForgotten :=
  ⟨h.level.queues, h.spawn.queues⟩

theorem WaitingOk.kept {s t : Server} (h : s.WaitingOk) (hst : NoneStarts s t) : t.WaitingOk where
  level := by
    rw [hst.levelTask]
    exact h.level.kept fun p => hst.waits _ p (Or.inl rfl)
  spawn := by
    rw [hst.spawnTask]
    exact h.spawn.kept fun p => hst.waits _ p (Or.inr rfl)

namespace NoneStarts

variable {s t u : Server}

theorem refl (s : Server) : NoneStarts s s := ⟨fun _ _ _ h => h, rfl, rfl⟩

theorem trans (hst : NoneStarts s t) (htu : NoneStarts t u) : NoneStarts s u :=
  ⟨fun st p hw h => hst.waits st p hw (htu.waits st p hw h), htu.levelTask.trans hst.levelTask,
    htu.spawnTask.trans hst.spawnTask⟩

/-- Who is online, and who is in which state, stays the same, or changes away from waiting. -/
theorem of_attached (hattached : ∀ p, t.Attached p → s.Attached p)
    (hstate : ∀ p, t.Attached p → IsWaiting (t.players p).state →
      (t.players p).state = (s.players p).state) (hworld : t.world = s.world) : NoneStarts s t := by
  refine ⟨fun st p hw hp => ⟨hattached p hp.1, ?_⟩, by rw [hworld], by rw [hworld]⟩
  rw [← hstate p hp.1 (hp.2 ▸ hw)]
  exact hp.2

theorem of_statesKept (hst : StatesKept s t) (henv : t.connectionEnv = s.connectionEnv)
    (hlevel : t.world.syncBlockTask.toWorldPlayerTask = s.world.syncBlockTask.toWorldPlayerTask)
    (hspawn : t.world.spawnPlayerTask = s.world.spawnPlayerTask) : NoneStarts s t := by
  refine ⟨fun st p _ hp => ⟨(Server.attached_of_env henv p).mp hp.1, ?_⟩, hlevel, hspawn⟩
  rw [← congrArg PlayerState.state (hst.states p)]
  exact hp.2

theorem of_quiet (hq : Quiet s t) : NoneStarts s t :=
  of_statesKept (StatesKept.of_quiet hq) hq.connectionEnv hq.levelTask hq.spawnTask

/-- A preparation of another state starts no wait. -/
theorem prepare (s : Server) (p : Nat) {cur : State} (hcur : ¬ IsWaiting cur) (next : State) :
    NoneStarts s (s.prepareStateTransition p cur next) := by
  refine of_attached (fun _ h => h) (fun q _ hq => ?_) rfl
  rw [Server.prepareStateTransition_players] at hq ⊢
  split_ifs at hq ⊢
  · exact absurd hq hcur
  · rfl

/-- Nor does a transition into one. -/
theorem transit (s : Server) (p : Nat) (hint : State) (hnext : ¬ IsWaiting (s.players p).nextState) :
    NoneStarts s (s.transitState p hint) := by
  refine of_attached (fun _ h => h) (fun q _ hq => ?_) rfl
  rw [Server.transitState_players] at hq ⊢
  split_ifs at hq ⊢
  · exact absurd hq hnext
  · rfl

/-- Who leaves does not wait. -/
theorem disconnect (ht : TableOk s) (i now : Nat) : NoneStarts s (s.disconnect i now) := by
  rcases s.disconnect_cases i now with heq | ⟨conn, p, -, -, -, heq⟩ | ⟨conn, hconn, -, -, heq⟩
  · rw [heq]
    exact refl s
  · rw [heq]
    exact prepare s p (by rintro (h | h) <;> cases h) _
  · rw [heq]
    refine of_attached (fun p hp => ?_) (fun _ _ _ => rfl) rfl
    exact ((Server.attached_setOffline ht hconn now p).mp hp).1

end NoneStarts

/-! ## The callbacks of a run -/

/-- The state machine stays, or leaves the waiting states. -/
def Advances (a b : PlayerState) : Prop := b = a ∨ (IsStaged b ∧ ¬ IsWaiting b.state)

theorem Advances.refl (a : PlayerState) : Advances a a := Or.inl rfl

theorem Advances.staged {a b : PlayerState} (h : Advances a b) (ha : IsStaged a) : IsStaged b := by
  rcases h with rfl | ⟨hb, -⟩
  · exact ha
  · exact hb

theorem Advances.trans {a b c : PlayerState} (hab : Advances a b) (hbc : Advances b c) :
    Advances a c := by
  rcases hbc with rfl | hleft
  · exact hab
  · exact Or.inr hleft

/-- Who does not wait does not start to. -/
theorem Advances.not_waiting {a b : PlayerState} (h : Advances a b) (ha : ¬ IsWaiting a.state) :
    ¬ IsWaiting b.state := by
  rcases h with rfl | ⟨-, hb⟩
  · exact ha
  · exact hb

/-- A transition ends the stage that it was prepared for. -/
theorem advances_transitState {a : PlayerState} (h : IsStaged a) : Advances a a.transitState :=
  Or.inr ⟨h.transitState, h.next_not_waiting⟩

section Callbacks

variable (packet : ServerPacket) (hint : State) {s : Server} {p : Nat}

/-- Through a whole transfer a player advances at most. -/
theorem advances_sendAndTransit (targets : List Nat) (o : Outcomes)
    (hstaged : IsStaged (s.players p).toPlayerState) : Advances (s.players p).toPlayerState
      ((sendToPlayers packet (fun s p => s.transitState p hint) targets o s).players
        p).toPlayerState := by
  refine sendToPlayers_rel (R := fun s t => IsStaged (s.players p).toPlayerState →
    Advances (s.players p).toPlayerState (t.players p).toPlayerState) (fun _ _ => .refl _)
    (fun hst htu hs => (hst hs).trans (htu ((hst hs).staged hs))) ?_ ?_ targets o s hstaged
  · intro s conn _
    exact Or.inl ((Quiet.send s conn packet true).standing p).toPlayerState
  · intro s q hs
    rw [Server.transitState_players]
    split_ifs with hpq
    · rw [← hpq]
      exact advances_transitState hs
    · exact .refl _

/-- A player that is acquired and sent to with success does not wait any more. -/
theorem not_waiting_sendAndTransit {conn : Connection} (targets : List Nat) (o : Outcomes)
    (hstaged : IsStaged (s.players p).toPlayerState) (hacq : s.tryAcquireOf p = some conn)
    (hserved : ∃ k, targets[k]? = some p ∧ o k = true) : ¬ IsWaiting
      ((sendToPlayers packet (fun s p => s.transitState p hint) targets o s).players p).state := by
  induction targets generalizing o s with
  | nil =>
      obtain ⟨k, hk, -⟩ := hserved
      cases hk
  | cons q qs ih =>
      obtain ⟨k, hk, ho⟩ := hserved
      cases k with
      | zero =>
          -- this is the send, and what follows does not let the player wait again
          obtain rfl : q = p := Option.some.inj hk
          have hsent : s.sendToPlayer q packet (o 0) (fun s p => s.transitState p hint) =
              (s.send conn packet true).transitState q hint := by
            unfold sendToPlayer
            rw [hacq]
            exact if_pos ho
          have hquiet := ((Quiet.send s conn packet true).standing q).toPlayerState
          have hself : ((s.sendToPlayer q packet (o 0) fun s p => s.transitState p hint).players
              q).toPlayerState = (s.players q).toPlayerState.transitState := by
            rw [hsent, Server.transitState_players, if_pos rfl]
            exact congrArg PlayerState.transitState hquiet
          refine (advances_sendAndTransit packet hint qs o.tail ?_).not_waiting ?_
          · rw [hself]
            exact hstaged.transitState
          · rw [hself]
            exact hstaged.next_not_waiting
      | succ k =>
          have hone : sendToPlayers packet (fun s p => s.transitState p hint) [q] o s =
              s.sendToPlayer q packet (o 0) fun s p => s.transitState p hint := rfl
          refine ih o.tail ?_ ?_ ⟨k, hk, ho⟩
          · rw [← hone]
            exact (advances_sendAndTransit packet hint [q] o hstaged).staged hstaged
          · rw [← hone]
            have hshape := SameShape.sendAndTransit packet hint [q] o s
            rwa [tryAcquireOf, tryAcquireConnection, hshape.connectionEnv, hshape.connectionKey]

end Callbacks

theorem NoneStarts.sendAndTransit {s : Server} (ht : TableOk s) (hstages : StagesOk s)
    (packet : ServerPacket) (hint : State) (targets : List Nat) (o : Outcomes) :
    NoneStarts s (sendToPlayers packet (fun s p => s.transitState p hint) targets o s) := by
  have hshape := SameShape.sendAndTransit packet hint targets o s
  have hattached := attached_of_env hshape.connectionEnv
  refine of_attached (fun p => (hattached p).mp) (fun p hp hw => ?_) ?_
  · obtain ⟨i, conn, hhas, -⟩ := (hattached p).mp hp
    rcases advances_sendAndTransit packet hint targets o
      (hstages p (ht.player_lt _ _ _ hhas)) with heq | ⟨-, hnot⟩
    · exact congrArg PlayerState.state heq
    · exact absurd hw hnot
  · refine sendToPlayers_rel (R := fun s t => t.world = s.world) (fun _ => rfl)
      (fun hst htu => htu.trans hst) ?_ ?_ targets o s
    · exact fun _ _ => rfl
    · exact fun _ _ => rfl

/-- What a run leaves waiting, it did not take. -/
theorem waits_of_run {s t u : Server} {packet : ServerPacket} {hint st : State} {task : WorldPlayerTask}
    {o : Outcomes} (ht : TableOk s) (hstages : StagesOk s) (hst : IsWaiting st)
    (hserves : s.ServesWaiting task st o)
    (hu : u = sendToPlayers packet (fun s p => s.transitState p hint) task.target o s)
    (htu : NoneStarts u t) {p : Nat} (hp : t.Waits st p) : s.Waits st p ∧ p ∉ task.target := by
  have hup : u.Waits st p := htu.waits st p hst hp
  rw [hu] at hup
  have hsp := (NoneStarts.sendAndTransit ht hstages packet hint task.target o).waits st p hst hup
  refine ⟨hsp, fun hmem => ?_⟩
  obtain ⟨i, conn, hhas, honline⟩ := hsp.1
  have hleft := not_waiting_sendAndTransit packet hint task.target o
    (hstages p (ht.player_lt _ _ _ hhas)) (tryAcquireOf_of_hasPlayer ht hhas honline)
    (hserves p hmem hsp)
  rw [hup.2] at hleft
  exact hleft hst

/-! ## The events -/

namespace WaitingOk

variable {s t : Server}

/-- A run of `spawn_player_task`. -/
theorem runSpawn (h : s.WaitingOk) (ht : TableOk s) (hstages : StagesOk s) {o : Outcomes}
    (hserves : s.ServesWaiting s.world.spawnPlayerTask .spawning o) (o' : Outcomes) :
    (s.runTask .spawnPlayer o o').WaitingOk := by
  set target := s.world.spawnPlayerTask.target with htarget
  set records := fun ps : List Nat => ps.map fun p => spawnRecord (s.players p) with hrecords
  set packet := ServerPacket.spawnPlayers (records (s.selectPlayersFrom .spawned) ++ records target)
  set u := sendToPlayers packet (fun s p => s.transitState p .spawned) target o s with hu
  set v := sendToPlayers (.spawnPlayers (records target)) noCallback (s.selectPlayersFrom .spawned) o' u
  have hsu : NoneStarts s u := NoneStarts.sendAndTransit ht hstages _ _ _ _
  have huv : NoneStarts u v := NoneStarts.of_quiet (Quiet.sendToPlayers _ Quiet.noCallback _ _ _)
  have hsv := hsu.trans huv
  have hrun : s.runTask .spawnPlayer o o' = v.updateSpawnPlayerTask (·.finish) := rfl
  rw [hrun]
  refine ⟨?_, ?_⟩
  · show Remembers _ v.world.syncBlockTask.toWorldPlayerTask _
    rw [hsv.levelTask]
    exact h.level.kept fun p hp => hsv.waits _ p (Or.inl rfl) hp
  · show Remembers _ v.world.spawnPlayerTask.finish _
    rw [hsv.spawnTask]
    exact h.spawn.finish fun p hp => waits_of_run ht hstages (Or.inr rfl) hserves hu huv hp

/-- A run of `sync_block_task`. -/
theorem runLevel (h : s.WaitingOk) (ht : TableOk s) (hstages : StagesOk s) (o : Outcomes)
    {o' : Outcomes}
    (hserves : s.ServesWaiting s.world.syncBlockTask.toWorldPlayerTask .levelInitializing o') :
    (s.runTask .syncBlock o o').WaitingOk := by
  set u := s.syncBlockHistory s.world.syncBlockTask.blockHistory.output o with hu
  have hquiet : Quiet s u := Quiet.syncBlockHistory ..
  have hsu := NoneStarts.of_quiet hquiet
  have htu := ht.of_sameShape hquiet.sameShape
  have hstagesu : StagesOk u := hstages.kept (.of_quiet hquiet)
  -- the block history is sent first, which changes nobody's state
  have hservesu : u.ServesWaiting s.world.syncBlockTask.toWorldPlayerTask .levelInitializing o' :=
    fun p hp hw => hserves p hp (hsu.waits _ p (Or.inl rfl) hw)
  set v := u.processLevelWaitPlayer s.world.syncBlockTask.target o' with hv
  have huv : NoneStarts u v := NoneStarts.sendAndTransit htu hstagesu _ _ _ _
  have hsv := hsu.trans huv
  have hrun : s.runTask .syncBlock o o' = v.updateSyncBlockTask (·.finish) := by
    rw [runTask, syncBlock_eq]
  rw [hrun]
  refine ⟨?_, ?_⟩
  · show Remembers _ v.world.syncBlockTask.toWorldPlayerTask.finish _
    rw [hsv.levelTask]
    refine h.level.finish fun p hp => ?_
    obtain ⟨hwaits, hleft⟩ := waits_of_run htu hstagesu (Or.inl rfl) hservesu hv (NoneStarts.refl v)
      (show v.Waits .levelInitializing p from hp)
    exact ⟨hsu.waits _ p (Or.inl rfl) hwaits, hleft⟩
  · show Remembers _ v.world.spawnPlayerTask _
    rw [hsv.spawnTask]
    exact h.spawn.kept fun p hp => hsv.waits _ p (Or.inr rfl) hp

/-- A run of another task. -/
theorem runDisconnect (h : s.WaitingOk) (ht : TableOk s) (hh : HistoryOk s) (hstages : StagesOk s)
    (o o' : Outcomes) : (s.runTask .disconnectPlayer o o').WaitingOk := by
  -- the players of the task were constructed, so their stages are known
  have hall := Closed.disconnectRun_of_parts (P := fun u => (HistoryOk u ∧ StagesOk u) ∧ u.WaitingOk)
    (fun _ hq h => ⟨⟨h.1.1.quiet hq, h.1.2.kept (.of_quiet hq)⟩, h.2.kept (NoneStarts.of_quiet hq)⟩)
    ?_ ?_ ?_ ht ⟨⟨hh, hstages⟩, h⟩ o o'
  · exact hall.2
  · intro u ds hds hu
    have hkept := StatesKept.despawned u ds
    exact ⟨⟨hu.1.1.record_despawned hds, hu.1.2.kept hkept⟩,
      hu.2.kept (NoneStarts.of_statesKept hkept rfl rfl rfl)⟩
  · intro u conn p _ hp _ hu
    have hlt := hu.1.1.disconnect_lt (WorldPlayerTask.mem_players_of_target hp)
    have hkept := StatesKept.savePlayerGamedata u p
    have hsaved := hu.1.1.savePlayerGamedata hlt
    have hstagesu := hu.1.2.kept hkept
    have hwaiting : (u.savePlayerGamedata p).WaitingOk := by
      refine hu.2.kept (NoneStarts.of_statesKept hkept ?_ ?_ ?_) <;>
        rw [savePlayerGamedata_eq]
    have hltu : p < (u.savePlayerGamedata p).numOfPlayers := hkept.numOfPlayers ▸ hlt
    exact ⟨⟨hsaved.transitState hltu _, hstagesu.transitState _⟩,
      hwaiting.kept (NoneStarts.transit _ p _ (hstagesu p hltu).next_not_waiting)⟩
  · exact fun hu => ⟨⟨hu.1.1.finishDisconnect, hu.1.2⟩, hu.2.kept ⟨fun _ _ _ h => h, rfl, rfl⟩⟩

/-- Every run keeps the invariant, if it leaves nobody behind. -/
theorem runTask (h : s.WaitingOk) (ht : TableOk s) (hh : HistoryOk s) (hstages : StagesOk s)
    {task : WorldTaskId} {o o' : Outcomes} (hleaves : s.LeavesNobody (.runTask task o o')) :
    (s.runTask task o o').WaitingOk := by
  cases task with
  | spawnPlayer => exact h.runSpawn ht hstages hleaves o'
  | disconnectPlayer => exact h.runDisconnect ht hh hstages o o'
  | syncBlock => exact h.runLevel ht hstages o hleaves
  | syncPlayerPosition =>
      apply h.kept
      apply NoneStarts.of_quiet
      exact (Quiet.syncPlayerPosition s o).trans (Quiet.world _ rfl rfl rfl rfl)
  | commonChatTransfer =>
      apply h.kept
      apply NoneStarts.of_quiet
      exact (Quiet.commonChatTransfer s _ o).trans (Quiet.world _ rfl rfl rfl rfl)

/-- So does every schedule. -/
theorem scheduleTask (h : s.WaitingOk) {task : WorldTaskId} {now : Nat} {posted : Bool}
    (hleaves : s.LeavesNobody (.schedule task now posted)) :
    (s.scheduleTask task now posted).WaitingOk := by
  cases task with
  | spawnPlayer =>
      simp only [Server.scheduleTask]
      split_ifs with hready
      · exact ⟨h.level, h.spawn.schedule (hleaves hready) now⟩
      · exact h
  | syncBlock =>
      simp only [Server.scheduleTask]
      split_ifs with hready
      · exact ⟨h.level.schedule (hleaves hready) now, h.spawn⟩
      · exact h
  | disconnectPlayer | syncPlayerPosition | commonChatTransfer =>
      simp only [Server.scheduleTask]
      split_ifs
      · exact ⟨h.level, h.spawn⟩
      · exact h

/-- What is assumed along a run. -/
abbrev Base (s : Server) : Prop := HistoryOk s ∧ StagesOk s

theorem closedConnections : ClosedConnections Base WaitingOk (fun _ _ => True) fun _ => True where
  quiet _ _ hq h := h.kept (NoneStarts.of_quiet hq)
  interact now _ ht _ hconn h := h.kept
    (NoneStarts.of_attached (fun p => (attached_interact ht hconn now p).mp) (fun _ _ _ => rfl) rfl)
  accept now _ ht _ h := h.kept
    (NoneStarts.of_attached (fun p => (attached_accept ht now p).mp)
      (fun p _ _ => by rw [accept_players]) (accept_world _ now))
  disconnect i now _ ht _ _ h := h.kept (NoneStarts.disconnect ht i now)
  handshake := by
    intro s i conn username password cpeMagic garbage ht _ hconn honline _ h
    obtain ⟨cur, next, hstart, heq⟩ := s.handshake_eq i conn username password cpeMagic garbage
    have hattached := attached_handshake ht hconn honline username password cpeMagic garbage
    rw [heq] at hattached ⊢
    refine h.kept ⟨fun st p hst hp => ?_, rfl, rfl⟩
    obtain ⟨hp, hstate⟩ := hp
    rw [show Server.players _ = ((s.setPlayer i conn (Player.new conn.connectionKey username
      garbage)).prepareStateTransition s.numOfPlayers cur next).players from rfl,
      construct_players] at hstate
    rcases (hattached p).mp hp with rfl | ⟨hold, -⟩
    · -- the new player handshakes
      rw [if_pos rfl] at hstate
      rw [← hstate] at hst
      rcases hstart with ⟨rfl, -⟩ | ⟨rfl, -⟩ <;> rcases hst with hst | hst <;> cases hst
    · obtain ⟨j, c, hhas, -⟩ := id hold
      have hne := Nat.ne_of_lt (ht.player_lt _ _ _ hhas)
      rw [if_neg hne] at hstate
      exact ⟨hold, hstate⟩
  extEntry ht hB hp _ _ h :=
    h.kept (NoneStarts.transit _ _ _ (hB.2 _ (ht.player_lt _ _ _ hp)).next_not_waiting)

theorem closedTick : ClosedTick Base WaitingOk where
  syncing _ _ _ _ _ h := h.kept (NoneStarts.prepare _ _ (by rintro (h | h) <;> cases h) _)
  levelWait := by
    intro s i conn p _ _ _ _ _ h
    -- the player that starts to wait is the one that is pushed
    refine ⟨h.level.push fun q hq => ?_, h.spawn.kept fun q hq => ?_⟩
    · by_cases hqp : q = p
      · exact Or.inl hqp
      · have hstate := hq.2
        rw [show Server.players (s.waitForLevel p) = (s.prepareStateTransition p .levelInitializing
          .levelInitialized).players from rfl, prepareStateTransition_players, if_neg hqp] at hstate
        exact Or.inr ⟨hq.1, hstate⟩
    · have hstate := hq.2
      rw [show Server.players (s.waitForLevel p) = (s.prepareStateTransition p .levelInitializing
        .levelInitialized).players from rfl, prepareStateTransition_players] at hstate
      split_ifs at hstate
      · cases hstate
      · exact ⟨hq.1, hstate⟩
  spawnWait := by
    intro s i conn p _ _ _ _ _ h
    refine ⟨h.level.kept fun q hq => ?_, h.spawn.push fun q hq => ?_⟩
    · have hstate := hq.2
      rw [show Server.players (s.waitForSpawn p) = (s.prepareStateTransition p .spawning
        .spawned).players from rfl, prepareStateTransition_players] at hstate
      split_ifs at hstate
      · cases hstate
      · exact ⟨hq.1, hstate⟩
    · by_cases hqp : q = p
      · exact Or.inl hqp
      · have hstate := hq.2
        rw [show Server.players (s.waitForSpawn p) = (s.prepareStateTransition p .spawning
          .spawned).players from rfl, prepareStateTransition_players, if_neg hqp] at hstate
        exact Or.inr ⟨hq.1, hstate⟩
  pushDisconnect _ _ _ _ _ h := h.kept ⟨fun _ _ _ h => h, rfl, rfl⟩

theorem closedLogins : ClosedLogins Base WaitingOk fun _ _ => True where
  respond _ _ _ _ h := h.kept ⟨fun _ _ _ h => h, rfl, rfl⟩
  setIdentity := by
    intro s i conn p request reply _ _ _ _ _ _ _ _ h
    exact h.kept (NoneStarts.of_statesKept (StatesKept.setTypeAndUuid s p _ _) rfl rfl rfl)
  guest := by
    intro s i conn p request reply ht hB hp _ _ _ _ _ h
    have hkept := StatesKept.guest s p request reply
    refine h.kept ((NoneStarts.of_statesKept hkept rfl rfl rfl).trans (NoneStarts.transit _ p _ ?_))
    rw [congrArg PlayerState.nextState (hkept.states p)]
    exact (hB.2 p (ht.player_lt _ _ _ hp)).next_not_waiting
  addLoad _ _ _ _ h := h.kept ⟨fun _ _ _ h => h, rfl, rfl⟩
  takeLoad _ _ _ h := h.kept ⟨fun _ _ _ h => h, rfl, rfl⟩
  loaded := by
    intro s i conn p load result ht hB _ hp _ _ _ _ h
    rw [admitLoaded_eq]
    have herased : StatesKept s { s with loads := s.loads.erase load } := .of_eq rfl rfl rfl rfl
    have hkept := herased.trans (.loaded _ p load result)
    refine h.kept ((NoneStarts.of_statesKept hkept rfl rfl rfl).trans (NoneStarts.transit _ p _ ?_))
    rw [congrArg PlayerState.nextState (hkept.states p)]
    exact (hB.2 p (ht.player_lt _ _ _ hp)).next_not_waiting

/-- An event that leaves nobody behind. -/
theorem step {s' : Server} (hs : TableOk s ∧ Base s ∧ s.WaitingOk) {e : Event}
    (hleaves : s.LeavesNobody e) (hstep : s.step e = some s') : TableOk s' ∧ Base s' ∧ s'.WaitingOk := by
  obtain ⟨ht, ⟨hh, hstages⟩, h⟩ := hs
  refine Closed.step_over (HistoryOk.closed.inter StagesOk.closed) closedConnections closedTick
    closedLogins ⟨ht, ⟨hh, hstages⟩, h⟩ e (fun _ _ => trivial) ?_ ?_ ?_ hstep
  · intro i now conn _ hconn hsafe
    have hoffline := Connection.offline_of_isSafeDelete hsafe
    exact h.kept (NoneStarts.of_attached (fun p => (attached_delete ht hconn hoffline p).mp)
      (fun _ _ _ => rfl) rfl)
  · rintro task now posted rfl
    exact h.scheduleTask hleaves
  · rintro task o o' rfl _
    exact h.runTask ht hh hstages hleaves

theorem init (maxClients : Nat) (metadata : WorldMetadata) (blockMapping : List UInt8) :
    (Server.init maxClients metadata blockMapping).WaitingOk :=
  ⟨fun _ hp => absurd hp.1 (by rintro ⟨_, _, ⟨hc, _⟩, _⟩; cases hc),
    fun _ hp => absurd hp.1 (by rintro ⟨_, _, ⟨hc, _⟩, _⟩; cases hc)⟩

end WaitingOk

/-- **No joining player is forgotten** in any state reached by a run whose task runs serve everybody who
waits for them. A task clears its list after each run, so whoever was not served, for instance because the
connection refused the data, is in no list any more. -/
theorem noneForgotten_of_run {maxClients : Nat} {metadata : WorldMetadata}
    {blockMapping : List UInt8} {es : List Event} {s : Server}
    (hrun : run Server.step (Server.init maxClients metadata blockMapping) es = some s)
    (hleaves : Along Server.step Server.LeavesNobody (Server.init maxClients metadata blockMapping) es) :
    s.NoneForgotten := by
  have h := run_invariant_along (P := fun s => TableOk s ∧ WaitingOk.Base s ∧ s.WaitingOk)
    (fun _ _ _ hs hG hstep => WaitingOk.step hs hG hstep)
    ⟨TableOk.init .., ⟨HistoryOk.init .., StagesOk.init _ _ _⟩, WaitingOk.init ..⟩ hleaves hrun
  exact h.2.2.noneForgotten

/-- An event whose posts and sends succeed leaves nobody behind. -/
theorem leavesNobody_of_accepts (s : Server) {e : Event} (h : e.Accepts) : s.LeavesNobody e := by
  have hserves : ∀ (task : WorldPlayerTask) (st : State) (o : Outcomes), (∀ k, o k = true) →
      s.ServesWaiting task st o := by
    intro task st o ho p hp _
    obtain ⟨k, hk⟩ := List.mem_iff_getElem?.mp hp
    exact ⟨k, hk, ho k⟩
  cases e with
  | schedule task now posted => cases task <;> first | trivial | exact fun _ => Or.inl h
  | runTask task o o' =>
      cases task with
      | spawnPlayer => exact hserves _ _ o h.1
      | syncBlock => exact hserves _ _ o' h.2
      | _ => trivial
  | _ => trivial

/-- A guest waits for its level and for its spawn, and is served both times. -/
theorem noneForgotten_of_run_guestSession :
    ∃ s, run Server.step Server.small guestSession = some s ∧ s.NoneForgotten := by
  obtain ⟨s, hs⟩ := Option.isSome_iff_exists.mp
    (show (run Server.step Server.small guestSession).isSome = true by decide)
  have haccepts : ∀ e ∈ guestSession, e.Accepts := by
    simp [guestSession, guestLogin, Event.Accepts]
  exact ⟨s, hs, noneForgotten_of_run hs
    (Along.of_forall_mem fun e he s => leavesNobody_of_accepts s (haccepts e he))⟩

/-- The send buffer of a client is full while its level data is to be sent. -/
def refusedLevelData : List Event :=
  guestLogin 0 ++ [.tickPlayer 0 0 fun _ => true, .schedule .syncBlock 1 true] ++
  [.runTask .syncBlock (fun _ => true) fun _ => false]

/-- The player stays in `levelInitializing`, and the task has forgotten it. -/
theorem not_noneForgotten_refusedLevelData :
    ∃ s, run Server.step Server.small refusedLevelData = some s ∧ ¬ s.NoneForgotten := by
  have hrun : ((run Server.step Server.small refusedLevelData).map fun s =>
      ((s.connection 0).map fun conn => (conn.player, conn.isOnline),
        (s.players 0).state, s.world.syncBlockTask.toWorldPlayerTask)) =
      some (some (some 0, true), .levelInitializing,
        { intervalMs := 200, cooldownAt := 201 }) := by decide
  obtain ⟨s, hs, heq⟩ := Option.map_eq_some_iff.mp hrun
  simp only [Prod.mk.injEq] at heq
  obtain ⟨hconn, hstate, htask⟩ := heq
  obtain ⟨conn, hslot, hplayer⟩ := Option.map_eq_some_iff.mp hconn
  obtain ⟨hplayer, honline⟩ := Prod.mk.inj hplayer
  refine ⟨s, hs, fun h => ?_⟩
  have hwaits : s.Waits .levelInitializing 0 := ⟨⟨0, conn, ⟨hslot, hplayer⟩, honline⟩, hstate⟩
  have hqueued := h.level (by rw [htask]) 0 hwaits
  rw [htask] at hqueued
  cases hqueued

end Server

end Mmocraft
