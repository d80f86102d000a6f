/-
# Mmocraft.Server.BlockUpdates -- a joining player and the changes of blocks

`sync_block` first commits the changes of a snapshot and passes them on to the players from
`levelInitialized` on, and then sends the committed level to the players that wait for it.  A player
that waits is in exactly one of the two lists of the task, and its callback moves it on with the
level data.  So every change reaches a joining player once: in its level data, or after it.

The proof follows one player from the state in which it is found to the one in which it has its level.
`JoinPhase` has the two halves of that way: before, the player has been sent nothing of the blocks and is in
no list or in one of them; after, it has been sent the level of all snapshots up to its own, and then one
packet for each later snapshot that is not empty. What other players do, and what is done for them, cannot
change either half (`BlocksKept`), so that only the ticks and the block task are left to argue about.

Between its runs the task is empty (`LevelTaskOk`), so what a run takes is exactly what its schedule switched
out, and both parts of `sync_block` work on that: changes that are pushed while it runs are in the other
buffer, and come with the next run.
-/
import Mmocraft.Server.Sending
import Mmocraft.Server.TaskReferences

namespace Mmocraft

open Mmocraft.Lib Mmocraft.Game Mmocraft.Net

/-! ## The task between its runs

`sync_block_task` has two lists of players, as every task has, and the history of blocks beside them. While
no run is queued or in progress the lists it would hand out are empty, and whoever is in the other ones has
passed its login, so a player that is still logging in is in none of them.
-/

/-- The player is past its login: it waits for the level or comes after, or it leaves. -/
def IsPastLogin (st : State) : Prop := State.levelInitializing ≤ st ∨ st.IsLeaving

/-- While `sync_block_task` is unused it holds nothing that was taken; the players it refers to are
past their login. -/
structure LevelTaskOk (s : Server) : Prop where
  idle : s.world.syncBlockTask.state = .unused → s.world.syncBlockTask.target = [] ∧
    s.world.syncBlockTask.blockHistory.output = []
  pastLogin : ∀ p ∈ s.world.syncBlockTask.players,
    IsPastLogin (s.players p).state ∧ IsPastLogin (s.players p).nextState

namespace LevelTaskOk

variable {s t : Server}

/-- The task stays, and no player it refers to goes back behind its login. -/
theorem kept (h : LevelTaskOk s)
    (htask : t.world.syncBlockTask.toWorldPlayerTask = s.world.syncBlockTask.toWorldPlayerTask)
    (houtput : t.world.syncBlockTask.blockHistory.output =
      s.world.syncBlockTask.blockHistory.output)
    (hpast : ∀ p ∈ s.world.syncBlockTask.players,
      IsPastLogin (s.players p).state ∧ IsPastLogin (s.players p).nextState →
      IsPastLogin (t.players p).state ∧ IsPastLogin (t.players p).nextState) : LevelTaskOk t := by
  refine ⟨?_, fun p hp => ?_⟩
  · rw [htask, houtput]
    exact h.idle
  · rw [htask] at hp
    exact hpast p hp (h.pastLogin p hp)

/-- A quiet change leaves the lists of the task and the states of its players. -/
theorem of_quiet (h : LevelTaskOk s) (hq : Quiet s t) : LevelTaskOk t :=
  h.kept hq.levelTask hq.levelOutput fun p _ hp => by rwa [(hq.standing p).toPlayerState]

/-- What only adds to the data of players leaves the task alone. -/
theorem of_states (h : LevelTaskOk s) (hst : StatesKept s t) (hworld : t.world = s.world) :
    LevelTaskOk t := by
  refine h.kept (by rw [hworld]) (by rw [hworld]) fun p _ hp => ?_
  rwa [hst.states]

/-- A player that is past its login stays so when it moves on. -/
theorem transitState (h : LevelTaskOk s) (p : Nat) (hint : State) :
    LevelTaskOk (s.transitState p hint) := by
  refine h.kept rfl rfl fun q _ hq => ?_
  rw [Server.transitState_players]
  split_ifs with hqp
  · rw [← hqp]
    exact ⟨hq.2, hq.2⟩
  · exact hq

/-- A player that does not wait yet, or that is prepared for what is past its login. -/
theorem prepare (h : LevelTaskOk s) (p : Nat) (cur next : State)
    (hpast : IsPastLogin (s.players p).state → IsPastLogin cur ∧ IsPastLogin next) :
    LevelTaskOk (s.prepareStateTransition p cur next) := by
  refine h.kept rfl rfl fun q _ hq => ?_
  rw [Server.prepareStateTransition_players]
  split_ifs with hqp
  · exact hpast (hqp ▸ hq.1)
  · exact hq

theorem closedConnections :
    ClosedConnections HistoryOk LevelTaskOk (fun _ _ => True) fun _ => True where
  quiet _ _ hq h := h.of_quiet hq
  interact _ _ _ _ _ h := h.of_states (.of_eq rfl rfl rfl rfl) rfl
  accept now _ _ _ h := h.of_states (.accept _ now) (Server.accept_world _ now)
  disconnect := by
    intro s i now _ _ _ _ h
    rcases s.disconnect_cases i now with heq | ⟨conn, p, -, -, -, heq⟩ | ⟨conn, -, -, -, heq⟩
    · rw [heq]
      exact h
    · rw [heq]
      exact h.prepare p _ _ fun _ => ⟨Or.inr (Or.inl rfl), Or.inr (Or.inr rfl)⟩
    · rw [heq]
      exact h.of_states (.setOffline s i conn now) rfl
  handshake := by
    intro s i conn username password cpeMagic garbage _ hB _ _ _ h
    obtain ⟨cur, next, -, heq⟩ := s.handshake_eq i conn username password cpeMagic garbage
    refine h.kept (by rw [heq]; rfl) (by rw [heq]; rfl) fun p hp hpast => ?_
    rwa [Server.handshake_players_of_lt _ _ _ _ _ _ _ (hB.level_lt hp)]
  extEntry _ _ _ _ _ h := h.transitState _ _

theorem closedTick : ClosedTick HistoryOk LevelTaskOk where
  syncing _ _ _ _ hst h := h.prepare _ _ _ fun hpast => by
    rw [hst] at hpast
    rcases hpast with hpast | hpast | hpast <;> exact absurd hpast (by decide)
  levelWait := by
    intro s i conn p _ _ _ _ _ h
    have hprepared := h.prepare p .levelInitializing .levelInitialized
      fun _ => ⟨Or.inl (by decide), Or.inl (by decide)⟩
    refine ⟨h.idle, fun q hq => ?_⟩
    rcases WorldPlayerTask.mem_players_push.mp hq with rfl | hq
    · rw [show Server.players (s.waitForLevel q) = (s.prepareStateTransition q .levelInitializing
        .levelInitialized).players from rfl, Server.prepareStateTransition_players, if_pos rfl]
      exact ⟨show IsPastLogin .levelInitializing from Or.inl (by decide),
        show IsPastLogin .levelInitialized from Or.inl (by decide)⟩
    · exact hprepared.pastLogin q hq
  spawnWait := by
    intro s i conn p _ _ _ _ _ h
    have hprepared := h.prepare p .spawning .spawned
      fun _ => ⟨Or.inl (by decide), Or.inl (by decide)⟩
    exact ⟨hprepared.idle, hprepared.pastLogin⟩
  pushDisconnect _ _ _ _ _ h := ⟨h.idle, h.pastLogin⟩

theorem closedSchedules : ClosedSchedules HistoryOk LevelTaskOk where
  scheduleSpawn _ _ _ _ _ h := ⟨h.idle, h.pastLogin⟩
  scheduleDisconnect _ _ _ _ _ h := ⟨h.idle, h.pastLogin⟩
  scheduleLevel _ _ _ _ _ h :=
    ⟨fun hunused => absurd hunused (TaskState.noConfusion ·),
      fun p hp => h.pastLogin p (WorldPlayerTask.mem_players_schedule.mp hp)⟩

theorem closedTasks : ClosedTasks HistoryOk LevelTaskOk fun _ _ => True where
  levelCallback _ _ _ _ _ h := h.transitState _ _
  spawnCallback _ _ _ _ _ h := h.transitState _ _
  finishLevel _ _ h :=
    ⟨fun _ => ⟨rfl, rfl⟩, fun p hp => h.pastLogin p (WorldPlayerTask.mem_players_of_finish hp)⟩
  finishSpawn _ _ h := ⟨h.idle, h.pastLogin⟩
  disconnectRun o o' ht _ _ _ h := by
    refine Closed.disconnectRun_of_parts (P := LevelTaskOk) (fun _ hq h => h.of_quiet hq) ?_ ?_
      (fun h => ⟨h.idle, h.pastLogin⟩) ht h o o'
    · exact fun ds _ h => h.of_states (.despawned _ ds) rfl
    · intro s conn p _ _ _ h
      have hsaved := h.of_states (.savePlayerGamedata s p) (by rw [Server.savePlayerGamedata_eq])
      exact hsaved.transitState p _

theorem closedLogins : ClosedLogins HistoryOk LevelTaskOk fun _ _ => True where
  respond := by
    intro s request reply _ _ _ h
    have herased : StatesKept s { s with requests := s.requests.erase request } := .of_eq rfl rfl rfl rfl
    exact h.of_states (herased.trans (.record _ id)) rfl
  setIdentity _ _ _ _ _ _ _ _ h := h.of_states (.setTypeAndUuid _ _ _ _) rfl
  guest := by
    intro s i conn p request reply _ _ _ _ _ _ _ _ h
    exact (h.of_states (.guest s p request reply) rfl).transitState p _
  addLoad _ _ _ _ h := h.of_states (.of_eq rfl rfl rfl rfl) rfl
  takeLoad _ _ _ h := h.of_states (.of_eq rfl rfl rfl rfl) rfl
  loaded := by
    intro s i conn p load result _ _ _ _ _ _ _ _ h
    rw [Server.admitLoaded_eq]
    have herased : StatesKept s { s with loads := s.loads.erase load } := .of_eq rfl rfl rfl rfl
    exact (h.of_states (herased.trans (.loaded _ p load result)) rfl).transitState p _

theorem closed : Closed HistoryOk LevelTaskOk fun _ _ => True :=
  { closedConnections, closedTick, closedSchedules, closedTasks, closedLogins with
    delete := fun _ _ _ _ h => h.of_states (.of_eq rfl rfl rfl rfl) rfl }

end LevelTaskOk

/-! ## The changes of a run

What a run does to the blocks is read off its events: the changes that were accepted, and how the runs of
the task cut them into snapshots. Nothing in this trace is about one player, so that a statement about a
player can be made against it.
-/

/-- The changes of blocks in a run: those that `try_change_block` accepted, and the snapshot that
each run of `sync_block` handled. -/
structure BlockTrace where
  pushed : List BlockHistoryRecord := []
  snapshots : List (List BlockHistoryRecord) := []
  deriving DecidableEq, Repr

/-- The packets that tell a client about blocks of the world. -/
def ServerPacket.isBlockUpdate : ServerPacket → Bool
  | .levelData _ | .blockHistory _ => true
  | _ => false

/-- The packets that pass snapshots on; an empty one is not. -/
def historyPackets (snapshots : List (List BlockHistoryRecord)) : List ServerPacket :=
  (snapshots.filter (!·.isEmpty)).map .blockHistory

namespace Server

open ClientPacket

/-- The record that `handle_set_block_packet` pushes. -/
def changedBlock (x y z : BitVec 16) (mode blockId : UInt8) : BlockHistoryRecord :=
  { x := byteswap16 x, y := byteswap16 y, z := byteswap16 z
    blockId := if mode = blockCreationModeSet then blockId else blockIdAir }

/-- The push of a record to the block history, and whether it succeeds. -/
def pushBlock (s : Server) (record : BlockHistoryRecord) : DoubleBuffering BlockHistoryRecord × Bool :=
  s.world.syncBlockTask.blockHistory.push blockHistoryCapacity (fun _ => historyDataUnitSize) record

/-- The change that an event pushes to `sync_block_task`. -/
def pushedBlock (s : Server) : Event → List BlockHistoryRecord
  | .receive i (.setBlock x y z mode blockId) _ _ _ =>
      if (s.connection i).any (·.isOnline) && (s.pushBlock (changedBlock x y z mode blockId)).2 then
        [changedBlock x y z mode blockId]
      else []
  | _ => []

/-- The packet is either pushed, or reverted at its sender. -/
theorem handleSetBlockPacket_cases (s : Server) (conn : Connection) (x y z : BitVec 16)
    (mode blockId : UInt8) (accepted : Bool) :
    ((s.pushBlock (changedBlock x y z mode blockId)).2 = true ∧
      s.handleSetBlockPacket conn x y z mode blockId accepted = s.updateSyncBlockTask fun task =>
        { task with blockHistory := (s.pushBlock (changedBlock x y z mode blockId)).1 }) ∨
    ((s.pushBlock (changedBlock x y z mode blockId)).2 = false ∧ ∃ record,
      s.handleSetBlockPacket conn x y z mode blockId accepted =
        s.send conn (.setBlock record) accepted) := by
  cases hok : (s.pushBlock (changedBlock x y z mode blockId)).2 with
  | true => exact Or.inl ⟨rfl, if_pos hok⟩
  | false => exact Or.inr ⟨rfl, _, if_neg (Bool.eq_false_iff.mp hok)⟩

/-- The trace after one more event. -/
def traceBlocks (a : BlockTrace) (s : Server) (e : Event) : BlockTrace :=
  match e with
  | .runTask .syncBlock _ _ =>
      { a with snapshots := a.snapshots ++ [s.world.syncBlockTask.blockHistory.output] }
  | e => { a with pushed := a.pushed ++ s.pushedBlock e }

/-- The changes that no run has handled yet. -/
def pendingBlocks (s : Server) : List BlockHistoryRecord :=
  s.world.syncBlockTask.blockHistory.output ++ s.world.syncBlockTask.blockHistory.live

/-- The level after the changes of the snapshots. -/
def levelAfter (s : Server) (snapshots : List (List BlockHistoryRecord)) : List UInt8 :=
  snapshots.flatten.foldl (commitBlockChange s.world.metadata) s.world.blockMapping

/-- What the connection was sent about blocks. -/
def blockUpdates (s : Server) (c : Nat) : List ServerPacket := (s.sent c).filter (·.isBlockUpdate)

/-- Since `s`, nothing about blocks was sent to `p`, which has not got the level; or the level after
some runs, and then the snapshot of each later run. -/
inductive Joins (s : Server) (c p : Nat) (snapshots : List (List BlockHistoryRecord)) (t : Server) :
    Prop where
  | waiting (updates : t.blockUpdates c = s.blockUpdates c)
      (state : (t.players p).state < .levelInitialized)
  | served (before after : List (List BlockHistoryRecord)) (split : snapshots = before ++ after)
      (built : before ≠ [])
      (updates : t.blockUpdates c = s.blockUpdates c ++
        .levelData (s.levelAfter before) :: historyPackets after)

/-- **A join.** The changes are handled in the order in which they were pushed, each in one run, and
committed; player `p` of connection `c` gets each once, in its level data or after it. -/
structure JoinsOnce (s : Server) (c p : Nat) (a : BlockTrace) (t : Server) : Prop where
  inOrder : s.pendingBlocks ++ a.pushed = a.snapshots.flatten ++ t.pendingBlocks
  committed : t.world.blockMapping = s.levelAfter a.snapshots
  joins : s.Joins c p a.snapshots t

end Server

/-- The events of a join: pushes, the tick, and runs of `sync_block` whose posts succeed. -/
def Event.IsBlockEvent : Event → Prop
  | .receive _ (.setBlock ..) _ _ _ | .tickPlayer .. | .schedule .. => True
  | .runTask .syncBlock o o' => (∀ k, o k = true) ∧ ∀ k, o' k = true
  | _ => False

/-! ## What the other players do not change

Everything that is done for another player leaves one player where it is: its state, the packets about
blocks on its connection, the task and the mapping. Each move is looked at once here, and the moves of the
player itself below.
-/

/-- From `s` to `t` nothing changes for player `p`, its connection `c` in slot `i`, and the blocks. -/
structure BlocksKept (i c p : Nat) (s t : Server) : Prop where
  player : ∀ conn, s.HasPlayer i conn p → conn.isOnline = true →
    ∃ conn', t.HasPlayer i conn' p ∧ conn'.isOnline = true ∧ conn'.id = conn.id
  updates : t.blockUpdates c = s.blockUpdates c
  metadata : t.world.metadata = s.world.metadata
  mapping : t.world.blockMapping = s.world.blockMapping
  history : t.world.syncBlockTask.blockHistory = s.world.syncBlockTask.blockHistory
  states : (t.players p).toPlayerState = (s.players p).toPlayerState
  count : t.world.syncBlockTask.players.count p = s.world.syncBlockTask.players.count p

namespace BlocksKept

variable {i c p : Nat} {s t u : Server}

theorem refl (s : Server) : BlocksKept i c p s s :=
  ⟨fun conn hp ho => ⟨conn, hp, ho, rfl⟩, rfl, rfl, rfl, rfl, rfl, rfl⟩

theorem trans (hst : BlocksKept i c p s t) (htu : BlocksKept i c p t u) : BlocksKept i c p s u where
  player conn hp ho := by
    obtain ⟨conn', hp', ho', hid'⟩ := hst.player conn hp ho
    obtain ⟨conn'', hp'', ho'', hid''⟩ := htu.player conn' hp' ho'
    exact ⟨conn'', hp'', ho'', hid''.trans hid'⟩
  updates := htu.updates.trans hst.updates
  metadata := htu.metadata.trans hst.metadata
  mapping := htu.mapping.trans hst.mapping
  history := htu.history.trans hst.history
  states := htu.states.trans hst.states
  count := htu.count.trans hst.count

/-- A packet that is not about blocks. -/
theorem send (s : Server) (conn : Connection) {packet : ServerPacket} (accepted : Bool)
    (hpacket : packet.isBlockUpdate = false) : BlocksKept i c p s (s.send conn packet accepted) := by
  unfold Server.send
  cases accepted with
  | false => exact refl s
  | true =>
      refine ⟨fun conn hp ho => ⟨conn, hp, ho, rfl⟩, ?_, rfl, rfl, rfl, rfl, rfl⟩
      show List.filter _ (Function.update s.sent conn.id (s.sent conn.id ++ [packet]) c) = _
      by_cases hc : c = conn.id
      · rw [hc, Function.update_self, List.filter_append, List.filter_singleton, hpacket]
        exact List.append_nil _
      · rw [Function.update_of_ne hc]
        rfl

/-- Data of a player beside its state do not count. -/
theorem updatePlayer (s : Server) (q : Nat) {f : Player → Player}
    (hf : (f (s.players q)).toPlayerState = (s.players q).toPlayerState) :
    BlocksKept i c p s (s.updatePlayer q f) :=
  ⟨fun conn hp ho => ⟨conn, hp, ho, rfl⟩, rfl, rfl, rfl, rfl,
    (StatesKept.updatePlayer s q hf).states p, rfl⟩

/-- Another player may be moved on. -/
theorem prepare (s : Server) {q : Nat} (hq : q ≠ p) (cur next : State) :
    BlocksKept i c p s (s.prepareStateTransition q cur next) :=
  ⟨fun conn hp ho => ⟨conn, hp, ho, rfl⟩, rfl, rfl, rfl, rfl,
    by rw [Server.prepareStateTransition_players, if_neg hq.symm], rfl⟩

/-- A change of the tasks of other kinds. -/
theorem world (s : Server) {w : World} (hmetadata : w.metadata = s.world.metadata)
    (hmapping : w.blockMapping = s.world.blockMapping)
    (htask : w.syncBlockTask = s.world.syncBlockTask) : BlocksKept i c p s { s with world := w } :=
  ⟨fun conn hp ho => ⟨conn, hp, ho, rfl⟩, rfl, hmetadata, hmapping, by rw [htask], rfl, by rw [htask]⟩

/-- Another connection may be taken offline. -/
theorem disconnect (ht : TableOk s) {j now : Nat} (hj : j ≠ i)
    (hself : ∀ conn, ¬ s.HasPlayer j conn p) : BlocksKept i c p s (s.disconnect j now) := by
  rcases s.disconnect_cases j now with heq | ⟨conn, q, hq, -, -, heq⟩ | ⟨conn, hconn, -, -, heq⟩
  · rw [heq]
    exact refl s
  · rw [heq]
    apply prepare
    rintro rfl
    exact hself conn hq
  · rw [heq]
    refine ⟨fun conn' hp ho => ⟨conn', ⟨?_, hp.2⟩, ho, rfl⟩, rfl, rfl, rfl, rfl, rfl, rfl⟩
    rw [Server.setOffline_connection_of_ne ht hconn now hj.symm]
    exact hp.1

theorem interact {j : Nat} {conn : Connection} (hconn : s.connection j = some conn) (now : Nat) :
    BlocksKept i c p s (s.interact j now) := by
  refine ⟨fun conn' hp ho => ?_, rfl, rfl, rfl, rfl, rfl, rfl⟩
  by_cases hj : j = i
  · subst hj
    obtain rfl := Option.some.inj (hconn.symm.trans hp.1)
    exact ⟨_, ⟨TableOk.interact_connection hconn now, hp.2⟩, ho, rfl⟩
  · refine ⟨conn', ⟨?_, hp.2⟩, ho, rfl⟩
    exact (congrArg ConnectionEntry.connection (Function.update_of_ne (Ne.symm hj) _ _)).trans hp.1

/-- A greeting has no blocks in it. -/
theorem onHandshakeSuccess (s : Server) (conn : Connection) (q : Nat) (o : Outcomes) :
    BlocksKept i c p s (s.onHandshakeSuccess conn q o) :=
  ((send s conn _ rfl).trans (send _ conn _ rfl)).trans (send _ conn _ rfl)

theorem setSpawnPosition (s : Server) (q : Nat) : BlocksKept i c p s (s.setSpawnPosition q) := by
  have hquiet := Quiet.setSpawnPosition s q
  exact ⟨fun conn hp ho => ⟨conn, hp, ho, rfl⟩, rfl, rfl, rfl, rfl, (hquiet.standing p).toPlayerState,
    rfl⟩

/-- The visit of another player by the tick. -/
theorem transitPlayerState (ht : TableOk s) {j q : Nat} {conn : Connection} (hj : j ≠ i)
    (hq : s.HasPlayer j conn q) (hqp : q ≠ p) (now : Nat) (o : Outcomes) :
    BlocksKept i c p s (s.transitPlayerState j conn q now o) := by
  unfold Server.transitPlayerState
  cases (s.players q).state with
  | exHandshaked =>
      show BlocksKept i c p s (if _ then _ else _)
      split_ifs
      · exact (((send s conn _ rfl).trans (send _ conn _ rfl)).trans (send _ conn _ rfl)).trans
          (prepare _ hqp _ _)
      · exact refl s
  | handshaked | extensionSynced =>
      -- another player is queued
      refine ((onHandshakeSuccess s conn q o).trans (prepare _ hqp _ _)).trans
        ⟨fun conn hp ho => ⟨conn, hp, ho, rfl⟩, rfl, rfl, rfl, rfl, rfl, ?_⟩
      exact (WorldPlayerTask.count_players_push _ p q).trans (by rw [if_neg hqp]; rfl)
  | levelInitialized =>
      exact ((setSpawnPosition s q).trans (prepare _ hqp _ _)).trans (world _ rfl rfl rfl)
  | spawned =>
      show BlocksKept i c p s (if _ then _ else _)
      split_ifs
      · exact (send s conn _ rfl).trans (updatePlayer _ q rfl)
      · exact refl s
  | disconnecting => exact world s rfl rfl rfl
  | disconnected =>
      refine disconnect ht hj fun conn' hp => hqp ?_
      obtain rfl := Option.some.inj (hq.1.symm.trans hp.1)
      exact Option.some.inj (hq.2.symm.trans hp.2)
  | _ => exact refl s

end BlocksKept

/-! ## The two parts of `sync_block`

First the packet of the changes goes to everybody from `levelInitialized` on, and then the level to those
that were found waiting, who are moved on. A player is served by one of the two parts: the first part finds
it before it is moved on by the second.
-/

namespace Server

variable {s : Server} {i p : Nat} {conn : Connection}

/-- The snapshot is committed, and passed on to the players that have the level. -/
theorem syncBlockHistory_spec (ht : TableOk s) (hp : s.HasPlayer i conn p)
    (honline : conn.isOnline = true) {o : Outcomes} (ho : ∀ k, o k = true)
    (records : List BlockHistoryRecord) :
    (s.syncBlockHistory records o).world =
      { s.world with blockMapping :=
          records.foldl (commitBlockChange s.world.metadata) s.world.blockMapping } ∧
    (s.syncBlockHistory records o).blockUpdates conn.id = s.blockUpdates conn.id ++
      if .levelInitialized ≤ (s.players p).state then historyPackets [records] else [] := by
  unfold syncBlockHistory
  cases hempty : records.isEmpty with
  | true =>
      obtain rfl := List.isEmpty_iff.mp hempty
      refine ⟨rfl, ?_⟩
      simp [historyPackets]
  | false =>
      set u := s.commitBlockChanges records with hu
      have htu : TableOk u := ht.of_sameShape (SameShape.of_rfl rfl rfl rfl rfl rfl)
      have hselected : ∀ q ∈ u.selectPlayersFrom .levelInitialized, ∃ j d, u.HasPlayer j d q := by
        intro q hq
        obtain ⟨⟨j, d, hhas, -⟩, -⟩ := (mem_selectPlayersFrom htu).mp hq
        exact ⟨j, d, hhas⟩
      have hsent := sendToPlayers_sent_of_accepts htu (.blockHistory records)
        noCallback (fun s _ => SameShape.refl s) (fun _ _ => rfl) hp honline hselected ho
      rw [count_selectPlayersFrom htu ⟨i, conn, hp, honline⟩,
        show (u.players p).state = (s.players p).state from rfl] at hsent
      refine ⟨sendToPlayers_world _ (fun _ _ => rfl) _ _ _, ?_⟩
      show List.filter _ (Server.sent _ conn.id) = _
      rw [if_neg Bool.false_ne_true, hsent, List.filter_append]
      show s.blockUpdates conn.id ++ _ = _
      by_cases hstate : State.levelInitialized ≤ (s.players p).state
      · rw [if_pos hstate, if_pos hstate]
        simp [historyPackets, hempty, ServerPacket.isBlockUpdate]
      · rw [if_neg hstate, if_neg hstate]
        rfl

/-- The level is sent to those that wait for it, and moves them on. -/
theorem processLevelWaitPlayer_spec (ht : TableOk s) (hp : s.HasPlayer i conn p)
    (honline : conn.isOnline = true) {targets : List Nat} (howned : ∀ q ∈ targets, s.Owned q)
    {o : Outcomes} (ho : ∀ k, o k = true) :
    (s.processLevelWaitPlayer targets o).world = s.world ∧
    (s.processLevelWaitPlayer targets o).blockUpdates conn.id = s.blockUpdates conn.id ++
      List.replicate (targets.count p) (.levelData s.world.blockMapping) ∧
    (s.processLevelWaitPlayer targets o).players p =
      Player.transitState^[targets.count p] (s.players p) := by
  refine ⟨?_, ?_, ?_⟩
  · rw [processLevelWaitPlayer]
    exact sendToPlayers_world _ (fun s p => transitState_world s p _) _ _ _
  · have hsent := sendToPlayers_sent_of_accepts ht (.levelData s.world.blockMapping)
      (fun s p => s.transitState p .levelInitialized)
      (fun s p => SameShape.transitState s p _) (fun _ _ => rfl) hp honline howned ho
    show List.filter _ (Server.sent _ conn.id) = _
    rw [processLevelWaitPlayer, hsent, List.filter_append, List.filter_replicate_of_pos rfl]
    rfl
  · rw [processLevelWaitPlayer, sendAndTransit_players, reached_of_accepts s targets ho,
      List.count_filter]
    rw [tryAcquireOf_of_hasPlayer ht hp honline]
    rfl

/-- What a run of `sync_block` does, and what it means for one player. -/
structure RunsLevel (s t : Server) (i p : Nat) (conn : Connection) : Prop where
  hasPlayer : t.HasPlayer i conn p
  metadata : t.world.metadata = s.world.metadata
  pendingBlocks : t.pendingBlocks = s.world.syncBlockTask.blockHistory.live
  blockMapping : t.world.blockMapping = s.world.syncBlockTask.blockHistory.output.foldl
    (commitBlockChange s.world.metadata) s.world.blockMapping
  queue : t.world.syncBlockTask.players = s.world.syncBlockTask.queue
  states : (t.players p).toPlayerState =
    PlayerState.transitState^[s.world.syncBlockTask.target.count p] (s.players p).toPlayerState
  updates : t.blockUpdates conn.id = s.blockUpdates conn.id ++
    (if .levelInitialized ≤ (s.players p).state
      then historyPackets [s.world.syncBlockTask.blockHistory.output] else []) ++
    List.replicate (s.world.syncBlockTask.target.count p) (.levelData t.world.blockMapping)

/-- Both parts of the task together, for an online player that all posts reach. -/
theorem RunsLevel.runTask (ht : TableOk s) (hlive : s.ReferencesLive) (hp : s.HasPlayer i conn p)
    (honline : conn.isOnline = true) {o o' : Outcomes} (ho : ∀ k, o k = true)
    (ho' : ∀ k, o' k = true) : RunsLevel s (s.runTask .syncBlock o o') i p conn := by
  set records := s.world.syncBlockTask.blockHistory.output with hrecords
  set targets := s.world.syncBlockTask.target with htargets
  set u := s.syncBlockHistory records o with hu
  have hquiet : Quiet s u := Quiet.syncBlockHistory s records o
  obtain ⟨huworld, huupdates⟩ := syncBlockHistory_spec ht hp honline ho records
  have hup : u.HasPlayer i conn p := ⟨by rw [hquiet.connection]; exact hp.1, hp.2⟩
  -- who is in the list of the task is still in a slot
  have howned : ∀ q ∈ targets, u.Owned q := by
    intro q hq
    obtain ⟨j, d, hhas⟩ := hlive q (mem_referencedPlayers.mpr
      (Or.inr (Or.inr (WorldPlayerTask.mem_players_of_target hq))))
    exact ⟨j, d, by rw [hquiet.connection]; exact hhas.1, hhas.2⟩
  set v := u.processLevelWaitPlayer targets o' with hv
  obtain ⟨hvworld, hvupdates, hvplayer⟩ :=
    processLevelWaitPlayer_spec (ht.of_sameShape hquiet.sameShape) hup honline howned ho'
  have hrun : s.runTask .syncBlock o o' = v.updateSyncBlockTask (·.finish) := by
    rw [Server.runTask, syncBlock_eq]
  have hvshape : SameShape u v := SameShape.sendAndTransit _ _ _ _ _
  have hvp : v.HasPlayer i conn p := ⟨by
    rw [Server.connection, hvshape.connectionEnv]
    exact hup.1, hp.2⟩
  have hmapping : v.world.blockMapping = u.world.blockMapping := by rw [hvworld]
  rw [hrun]
  constructor
  · exact hvp
  · show v.world.metadata = _
    rw [hvworld, huworld]
  · show [] ++ v.world.syncBlockTask.blockHistory.live = _
    rw [hvworld, huworld, List.nil_append]
  · show v.world.blockMapping = _
    rw [hvworld, huworld]
  · show v.world.syncBlockTask.queue ++ [] = _
    rw [hvworld, huworld, List.append_nil]
  · show (v.players p).toPlayerState = _
    rw [hvplayer, Player.iterate_transitState_toPlayerState, (hquiet.standing p).toPlayerState]
  · show v.blockUpdates conn.id = _ ++ List.replicate _ (.levelData v.world.blockMapping)
    rw [hvupdates, huupdates, hmapping]

end Server

/-! ## The invariant of a join

A player goes through the two phases of `JoinPhase` in one direction, and in the first of them from no list
to one. The step lemmas say which event takes it on, and that no other event does.
-/

/-- Where player `p` is on its way: not yet queued, or queued once, without having been sent anything
about blocks; or served, and no longer in the task. -/
inductive JoinPhase (s₀ : Server) (c p : Nat) (snapshots : List (List BlockHistoryRecord))
    (s : Server) : Prop where
  | waiting (updates : s.blockUpdates c = s₀.blockUpdates c)
      (loggedIn : State.handshaking ≤ (s.players p).state)
      (state : (s.players p).state ≤ .levelInitializing)
      (next : (s.players p).state = .levelInitializing → (s.players p).nextState = .levelInitialized)
      (queued : s.world.syncBlockTask.players.count p =
        if (s.players p).state = .levelInitializing then 1 else 0)
  | served (before after : List (List BlockHistoryRecord)) (split : snapshots = before ++ after)
      (built : before ≠ [])
      (updates : s.blockUpdates c = s₀.blockUpdates c ++
        .levelData (s₀.levelAfter before) :: historyPackets after)
      (state : State.levelInitialized ≤ (s.players p).state)
      (queued : s.world.syncBlockTask.players.count p = 0)

/-- What a join keeps true, from `s₀` on. The player keeps its connection; the accepted changes are those of
the snapshots and those that still wait; the mapping is that of the snapshots; and the player is in its
phase. -/
structure JoinOk (s₀ : Server) (i c p : Nat) (a : BlockTrace) (s : Server) : Prop where
  player : ∃ conn, s.HasPlayer i conn p ∧ conn.isOnline = true ∧ conn.id = c
  metadata : s.world.metadata = s₀.world.metadata
  inOrder : s₀.pendingBlocks ++ a.pushed = a.snapshots.flatten ++ s.pendingBlocks
  committed : s.world.blockMapping = s₀.levelAfter a.snapshots
  phase : JoinPhase s₀ c p a.snapshots s

namespace JoinOk

variable {s₀ s t : Server} {i c p : Nat} {a : BlockTrace}

/-- A phase is about the block packets, the state of the player and the level. -/
theorem phase_kept {snapshots : List (List BlockHistoryRecord)} (h : JoinPhase s₀ c p snapshots s)
    (hupdates : t.blockUpdates c = s.blockUpdates c)
    (hstates : (t.players p).toPlayerState = (s.players p).toPlayerState)
    (hcount : t.world.syncBlockTask.players.count p = s.world.syncBlockTask.players.count p) :
    JoinPhase s₀ c p snapshots t := by
  cases h with
  | waiting updates loggedIn state next queued =>
      refine .waiting (hupdates.trans updates) ?_ ?_ ?_ ?_ <;> rw [hstates]
      · exact loggedIn
      · exact state
      · exact next
      · rw [hcount]
        exact queued
  | served before after split built updates state queued =>
      refine .served before after split built (hupdates.trans updates) ?_ (hcount.trans queued)
      rw [hstates]
      exact state

/-- What others do keeps the invariant of a join. -/
theorem kept (h : JoinOk s₀ i c p a s) (hk : BlocksKept i c p s t) : JoinOk s₀ i c p a t where
  player := by
    obtain ⟨conn, hp, ho, hid⟩ := h.player
    obtain ⟨conn', hp', ho', hid'⟩ := hk.player conn hp ho
    exact ⟨conn', hp', ho', hid'.trans hid⟩
  metadata := hk.metadata.trans h.metadata
  inOrder := by
    rw [h.inOrder, Server.pendingBlocks, Server.pendingBlocks, hk.history]
  committed := hk.mapping.trans h.committed
  phase := phase_kept h.phase hk.updates hk.states hk.count

/-- The player itself is prepared, before it is queued or after it got the level. -/
theorem prepare (h : JoinOk s₀ i c p a s) (cur next : State)
    (hcur : ((s.players p).state < .levelInitializing ∧ .handshaking ≤ cur ∧
      cur < .levelInitializing) ∨ (.levelInitialized ≤ (s.players p).state ∧ .levelInitialized ≤ cur)) :
    JoinOk s₀ i c p a (s.prepareStateTransition p cur next) := by
  have hself : (s.prepareStateTransition p cur next).players p =
      (s.players p).prepareStateTransition cur next := by
    rw [Server.prepareStateTransition_players, if_pos rfl]
  refine ⟨h.player, h.metadata, h.inOrder, h.committed, ?_⟩
  cases h.phase with
  | waiting updates loggedIn state hnext queued =>
      rcases hcur with ⟨hlt, hle, hcur⟩ | ⟨hgot, -⟩
      · rw [if_neg hlt.ne] at queued
        refine .waiting updates ?_ ?_ ?_ ?_ <;> rw [hself, Player.prepareStateTransition_state]
        · exact hle
        · exact hcur.le
        · exact fun heq => absurd heq hcur.ne
        · rw [if_neg hcur.ne]
          exact queued
      · exact absurd (hgot.trans state) (by decide)
  | served before after split built updates state queued =>
      rcases hcur with ⟨hlt, -⟩ | ⟨-, hcur⟩
      · exact absurd (state.trans hlt.le) (by decide)
      · refine .served before after split built updates ?_ queued
        rw [hself]
        exact hcur

/-- The player is queued for the level. -/
theorem waitForLevel (h : JoinOk s₀ i c p a s)
    (hstate : (s.players p).state < .levelInitializing) : JoinOk s₀ i c p a (s.waitForLevel p) := by
  have hself : (s.waitForLevel p).players p =
      (s.players p).prepareStateTransition .levelInitializing .levelInitialized := by
    rw [show (s.waitForLevel p).players = (s.prepareStateTransition p .levelInitializing
      .levelInitialized).players from rfl, Server.prepareStateTransition_players, if_pos rfl]
  refine ⟨h.player, h.metadata, h.inOrder, h.committed, ?_⟩
  cases h.phase with
  | waiting updates loggedIn state hnext queued =>
      rw [if_neg hstate.ne] at queued
      refine .waiting updates ?_ ?_ ?_ ?_ <;> rw [hself, Player.prepareStateTransition_state]
      · decide
      · exact fun _ => rfl
      · refine (WorldPlayerTask.count_players_push _ p p).trans ?_
        rw [if_pos rfl, if_pos rfl]
        exact congrArg (· + 1) queued
  | served before after split built updates state queued =>
      exact absurd (state.trans hstate.le) (by decide)

/-- The tick visits the player itself. -/
theorem visit (h : JoinOk s₀ i c p a s) (conn : Connection) (now : Nat) (o : Outcomes) :
    JoinOk s₀ i c p a (s.transitPlayerState i conn p now o) := by
  have hloggedIn : State.handshaking ≤ (s.players p).state := by
    cases h.phase with
    | waiting updates loggedIn state next queued => exact loggedIn
    | served before after split built updates state queued => exact le_trans (by decide) state
  unfold Server.transitPlayerState
  cases hstate : (s.players p).state with
  | exHandshaked =>
      show JoinOk s₀ i c p a (if _ then _ else _)
      split_ifs
      · have hsent : BlocksKept i c p s ((((s.send conn .extInfo true).send conn
            (.extEntry messageTypesExtension.1 messageTypesExtension.2.version) (o 1)).send conn
            (.extEntry twoWayPingExtension.1 twoWayPingExtension.2.version) (o 2))) :=
          ((BlocksKept.send s conn true rfl).trans (.send _ conn _ rfl)).trans (.send _ conn _ rfl)
        have hsame := (congrArg PlayerState.state hsent.states).trans hstate
        exact (h.kept hsent).prepare .extensionSyncing .extensionSynced
          (Or.inl ⟨hsame ▸ by decide, by decide, by decide⟩)
      · exact h
  | handshaked | extensionSynced =>
      have hsent := BlocksKept.onHandshakeSuccess (i := i) (c := c) (p := p) s conn p o
      have hsame := (congrArg PlayerState.state hsent.states).trans hstate
      exact (h.kept hsent).waitForLevel (hsame ▸ by decide)
  | levelInitialized =>
      have hset := BlocksKept.setSpawnPosition (i := i) (c := c) (p := p) s p
      have hsame := (congrArg PlayerState.state hset.states).trans hstate
      have hprepared := (h.kept hset).prepare .spawning .spawned
        (Or.inr ⟨hsame.ge, by decide⟩)
      exact hprepared.kept (.world _ rfl rfl rfl)
  | spawned =>
      show JoinOk s₀ i c p a (if _ then _ else _)
      split_ifs
      · exact h.kept ((BlocksKept.send s conn (o 0) rfl).trans (.updatePlayer _ p rfl))
      · exact h
  | disconnecting => exact absurd (hstate ▸ hloggedIn) (by decide)
  | disconnected => exact absurd (hstate ▸ hloggedIn) (by decide)
  | _ => exact h

/-- The tick visits the player itself, or another one. -/
theorem tickPlayer (h : JoinOk s₀ i c p a s) (ht : TableOk s) (j now : Nat) (o : Outcomes) :
    JoinOk s₀ i c p a (s.tickPlayer j now o) := by
  unfold Server.tickPlayer
  cases hconn : s.connection j with
  | none => exact h
  | some conn =>
      cases hplayer : s.connectionEnv.playerOf j with
      | none => exact h
      | some q =>
          obtain ⟨conn', hq, -⟩ := ht.of_playerOf hplayer
          obtain rfl : conn = conn' := Option.some.inj (hconn.symm.trans hq.1)
          obtain ⟨d, hp, -, -⟩ := h.player
          by_cases hj : j = i
          · subst hj
            obtain rfl : conn = d := Option.some.inj (hconn.symm.trans hp.1)
            obtain rfl : q = p := Option.some.inj (hq.2.symm.trans hp.2)
            exact h.visit conn now o
          · refine h.kept (BlocksKept.transitPlayerState ht hj hq ?_ now o)
            rintro rfl
            exact hj (ht.hasPlayer_unique hq hp).1

/-- An event that pushes nothing. -/
theorem trace (h : JoinOk s₀ i c p a t) {e : Event} (hpushed : s.pushedBlock e = [])
    (hrun : ∀ o o', e ≠ .runTask .syncBlock o o') : JoinOk s₀ i c p (s.traceBlocks a e) t := by
  have htrace : s.traceBlocks a e = { a with pushed := a.pushed ++ s.pushedBlock e } := by
    unfold Server.traceBlocks
    split
    · exact absurd rfl (hrun _ _)
    · rfl
  rw [htrace, hpushed, List.append_nil]
  exact h

/-- A change of a block is pushed, or refused and reverted. -/
theorem setBlock (h : JoinOk s₀ i c p a s) (j : Nat) (x y z : BitVec 16) (mode blockId : UInt8)
    (now : Nat) (accepted : Bool) (garbage : PlayerTypeId) :
    JoinOk s₀ i c p
      (s.traceBlocks a (.receive j (.setBlock x y z mode blockId) now accepted garbage))
      (s.receivePacket j (.setBlock x y z mode blockId) now accepted garbage) := by
  unfold Server.receivePacket
  cases hconn : s.connection j with
  | none => exact h.trace (by simp [Server.pushedBlock, hconn]) (fun _ _ => nofun)
  | some conn =>
      cases honline : conn.isOnline with
      | false =>
          have hpushed : s.pushedBlock (.receive j (.setBlock x y z mode blockId) now accepted garbage) =
              [] := by
            simp [Server.pushedBlock, hconn, honline]
          simpa [honline] using h.trace hpushed (fun _ _ => nofun)
      | true =>
          have hu := h.kept (BlocksKept.interact hconn now)
          simp only [honline, if_true, Server.handlePacket]
          rcases (s.interact j now).handleSetBlockPacket_cases (conn.updateLastInteractionTime now) x y z
            mode blockId accepted with ⟨hok, heq⟩ | ⟨hok, record, heq⟩
          · -- the record joins the live data
            have hpushed : s.pushedBlock (.receive j (.setBlock x y z mode blockId) now accepted
                garbage) = [Server.changedBlock x y z mode blockId] := by
              have hok' : (s.pushBlock (Server.changedBlock x y z mode blockId)).2 = true := hok
              simp [Server.pushedBlock, hconn, honline, hok']
            rw [heq]
            refine ⟨hu.player, hu.metadata, ?_, hu.committed,
              phase_kept hu.phase rfl rfl rfl⟩
            show s₀.pendingBlocks ++ (a.pushed ++ s.pushedBlock _) = a.snapshots.flatten ++ _
            rw [hpushed, ← List.append_assoc, h.inOrder, List.append_assoc]
            have hlive : (s.pushBlock (Server.changedBlock x y z mode blockId)).1 =
                { s.world.syncBlockTask.blockHistory with
                  live := s.world.syncBlockTask.blockHistory.live ++
                    [Server.changedBlock x y z mode blockId] } := DoubleBuffering.push_of_ok hok
            show _ = _ ++ ((s.pushBlock _).1.output ++ (s.pushBlock _).1.live)
            rw [hlive, Server.pendingBlocks, List.append_assoc]
          · rw [heq]
            refine (hu.kept (.send _ _ _ rfl)).trace ?_ (fun _ _ => nofun)
            have hok' : (s.pushBlock (Server.changedBlock x y z mode blockId)).2 = false := hok
            simp [Server.pushedBlock, hok']

/-- A task is scheduled. -/
theorem scheduleTask (h : JoinOk s₀ i c p a s) (htask : LevelTaskOk s) (task : WorldTaskId)
    (now : Nat) (posted : Bool) : JoinOk s₀ i c p a (s.scheduleTask task now posted) := by
  cases task with
  | syncBlock =>
      simp only [Server.scheduleTask]
      split_ifs with hready
      · -- the task held nothing, so the snapshot is all that is pending
        have hunused : s.world.syncBlockTask.state = .unused := by
          simp only [BlockSyncTask.ready, Task.ready, Bool.and_eq_true, beq_iff_eq] at hready
          exact hready.1.1
        refine ⟨h.player, h.metadata, ?_, h.committed, phase_kept h.phase rfl rfl ?_⟩
        · rw [h.inOrder, Server.pendingBlocks, (htask.idle hunused).2]
          show _ = _ ++ (s.world.syncBlockTask.blockHistory.live ++
            s.world.syncBlockTask.blockHistory.output)
          rw [(htask.idle hunused).2, List.nil_append, List.append_nil]
        · exact WorldPlayerTask.count_players_schedule _ now posted p
      · exact h
  | _ =>
      simp only [Server.scheduleTask]
      split_ifs
      · exact h.kept (.world s rfl rfl rfl)
      · exact h

theorem levelAfter_append (s : Server) (snapshots : List (List BlockHistoryRecord))
    (records : List BlockHistoryRecord) : s.levelAfter (snapshots ++ [records]) =
      records.foldl (Server.commitBlockChange s.world.metadata) (s.levelAfter snapshots) := by
  simp [Server.levelAfter]

/-- **A run of `sync_block`.** A player that waits in the taken list gets the level with the snapshot
committed; one that has the level gets the snapshot; a player still in the queue gets nothing. -/
theorem runLevel_phase {snapshots : List (List BlockHistoryRecord)} {conn : Connection}
    (h : JoinPhase s₀ conn.id p snapshots s) (hruns : Server.RunsLevel s t i p conn)
    (hlevel : t.world.blockMapping =
      s₀.levelAfter (snapshots ++ [s.world.syncBlockTask.blockHistory.output])) :
    JoinPhase s₀ conn.id p (snapshots ++ [s.world.syncBlockTask.blockHistory.output]) t := by
  have hcount : s.world.syncBlockTask.players.count p =
      s.world.syncBlockTask.queue.count p + s.world.syncBlockTask.target.count p := List.count_append
  have hupdates := hruns.updates
  have hstates := hruns.states
  cases h with
  | waiting updates loggedIn state next queued =>
      have hnot : ¬ State.levelInitialized ≤ (s.players p).state := fun hle =>
        absurd (hle.trans state) (by decide)
      rw [if_neg hnot, List.append_nil, updates] at hupdates
      rcases Nat.eq_zero_or_pos (s.world.syncBlockTask.target.count p) with hzero | hpos
      · -- the player is not among those that were taken
        rw [hzero] at hupdates hstates
        rw [Function.iterate_zero_apply] at hstates
        refine .waiting ?_ ?_ ?_ ?_ ?_
        · rw [hupdates, List.replicate_zero, List.append_nil]
        all_goals rw [hstates]
        · exact loggedIn
        · exact state
        · exact next
        · rw [hruns.queue, ← queued, hcount, hzero, Nat.add_zero]
      · -- the player was taken, once
        have hinit : (s.players p).state = .levelInitializing := by
          by_contra hne
          rw [if_neg hne] at queued
          omega
        rw [if_pos hinit] at queued
        have hone : s.world.syncBlockTask.target.count p = 1 := by omega
        rw [hone] at hupdates hstates
        refine .served _ [] (List.append_nil _).symm (by simp) ?_ ?_ ?_
        · rw [hupdates, hlevel]
          rfl
        · rw [hstates, Function.iterate_one]
          exact (next hinit).ge
        · rw [hruns.queue]
          omega
  | served before after split built updates state queued =>
      have hzero : s.world.syncBlockTask.target.count p = 0 := by omega
      rw [hzero] at hupdates hstates
      rw [if_pos state] at hupdates
      refine .served before (after ++ [_]) (by rw [split, List.append_assoc]) built ?_ ?_ ?_
      · rw [hupdates, updates, List.replicate_zero, List.append_nil, List.append_assoc]
        simp [historyPackets]
      · rw [hstates, Function.iterate_zero_apply]
        exact state
      · rw [hruns.queue]
        omega

theorem runLevel (h : JoinOk s₀ i c p a s) (ht : TableOk s) (hlive : s.ReferencesLive)
    {o o' : Outcomes} (ho : ∀ k, o k = true) (ho' : ∀ k, o' k = true) :
    JoinOk s₀ i c p (s.traceBlocks a (.runTask .syncBlock o o')) (s.runTask .syncBlock o o') := by
  obtain ⟨conn, hp, honline, rfl⟩ := h.player
  have hruns := Server.RunsLevel.runTask ht hlive hp honline ho ho'
  have hlevel : (s.runTask .syncBlock o o').world.blockMapping =
      s₀.levelAfter (a.snapshots ++ [s.world.syncBlockTask.blockHistory.output]) := by
    rw [levelAfter_append, ← h.committed, ← h.metadata, hruns.blockMapping]
  refine ⟨⟨conn, hruns.hasPlayer, honline, rfl⟩, hruns.metadata.trans h.metadata, ?_, hlevel,
    runLevel_phase h.phase hruns hlevel⟩
  -- the snapshot leaves the double buffer, and is the last one handled
  show s₀.pendingBlocks ++ a.pushed = (a.snapshots ++ [_]).flatten ++ _
  rw [h.inOrder, hruns.pendingBlocks]
  simp [Server.pendingBlocks]

/-- The callbacks of a task replace no player. -/
theorem replacesUnreferenced_callbackCalls {packet : ServerPacket}
    {successed : Server → Nat → Server} {cause : Server.Cause} (ps : List Nat) (o : Outcomes) :
    ∀ call ∈ Server.callbackCalls packet successed cause ps o s,
      call.1.ReplacesUnreferenced call.2 := by
  intro call hcall
  obtain ⟨p, htransit⟩ := Server.eq_transit_of_mem_callbackCalls hcall
  rw [htransit]
  trivial

/-- The events of a join replace and delete no player. -/
theorem callsMeet (s : Server) {e : Event} (he : e.IsBlockEvent) :
    s.CallsMeet Server.ReplacesUnreferenced e ∧ s.DeletesUnreferenced e := by
  cases e with
  | receive j packet now accepted garbage =>
      cases packet with
      | setBlock x y z mode blockId =>
          refine ⟨fun call hcall => ?_, trivial⟩
          simp only [Server.calls, Server.packetCalls] at hcall
          split at hcall
          · exact absurd hcall List.not_mem_nil
          · rw [ite_self] at hcall
            exact absurd hcall List.not_mem_nil
      | _ => exact he.elim
  | tickPlayer j now o =>
      refine ⟨fun call hcall => ?_, trivial⟩
      simp only [Server.calls] at hcall
      split at hcall
      · split_ifs at hcall
        · rw [List.mem_singleton.mp hcall]
          trivial
        · exact absurd hcall List.not_mem_nil
      · exact absurd hcall List.not_mem_nil
  | schedule task now posted => exact ⟨fun _ hcall => absurd hcall List.not_mem_nil, trivial⟩
  | runTask task o o' =>
      cases task with
      | syncBlock => exact ⟨replacesUnreferenced_callbackCalls _ _, trivial⟩
      | _ => exact he.elim
  | _ => exact he.elim

/-- Every event around the blocks keeps the invariant, with what it pushed and what it took. -/
theorem step (h : JoinOk s₀ i c p a s) (hbase : TableOk s ∧ HistoryOk s ∧ LevelTaskOk s)
    (hlive : s.ReferencesLive) {e : Event} (he : e.IsBlockEvent) (hstep : s.step e = some t) :
    JoinOk s₀ i c p (s.traceBlocks a e) t := by
  cases e with
  | receive j packet now accepted garbage =>
      obtain rfl := Option.some.inj hstep
      cases packet with
      | setBlock x y z mode blockId => exact h.setBlock j x y z mode blockId now accepted garbage
      | _ => exact he.elim
  | tickPlayer j now o =>
      obtain rfl := Option.some.inj hstep
      exact (h.tickPlayer hbase.1 j now o).trace rfl (fun _ _ => nofun)
  | schedule task now posted =>
      obtain rfl := Option.some.inj hstep
      exact (h.scheduleTask hbase.2.2 task now posted).trace rfl (fun _ _ => nofun)
  | runTask task o o' =>
      cases task with
      | syncBlock =>
          obtain rfl : s.runTask .syncBlock o o' = t := by
            rw [Server.step] at hstep
            split_ifs at hstep
            exact Option.some.inj hstep
          exact h.runLevel hbase.1 hlive he.1 he.2
      | _ => exact he.elim
  | _ => exact he.elim

/-- What a join has kept true is that everything reached the player once. -/
theorem joinsOnce (h : JoinOk s₀ i c p a s) : s₀.JoinsOnce c p a s where
  inOrder := h.inOrder
  committed := h.committed
  joins := by
    cases h.phase with
    | waiting updates loggedIn state next queued =>
        exact .waiting updates (state.trans_lt (by decide))
    | served before after split built updates state queued =>
        exact .served before after split built updates

end JoinOk

namespace Server

/-- A player that logs in is not in the task yet. -/
theorem joinOk_start {s : Server} (hlevel : LevelTaskOk s) {i p : Nat} {conn : Connection}
    (hp : s.HasPlayer i conn p) (honline : conn.isOnline = true)
    (hloggedIn : .handshaking ≤ (s.players p).state) (hstate : (s.players p).state < .levelInitializing) :
    JoinOk s i conn.id p {} s := by
  have hqueued : s.world.syncBlockTask.players.count p = 0 := by
    apply List.count_eq_zero.mpr
    intro hmem
    rcases (hlevel.pastLogin p hmem).1 with hpast | hleaving
    · exact absurd (hpast.trans_lt hstate) (lt_irrefl _)
    · rcases hleaving with hleaving | hleaving <;> rw [hleaving] at hloggedIn <;>
        exact absurd hloggedIn (by decide)
  refine ⟨⟨conn, hp, honline, rfl⟩, rfl, List.append_nil _, rfl, .waiting rfl hloggedIn hstate.le ?_ ?_⟩
  · exact fun heq => absurd heq hstate.ne
  · rw [hqueued, if_neg hstate.ne]

/-- **No change of a block is missed or repeated around a join**: in every run of pushes, ticks and
`sync_block` from a reachable state in which the player is connected and not yet queued for the level. What
others do meanwhile does not matter, only that the tasks hold no freed player (`ReferencesLive`); and a
player that has not been queued when the run begins may be queued in it, or not. -/
theorem joinsOnce_of_run {maxClients : Nat} {metadata : WorldMetadata} {blockMapping : List UInt8}
    {pre es : List Event} {s t : Server} {i p : Nat} {conn : Connection}
    (hpre : run Server.step (Server.init maxClients metadata blockMapping) pre = some s)
    (hlive : s.ReferencesLive) (hp : s.HasPlayer i conn p) (honline : conn.isOnline = true)
    (hloggedIn : .handshaking ≤ (s.players p).state) (hstate : (s.players p).state < .levelInitializing)
    (hes : ∀ e ∈ es, e.IsBlockEvent) (hrun : run Server.step s es = some t) :
    s.JoinsOnce conn.id p (follow Server.step traceBlocks {} s es) t := by
  have hbase := (HistoryOk.closed.inter LevelTaskOk.closed).run
    (s := Server.init maxClients metadata blockMapping)
    ⟨TableOk.init .., HistoryOk.init .., fun _ => ⟨rfl, rfl⟩, fun _ hq => absurd hq List.not_mem_nil⟩
    (Along.of_forall fun _ _ _ _ => trivial) hpre
  have h := run_invariant_follow (f := traceBlocks)
    (P := fun a s' => (TableOk s' ∧ HistoryOk s' ∧ LevelTaskOk s') ∧ s'.ReferencesLive ∧
      JoinOk s i conn.id p a s')
    (G := fun _ e => e.IsBlockEvent) ?_
    ⟨hbase, hlive, joinOk_start hbase.2.2 hp honline hloggedIn hstate⟩
    (Along.of_forall_mem fun e he _ => hes e he) hrun
  · exact h.2.2.joinsOnce
  · rintro a s' e t' ⟨hbase', hlive', hjoin⟩ he hstep
    obtain ⟨hcalls, hdeletes⟩ := JoinOk.callsMeet s' he
    exact ⟨(HistoryOk.closed.inter LevelTaskOk.closed).step hbase' e (fun _ _ => trivial) hstep,
      (ReferencesLive.step ⟨hbase'.1, hlive'⟩ hcalls hdeletes hstep).2,
      hjoin.step hbase' hlive' he hstep⟩

/-- A guest is queued, a block is changed before the level is built, and another one after. -/
def joinWithChanges : List Event :=
  [.tickPlayer 0 0 fun _ => true, .receive 0 (.setBlock 0 0 0 1 7) 0 true 0] ++
  [.schedule .syncBlock 1 true, .runTask .syncBlock (fun _ => true) fun _ => true] ++
  [.receive 0 (.setBlock 0 0 0 1 8) 2 true 0, .tickPlayer 0 3 fun _ => true] ++
  [.schedule .syncBlock 300 true, .runTask .syncBlock (fun _ => true) fun _ => true]

/-- One change comes before the level of the guest is built, and one after. -/
theorem joinsOnce_of_run_withChanges :
    ∃ s t, run Server.step Server.small (guestLogin 0) = some s ∧
      run Server.step s joinWithChanges = some t ∧
      s.JoinsOnce 0 0 (follow Server.step traceBlocks {} s joinWithChanges) t := by
  have hstart : ((run Server.step Server.small (guestLogin 0)).map fun s =>
      ((s.connection 0).map fun conn => (conn.player, conn.isOnline, conn.id),
        (s.players 0).state, s.referencedPlayers)) =
      some (some (some 0, true, 0), .handshaked, []) := by decide
  obtain ⟨s, hs, heq⟩ := Option.map_eq_some_iff.mp hstart
  simp only [Prod.mk.injEq] at heq
  obtain ⟨hconn, hstate, hnone⟩ := heq
  obtain ⟨conn, hslot, hconn⟩ := Option.map_eq_some_iff.mp hconn
  simp only [Prod.mk.injEq] at hconn
  obtain ⟨hplayer, honline, hid⟩ := hconn
  have hwhole : (run Server.step Server.small (guestLogin 0 ++ joinWithChanges)).isSome = true := by
    decide
  obtain ⟨t, ht⟩ := Option.isSome_iff_exists.mp hwhole
  obtain ⟨s', hs', hrun⟩ := run_append_eq_some.mp ht
  obtain rfl := Option.some.inj (hs.symm.trans hs')
  have hlive : s.ReferencesLive := fun q hq => absurd (hnone ▸ hq) List.not_mem_nil
  have hjoins : s.JoinsOnce conn.id 0 _ t := joinsOnce_of_run hs hlive ⟨hslot, hplayer⟩ honline
    (by rw [hstate]; decide) (by rw [hstate]; decide) (by simp [joinWithChanges, Event.IsBlockEvent])
    hrun
  rw [hid] at hjoins
  exact ⟨s, t, hs, hrun, hjoins⟩

end Server

end Mmocraft
