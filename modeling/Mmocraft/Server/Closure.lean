/-
# Mmocraft.Server.Closure -- the moves an event is made of

Every event is a sequence of a few moves: a connection is registered or deleted, a player is
constructed, prepared or moved on, a task is filled, scheduled or run.  Everything else an event does
is quiet: it changes what was sent, positions, chat and blocks, but no state and no identity.
`Closed P C` says that a property `P` survives every move, where the moves that correspond to a
`Call` may assume that the call meets `C`; the rule `Closed.step` derives from it, once and for all,
that `P` survives every event.

A module that proves an invariant of the server then has one obligation for each move, in the words of that
move, and never opens an event. Each obligation comes with what is known where the move is made: the table is
in order, the slot that is touched holds that connection and is online, the task refers to that player, and
the call meets the condition `C` of the run. Properties that rest on one another are combined: `B` is a
property that is already closed, and may be used in the obligations of `P`.

The rule is stated in parts, one for each source of moves (connections, the tick, scheduling, the tasks and
the replies), since a few invariants survive some events for a reason of their own and need the rule for the
others only. Nothing here is about one of the invariants.
-/
import Mmocraft.Server.Attached

namespace Mmocraft

open Mmocraft.Lib Mmocraft.Game Mmocraft.Net

/-! ## Sending to players -/

namespace Server

/-- What every accepted send and every callback keep, sending to players keeps. -/
theorem sendToPlayers_rel {R : Server → Server → Prop} {packet : ServerPacket}
    {successed : Server → Nat → Server} (refl : ∀ s, R s s)
    (trans : ∀ {s t u}, R s t → R t u → R s u) (hsend : ∀ s conn, R s (s.send conn packet true))
    (hsuccessed : ∀ s p, R s (successed s p)) (targets : List Nat) (o : Outcomes) (s : Server) :
    R s (sendToPlayers packet successed targets o s) := by
  induction targets generalizing o s with
  | nil => exact refl s
  | cons p ps ih =>
      have hone : R s (s.sendToPlayer p packet (o 0) successed) := by
        unfold sendToPlayer
        cases s.tryAcquireOf p with
        | none => exact refl s
        | some conn =>
            show R s (if _ then _ else _)
            split_ifs
            · exact trans (hsend s conn) (hsuccessed _ p)
            · exact refl s
      exact trans hone (ih o.tail _)

/-- The callbacks of a task are transitions. -/
theorem eq_transit_of_mem_callbackCalls {packet : ServerPacket} {successed : Server → Nat → Server}
    {cause : Cause} {ps : List Nat} {o : Outcomes} {s : Server} {call : Server × Call}
    (hcall : call ∈ callbackCalls packet successed cause ps o s) : ∃ p, call.2 = .transit p cause := by
  induction ps generalizing o s with
  | nil => exact absurd hcall List.not_mem_nil
  | cons p ps ih =>
      rcases List.mem_append.mp hcall with hcall | hcall
      · cases hacq : s.tryAcquireOf p with
        | none =>
            rw [hacq] at hcall
            exact absurd hcall List.not_mem_nil
        | some conn =>
            rw [hacq] at hcall
            dsimp only at hcall
            split_ifs at hcall
            · rw [List.mem_singleton.mp hcall]
              exact ⟨p, rfl⟩
            · exact absurd hcall List.not_mem_nil
      · exact ih hcall

/-- `sync_block` passes the level on also to an empty list. -/
theorem syncBlock_eq (s : Server) (levelWaitPlayers : List Nat) (records : List BlockHistoryRecord)
    (toPlaying toWaiting : Outcomes) : s.syncBlock levelWaitPlayers records toPlaying toWaiting =
      (s.syncBlockHistory records toPlaying).processLevelWaitPlayer levelWaitPlayers toWaiting := by
  simp only [syncBlock]
  split_ifs with hempty
  · rw [List.isEmpty_iff.mp hempty]
    rfl
  · rfl

end Server

/-! ## Quiet changes

Most of what an event does matters to no invariant of states: packets are appended to what was sent, a
position is remembered, a record is pushed to a history.
-/

/-- From `s` to `t` no state, identity, table entry, task of players, request or record changes. -/
structure Quiet (s t : Server) : Prop where
  connectionEnv : t.connectionEnv = s.connectionEnv
  numOfAccepted : t.numOfAccepted = s.numOfAccepted
  numOfPlayers : t.numOfPlayers = s.numOfPlayers
  owner : t.owner = s.owner
  standing : ∀ p, (s.players p).SameStanding (t.players p)
  spawnTask : t.world.spawnPlayerTask = s.world.spawnPlayerTask
  disconnectTask : t.world.disconnectPlayerTask = s.world.disconnectPlayerTask
  levelTask : t.world.syncBlockTask.toWorldPlayerTask = s.world.syncBlockTask.toWorldPlayerTask
  levelOutput : t.world.syncBlockTask.blockHistory.output = s.world.syncBlockTask.blockHistory.output
  requests : t.requests = s.requests
  loads : t.loads = s.loads
  log : t.log = s.log

namespace Quiet

theorem refl (s : Server) : Quiet s s :=
  ⟨rfl, rfl, rfl, rfl, fun _ => Player.SameStanding.refl _, rfl, rfl, rfl, rfl, rfl, rfl, rfl⟩

theorem trans {s t u : Server} (hst : Quiet s t) (htu : Quiet t u) : Quiet s u where
  connectionEnv := htu.connectionEnv.trans hst.connectionEnv
  numOfAccepted := htu.numOfAccepted.trans hst.numOfAccepted
  numOfPlayers := htu.numOfPlayers.trans hst.numOfPlayers
  owner := htu.owner.trans hst.owner
  standing p := (hst.standing p).trans (htu.standing p)
  spawnTask := htu.spawnTask.trans hst.spawnTask
  disconnectTask := htu.disconnectTask.trans hst.disconnectTask
  levelTask := htu.levelTask.trans hst.levelTask
  levelOutput := htu.levelOutput.trans hst.levelOutput
  requests := htu.requests.trans hst.requests
  loads := htu.loads.trans hst.loads
  log := htu.log.trans hst.log

/-- The table and the players are where they were. -/
theorem sameShape {s t : Server} (h : Quiet s t) : SameShape s t :=
  ⟨h.connectionEnv, h.numOfAccepted, h.numOfPlayers, h.owner, fun p => (h.standing p).connectionKey⟩

/-- Every slot holds what it held. -/
theorem connection {s t : Server} (h : Quiet s t) (i : Nat) : t.connection i = s.connection i := by
  rw [Server.connection, Server.connection, h.connectionEnv]

/-- Who can be reached through a table that is the same is the same. -/
theorem tryAcquireOf {s t : Server} (h : Quiet s t) (p : Nat) : t.tryAcquireOf p = s.tryAcquireOf p := by
  rw [Server.tryAcquireOf, Server.tryAcquireOf, Server.tryAcquireConnection,
    Server.tryAcquireConnection, h.connectionEnv, (h.standing p).connectionKey]

/-- A player may change in what its standing does not depend on. -/
theorem updatePlayer (s : Server) (p : Nat) {f : Player → Player}
    (hf : (s.players p).SameStanding (f (s.players p))) : Quiet s (s.updatePlayer p f) where
  connectionEnv := rfl
  numOfAccepted := rfl
  numOfPlayers := rfl
  owner := rfl
  standing q := by
    simp only [Server.updatePlayer, Function.update_apply]
    split_ifs with hq
    · rw [hq]
      exact hf
    · exact Player.SameStanding.refl _
  spawnTask := rfl
  disconnectTask := rfl
  levelTask := rfl
  levelOutput := rfl
  requests := rfl
  loads := rfl
  log := rfl

/-- A packet is only appended to what its connection was sent. -/
theorem send (s : Server) (conn : Connection) (packet : ServerPacket) (accepted : Bool) :
    Quiet s (s.send conn packet accepted) := by
  unfold Server.send
  cases accepted
  · exact refl s
  · exact ⟨rfl, rfl, rfl, rfl, fun _ => Player.SameStanding.refl _, rfl, rfl, rfl, rfl, rfl, rfl, rfl⟩

/-- A change of the world that leaves the players of its tasks alone. -/
theorem world (s : Server) {w : World} (hspawn : w.spawnPlayerTask = s.world.spawnPlayerTask)
    (hdisconnect : w.disconnectPlayerTask = s.world.disconnectPlayerTask)
    (hlevel : w.syncBlockTask.toWorldPlayerTask = s.world.syncBlockTask.toWorldPlayerTask)
    (houtput : w.syncBlockTask.blockHistory.output = s.world.syncBlockTask.blockHistory.output) :
    Quiet s { s with world := w } :=
  ⟨rfl, rfl, rfl, rfl, fun _ => Player.SameStanding.refl _, hspawn, hdisconnect, hlevel, houtput,
    rfl, rfl, rfl⟩

/-- Sending to players without a callback is quiet. -/
theorem sendToPlayers (packet : ServerPacket) {successed : Server → Nat → Server}
    (hquiet : ∀ s p, Quiet s (successed s p)) (targets : List Nat) (o : Outcomes) (s : Server) :
    Quiet s (Server.sendToPlayers packet successed targets o s) :=
  Server.sendToPlayers_rel refl trans (fun s conn => send s conn packet true) hquiet targets o s

/-- A transfer without a callback changes no player. -/
theorem noCallback (s : Server) (p : Nat) : Quiet s (Server.noCallback s p) := refl s

/-- Quiet rounds of a loop are quiet together. -/
theorem foldl {g : Server → Nat → Server} (hg : ∀ s p, Quiet s (g s p)) (targets : List Nat)
    (s : Server) : Quiet s (targets.foldl g s) := by
  induction targets generalizing s with
  | nil => exact refl s
  | cons p ps ih => exact (hg s p).trans (ih _)

/-- The block records go to whoever plays, and nobody is moved on by them. -/
theorem syncBlockHistory (s : Server) (records : List BlockHistoryRecord) (o : Outcomes) :
    Quiet s (s.syncBlockHistory records o) := by
  unfold Server.syncBlockHistory
  split_ifs
  · exact refl s
  · have hcommit : Quiet s (s.commitBlockChanges records) := world s rfl rfl rfl rfl
    exact hcommit.trans (sendToPlayers _ noCallback _ _ _)

/-- The positions that were sent are remembered with their players. -/
theorem syncPlayerPosition (s : Server) (o : Outcomes) : Quiet s (s.syncPlayerPosition o) := by
  have hremember : Quiet s ((s.selectPlayersFrom .spawned).foldl Server.rememberPosition s) :=
    foldl (fun s p => updatePlayer s p ⟨rfl, rfl, rfl, rfl, rfl⟩) _ s
  simp only [Server.syncPlayerPosition]
  split_ifs
  · exact hremember
  · exact hremember.trans (sendToPlayers _
      (fun s p => updatePlayer s p ⟨rfl, rfl, rfl, rfl, rfl⟩) _ _ _)

theorem commonChatTransfer (s : Server) (messages : List (List UInt8)) (o : Outcomes) :
    Quiet s (s.commonChatTransfer messages o) := by
  unfold Server.commonChatTransfer
  split_ifs
  · exact refl s
  · exact sendToPlayers _ noCallback _ _ _

theorem onHandshakeSuccess (s : Server) (conn : Connection) (p : Nat) (o : Outcomes) :
    Quiet s (s.onHandshakeSuccess conn p o) :=
  ((send s conn _ _).trans (send _ conn _ _)).trans (send _ conn _ _)

theorem setSpawnPosition (s : Server) (p : Nat) : Quiet s (s.setSpawnPosition p) := by
  simp only [Server.setSpawnPosition]
  refine updatePlayer s p ?_
  exact (Player.sameStanding_setSpawnCoordinate _ _ _ _).trans
    (Player.sameStanding_setSpawnOrientation _ _ _)

/-- An entry of an extension is counted; that it was the last one is a move of its own. -/
theorem countExtEntry (s : Server) (p : Nat) (extensionName : List UInt8) (version : BitVec 32) :
    Quiet s (s.countExtEntry p extensionName version) := by
  refine updatePlayer s p ?_
  cases availableCpe extensionName version with
  | none => exact ⟨rfl, rfl, rfl, rfl, rfl⟩
  | some ext => exact ⟨rfl, rfl, rfl, rfl, rfl⟩

/-- A block change goes to the history of the task, or is answered. -/
theorem handleSetBlockPacket (s : Server) (conn : Connection) (x y z : BitVec 16)
    (mode blockId : UInt8) (accepted : Bool) :
    Quiet s (s.handleSetBlockPacket conn x y z mode blockId accepted) := by
  simp only [Server.handleSetBlockPacket]
  split_ifs <;> first | exact send .. | exact world s rfl rfl rfl (DoubleBuffering.push_output ..)

theorem handlePlayerPositionPacket (s : Server) (conn : Connection) (position : PlayerPosition) :
    Quiet s (s.handlePlayerPositionPacket conn position) := by
  unfold Server.handlePlayerPositionPacket
  cases conn.player with
  | none => exact refl s
  | some p => exact updatePlayer s p ⟨rfl, rfl, rfl, rfl, rfl⟩

theorem handleChatMessagePacket (s : Server) (data : List UInt8) (isCommand : Bool) :
    Quiet s (s.handleChatMessagePacket data isCommand) := by
  simp only [Server.handleChatMessagePacket]
  split_ifs
  · exact refl s
  · exact world s rfl rfl rfl rfl

theorem handleExtInfoPacket (s : Server) (conn : Connection) (extensionCount : BitVec 16) :
    Quiet s (s.handleExtInfoPacket conn extensionCount) := by
  unfold Server.handleExtInfoPacket
  cases conn.player with
  | none => exact refl s
  | some p => exact updatePlayer s p ⟨rfl, rfl, rfl, rfl, rfl⟩

end Quiet

/-! ## The moves -/

/-- Where the connection of the request is online, the reply to it succeeded, and the player in it
has the identity of the reply. -/
def Server.LoadFollows (s : Server) (request : LoginRequest) (reply : LoginReply) : Prop :=
  ∀ i conn, s.connection i = some conn → conn.isOnline = true →
    conn.connectionKey = request.connectionKey → reply.errorCode = ErrorCode.success ∧
      ∀ p, conn.player = some p → (s.players p).playerType = int32 reply.playerType ∧
        (s.players p).uuid = reply.playerUuid

section Moves

variable (B P : Server → Prop) (C : Server → Server.Call → Prop) (T : Nat → Prop)

/-- `P` survives the moves of connections, at times in `T`; `B` is known to hold along. -/
structure ClosedConnections : Prop where
  quiet : ∀ {s t}, TableOk s → B s → Quiet s t → P s → P t
  interact : ∀ {s i conn} (now), T now → TableOk s → B s → s.connection i = some conn → P s →
    P (s.interact i now)
  accept : ∀ {s} (now), T now → TableOk s → B s → P s → P (s.accept now)
  disconnect : ∀ {s} (i now), T now → TableOk s → B s → C s (.disconnect i) → P s →
    P (s.disconnect i now)
  handshake : ∀ {s i conn} (username password cpeMagic garbage), TableOk s → B s →
    s.connection i = some conn → conn.isOnline = true → C s (.setPlayer i garbage) → P s →
    P (s.handleHandshakePacket i conn username password cpeMagic garbage)
  extEntry : ∀ {s i conn p}, TableOk s → B s → s.HasPlayer i conn p → conn.isOnline = true →
    C s (.transit p .extEntry) → P s → P (s.transitState p .extensionSynced)

/-- `P` survives the moves of the visits of the tick. Each field is one state in which the tick finds a
player, with the move that it makes then. -/
structure ClosedTick : Prop where
  syncing : ∀ {s i conn p}, TableOk s → B s → s.HasPlayer i conn p → conn.isOnline = true →
    (s.players p).state = .exHandshaked → P s →
    P (s.prepareStateTransition p .extensionSyncing .extensionSynced)
  levelWait : ∀ {s i conn p}, TableOk s → B s → s.HasPlayer i conn p → conn.isOnline = true →
    ((s.players p).state = .handshaked ∨ (s.players p).state = .extensionSynced) → P s →
    P (s.waitForLevel p)
  spawnWait : ∀ {s i conn p}, TableOk s → B s → s.HasPlayer i conn p → conn.isOnline = true →
    (s.players p).state = .levelInitialized → P s → P (s.waitForSpawn p)
  pushDisconnect : ∀ {s i conn p}, TableOk s → B s → s.HasPlayer i conn p → conn.isOnline = true →
    (s.players p).state = .disconnecting → P s →
    P (s.updateDisconnectPlayerTask (·.push p))

/-- `P` survives the scheduling of the tasks. -/
structure ClosedSchedules : Prop where
  scheduleSpawn : ∀ {s} (now posted), TableOk s → B s → s.world.spawnPlayerTask.ready now = true →
    P s → P (s.updateSpawnPlayerTask (·.schedule now posted))
  scheduleDisconnect : ∀ {s} (now posted), TableOk s → B s →
    s.world.disconnectPlayerTask.ready now = true → P s →
    P (s.updateDisconnectPlayerTask (·.schedule now posted))
  scheduleLevel : ∀ {s} (now posted), TableOk s → B s → s.world.syncBlockTask.ready now = true →
    P s → P (s.updateSyncBlockTask (·.schedule now posted))

/-- `P` survives the moves of the tasks. -/
structure ClosedTasks : Prop where
  levelCallback : ∀ {s conn p}, TableOk s → B s → p ∈ s.world.syncBlockTask.target →
    s.tryAcquireOf p = some conn → C s (.transit p .level) → P s →
    P (s.transitState p .levelInitialized)
  spawnCallback : ∀ {s conn p}, TableOk s → B s → p ∈ s.world.spawnPlayerTask.target →
    s.tryAcquireOf p = some conn → C s (.transit p .spawn) → P s → P (s.transitState p .spawned)
  finishLevel : ∀ {s}, TableOk s → B s → P s → P (s.updateSyncBlockTask (·.finish))
  finishSpawn : ∀ {s}, TableOk s → B s → P s → P (s.updateSpawnPlayerTask (·.finish))
  disconnectRun : ∀ {s} (o o'), TableOk s → B s → s.completionQueued .disconnectPlayer = true →
    C s (.disconnectPlayer s.world.disconnectPlayerTask.target) → P s →
    P (s.runTask .disconnectPlayer o o')

/-- `P` survives the moves of the login replies. -/
structure ClosedLogins : Prop where
  respond : ∀ {s request} (reply), TableOk s → B s → request ∈ s.requests → P s →
    P ({ s with requests := s.requests.erase request }.record (.responded request reply))
  setIdentity : ∀ {s i conn p request reply}, TableOk s → B s → s.HasPlayer i conn p →
    conn.isOnline = true → conn.connectionKey = request.connectionKey →
    .responded request reply ∈ s.log → reply.errorCode = ErrorCode.success →
    C s (.setIdentity p request reply) → P s → P (s.setIdentity p reply)
  guest : ∀ {s i conn p request reply}, TableOk s → B s → s.HasPlayer i conn p →
    conn.isOnline = true → conn.connectionKey = request.connectionKey →
    .responded request reply ∈ s.log → reply.errorCode = ErrorCode.playerNotExist →
    C s (.transit p (.guest request reply)) → P s → P (s.admitGuest p request reply)
  addLoad : ∀ {s request reply}, TableOk s → B s → .responded request reply ∈ s.log →
    s.LoadFollows request reply → P s →
    P { s with loads := s.loads ++ [{ request := request, reply := reply }] }
  takeLoad : ∀ {s load}, TableOk s → B s → load ∈ s.loads → P s →
    P { s with loads := s.loads.erase load }
  loaded : ∀ {s i conn p load result}, TableOk s → B s → load ∈ s.loads → s.HasPlayer i conn p →
    conn.isOnline = true → conn.connectionKey = load.request.connectionKey → result ≠ .error →
    C { s with loads := s.loads.erase load } (.transit p (.loaded load result)) → P s →
    P ({ s with loads := s.loads.erase load }.admitLoaded p load result)

/-- `P` survives every move, at any time. This is what a module that keeps an invariant proves, one field
for each move, and what the rules below turn into a theorem about runs. -/
structure Closed : Prop extends ClosedConnections B P C fun _ => True, ClosedTick B P,
    ClosedSchedules B P, ClosedTasks B P C, ClosedLogins B P C where
  delete : ∀ {s i conn}, TableOk s → B s → s.connection i = some conn → conn.isOnline = false →
    P s → P { s with connectionEnv := s.connectionEnv.onConnectionDelete conn.connectionKey }

end Moves

/-! ## The table survives every move -/

namespace SameShape

theorem of_rfl {s t : Server} (henv : t.connectionEnv = s.connectionEnv)
    (haccepted : t.numOfAccepted = s.numOfAccepted) (hnum : t.numOfPlayers = s.numOfPlayers)
    (howner : t.owner = s.owner) (hplayers : t.players = s.players) : SameShape s t :=
  ⟨henv, haccepted, hnum, howner, fun p => by rw [hplayers]⟩

/-- An identity is data of its player. -/
theorem setTypeAndUuid (s : Server) (p : Nat) (type : PlayerTypeId) (uuid : List UInt8) :
    SameShape s (s.updatePlayer p fun player => (player.setPlayerType type).setUuid uuid) :=
  updatePlayer s p rfl

theorem setIdentity (s : Server) (p : Nat) (reply : LoginReply) :
    SameShape s (s.setIdentity p reply) := setTypeAndUuid s p _ _

/-- A reply gives an identity at most to the player that it finds. -/
theorem identify (s : Server) (request : LoginRequest) (reply : LoginReply) :
    SameShape s (s.identify request reply) := by
  unfold Server.identify
  cases (s.tryAcquireConnection request.connectionKey).bind Connection.player with
  | none => exact refl s
  | some p => exact setIdentity s p reply

theorem admitGuest (s : Server) (p : Nat) (request : LoginRequest) (reply : LoginReply) :
    SameShape s (s.admitGuest p request reply) := by
  unfold Server.admitGuest
  exact ((updatePlayer s p rfl).trans (record _ _)).trans (transitState _ p _)

theorem admitLoaded (s : Server) (p : Nat) (load : GamedataLoad) (result : LoadResult) :
    SameShape s (s.admitLoaded p load result) := by
  cases result with
  | document gamedata =>
      have hset : SameShape s (s.updatePlayer p (·.setGamedata gamedata)) := updatePlayer s p rfl
      exact ((hset.trans (record _ _)).trans (record _ _)).trans (transitState _ p _)
  | documentNotFound => exact ((record s _).trans (record _ _)).trans (transitState _ p _)
  | error => exact ((record s _).trans (record _ _)).trans (transitState _ p _)

/-- Sending with a transition as callback. -/
theorem sendAndTransit (packet : ServerPacket) (hint : State) (targets : List Nat) (o : Outcomes)
    (s : Server) : SameShape s
      (Server.sendToPlayers packet (fun s p => s.transitState p hint) targets o s) :=
  Server.sendToPlayers_rel refl trans (fun s conn => send s conn packet true)
    (fun s p => transitState s p hint) targets o s

/-- The teardown of a player leaves it in its slot, for the tick to find. -/
theorem teardownPlayer (s : Server) (p : Nat) : SameShape s (s.teardownPlayer p) := by
  unfold Server.teardownPlayer
  cases s.tryAcquireOf p with
  | none => exact refl s
  | some conn => exact (savePlayerGamedata s p).trans (transitState _ p _)

theorem foldl {g : Server → Nat → Server} (hg : ∀ s p, SameShape s (g s p)) (targets : List Nat)
    (s : Server) : SameShape s (targets.foldl g s) := by
  induction targets generalizing s with
  | nil => exact refl s
  | cons p ps ih => exact (hg s p).trans (ih _)

theorem disconnectPlayer (s : Server) (targets : List Nat) (o : Outcomes) :
    SameShape s (s.disconnectPlayer targets o) := by
  have hlog : ∀ ds : List Nat, SameShape s { s with log := ds.map .despawned ++ s.log } :=
    fun _ => of_rfl rfl rfl rfl rfl rfl
  have hsend : ∀ (t : Server) (packet : ServerPacket) (ps : List Nat),
      SameShape t (Server.sendToPlayers packet Server.noCallback ps o t) := fun t packet ps =>
    (Quiet.sendToPlayers packet Quiet.noCallback ps o t).sameShape
  exact ((hlog _).trans (hsend _ _ _)).trans (foldl teardownPlayer _ _)

end SameShape

/-- A handshake puts a new player into the slot of its connection, with an identity of its own. -/
theorem TableOk.handshake {s : Server} (h : TableOk s) {i : Nat} {conn : Connection}
    (hconn : s.connection i = some conn) (username password : List UInt8) (cpeMagic : UInt8)
    (garbage : PlayerTypeId) :
    TableOk (s.handleHandshakePacket i conn username password cpeMagic garbage) := by
  have hset := h.setPlayer hconn (Player.new conn.connectionKey username garbage) rfl
  simp only [Server.handleHandshakePacket]
  split_ifs
  all_goals
    exact (hset.of_sameShape (SameShape.prepareStateTransition _ _ _ _)).of_sameShape
      (SameShape.of_rfl rfl rfl rfl rfl rfl)

/-! ## The history only grows -/

/-- The history of `t` extends that of `s`. -/
def LogExtends (s t : Server) : Prop := ∃ records, t.log = records ++ s.log

namespace LogExtends

theorem refl (s : Server) : LogExtends s s := ⟨[], rfl⟩

theorem trans {s t u : Server} (hst : LogExtends s t) (htu : LogExtends t u) : LogExtends s u := by
  obtain ⟨rs, hrs⟩ := hst
  obtain ⟨qs, hqs⟩ := htu
  exact ⟨qs ++ rs, by rw [hqs, hrs, List.append_assoc]⟩

theorem of_eq {s t : Server} (h : t.log = s.log) : LogExtends s t := ⟨[], h⟩

/-- What was recorded stays recorded. -/
theorem mem {s t : Server} (h : LogExtends s t) {r : Record} (hr : r ∈ s.log) : r ∈ t.log := by
  obtain ⟨rs, hrs⟩ := h
  rw [hrs]
  exact List.mem_append_right rs hr

theorem record (s : Server) (r : Record) : LogExtends s (s.record r) := ⟨[r], rfl⟩

theorem transitState (s : Server) (p : Nat) (hint : State) : LogExtends s (s.transitState p hint) :=
  ⟨[_, _], rfl⟩

theorem prepareStateTransition (s : Server) (p : Nat) (cur next : State) :
    LogExtends s (s.prepareStateTransition p cur next) := ⟨[_], rfl⟩

/-- A teardown that is asked for is recorded at most. -/
theorem onDisconnect (s : Server) (conn : Connection) : LogExtends s (s.onDisconnect conn) := by
  unfold Server.onDisconnect
  cases conn.player with
  | none => exact refl s
  | some p =>
      show LogExtends s (if _ then _ else _)
      split_ifs
      · exact record s _
      · exact refl s

theorem disconnect (s : Server) (i now : Nat) : LogExtends s (s.disconnect i now) := by
  unfold Server.disconnect
  cases s.connection i with
  | none => exact refl s
  | some conn =>
      show LogExtends s (if _ then _ else _)
      split_ifs
      · exact refl s
      · cases conn.player.filter fun p => State.handshaking ≤ (s.players p).state with
        | some p => exact prepareStateTransition s p _ _
        | none => exact (onDisconnect s conn).trans ⟨[.offline conn.id], rfl⟩

theorem kick (s : Server) (i : Nat) (reason : ErrorCode) (now : Nat) (accepted : Bool) :
    LogExtends s (s.kick i reason now accepted) := by
  unfold Server.kick
  cases s.connection i with
  | none => exact refl s
  | some conn => exact (of_eq (Quiet.send s conn _ accepted).log).trans (disconnect _ i now)

end LogExtends

/-! ## The identity that a load relies on -/

namespace Server.LoadFollows

variable {s t : Server} {request : LoginRequest} {reply : LoginReply}

/-- Without an online connection of that key there is nothing to follow. -/
theorem of_not_acquired (ht : TableOk s)
    (hnone : s.tryAcquireConnection request.connectionKey = none) : s.LoadFollows request reply := by
  intro i conn hconn honline hkey
  have hacq := ht.tryAcquire_of_online hconn honline
  rw [hkey, hnone] at hacq
  cases hacq

/-- After `identify` the player of an acquired connection has the identity of the reply. -/
theorem identify (ht : TableOk s) (hsuccess : reply.errorCode = ErrorCode.success) :
    (s.identify request reply).LoadFollows request reply := by
  intro i conn hconn honline hkey
  refine ⟨hsuccess, fun p hp => ?_⟩
  have hslot : s.connection i = some conn := by
    rwa [Server.connection, (SameShape.identify s request reply).connectionEnv] at hconn
  have hacq := ht.tryAcquire_of_online hslot honline
  rw [hkey] at hacq
  have hself : (s.identify request reply).players p =
      ((s.players p).setPlayerType (int32 reply.playerType)).setUuid reply.playerUuid := by
    unfold Server.identify
    rw [hacq, Option.bind_some, hp]
    exact Function.update_self ..
  rw [hself]
  generalize int32 reply.playerType = type
  exact ⟨rfl, rfl⟩

/-- The load follows as long as no connection comes online and no player gets another identity. -/
theorem of_connection (h : s.LoadFollows request reply)
    (hconnection : ∀ i conn, t.connection i = some conn → conn.isOnline = true →
      s.connection i = some conn)
    (htype : ∀ p, (t.players p).playerType = (s.players p).playerType)
    (huuid : ∀ p, (t.players p).uuid = (s.players p).uuid) : t.LoadFollows request reply := by
  intro i conn hconn honline hkey
  obtain ⟨hsuccess, hplayer⟩ := h i conn (hconnection i conn hconn honline) honline hkey
  refine ⟨hsuccess, fun p hp => ?_⟩
  rw [htype, huuid]
  exact hplayer p hp

/-- A connection that goes offline only takes away an obligation. -/
theorem disconnect (h : s.LoadFollows request reply) (ht : TableOk s) (i now : Nat) :
    (s.disconnect i now).LoadFollows request reply := by
  rcases s.disconnect_cases i now with heq | ⟨conn, p, -, -, -, heq⟩ | ⟨conn, hconn, -, -, heq⟩
  · rw [heq]
    exact h
  · rw [heq]
    refine h.of_connection (fun _ _ hc _ => hc) (fun q => ?_) fun q => ?_
    all_goals
      rw [Server.prepareStateTransition_players]
      split_ifs with hq
      · rw [hq]
        rfl
      · rfl
  · rw [heq]
    refine h.of_connection (fun j c hc honline => ?_) (fun _ => rfl) fun _ => rfl
    by_cases hj : j = i
    · subst hj
      rw [Server.setOffline_connection ht hconn] at hc
      obtain rfl := Option.some.inj hc
      cases honline
    · rwa [Server.setOffline_connection_of_ne ht hconn now hj] at hc

theorem kickPrevious (h : s.LoadFollows request reply) (ht : TableOk s) (now : Nat)
    (accepted : Bool) : (s.kickPrevious request reply now accepted).LoadFollows request reply := by
  unfold Server.kickPrevious
  cases s.previousConnection request reply with
  | none => exact h
  | some i =>
      show Server.LoadFollows (s.kick i _ now accepted) request reply
      unfold Server.kick
      cases s.connection i with
      | none => exact h
      | some conn =>
          have hquiet := Quiet.send s conn (.disconnectPlayer ErrorCode.playerAlreadyLogin) accepted
          refine LoadFollows.disconnect (h.of_connection ?_ ?_ ?_) (ht.of_sameShape hquiet.sameShape) i
            now
          · intro j c hc _
            rwa [hquiet.connection] at hc
          · exact fun p => (hquiet.standing p).playerType
          · exact fun p => (hquiet.standing p).uuid

end Server.LoadFollows

/-! ## The rule

One lemma for each kind of event, by the equations that take the event apart.  Where an event makes calls in the
course of other changes, the condition is met at the state in which the call is made, and the lemma carries the
property to that state first.
-/

namespace ClosedConnections

section Rule

variable {P : Server → Prop} {C : Server → Server.Call → Prop} {T : Nat → Prop}
  (h : ClosedConnections (fun _ => True) P C T)

include h

/-- A quiet change keeps the table and the property. -/
theorem of_quiet {s t : Server} (hs : TableOk s ∧ P s) (hquiet : Quiet s t) : TableOk t ∧ P t :=
  ⟨hs.1.of_sameShape hquiet.sameShape, h.quiet hs.1 trivial hquiet hs.2⟩

/-- A disconnection is one move. -/
theorem of_disconnect {s : Server} (hs : TableOk s ∧ P s) (i : Nat) {now : Nat} (hT : T now)
    (hC : C s (.disconnect i)) : TableOk (s.disconnect i now) ∧ P (s.disconnect i now) :=
  ⟨hs.1.disconnect i now, h.disconnect i now hT hs.1 trivial hC hs.2⟩

/-- A kick sends its notice, which is quiet, and disconnects. -/
theorem of_kick {s : Server} (hs : TableOk s ∧ P s) (i : Nat) (reason : ErrorCode) {now : Nat}
    (hT : T now) (accepted : Bool) (hC : ∀ c ∈ s.kickCalls i reason accepted, C c.1 c.2) :
    TableOk (s.kick i reason now accepted) ∧ P (s.kick i reason now accepted) := by
  unfold Server.kick
  unfold Server.kickCalls at hC
  cases hconn : s.connection i with
  | none => exact hs
  | some conn =>
      rw [hconn] at hC
      exact h.of_disconnect (h.of_quiet hs (Quiet.send s conn _ accepted)) i hT
        (hC _ (List.mem_singleton_self _))

/-- A clean-up frees the connection, disconnects it, or passes it by. -/
theorem of_cleanup {s : Server} (hs : TableOk s ∧ P s) (i : Nat) {now : Nat} (hT : T now)
    (hdelete : ∀ {conn}, s.connection i = some conn → conn.isSafeDelete now = true →
      P { s with connectionEnv := s.connectionEnv.onConnectionDelete conn.connectionKey })
    (hC : s.CallsMeet C (.cleanup i now)) :
    TableOk (s.cleanupExpiredConnection i now) ∧ P (s.cleanupExpiredConnection i now) := by
  unfold Server.cleanupExpiredConnection
  simp only [Server.CallsMeet, Server.calls] at hC
  split_ifs with hused
  · exact hs
  · cases hconn : s.connection i with
    | none => exact hs
    | some conn =>
        rw [hconn] at hC
        show TableOk (if _ then _ else _) ∧ P (if _ then _ else _)
        split_ifs with hsafe hexp
        · have hoffline := Connection.offline_of_isSafeDelete hsafe
          exact ⟨hs.1.delete hconn hoffline, hdelete hconn hsafe⟩
        · refine h.of_disconnect hs i hT (hC (s, .disconnect i) ?_)
          show _ ∈ if _ then _ else _
          rw [if_pos ⟨by simpa using hused, by simpa using hsafe, hexp⟩]
          exact List.mem_singleton_self _
        · exact hs

/-- The handlers: a handshake and the last entry of an extension are moves, the others are quiet. -/
theorem of_handlePacket {s : Server} (hs : TableOk s ∧ P s) {i : Nat} {conn : Connection}
    (hconn : s.connection i = some conn) (honline : conn.isOnline = true) (packet : ClientPacket)
    (accepted : Bool) (garbage : PlayerTypeId)
    (hC : ∀ c ∈ s.packetCalls i conn packet garbage, C c.1 c.2) :
    TableOk (s.handlePacket i conn packet accepted garbage) ∧
      P (s.handlePacket i conn packet accepted garbage) := by
  cases packet with
  | handshake username password cpeMagic =>
      exact ⟨hs.1.handshake hconn username password cpeMagic garbage,
        h.handshake username password cpeMagic garbage hs.1 trivial hconn honline
          (hC _ (List.mem_singleton_self _)) hs.2⟩
  | extEntry extensionName version =>
      simp only [Server.handlePacket, Server.handleExtEntryPacket]
      simp only [Server.packetCalls] at hC
      cases hp : conn.player with
      | none => exact hs
      | some p =>
          rw [hp] at hC
          have hquiet := Quiet.countExtEntry s p extensionName version
          have hcount := h.of_quiet hs hquiet
          show TableOk (if _ then _ else _) ∧ P (if _ then _ else _)
          split_ifs with hzero
          · have hcall : C (s.countExtEntry p extensionName version) (.transit p .extEntry) := by
              refine hC (_, .transit p .extEntry) ?_
              show _ ∈ if _ then _ else _
              rw [if_pos hzero]
              exact List.mem_singleton_self _
            have hhas : (s.countExtEntry p extensionName version).HasPlayer i conn p :=
              ⟨(hquiet.connection i).trans hconn, hp⟩
            exact ⟨hcount.1.of_sameShape (SameShape.transitState _ p _),
              h.extEntry hcount.1 trivial hhas honline hcall hcount.2⟩
          · exact hcount
  | ping => exact h.of_quiet hs (Quiet.send ..)
  | setBlock x y z mode blockId => exact h.of_quiet hs (Quiet.handleSetBlockPacket ..)
  | setPlayerPosition position => exact h.of_quiet hs (Quiet.handlePlayerPositionPacket ..)
  | chatMessage data isCommand => exact h.of_quiet hs (Quiet.handleChatMessagePacket ..)
  | extInfo extensionCount => exact h.of_quiet hs (Quiet.handleExtInfoPacket ..)
  | twoWayPing data => exact h.of_quiet hs (Quiet.send ..)
  | extPing requestTime => exact h.of_quiet hs (Quiet.send ..)

/-- A receive that is handled counts as an interaction first. -/
theorem of_receive {s : Server} (hs : TableOk s ∧ P s) (i : Nat) (packet : ClientPacket) {now : Nat}
    (hT : T now) (accepted : Bool) (garbage : PlayerTypeId)
    (hC : s.CallsMeet C (.receive i packet now accepted garbage)) :
    TableOk (s.receivePacket i packet now accepted garbage) ∧
      P (s.receivePacket i packet now accepted garbage) := by
  unfold Server.receivePacket
  simp only [Server.CallsMeet, Server.calls] at hC
  cases hconn : s.connection i with
  | none => exact hs
  | some conn =>
      rw [hconn] at hC
      show TableOk (if _ then _ else _) ∧ P (if _ then _ else _)
      split_ifs with honline
      · have hinteract : TableOk (s.interact i now) ∧ P (s.interact i now) :=
          ⟨hs.1.interact hconn now, h.interact now hT hs.1 trivial hconn hs.2⟩
        refine h.of_handlePacket hinteract (TableOk.interact_connection hconn now) honline packet
          accepted garbage fun c hc => hC c ?_
        show c ∈ if _ then _ else _
        rwa [if_pos honline]
      · exact hs

/-- What the tick does for the player of an online connection, by its state. -/
theorem of_transitPlayerState (hk : ClosedTick (fun _ => True) P) {s : Server} (hs : TableOk s ∧ P s)
    {i p : Nat} {conn : Connection} (hhas : s.HasPlayer i conn p) (honline : conn.isOnline = true)
    {now : Nat} (hT : T now) (o : Outcomes)
    (hC : (s.players p).state = .disconnected → C s (.disconnect i)) :
    TableOk (s.transitPlayerState i conn p now o) ∧ P (s.transitPlayerState i conn p now o) := by
  have hkeep : ∀ {t : Server}, Quiet s t → t.HasPlayer i conn p ∧
      (t.players p).state = (s.players p).state := fun hq =>
    ⟨⟨(hq.connection i).trans hhas.1, hhas.2⟩, (hq.standing p).state⟩
  have hlevel : ∀ hstate : (s.players p).state = .handshaked ∨ (s.players p).state = .extensionSynced,
      TableOk ((s.onHandshakeSuccess conn p o).waitForLevel p) ∧
        P ((s.onHandshakeSuccess conn p o).waitForLevel p) := by
    intro hstate
    have hquiet := Quiet.onHandshakeSuccess s conn p o
    have hsent := h.of_quiet hs hquiet
    exact ⟨hsent.1.of_sameShape ((SameShape.prepareStateTransition _ p _ _).trans
        (SameShape.of_rfl rfl rfl rfl rfl rfl)),
      hk.levelWait hsent.1 trivial (hkeep hquiet).1 honline
        ((hkeep hquiet).2.symm ▸ hstate) hsent.2⟩
  unfold Server.transitPlayerState
  cases hstate : (s.players p).state with
  | exHandshaked =>
      show TableOk (if _ then _ else _) ∧ P (if _ then _ else _)
      split_ifs
      · have hquiet := ((Quiet.send s conn .extInfo true).trans (Quiet.send _ conn
          (.extEntry messageTypesExtension.1 messageTypesExtension.2.version) (o 1))).trans
          (Quiet.send _ conn
            (.extEntry twoWayPingExtension.1 twoWayPingExtension.2.version) (o 2))
        have hsent := h.of_quiet hs hquiet
        exact ⟨hsent.1.of_sameShape (SameShape.prepareStateTransition _ p _ _),
          hk.syncing hsent.1 trivial (hkeep hquiet).1 honline
            ((hkeep hquiet).2.trans hstate) hsent.2⟩
      · exact hs
  | handshaked => exact hlevel (Or.inl hstate)
  | extensionSynced => exact hlevel (Or.inr hstate)
  | levelInitialized =>
      have hquiet := Quiet.setSpawnPosition s p
      have hset := h.of_quiet hs hquiet
      exact ⟨hset.1.of_sameShape ((SameShape.prepareStateTransition _ p _ _).trans
          (SameShape.of_rfl rfl rfl rfl rfl rfl)),
        hk.spawnWait hset.1 trivial (hkeep hquiet).1 honline
          ((hkeep hquiet).2.trans hstate) hset.2⟩
  | spawned =>
      show TableOk (if _ then _ else _) ∧ P (if _ then _ else _)
      split_ifs
      · exact h.of_quiet hs ((Quiet.send s conn .ping (o 0)).trans
          (Quiet.updatePlayer _ p ⟨rfl, rfl, rfl, rfl, rfl⟩))
      · exact hs
  | disconnecting =>
      exact ⟨hs.1.of_sameShape (SameShape.of_rfl rfl rfl rfl rfl rfl),
        hk.pushDisconnect hs.1 trivial hhas honline hstate hs.2⟩
  | disconnected => exact h.of_disconnect hs i hT (hC hstate)
  | _ => exact hs

/-- A visit of the tick finds a player that it moves on, or no one. -/
theorem of_tickPlayer (hk : ClosedTick (fun _ => True) P) {s : Server} (hs : TableOk s ∧ P s) (i : Nat)
    {now : Nat} (hT : T now) (o : Outcomes)
    (hC : s.CallsMeet C (.tickPlayer i now o)) :
    TableOk (s.tickPlayer i now o) ∧ P (s.tickPlayer i now o) := by
  unfold Server.tickPlayer
  simp only [Server.CallsMeet, Server.calls] at hC
  cases hconn : s.connection i with
  | none => exact hs
  | some conn =>
      cases hplayer : s.connectionEnv.playerOf i with
      | none => exact hs
      | some p =>
          rw [hconn, hplayer] at hC
          obtain ⟨conn', hhas, honline⟩ := hs.1.of_playerOf hplayer
          obtain rfl : conn = conn' := Option.some.inj (hconn.symm.trans hhas.1)
          refine h.of_transitPlayerState hk hs hhas honline hT o fun hstate => hC (s, .disconnect i) ?_
          show _ ∈ if _ then _ else _
          rw [if_pos hstate]
          exact List.mem_singleton_self _

/-- A task that is ready takes the players that wait for it. -/
theorem of_schedule (hk : ClosedSchedules (fun _ => True) P) {s : Server} (hs : TableOk s ∧ P s)
    (task : WorldTaskId) (now : Nat) (posted : Bool) :
    TableOk (s.scheduleTask task now posted) ∧ P (s.scheduleTask task now posted) := by
  have hshape : ∀ {t : Server}, t.connectionEnv = s.connectionEnv → t.numOfAccepted = s.numOfAccepted →
      t.numOfPlayers = s.numOfPlayers → t.owner = s.owner → t.players = s.players → TableOk t :=
    fun h1 h2 h3 h4 h5 => hs.1.of_sameShape (SameShape.of_rfl h1 h2 h3 h4 h5)
  cases task with
  | spawnPlayer =>
      simp only [Server.scheduleTask]
      split_ifs with hready
      · exact ⟨hshape rfl rfl rfl rfl rfl, hk.scheduleSpawn now posted hs.1 trivial hready hs.2⟩
      · exact hs
  | disconnectPlayer =>
      simp only [Server.scheduleTask]
      split_ifs with hready
      · exact ⟨hshape rfl rfl rfl rfl rfl, hk.scheduleDisconnect now posted hs.1 trivial hready hs.2⟩
      · exact hs
  | syncBlock =>
      simp only [Server.scheduleTask]
      split_ifs with hready
      · exact ⟨hshape rfl rfl rfl rfl rfl, hk.scheduleLevel now posted hs.1 trivial hready hs.2⟩
      · exact hs
  | syncPlayerPosition =>
      simp only [Server.scheduleTask]
      split_ifs
      · exact h.of_quiet hs (Quiet.world s rfl rfl rfl rfl)
      · exact hs
  | commonChatTransfer =>
      simp only [Server.scheduleTask]
      split_ifs
      · exact h.of_quiet hs (Quiet.world s rfl rfl rfl rfl)
      · exact hs

/-- The callbacks of a task: each runs in a state with the same world. -/
theorem of_callbacks (packet : ServerPacket) (hint : State) (cause : Server.Cause) {w : World}
    {waiting : List Nat}
    (hcallback : ∀ {s : Server} {conn : Connection} {p : Nat}, TableOk s → s.world = w →
      p ∈ waiting → s.tryAcquireOf p = some conn → C s (.transit p cause) → P s →
      P (s.transitState p hint))
    (targets : List Nat) (hsub : ∀ p ∈ targets, p ∈ waiting) (o : Outcomes) {s : Server}
    (hs : TableOk s ∧ P s) (hw : s.world = w)
    (hC : ∀ c ∈ Server.callbackCalls packet (fun s p => s.transitState p hint) cause targets o s,
      C c.1 c.2) :
    TableOk (Server.sendToPlayers packet (fun s p => s.transitState p hint) targets o s) ∧
      P (Server.sendToPlayers packet (fun s p => s.transitState p hint) targets o s) ∧
      (Server.sendToPlayers packet (fun s p => s.transitState p hint) targets o s).world = w := by
  induction targets generalizing o s with
  | nil => exact ⟨hs.1, hs.2, hw⟩
  | cons p ps ih =>
      simp only [Server.callbackCalls, List.mem_append] at hC
      have hone : (TableOk (s.sendToPlayer p packet (o 0) fun s p => s.transitState p hint) ∧
          P (s.sendToPlayer p packet (o 0) fun s p => s.transitState p hint)) ∧
          (s.sendToPlayer p packet (o 0) fun s p => s.transitState p hint).world = w := by
        have hfirst := fun c hc => hC c (Or.inl hc)
        unfold Server.sendToPlayer
        cases hacq : s.tryAcquireOf p with
        | none => exact ⟨hs, hw⟩
        | some conn =>
            rw [hacq] at hfirst
            show (TableOk (if _ then _ else _) ∧ P (if _ then _ else _)) ∧
              Server.world (if _ then _ else _) = w
            split_ifs with ho
            · have hquiet := Quiet.send s conn packet true
              have hsent := h.of_quiet hs hquiet
              have hcall : C (s.send conn packet true) (.transit p cause) := by
                refine hfirst (_, .transit p cause) ?_
                show _ ∈ if _ then _ else _
                rw [if_pos ho]
                exact List.mem_singleton_self _
              exact ⟨⟨hsent.1.of_sameShape (SameShape.transitState _ p _),
                hcallback hsent.1 hw (hsub p List.mem_cons_self) ((hquiet.tryAcquireOf p).trans hacq)
                  hcall hsent.2⟩, hw⟩
            · exact ⟨hs, hw⟩
      exact ih (fun q hq => hsub q (List.mem_cons_of_mem p hq)) o.tail hone.1 hone.2
        fun c hc => hC c (Or.inr hc)

/-- A run of `sync_block_task`. -/
theorem of_runLevel
    (hcallback : ∀ {s : Server} {conn : Connection} {p : Nat}, TableOk s →
      p ∈ s.world.syncBlockTask.target → s.tryAcquireOf p = some conn → C s (.transit p .level) →
      P s → P (s.transitState p .levelInitialized))
    (hfinish : ∀ {s : Server}, TableOk s → P s → P (s.updateSyncBlockTask (·.finish)))
    {s : Server} (hs : TableOk s ∧ P s) (o o' : Outcomes)
    (hC : s.CallsMeet C (.runTask .syncBlock o o')) :
    TableOk (s.runTask .syncBlock o o') ∧ P (s.runTask .syncBlock o o') := by
  have hquiet := Quiet.syncBlockHistory s s.world.syncBlockTask.blockHistory.output o
  have hblocks := h.of_quiet hs hquiet
  have htarget : (s.syncBlockHistory s.world.syncBlockTask.blockHistory.output
      o).world.syncBlockTask.target = s.world.syncBlockTask.target :=
    congrArg WorldPlayerTask.target hquiet.levelTask
  obtain ⟨htable, hP, -⟩ := h.of_callbacks _ .levelInitialized .level
    (fun ht hw hmem hacq hcall hp => hcallback ht (by rw [hw, htarget]; exact hmem) hacq hcall hp)
    s.world.syncBlockTask.target (fun _ hp => hp) o' hblocks rfl hC
  simp only [Server.runTask, Server.syncBlock_eq]
  exact ⟨htable.of_sameShape (SameShape.of_rfl rfl rfl rfl rfl rfl), hfinish htable hP⟩

/-- The run of a task: its transfers move on those that they reach, and the task is unused again. -/
theorem of_runTask (hk : ClosedTasks (fun _ => True) P C) {s : Server} (hs : TableOk s ∧ P s)
    (task : WorldTaskId) (o o' : Outcomes)
    (hqueued : s.completionQueued task = true) (hC : s.CallsMeet C (.runTask task o o')) :
    TableOk (s.runTask task o o') ∧ P (s.runTask task o o') := by
  have hshape : ∀ {t u : Server}, TableOk t → u.connectionEnv = t.connectionEnv →
      u.numOfAccepted = t.numOfAccepted → u.numOfPlayers = t.numOfPlayers → u.owner = t.owner →
      u.players = t.players → TableOk u :=
    fun ht h1 h2 h3 h4 h5 => ht.of_sameShape (SameShape.of_rfl h1 h2 h3 h4 h5)
  cases task with
  | spawnPlayer =>
      obtain ⟨htable, hP, -⟩ := h.of_callbacks _ .spawned .spawn
        (fun ht hw hmem hacq hcall hp => hk.spawnCallback ht trivial (hw ▸ hmem) hacq hcall hp)
        s.world.spawnPlayerTask.target (fun _ hp => hp) o hs rfl hC
      have hold := h.of_quiet ⟨htable, hP⟩ (Quiet.sendToPlayers
        (.spawnPlayers (s.world.spawnPlayerTask.target.map fun p => spawnRecord (s.players p)))
        Quiet.noCallback (s.selectPlayersFrom .spawned) o' _)
      exact ⟨hshape hold.1 rfl rfl rfl rfl rfl, hk.finishSpawn hold.1 trivial hold.2⟩
  | disconnectPlayer =>
      exact ⟨hshape (hs.1.of_sameShape (SameShape.disconnectPlayer s _ o)) rfl rfl rfl rfl rfl,
        hk.disconnectRun o o' hs.1 trivial hqueued (hC _ (List.mem_singleton_self _)) hs.2⟩
  | syncBlock =>
      exact h.of_runLevel
        (fun ht hmem hacq hcall hp => hk.levelCallback ht trivial hmem hacq hcall hp)
        (fun ht hp => hk.finishLevel ht trivial hp) hs o o' hC
  | syncPlayerPosition =>
      exact h.of_quiet hs ((Quiet.syncPlayerPosition s o).trans (Quiet.world _ rfl rfl rfl rfl))
  | commonChatTransfer =>
      exact h.of_quiet hs ((Quiet.commonChatTransfer s _ o).trans (Quiet.world _ rfl rfl rfl rfl))

/-- The kick of the connection that a reply names is a kick like any other. -/
theorem of_kickPrevious {s : Server} (hs : TableOk s ∧ P s) (request : LoginRequest)
    (reply : LoginReply) {now : Nat} (hT : T now) (accepted : Bool)
    (hC : ∀ c ∈ (match s.previousConnection request reply with
      | none => []
      | some i => s.kickCalls i ErrorCode.playerAlreadyLogin accepted), C c.1 c.2) :
    TableOk (s.kickPrevious request reply now accepted) ∧
      P (s.kickPrevious request reply now accepted) := by
  unfold Server.kickPrevious
  cases hprev : s.previousConnection request reply with
  | none => exact hs
  | some i =>
      rw [hprev] at hC
      exact h.of_kick hs i ErrorCode.playerAlreadyLogin hT accepted hC

omit h in
/-- The first half of a successful reply: the player of the request gets its type and uuid. -/
theorem of_identify (hl : ClosedLogins (fun _ => True) P C) {s : Server} {request : LoginRequest}
    {reply : LoginReply} (hs : TableOk s ∧ P s) (hmem : .responded request reply ∈ s.log)
    (hsuccess : reply.errorCode = ErrorCode.success)
    (hC : ∀ p, (s.tryAcquireConnection request.connectionKey).bind Connection.player = some p →
      C s (.setIdentity p request reply)) :
    (TableOk (s.identify request reply) ∧ P (s.identify request reply)) ∧
      (s.identify request reply).log = s.log := by
  unfold Server.identify
  cases hacq : (s.tryAcquireConnection request.connectionKey).bind Connection.player with
  | none => exact ⟨hs, rfl⟩
  | some p =>
      obtain ⟨conn, hconn, hplayer⟩ := Option.bind_eq_some_iff.mp hacq
      obtain ⟨hslot, honline, hkey⟩ := hs.1.of_tryAcquire hconn
      exact ⟨⟨hs.1.of_sameShape (SameShape.setIdentity s p reply),
        hl.setIdentity hs.1 trivial ⟨hslot, hplayer⟩ honline hkey hmem hsuccess (hC p hacq) hs.2⟩, rfl⟩

/-- `handle_handshake_response_message`, from its first statement on. -/
theorem of_handleHandshakeResponse (hl : ClosedLogins (fun _ => True) P C) {s : Server}
    {request : LoginRequest} {reply : LoginReply}
    (hs : TableOk (s.record (.responded request reply)) ∧ P (s.record (.responded request reply)))
    {now : Nat} (hT : T now) (accepted : Bool)
    (hC : ∀ c ∈ s.responseCalls request reply accepted, C c.1 c.2) :
    TableOk (s.handleHandshakeResponse request reply now accepted) ∧
      P (s.handleHandshakeResponse request reply now accepted) := by
  have hmem : .responded request reply ∈ (s.record (.responded request reply)).log :=
    List.mem_cons_self
  simp only [Server.responseCalls] at hC
  simp only [Server.handleHandshakeResponse]
  generalize s.record (.responded request reply) = t at hs hmem hC
  have haddLoad : ∀ {u : Server}, TableOk u ∧ P u → .responded request reply ∈ u.log →
      u.LoadFollows request reply →
      TableOk { u with loads := u.loads ++ [{ request := request, reply := reply }] } ∧
        P { u with loads := u.loads ++ [{ request := request, reply := reply }] } := fun hu hr hf =>
    ⟨hu.1.of_sameShape (SameShape.of_rfl rfl rfl rfl rfl rfl), hl.addLoad hu.1 trivial hr hf hu.2⟩
  by_cases hsuccess : reply.errorCode = ErrorCode.success
  · -- a successful reply
    rw [if_pos hsuccess] at hC ⊢
    have hidentified := of_identify hl hs hmem hsuccess fun p hacq =>
      hC (t, .setIdentity p request reply)
        (List.mem_append_left _ (by rw [hacq]; exact List.mem_singleton_self _))
    have hkicked := h.of_kickPrevious hidentified.1 request reply hT accepted
      fun c hc => hC c (List.mem_append_right _ hc)
    have hlog : LogExtends (t.identify request reply)
        ((t.identify request reply).kickPrevious request reply now accepted) := by
      unfold Server.kickPrevious
      cases (t.identify request reply).previousConnection request reply with
      | none => exact LogExtends.refl _
      | some i => exact LogExtends.kick ..
    exact haddLoad hkicked (hlog.mem (hidentified.2 ▸ hmem))
      ((Server.LoadFollows.identify hs.1 hsuccess).kickPrevious hidentified.1.1 now accepted)
  · -- a failed reply
    rw [if_neg hsuccess] at hC ⊢
    cases hacq : t.tryAcquireConnection request.connectionKey with
    | none => exact haddLoad hs hmem (Server.LoadFollows.of_not_acquired hs.1 hacq)
    | some conn =>
        rw [hacq] at hC
        obtain ⟨hslot, honline, hkey⟩ := hs.1.of_tryAcquire hacq
        dsimp only at hC ⊢
        by_cases hguest : reply.errorCode = ErrorCode.playerNotExist
        · rw [if_pos hguest] at hC ⊢
          cases hplayer : conn.player with
          | none => exact hs
          | some p =>
              rw [hplayer] at hC
              exact ⟨hs.1.of_sameShape (SameShape.admitGuest t p request reply),
                hl.guest hs.1 trivial ⟨hslot, hplayer⟩ honline hkey hmem hguest
                  (hC _ (List.mem_singleton_self _)) hs.2⟩
        · rw [if_neg hguest] at hC ⊢
          exact h.of_kick hs _ ErrorCode.playerLoginFail hT accepted hC

/-- A reply is taken from the requests, recorded, and handled. -/
theorem of_response (hl : ClosedLogins (fun _ => True) P C) {s s' : Server} (hs : TableOk s ∧ P s)
    (p : Nat) (reply : LoginReply) {now : Nat} (hT : T now) (accepted : Bool)
    (hC : s.CallsMeet C (.response p reply now accepted))
    (hstep : s.step (.response p reply now accepted) = some s') : TableOk s' ∧ P s' := by
  simp only [Server.CallsMeet, Server.calls] at hC
  obtain ⟨request, hfind, rfl⟩ := Option.map_eq_some_iff.mp hstep
  rw [hfind] at hC
  have htable : TableOk ({ s with requests := s.requests.erase request }.record
      (.responded request reply)) := hs.1.of_sameShape (SameShape.of_rfl rfl rfl rfl rfl rfl)
  exact h.of_handleHandshakeResponse hl
    ⟨htable, hl.respond reply hs.1 trivial (List.mem_of_find?_eq_some hfind) hs.2⟩ hT accepted hC

/-- A load that ends is taken from the loads, and admits its player if it is still there. -/
theorem of_load (hl : ClosedLogins (fun _ => True) P C) {s s' : Server} (hs : TableOk s ∧ P s) (p : Nat)
    (result : LoadResult) {now : Nat} (hT : T now) (accepted : Bool)
    (hC : s.CallsMeet C (.load p result now accepted))
    (hstep : s.step (.load p result now accepted) = some s') : TableOk s' ∧ P s' := by
  simp only [Server.CallsMeet, Server.calls] at hC
  obtain ⟨load, hfind, rfl⟩ := Option.map_eq_some_iff.mp hstep
  rw [hfind] at hC
  have hmem := List.mem_of_find?_eq_some hfind
  have htaken : TableOk { s with loads := s.loads.erase load } ∧
      P { s with loads := s.loads.erase load } :=
    ⟨hs.1.of_sameShape (SameShape.of_rfl rfl rfl rfl rfl rfl), hl.takeLoad hs.1 trivial hmem hs.2⟩
  simp only [Server.loadCalls] at hC
  simp only [Server.resumeHandshakeResponse]
  cases hacq : { s with loads := s.loads.erase load }.tryAcquireConnection
      load.request.connectionKey with
  | none => exact htaken
  | some conn =>
      rw [hacq] at hC
      obtain ⟨hslot, honline, hkey⟩ := htaken.1.of_tryAcquire hacq
      dsimp only at hC ⊢
      by_cases herror : result = .error
      · rw [if_pos herror] at hC ⊢
        exact h.of_kick htaken _ ErrorCode.playerLoginFail hT accepted hC
      · rw [if_neg herror] at hC ⊢
        cases hplayer : conn.player with
        | none => exact htaken
        | some q =>
            rw [hplayer] at hC
            exact ⟨htaken.1.of_sameShape (SameShape.admitLoaded _ q load result),
              hl.loaded hs.1 trivial hmem ⟨hslot, hplayer⟩ honline hkey herror
                (hC _ (List.mem_singleton_self _)) hs.2⟩

/-- **The rule of moves.** What survives the moves, a clean-up, the scheduling of the tasks and their
runs survives every event at a time in `T` whose calls meet the condition. -/
theorem step (hk : ClosedTick (fun _ => True) P) (hl : ClosedLogins (fun _ => True) P C) {s s' : Server}
    (hs : TableOk s ∧ P s) (e : Event) (hT : ∀ now, e.time = some now → T now)
    (hC : s.CallsMeet C e)
    (hcleanup : ∀ i now conn, e = .cleanup i now → s.connection i = some conn →
      conn.isSafeDelete now = true →
      P { s with connectionEnv := s.connectionEnv.onConnectionDelete conn.connectionKey })
    (hschedule : ∀ task now posted, e = .schedule task now posted →
      TableOk (s.scheduleTask task now posted) ∧ P (s.scheduleTask task now posted))
    (hrun : ∀ task o o', e = .runTask task o o' → s.completionQueued task = true →
      TableOk (s.runTask task o o') ∧ P (s.runTask task o o'))
    (hstep : s.step e = some s') : TableOk s' ∧ P s' := by
  cases e with
  | accept now =>
      obtain rfl := Option.some.inj hstep
      exact ⟨hs.1.accept now, h.accept now (hT now rfl) hs.1 trivial hs.2⟩
  | cleanup i now =>
      obtain rfl := Option.some.inj hstep
      exact h.of_cleanup hs i (hT now rfl) (hcleanup i now _ rfl) hC
  | receive i packet now accepted garbage =>
      obtain rfl := Option.some.inj hstep
      exact h.of_receive hs i packet (hT now rfl) accepted garbage hC
  | kick i reason now accepted =>
      obtain rfl := Option.some.inj hstep
      exact h.of_kick hs i reason (hT now rfl) accepted hC
  | receiveError i now =>
      obtain rfl := Option.some.inj hstep
      exact h.of_disconnect hs i (hT now rfl) (hC _ (List.mem_singleton_self _))
  | tickPlayer i now o =>
      obtain rfl := Option.some.inj hstep
      exact h.of_tickPlayer hk hs i (hT now rfl) o hC
  | schedule task now posted =>
      obtain rfl := Option.some.inj hstep
      exact hschedule task now posted rfl
  | runTask task o o' =>
      simp only [Server.step] at hstep
      split_ifs at hstep with hqueued
      obtain rfl := Option.some.inj hstep
      exact hrun task o o' rfl hqueued
  | response p reply now accepted => exact h.of_response hl hs p reply (hT now rfl) accepted hC hstep
  | load p result now accepted => exact h.of_load hl hs p result (hT now rfl) accepted hC hstep

end Rule

end ClosedConnections

/-! ## Two properties

If `B` survives on its own, and `P` where `B` holds, then both survive together.
-/

section Inter

variable {B P : Server → Prop} {C : Server → Server.Call → Prop} {T : Nat → Prop}

theorem ClosedConnections.inter (hB : ClosedConnections (fun _ => True) B C T)
    (hP : ClosedConnections B P C T) :
    ClosedConnections (fun _ => True) (fun s => B s ∧ P s) C T where
  quiet ht _ hq h := ⟨hB.quiet ht trivial hq h.1, hP.quiet ht h.1 hq h.2⟩
  interact now hT ht _ hc h :=
    ⟨hB.interact now hT ht trivial hc h.1, hP.interact now hT ht h.1 hc h.2⟩
  accept now hT ht _ h := ⟨hB.accept now hT ht trivial h.1, hP.accept now hT ht h.1 h.2⟩
  disconnect i now hT ht _ hC h :=
    ⟨hB.disconnect i now hT ht trivial hC h.1, hP.disconnect i now hT ht h.1 hC h.2⟩
  handshake u w m g ht _ hc ho hC h :=
    ⟨hB.handshake u w m g ht trivial hc ho hC h.1, hP.handshake u w m g ht h.1 hc ho hC h.2⟩
  extEntry ht _ hp ho hC h :=
    ⟨hB.extEntry ht trivial hp ho hC h.1, hP.extEntry ht h.1 hp ho hC h.2⟩

theorem ClosedTick.inter (hB : ClosedTick (fun _ => True) B) (hP : ClosedTick B P) :
    ClosedTick (fun _ => True) fun s => B s ∧ P s where
  syncing ht _ hp ho hst h := ⟨hB.syncing ht trivial hp ho hst h.1, hP.syncing ht h.1 hp ho hst h.2⟩
  levelWait ht _ hp ho hst h :=
    ⟨hB.levelWait ht trivial hp ho hst h.1, hP.levelWait ht h.1 hp ho hst h.2⟩
  spawnWait ht _ hp ho hst h :=
    ⟨hB.spawnWait ht trivial hp ho hst h.1, hP.spawnWait ht h.1 hp ho hst h.2⟩
  pushDisconnect ht _ hp ho hst h :=
    ⟨hB.pushDisconnect ht trivial hp ho hst h.1, hP.pushDisconnect ht h.1 hp ho hst h.2⟩

theorem ClosedSchedules.inter (hB : ClosedSchedules (fun _ => True) B) (hP : ClosedSchedules B P) :
    ClosedSchedules (fun _ => True) fun s => B s ∧ P s where
  scheduleSpawn now b ht _ hr h :=
    ⟨hB.scheduleSpawn now b ht trivial hr h.1, hP.scheduleSpawn now b ht h.1 hr h.2⟩
  scheduleDisconnect now b ht _ hr h :=
    ⟨hB.scheduleDisconnect now b ht trivial hr h.1, hP.scheduleDisconnect now b ht h.1 hr h.2⟩
  scheduleLevel now b ht _ hr h :=
    ⟨hB.scheduleLevel now b ht trivial hr h.1, hP.scheduleLevel now b ht h.1 hr h.2⟩

theorem ClosedTasks.inter (hB : ClosedTasks (fun _ => True) B C) (hP : ClosedTasks B P C) :
    ClosedTasks (fun _ => True) (fun s => B s ∧ P s) C where
  levelCallback ht _ hm ha hC h :=
    ⟨hB.levelCallback ht trivial hm ha hC h.1, hP.levelCallback ht h.1 hm ha hC h.2⟩
  spawnCallback ht _ hm ha hC h :=
    ⟨hB.spawnCallback ht trivial hm ha hC h.1, hP.spawnCallback ht h.1 hm ha hC h.2⟩
  finishLevel ht _ h := ⟨hB.finishLevel ht trivial h.1, hP.finishLevel ht h.1 h.2⟩
  finishSpawn ht _ h := ⟨hB.finishSpawn ht trivial h.1, hP.finishSpawn ht h.1 h.2⟩
  disconnectRun o o' ht _ hq hC h :=
    ⟨hB.disconnectRun o o' ht trivial hq hC h.1, hP.disconnectRun o o' ht h.1 hq hC h.2⟩

theorem ClosedLogins.inter (hB : ClosedLogins (fun _ => True) B C) (hP : ClosedLogins B P C) :
    ClosedLogins (fun _ => True) (fun s => B s ∧ P s) C where
  respond y ht _ hr h := ⟨hB.respond y ht trivial hr h.1, hP.respond y ht h.1 hr h.2⟩
  setIdentity ht _ hp ho hk hr he hC h :=
    ⟨hB.setIdentity ht trivial hp ho hk hr he hC h.1, hP.setIdentity ht h.1 hp ho hk hr he hC h.2⟩
  guest ht _ hp ho hk hr he hC h :=
    ⟨hB.guest ht trivial hp ho hk hr he hC h.1, hP.guest ht h.1 hp ho hk hr he hC h.2⟩
  addLoad ht _ hr hl h := ⟨hB.addLoad ht trivial hr hl h.1, hP.addLoad ht h.1 hr hl h.2⟩
  takeLoad ht _ hl h := ⟨hB.takeLoad ht trivial hl h.1, hP.takeLoad ht h.1 hl h.2⟩
  loaded ht _ hl hp ho hk hr hC h :=
    ⟨hB.loaded ht trivial hl hp ho hk hr hC h.1, hP.loaded ht h.1 hl hp ho hk hr hC h.2⟩

end Inter

namespace Closed

section Rule

variable {P : Server → Prop} {C : Server → Server.Call → Prop} (h : Closed (fun _ => True) P C)

include h

/-- What survives every move survives every event whose calls meet the condition. -/
theorem step {s s' : Server} (hs : TableOk s ∧ P s) (e : Event) (hC : s.CallsMeet C e)
    (hstep : s.step e = some s') : TableOk s' ∧ P s' := by
  refine h.toClosedConnections.step h.toClosedTick h.toClosedLogins hs e (fun _ _ => trivial) hC ?_ ?_
    ?_ hstep
  · intro i now conn _ hconn hsafe
    exact h.delete hs.1 trivial hconn (Connection.offline_of_isSafeDelete hsafe) hs.2
  · intro task now posted _
    exact h.toClosedConnections.of_schedule h.toClosedSchedules hs task now posted
  · rintro task o o' rfl hqueued
    exact h.toClosedConnections.of_runTask h.toClosedTasks hs task o o' hqueued hC

/-- The rule of moves along a run. -/
theorem run {s t : Server} (hs : TableOk s ∧ P s) {es : List Event}
    (hC : Along Server.step (Server.CallsMeet C) s es) (hrun : Lib.run Server.step s es = some t) :
    TableOk t ∧ P t :=
  run_invariant_along (P := fun s => TableOk s ∧ P s)
    (fun _ e _ hs hG hstep => h.step hs e hG hstep) hs hC hrun

end Rule

/-- What survives without a condition survives under any. -/
theorem weaken {B P : Server → Prop} (h : Closed B P fun _ _ => True)
    (C : Server → Server.Call → Prop) : Closed B P C :=
  { h with
    disconnect := fun i now hT ht hB _ hP => h.disconnect i now hT ht hB trivial hP
    handshake := fun u w m g ht hB hc ho _ hP => h.handshake u w m g ht hB hc ho trivial hP
    extEntry := fun ht hB hp ho _ hP => h.extEntry ht hB hp ho trivial hP
    levelCallback := fun ht hB hm ha _ hP => h.levelCallback ht hB hm ha trivial hP
    spawnCallback := fun ht hB hm ha _ hP => h.spawnCallback ht hB hm ha trivial hP
    disconnectRun := fun o o' ht hB hq _ hP => h.disconnectRun o o' ht hB hq trivial hP
    setIdentity := fun ht hB hp ho hk hr he _ hP => h.setIdentity ht hB hp ho hk hr he trivial hP
    guest := fun ht hB hp ho hk hr he _ hP => h.guest ht hB hp ho hk hr he trivial hP
    loaded := fun ht hB hl hp ho hk hr _ hP => h.loaded ht hB hl hp ho hk hr trivial hP }

/-- Two properties that survive every move, the second one where the first holds. -/
theorem inter {B P : Server → Prop} {C : Server → Server.Call → Prop}
    (hB : Closed (fun _ => True) B C) (hP : Closed B P C) :
    Closed (fun _ => True) (fun s => B s ∧ P s) C :=
  { hB.toClosedConnections.inter hP.toClosedConnections, hB.toClosedTick.inter hP.toClosedTick,
    hB.toClosedSchedules.inter hP.toClosedSchedules, hB.toClosedTasks.inter hP.toClosedTasks,
    hB.toClosedLogins.inter hP.toClosedLogins with
    delete := fun ht _ hc ho h => ⟨hB.delete ht trivial hc ho h.1, hP.delete ht h.1 hc ho h.2⟩ }

/-- A property over one that survives every move: it is enough that it survives the moves where the
other holds, and that a clean-up, a scheduling and a run of a task keep it. -/
theorem step_over {B P : Server → Prop} {C : Server → Server.Call → Prop}
    (hB : Closed (fun _ => True) B C) (hP : ClosedConnections B P C fun _ => True)
    (hk : ClosedTick B P) (hl : ClosedLogins B P C) {s s' : Server} (hs : TableOk s ∧ B s ∧ P s)
    (e : Event) (hC : s.CallsMeet C e)
    (hcleanup : ∀ i now conn, e = .cleanup i now → s.connection i = some conn →
      conn.isSafeDelete now = true →
      P { s with connectionEnv := s.connectionEnv.onConnectionDelete conn.connectionKey })
    (hschedule : ∀ task now posted, e = .schedule task now posted → P (s.scheduleTask task now posted))
    (hrun : ∀ task o o', e = .runTask task o o' → s.completionQueued task = true →
      P (s.runTask task o o'))
    (hstep : s.step e = some s') : TableOk s' ∧ B s' ∧ P s' := by
  have hconn := hB.toClosedConnections
  refine (hconn.inter hP).step (hB.toClosedTick.inter hk) (hB.toClosedLogins.inter hl) hs e
    (fun _ _ => trivial) hC ?_ ?_ ?_ hstep
  · intro i now conn he hconnection hsafe
    have hoffline := Connection.offline_of_isSafeDelete hsafe
    exact ⟨hB.delete hs.1 trivial hconnection hoffline hs.2.1, hcleanup i now conn he hconnection hsafe⟩
  · intro task now posted he
    obtain ⟨ht, hbase⟩ := hconn.of_schedule hB.toClosedSchedules ⟨hs.1, hs.2.1⟩ task now posted
    exact ⟨ht, hbase, hschedule task now posted he⟩
  · rintro task o o' rfl hqueued
    obtain ⟨ht, hbase⟩ := hconn.of_runTask hB.toClosedTasks ⟨hs.1, hs.2.1⟩ task o o' hqueued hC
    exact ⟨ht, hbase, hrun task o o' rfl hqueued⟩

/-- A property of the state and of the players that are still to be torn down holds after a run of
the disconnect task if it holds once the despawn records are sent and each round keeps it. -/
theorem disconnectRun_of_rounds {P : Server → Prop} {Q : List Nat → Server → Prop}
    (hnone : ∀ {u p ps}, u.tryAcquireOf p = none → Q (p :: ps) u → Q ps u)
    (hsome : ∀ {u conn p ps}, TableOk u → u.tryAcquireOf p = some conn → Q (p :: ps) u →
      Q ps ((u.savePlayerGamedata p).transitState p .disconnected))
    (hfinish : ∀ {u}, Q [] u → P (u.updateDisconnectPlayerTask (·.finish)))
    {s : Server} (ht : TableOk s)
    (hstart : ∀ {ds : List Nat} {u}, (∀ p ∈ ds, p ∈ s.world.disconnectPlayerTask.target) →
      Quiet { s with log := ds.map .despawned ++ s.log } u →
      Q s.world.disconnectPlayerTask.target u)
    (o o' : Outcomes) : P (s.runTask .disconnectPlayer o o') := by
  have hfold : ∀ (targets : List Nat) (u : Server), TableOk u → Q targets u →
      Q [] (targets.foldl Server.teardownPlayer u) := by
    intro targets
    induction targets with
    | nil => intro u _ hu; exact hu
    | cons p ps ih =>
        intro u htu hu
        refine ih (u.teardownPlayer p) (htu.of_sameShape (SameShape.teardownPlayer u p)) ?_
        unfold Server.teardownPlayer
        cases hacq : u.tryAcquireOf p with
        | none => exact hnone hacq hu
        | some conn => exact hsome htu hacq hu
  set target := s.world.disconnectPlayerTask.target with htarget
  set spawned := target.filter fun p => decide (State.spawned ≤ (s.players p).prevState) with hspawned
  have htlogged : TableOk { s with log := spawned.map .despawned ++ s.log } :=
    ht.of_sameShape (SameShape.of_rfl rfl rfl rfl rfl rfl)
  have hquietSend := Quiet.sendToPlayers
    (.despawnPlayers (spawned.map fun p => (s.players p).gameId)) Quiet.noCallback
    (s.selectPlayersFrom .spawned) o { s with log := spawned.map .despawned ++ s.log }
  apply hfinish
  apply hfold target _ (htlogged.of_sameShape hquietSend.sameShape)
  exact hstart (fun p hp => List.mem_of_mem_filter hp) hquietSend

/-- A property survives a run of the disconnect task if it survives its parts. -/
theorem disconnectRun_of_parts {P : Server → Prop}
    (hquiet : ∀ {s t}, TableOk s → Quiet s t → P s → P t)
    (hdespawned : ∀ {s} (ds : List Nat), (∀ p ∈ ds, p ∈ s.world.disconnectPlayerTask.target) → P s →
      P { s with log := ds.map .despawned ++ s.log })
    (hteardown : ∀ {s conn p}, TableOk s → p ∈ s.world.disconnectPlayerTask.target →
      s.tryAcquireOf p = some conn → P s → P ((s.savePlayerGamedata p).transitState p .disconnected))
    (hfinish : ∀ {s}, P s → P (s.updateDisconnectPlayerTask (·.finish)))
    {s : Server} (ht : TableOk s) (hP : P s) (o o' : Outcomes) :
    P (s.runTask .disconnectPlayer o o') := by
  -- what is left to tear down stays in the list of the task
  refine disconnectRun_of_rounds
    (Q := fun ps u => (∀ p ∈ ps, p ∈ u.world.disconnectPlayerTask.target) ∧ P u) ?_ ?_
    (fun h => hfinish h.2) ht ?_ o o'
  · rintro u p ps - ⟨hsub, hu⟩
    exact ⟨fun q hq => hsub q (List.mem_cons_of_mem p hq), hu⟩
  · rintro u conn p ps htu hacq ⟨hsub, hu⟩
    have hworld : ((u.savePlayerGamedata p).transitState p .disconnected).world = u.world := by
      rw [Server.savePlayerGamedata_eq]
      rfl
    refine ⟨fun q hq => ?_, hteardown htu (hsub p List.mem_cons_self) hacq hu⟩
    rw [hworld]
    exact hsub q (List.mem_cons_of_mem p hq)
  · intro ds u hds hq
    have htlogged : TableOk { s with log := ds.map .despawned ++ s.log } :=
      ht.of_sameShape (SameShape.of_rfl rfl rfl rfl rfl rfl)
    exact ⟨fun p hp => hq.disconnectTask ▸ hp, hquiet htlogged hq (hdespawned ds hds hP)⟩

end Closed

end Mmocraft
