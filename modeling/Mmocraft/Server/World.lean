/-
# Mmocraft.Server.World -- the world tasks and the tick

The member functions of `World` on the state of the server.  Sends can be refused by the connection:
each function that sends takes the outcomes as a stream of booleans, one for each recipient it
reaches.  `World::tick` visits the players one after the other and then schedules the tasks that are
ready; the visit of one player and the scheduling of one task are the steps it is made of, since the
other threads run in between.
-/
import Mmocraft.Net.PacketExtension
import Mmocraft.Server.State

namespace Mmocraft

open Mmocraft.Lib Mmocraft.Game Mmocraft.Net

/-- The outcomes of the sends of one call. -/
abbrev Outcomes := Nat → Bool

/-- The outcomes from the second send on. -/
def Outcomes.tail (o : Outcomes) : Outcomes := fun k => o (k + 1)

namespace Server

/-! ## Sending to players -/

/-- One round of `send_to_players` or `multicast_to_players`. -/
def sendToPlayer (s : Server) (p : Nat) (packet : ServerPacket) (accepted : Bool)
    (successed : Server → Nat → Server) : Server :=
  match s.tryAcquireOf p with
  | none => s
  | some conn =>
      if accepted then successed (s.send conn packet true) p else s

/-- `send_to_players` and `multicast_to_players`. -/
def sendToPlayers (packet : ServerPacket) (successed : Server → Nat → Server) :
    List Nat → Outcomes → Server → Server
  | [], _, s => s
  | p :: ps, o, s =>
      sendToPlayers packet successed ps o.tail (s.sendToPlayer p packet (o 0) successed)

/-- No callback. -/
def noCallback (s : Server) (_ : Nat) : Server := s

/-- The players of the table in a state from `st` on. -/
def selectPlayersFrom (s : Server) (st : State) : List Nat :=
  s.connectionEnv.selectPlayers fun p => st ≤ (s.players p).state

/-! ## The task handlers -/

/-- `World::process_level_wait_player`. -/
def processLevelWaitPlayer (s : Server) (levelWaitPlayers : List Nat) (o : Outcomes) : Server :=
  sendToPlayers (.levelData s.world.blockMapping)
    (fun s p => s.transitState p .levelInitialized) levelWaitPlayers o s

/-- `World::spawn_player`. -/
def spawnPlayer (s : Server) (spawnWaitPlayers : List Nat) (toNew toOld : Outcomes) : Server :=
  let oldPlayers := s.selectPlayersFrom .spawned
  let records := fun ps : List Nat => ps.map fun p => spawnRecord (s.players p)
  let afterNew := sendToPlayers (.spawnPlayers (records oldPlayers ++ records spawnWaitPlayers))
    (fun s p => s.transitState p .spawned) spawnWaitPlayers toNew s
  sendToPlayers (.spawnPlayers (records spawnWaitPlayers)) noCallback oldPlayers toOld afterNew

/-- `World::despawn_player`. -/
def despawnPlayer (s : Server) (spawnedPlayers : List Nat) (o : Outcomes) : Server :=
  let packet := .despawnPlayers (spawnedPlayers.map fun p => (s.players p).gameId)
  sendToPlayers packet noCallback (s.selectPlayersFrom .spawned) o
    { s with log := spawnedPlayers.map .despawned ++ s.log }

/-- `PlayerGamedata::save`. -/
def savePlayerGamedata (s : Server) (p : Nat) : Server :=
  let player := s.players p
  let s := s.record (.saveCalled p)
  if player.isSupportGamedataSaving then
    s.record (.document p player.playerType player.uuid player.gamedata)
  else s

/-- One round of the second loop of `World::disconnect_player`. -/
def teardownPlayer (s : Server) (p : Nat) : Server :=
  match s.tryAcquireOf p with
  | none => s
  | some _ => (s.savePlayerGamedata p).transitState p .disconnected

/-- `World::disconnect_player`. -/
def disconnectPlayer (s : Server) (disconnectWaitPlayers : List Nat) (o : Outcomes) : Server :=
  let spawnedPlayers := disconnectWaitPlayers.filter fun p =>
    decide (State.spawned ≤ (s.players p).prevState)
  disconnectWaitPlayers.foldl teardownPlayer (s.despawnPlayer spawnedPlayers o)

/-- The write of one record in `World::commit_block_changes`; the stored coordinates are in network
byte order. -/
def commitBlockChange (metadata : WorldMetadata) (blocks : List UInt8) (r : BlockHistoryRecord) :
    List UInt8 :=
  let index := coordinateToBlockMapIndex metadata r.x.toNat r.y.toNat r.z.toNat
  if index < metadata.volume then blocks.set index r.blockId else blocks

/-- `World::commit_block_changes`. -/
def commitBlockChanges (s : Server) (records : List BlockHistoryRecord) : Server :=
  { s with world := { s.world with
      blockMapping := records.foldl (commitBlockChange s.world.metadata) s.world.blockMapping } }

/-- The first part of `World::sync_block`: commit the block changes and pass them on. -/
def syncBlockHistory (s : Server) (records : List BlockHistoryRecord) (o : Outcomes) : Server :=
  if records.isEmpty then s
  else
    let s := s.commitBlockChanges records
    sendToPlayers (.blockHistory records) noCallback (s.selectPlayersFrom .levelInitialized) o s

/-- `World::sync_block`. -/
def syncBlock (s : Server) (levelWaitPlayers : List Nat) (records : List BlockHistoryRecord)
    (toPlaying toWaiting : Outcomes) : Server :=
  let s := s.syncBlockHistory records toPlaying
  if levelWaitPlayers.isEmpty then s else s.processLevelWaitPlayer levelWaitPlayers toWaiting

/-- The side effect of `PacketSetPlayerPosition::serialize` on one player. -/
def rememberPosition (s : Server) (p : Nat) : Server :=
  s.updatePlayer p fun player => player.updateLastTransferredPosition player.lastPosition

/-- `World::sync_player_position`. -/
def syncPlayerPosition (s : Server) (o : Outcomes) : Server :=
  let worldPlayers := s.selectPlayersFrom .spawned
  let records := worldPlayers.filterMap fun p => positionRecord (s.players p)
  let s := worldPlayers.foldl rememberPosition s
  if records.isEmpty then s
  else
    sendToPlayers (.playerPositions records)
      (fun s p => s.updatePlayer p Player.commitLastTransferredPosition) worldPlayers o s

/-- `World::common_chat_transfer`. -/
def commonChatTransfer (s : Server) (messages : List (List UInt8)) (o : Outcomes) : Server :=
  if messages.isEmpty then s
  else sendToPlayers (.chat messages) noCallback (s.selectPlayersFrom .spawned) o s

/-! ## The tick -/

/-- `Connection::on_handshake_success`. -/
def onHandshakeSuccess (s : Server) (conn : Connection) (p : Nat) (o : Outcomes) : Server :=
  let player := s.players p
  let userType := if player.playerType = PlayerTypeId.admin then 64 else 0
  ((s.send conn (.handshake userType) (o 0)).send conn (.setPlayerId player.gameId) (o 1)).send conn
    .levelInit (o 2)

/-- The player is to receive the level: prepared, and queued for `sync_block`. -/
def waitForLevel (s : Server) (p : Nat) : Server :=
  (s.prepareStateTransition p .levelInitializing .levelInitialized).updateSyncBlockTask (·.push p)

/-- `set_spawn_coordinate` and `set_spawn_orientation` with the values of the world. -/
def setSpawnPosition (s : Server) (p : Nat) : Server :=
  let m := s.world.metadata
  s.updatePlayer p fun player =>
    (player.setSpawnCoordinate m.spawnX m.spawnY m.spawnZ).setSpawnOrientation m.spawnYaw
      m.spawnPitch

/-- The player is to be spawned: prepared, and queued for `spawn_player`. -/
def waitForSpawn (s : Server) (p : Nat) : Server :=
  (s.prepareStateTransition p .spawning .spawned).updateSpawnPlayerTask (·.push p)

/-- `transit_player_state`, the function `World::tick` applies to a connection and its player. -/
def transitPlayerState (s : Server) (i : Nat) (conn : Connection) (p : Nat) (now : Nat)
    (o : Outcomes) : Server :=
  match (s.players p).state with
  | .exHandshaked =>
      -- the entries are reported as sent even if the buffer refuses them
      if o 0 then
        (((s.send conn .extInfo true).send conn (.extEntry messageTypesExtension.1
          messageTypesExtension.2.version) (o 1)).send conn (.extEntry twoWayPingExtension.1
          twoWayPingExtension.2.version) (o 2)).prepareStateTransition p .extensionSyncing .extensionSynced
      else s
  | .handshaked | .extensionSynced => (s.onHandshakeSuccess conn p o).waitForLevel p
  | .levelInitialized => (s.setSpawnPosition p).waitForSpawn p
  | .spawned =>
      if (s.players p).lastPingTime + pingInterval < now then
        (s.send conn .ping (o 0)).updatePlayer p (·.updatePingTime now)
      else s
  | .disconnecting => s.updateDisconnectPlayerTask (·.push p)
  | .disconnected => s.disconnect i now
  | _ => s

/-- The visit of slot `i` by `for_each_player` in `World::tick`. -/
def tickPlayer (s : Server) (i now : Nat) (o : Outcomes) : Server :=
  match s.connection i, s.connectionEnv.playerOf i with
  | some conn, some p => s.transitPlayerState i conn p now o
  | _, _ => s

/-- `schedule_task` in `World::tick`, for one task; `posted` is the result of
`PostQueuedCompletionStatus`. -/
def scheduleTask (s : Server) (task : WorldTaskId) (now : Nat) (posted : Bool) : Server :=
  match task with
  | .spawnPlayer =>
      if s.world.spawnPlayerTask.ready now then s.updateSpawnPlayerTask (·.schedule now posted)
      else s
  | .disconnectPlayer =>
      if s.world.disconnectPlayerTask.ready now then
        s.updateDisconnectPlayerTask (·.schedule now posted)
      else s
  | .syncBlock =>
      if s.world.syncBlockTask.ready now then s.updateSyncBlockTask (·.schedule now posted) else s
  | .syncPlayerPosition =>
      if s.world.syncPlayerPositionTask.ready now then
        s.updateSyncPlayerPositionTask (·.schedule now posted)
      else s
  | .commonChatTransfer =>
      if s.world.commonChatTransferTask.ready now then
        s.updateCommonChatTransferTask (·.schedule now posted)
      else s

/-- Whether the completion of a task is waiting to be executed. -/
def completionQueued (s : Server) : WorldTaskId → Bool
  | .spawnPlayer => s.world.spawnPlayerTask.completionQueued
  | .disconnectPlayer => s.world.disconnectPlayerTask.completionQueued
  | .syncBlock => s.world.syncBlockTask.completionQueued
  | .syncPlayerPosition => s.world.syncPlayerPositionTask.completionQueued
  | .commonChatTransfer => s.world.commonChatTransferTask.completionQueued

/-- `on_event_complete` of a task: run the handler on what was taken, clear it, set the task
unused. -/
def runTask (s : Server) (task : WorldTaskId) (o o' : Outcomes) : Server :=
  match task with
  | .spawnPlayer =>
      (s.spawnPlayer s.world.spawnPlayerTask.target o o').updateSpawnPlayerTask (·.finish)
  | .disconnectPlayer =>
      (s.disconnectPlayer s.world.disconnectPlayerTask.target o).updateDisconnectPlayerTask (·.finish)
  | .syncBlock =>
      (s.syncBlock s.world.syncBlockTask.target s.world.syncBlockTask.blockHistory.output o
        o').updateSyncBlockTask (·.finish)
  | .syncPlayerPosition => (s.syncPlayerPosition o).updateSyncPlayerPositionTask (·.finish)
  | .commonChatTransfer =>
      (s.commonChatTransfer s.world.commonChatTransferTask.commonChatHistory.output
        o).updateCommonChatTransferTask (·.finish)

end Server

end Mmocraft
