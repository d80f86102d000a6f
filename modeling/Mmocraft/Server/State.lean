/-
# Mmocraft.Server.State -- the state of a game server and its primitive operations

A `Server` is everything the handlers of the game server and the world tasks share: the connection
table, the players by identity, the world with its tasks, the login requests that are under way, and
what was sent to each connection.  `log` is a history that no operation reads: the newest record
comes first, and it is what statements about whole runs speak of.
-/
import Mmocraft.Game.BlockMapping
import Mmocraft.Game.WorldTask
import Mmocraft.Net.ConnectionEnvironment
import Mmocraft.Net.PlayerPackets

namespace Mmocraft

open Mmocraft.Game Mmocraft.Net

/-! ## Messages and packets -/

/-- The handshake packet that is forwarded to the login server; `player` is the identity of the
player that was constructed for it. -/
structure LoginRequest where
  player : Nat
  connectionKey : ConnectionKey
  username : List UInt8
  password : List UInt8
  deriving DecidableEq, Repr

/-- `protocol::PacketHandshakeResponse`, without the connection key, which the login server copies
from the request. -/
structure LoginReply where
  prevConnectionKey : ConnectionKey := default
  errorCode : ErrorCode
  playerType : Nat := 0
  playerUuid : List UInt8 := []
  deriving DecidableEq, Repr

/-- A `handle_handshake_response_message` that is suspended in `get_document`. -/
structure GamedataLoad where
  request : LoginRequest
  reply : LoginReply
  deriving DecidableEq, Repr

/-- How `get_document` ends. -/
inductive LoadResult where
  | document (gamedata : PlayerGamedata)
  | documentNotFound
  | error
  deriving DecidableEq, Repr

/-- What is pushed to the send buffer of a connection, or posted to it as a multicast. -/
inductive ServerPacket where
  | disconnectPlayer (reason : ErrorCode)
  | ping
  | twoWayPing (data : List UInt8)
  | extPing (requestTime : BitVec 64)
  | setBlock (record : BlockHistoryRecord)
  | extInfo
  | extEntry (name : List UInt8) (version : BitVec 32)
  | handshake (userType : UInt8)
  | setPlayerId (gameId : UInt8)
  | levelInit
  | blockHistory (records : List BlockHistoryRecord)
  | levelData (blocks : List UInt8)
  | spawnPlayers (records : List SpawnRecord)
  | despawnPlayers (gameIds : List UInt8)
  | playerPositions (records : List PositionRecord)
  | chat (messages : List (List UInt8))
  deriving DecidableEq, Repr

/-! ## History -/

/-- What is remembered of a run. Players and connections are named by their identities. Records are added
and never taken back; the newest is the first. -/
inductive Record where
  /-- A connection was registered. -/
  | accepted (conn : Nat) (key : ConnectionKey)
  /-- A player entered a state. -/
  | state (player : Nat) (st : State)
  /-- `transit_state` was called with a hint while `next` was prepared. -/
  | transit (player : Nat) (hint next : State)
  /-- `PlayerGamedata::save` was called. -/
  | saveCalled (player : Nat)
  /-- `PlayerGamedata::save` wrote a document. -/
  | document (player : Nat) (type : PlayerTypeId) (uuid : List UInt8) (gamedata : PlayerGamedata)
  /-- The despawn record of a player was broadcast. -/
  | despawned (player : Nat)
  /-- A `PlayerLogoutRequest` was sent for a connection. -/
  | logout (conn : Nat) (username : List UInt8)
  /-- A connection went offline. -/
  | offline (conn : Nat)
  /-- `handle_handshake_response_message` handled the reply to a request. -/
  | responded (request : LoginRequest) (reply : LoginReply)
  /-- The gamedata load of a login ended without an error while the connection had that player. -/
  | loaded (player : Nat) (load : GamedataLoad) (result : LoadResult)
  /-- The reply to a request moved a player out of its handshaking state. -/
  | authenticated (player : Nat) (request : LoginRequest) (reply : LoginReply)
  deriving DecidableEq, Repr

/-! ## The server -/

/-- `World`: metadata, the mapped block file and the five tasks. The intervals are those of the source. -/
structure World where
  metadata : WorldMetadata
  blockMapping : List UInt8
  spawnPlayerTask : WorldPlayerTask := { intervalMs := 2 * 1000 }
  disconnectPlayerTask : WorldPlayerTask := { intervalMs := 2 * 1000 }
  syncBlockTask : BlockSyncTask := { intervalMs := 200 }
  syncPlayerPositionTask : Task := { intervalMs := 100 }
  commonChatTransferTask : CommonChatTask := { intervalMs := 1 * 1000 }

/-- `world_task_interval::ping`. -/
def pingInterval : Nat := 5 * 1000

/-- The game server. `requests` and `loads` are what the login server and the database still owe, `sent` is
what each connection accepted, and `log` the history. Players and connections are never reused as objects,
so each has an identity. -/
structure Server where
  connectionEnv : ConnectionEnvironment
  /-- The number of connections registered so far. -/
  numOfAccepted : Nat := 0
  /-- The player objects by identity; a freed one keeps its last contents. -/
  players : Nat → Player
  /-- The number of players constructed so far. -/
  numOfPlayers : Nat := 0
  /-- The connection each player was constructed for. -/
  owner : Nat → Nat := fun _ => 0
  world : World
  requests : List LoginRequest := []
  loads : List GamedataLoad := []
  sent : Nat → List ServerPacket := fun _ => []
  log : List Record := []

namespace Server

/-- The connection object in a slot. -/
def connection (s : Server) (i : Nat) : Option Connection := (s.connectionEnv.table i).connection

def tryAcquireConnection (s : Server) (key : ConnectionKey) : Option Connection :=
  s.connectionEnv.tryAcquireConnection key

/-- The connection that `try_acquire_connection` gives for the key of a player. -/
def tryAcquireOf (s : Server) (p : Nat) : Option Connection :=
  s.tryAcquireConnection (s.players p).connectionKey

/-! ### Primitive operations -/

def record (s : Server) (r : Record) : Server := { s with log := r :: s.log }

def updatePlayer (s : Server) (p : Nat) (f : Player → Player) : Server :=
  { s with players := Function.update s.players p (f (s.players p)) }

/-- `Player::transit_state`. -/
def transitState (s : Server) (p : Nat) (hint : State := .invaild) : Server :=
  ((s.record (.transit p hint (s.players p).nextState)).record
    (.state p (s.players p).nextState)).updatePlayer p Player.transitState

/-- `Player::prepare_state_transition`. -/
def prepareStateTransition (s : Server) (p : Nat) (cur next : State) : Server :=
  (s.record (.state p cur)).updatePlayer p (·.prepareStateTransition cur next)

/-- A push to the send buffer of a connection, or a multicast post; `accepted` says whether the
connection took the data. -/
def send (s : Server) (conn : Connection) (packet : ServerPacket) (accepted : Bool) : Server :=
  if accepted then { s with sent := Function.update s.sent conn.id (s.sent conn.id ++ [packet]) }
  else s

/-- `try_interact_with_client` on an online connection. -/
def interact (s : Server) (i now : Nat) : Server :=
  { s with connectionEnv :=
      s.connectionEnv.updateConnection i (·.updateLastInteractionTime now) }

/-- `std::make_unique<Player>` and `Connection::set_player`, for the connection in slot `i`. -/
def setPlayer (s : Server) (i : Nat) (conn : Connection) (player : Player) : Server :=
  { s with
    players := Function.update s.players s.numOfPlayers player
    owner := Function.update s.owner s.numOfPlayers conn.id
    numOfPlayers := s.numOfPlayers + 1
    connectionEnv := s.connectionEnv.updateConnection i fun conn =>
      { conn with player := some s.numOfPlayers } }

/-! ### Tasks -/

def updateSpawnPlayerTask (s : Server) (f : WorldPlayerTask → WorldPlayerTask) : Server :=
  { s with world := { s.world with spawnPlayerTask := f s.world.spawnPlayerTask } }

def updateDisconnectPlayerTask (s : Server) (f : WorldPlayerTask → WorldPlayerTask) : Server :=
  { s with world := { s.world with disconnectPlayerTask := f s.world.disconnectPlayerTask } }

def updateSyncBlockTask (s : Server) (f : BlockSyncTask → BlockSyncTask) : Server :=
  { s with world := { s.world with syncBlockTask := f s.world.syncBlockTask } }

def updateSyncPlayerPositionTask (s : Server) (f : Task → Task) : Server :=
  { s with world := { s.world with syncPlayerPositionTask := f s.world.syncPlayerPositionTask } }

def updateCommonChatTransferTask (s : Server) (f : CommonChatTask → CommonChatTask) : Server :=
  { s with world := { s.world with commonChatTransferTask := f s.world.commonChatTransferTask } }

/-! ### Connections -/

/-- `GameServer::on_disconnect`. -/
def onDisconnect (s : Server) (conn : Connection) : Server :=
  match conn.player with
  | none => s
  | some p =>
      -- notify logout event to the login server
      if State.handshaked ≤ (s.players p).state then
        s.record (.logout conn.id (s.players p).username)
      else s

/-- `Connection::set_offline` as one step.  It is three plain stores without a lock: a clean-up that comes
between the first two still finds the old `last_offline_tick`.  `OfflineStores` has the stores one by one. -/
def setOffline (s : Server) (i : Nat) (conn : Connection) (now : Nat) : Server :=
  { s.record (.offline conn.id) with
    connectionEnv := (s.connectionEnv.updateConnection i fun conn => conn.setOffline now).onConnectionOffline
      conn.connectionKey }

/-- `Connection::disconnect`, for the connection in slot `i`. -/
def disconnect (s : Server) (i now : Nat) : Server :=
  match s.connection i with
  | none => s
  | some conn =>
      if !conn.isOnline then s
      else
        -- the teardown of a player beyond its construction is delegated to the world
        match conn.player.filter fun p => State.handshaking ≤ (s.players p).state with
        | some p => s.prepareStateTransition p .disconnecting .disconnected
        | none => (s.onDisconnect conn).setOffline i conn now

/-- `Connection::kick`. -/
def kick (s : Server) (i : Nat) (reason : ErrorCode) (now : Nat) (accepted : Bool) : Server :=
  match s.connection i with
  | none => s
  | some conn => (s.send conn (.disconnectPlayer reason) accepted).disconnect i now

/-- The table has no room for another connection. -/
abbrev IsFull (s : Server) : Prop := s.connectionEnv.numOfMaxConnections ≤ s.connectionEnv.numOfConnections

/-- The key that `new_connection` makes: the first unused slot, and the clock. -/
abbrev newConnectionKey (s : Server) (now : Nat) : ConnectionKey :=
  ⟨s.connectionEnv.getUnusedConnectionId, monotonicTick32 now⟩

/-- The constructor of a connection with a key that was made at `now`, and its `on_connection_create`.  The
source reads the clock twice, for the key and then for `last_interaction_tick`; one reading stands for both
here, since nothing compares the two. -/
def registerConnection (s : Server) (key : ConnectionKey) (now : Nat) : Server :=
  { s.record (.accepted s.numOfAccepted key) with
    connectionEnv := s.connectionEnv.onConnectionCreate key
      { id := s.numOfAccepted, connectionKey := key, lastInteractionTick := now }
    numOfAccepted := s.numOfAccepted + 1 }

/-- `TcpServer::handle_io_event` for an accepted socket, after the clean-up. -/
def accept (s : Server) (now : Nat) : Server :=
  if s.IsFull then s else s.registerConnection (s.newConnectionKey now) now

/-- `ConnectionEnvironment::cleanup_expired_connection` at the entry of slot `i`. -/
def cleanupExpiredConnection (s : Server) (i now : Nat) : Server :=
  if !(s.connectionEnv.table i).used then s
  else
    match s.connection i with
    | none => s
    | some conn =>
        if conn.isSafeDelete now then
          { s with connectionEnv := s.connectionEnv.onConnectionDelete conn.connectionKey }
        else if conn.isExpired now then s.disconnect i now
        else s

end Server

end Mmocraft
