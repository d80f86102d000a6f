/-
# Mmocraft.Server.Step -- the runs of the game server

The events of a game server: what the I/O threads, the tick of the world, the task threads and the
login server can do to it, each atomic.  A full tick is a visit of every slot followed by the
scheduling of every task, and the events of other threads can fall in between.  `calls`
lists, for an event, the calls of `disconnect`, `set_player`, `transit_state` and the like that it
makes, each with the state in which it is made: the conditions under which a run behaves are
conditions on these.
-/
import Mmocraft.Lib.Runs
import Mmocraft.Server.Handlers

namespace Mmocraft

open Mmocraft.Lib Mmocraft.Game Mmocraft.Net

/-- The events of a run. An event is what one thread does without waiting: a handler with everything it
calls, a visit of the tick, a task. The outcomes of calls that can fail come with the event. -/
inductive Event where
  /-- A socket is accepted. -/
  | accept (now : Nat)
  /-- `cleanup_expired_connection` reaches a slot. -/
  | cleanup (i now : Nat)
  /-- A packet is received. -/
  | receive (i : Nat) (packet : ClientPacket) (now : Nat) (accepted : Bool) (garbage : PlayerTypeId)
  /-- A receive completes with a failed last error code. -/
  | kick (i : Nat) (reason : ErrorCode) (now : Nat) (accepted : Bool)
  /-- A receive fails. -/
  | receiveError (i now : Nat)
  /-- `World::tick` visits a slot. -/
  | tickPlayer (i now : Nat) (o : Outcomes)
  /-- `World::tick` reaches a task. -/
  | schedule (task : WorldTaskId) (now : Nat) (posted : Bool)
  /-- The completion of a task is executed. -/
  | runTask (task : WorldTaskId) (o o' : Outcomes)
  /-- The login server's reply to the handshake of a player arrives. -/
  | response (player : Nat) (reply : LoginReply) (now : Nat) (accepted : Bool)
  /-- The gamedata load of the login of a player ends. -/
  | load (player : Nat) (result : LoadResult) (now : Nat) (accepted : Bool)

/-- The clock at an event; a task does not read it. -/
def Event.time : Event → Option Nat
  | .accept now | .cleanup _ now | .receive _ _ now _ _ | .kick _ _ now _ | .receiveError _ now
  | .tickPlayer _ now _ | .schedule _ now _ | .response _ _ now _ | .load _ _ now _ => some now
  | .runTask .. => none

namespace Server

/-- A server that has just started. -/
def init (maxClients : Nat) (metadata : WorldMetadata) (blockMapping : List UInt8) : Server :=
  { connectionEnv := { numOfMaxConnections := maxClients }
    players := fun _ => Player.new default [] PlayerTypeId.invalid
    world := { metadata := metadata, blockMapping := blockMapping } }

/-- A server with two slots and a world of one block, for concrete runs. -/
def small : Server :=
  init 2
    { width := 1, height := 1, length := 1, volume := 1, spawnX := 0, spawnY := 1, spawnZ := 0
      spawnYaw := 0, spawnPitch := 0 }
    [0, 0, 0, 1, 0]

/-- One event.  A task runs when its completion is queued; each request is answered at most once,
and each load ends at most once. -/
def step (s : Server) : Event → Option Server
  | .accept now => some (s.accept now)
  | .cleanup i now => some (s.cleanupExpiredConnection i now)
  | .receive i packet now accepted garbage => some (s.receivePacket i packet now accepted garbage)
  | .kick i reason now accepted => some (s.kick i reason now accepted)
  | .receiveError i now => some (s.disconnect i now)
  | .tickPlayer i now o => some (s.tickPlayer i now o)
  | .schedule task now posted => some (s.scheduleTask task now posted)
  | .runTask task o o' => if s.completionQueued task then some (s.runTask task o o') else none
  | .response p reply now accepted =>
      (s.requests.find? (·.player = p)).map fun request =>
        { s with requests := s.requests.erase request }.handleHandshakeResponse request reply now
          accepted
  | .load p result now accepted =>
      (s.loads.find? (·.request.player = p)).map fun load =>
        { s with loads := s.loads.erase load }.resumeHandshakeResponse load result now accepted

/-! ## The calls of an event -/

/-- Why `transit_state` is called, outside the teardown task. -/
inductive Cause where
  | extEntry
  | guest (request : LoginRequest) (reply : LoginReply)
  | loaded (load : GamedataLoad) (result : LoadResult)
  | level
  | spawn
  deriving DecidableEq, Repr

/-- A call made while an event is handled. The conditions of the theorems about runs speak of these, each in
the state in which it is made. -/
inductive Call where
  /-- `Connection::set_player`, for the connection in a slot, with a new player whose `_player_type`
  holds `garbage`. -/
  | setPlayer (i : Nat) (garbage : PlayerTypeId)
  /-- `Connection::disconnect`, for the connection in a slot. -/
  | disconnect (i : Nat)
  /-- `set_player_type` and `set_uuid` with the values of a reply. -/
  | setIdentity (player : Nat) (request : LoginRequest) (reply : LoginReply)
  /-- `transit_state`. -/
  | transit (player : Nat) (cause : Cause)
  /-- `World::disconnect_player`. -/
  | disconnectPlayer (players : List Nat)
  deriving DecidableEq, Repr

def kickCalls (s : Server) (i : Nat) (reason : ErrorCode) (accepted : Bool) :
    List (Server × Call) :=
  match s.connection i with
  | none => []
  | some conn => [(s.send conn (.disconnectPlayer reason) accepted, .disconnect i)]

def packetCalls (s : Server) (i : Nat) (conn : Connection) (packet : ClientPacket)
    (garbage : PlayerTypeId) : List (Server × Call) :=
  match packet with
  | .handshake .. => [(s, .setPlayer i garbage)]
  | .extEntry extensionName version =>
      match conn.player with
      | none => []
      | some p =>
          let s := s.countExtEntry p extensionName version
          if (s.players p).pendingExtensionCount = 0 then [(s, .transit p .extEntry)] else []
  | _ => []

def responseCalls (s : Server) (request : LoginRequest) (reply : LoginReply) (accepted : Bool) :
    List (Server × Call) :=
  let s := s.record (.responded request reply)
  if reply.errorCode = ErrorCode.success then
    let identified := s.identify request reply
    (match (s.tryAcquireConnection request.connectionKey).bind Connection.player with
      | none => []
      | some p => [(s, .setIdentity p request reply)]) ++
    (match identified.previousConnection request reply with
      | none => []
      | some i => identified.kickCalls i ErrorCode.playerAlreadyLogin accepted)
  else
    match s.tryAcquireConnection request.connectionKey with
    | some conn =>
        if reply.errorCode = ErrorCode.playerNotExist then
          match conn.player with
          | some p => [(s, .transit p (.guest request reply))]
          | none => []
        else s.kickCalls request.connectionKey.index ErrorCode.playerLoginFail accepted
    | none => []

def loadCalls (s : Server) (load : GamedataLoad) (result : LoadResult) (accepted : Bool) :
    List (Server × Call) :=
  match s.tryAcquireConnection load.request.connectionKey with
  | none => []
  | some conn =>
      if result = .error then
        s.kickCalls load.request.connectionKey.index ErrorCode.playerLoginFail accepted
      else
        match conn.player with
        | some p => [(s, .transit p (.loaded load result))]
        | none => []

/-- The callbacks of `sendToPlayers`. -/
def callbackCalls (packet : ServerPacket) (successed : Server → Nat → Server) (cause : Cause) :
    List Nat → Outcomes → Server → List (Server × Call)
  | [], _, _ => []
  | p :: ps, o, s =>
      (match s.tryAcquireOf p with
        | none => []
        | some conn => if o 0 then [(s.send conn packet true, .transit p cause)] else []) ++
      callbackCalls packet successed cause ps o.tail (s.sendToPlayer p packet (o 0) successed)

def taskCalls (s : Server) (task : WorldTaskId) (o o' : Outcomes) : List (Server × Call) :=
  match task with
  | .spawnPlayer =>
      let records := fun ps : List Nat => ps.map fun p => spawnRecord (s.players p)
      let waiting := s.world.spawnPlayerTask.target
      callbackCalls (.spawnPlayers (records (s.selectPlayersFrom .spawned) ++ records waiting))
        (fun s p => s.transitState p .spawned) .spawn waiting o s
  | .syncBlock =>
      let waiting := s.world.syncBlockTask.target
      let s := s.syncBlockHistory s.world.syncBlockTask.blockHistory.output o
      callbackCalls (.levelData s.world.blockMapping)
        (fun s p => s.transitState p .levelInitialized) .level waiting o' s
  | .disconnectPlayer => [(s, .disconnectPlayer s.world.disconnectPlayerTask.target)]
  | _ => []

/-- The calls an event makes, each in the state in which it is made. -/
def calls (s : Server) : Event → List (Server × Call)
  | .accept _ => []
  | .cleanup i now =>
      match s.connection i with
      | none => []
      | some conn =>
          if (s.connectionEnv.table i).used ∧ !conn.isSafeDelete now ∧ conn.isExpired now then
            [(s, .disconnect i)]
          else []
  | .receive i packet now _ garbage =>
      match s.connection i with
      | none => []
      | some conn =>
          if conn.isOnline then
            (s.interact i now).packetCalls i (conn.updateLastInteractionTime now) packet
              garbage
          else []
  | .kick i reason _ accepted => s.kickCalls i reason accepted
  | .receiveError i _ => [(s, .disconnect i)]
  | .tickPlayer i _ _ =>
      match s.connection i, s.connectionEnv.playerOf i with
      | some _, some p =>
          if (s.players p).state = .disconnected then [(s, .disconnect i)] else []
      | _, _ => []
  | .schedule .. => []
  | .runTask task o o' => s.taskCalls task o o'
  | .response p reply _ accepted =>
      match s.requests.find? (·.player = p) with
      | none => []
      | some request =>
          { s with requests := s.requests.erase request }.responseCalls request reply accepted
  | .load p result _ accepted =>
      match s.loads.find? (·.request.player = p) with
      | none => []
      | some load => { s with loads := s.loads.erase load }.loadCalls load result accepted

/-- Every call of an event is made in a state that meets `C`. -/
def CallsMeet (C : Server → Call → Prop) (s : Server) (e : Event) : Prop :=
  ∀ c ∈ s.calls e, C c.1 c.2

instance (C : Server → Call → Prop) [∀ s c, Decidable (C s c)] (s : Server) (e : Event) :
    Decidable (s.CallsMeet C e) :=
  inferInstanceAs (Decidable (∀ c ∈ s.calls e, C c.1 c.2))

end Server

/-- A client connects to slot 0, sends its handshake and is told to be a guest. -/
def guestLogin (now : Nat) : List Event :=
  [.accept now, .receive 0 (.handshake [97] [] 0) now true 0,
    .response 0 { errorCode := ErrorCode.playerNotExist } now true]

/-- A guest plays, its socket closes, and the world tears it down: the ticks spawn it, queue it for
the disconnect task, and set its connection offline. -/
def guestSession : List Event :=
  guestLogin 0 ++ [.tickPlayer 0 0 fun _ => true, .schedule .syncBlock 1 true] ++
  [.runTask .syncBlock (fun _ => true) fun _ => true, .tickPlayer 0 2 fun _ => true] ++
  [.schedule .spawnPlayer 3 true, .runTask .spawnPlayer (fun _ => true) fun _ => true] ++
  [.receiveError 0 4, .tickPlayer 0 5 fun _ => true, .schedule .disconnectPlayer 6 true] ++
  [.runTask .disconnectPlayer (fun _ => true) fun _ => true, .tickPlayer 0 7 fun _ => true]

/-- A client connects to slot 0, sends its handshake and is logged in as a user that has no document
yet. -/
def userLogin (now : Nat) : List Event :=
  [.accept now, .receive 0 (.handshake [97] [] 0) now true 0,
    .response 0 { errorCode := ErrorCode.success, playerType := 2, playerUuid := [7] } now true,
    .load 0 .documentNotFound now true]

end Mmocraft
