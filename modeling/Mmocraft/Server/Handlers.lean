/-
# Mmocraft.Server.Handlers -- packet and message handlers

`GameServer::handle_packet` with its handlers, and `handle_handshake_response_message` in two parts:
up to the suspension in `get_document`, and from its resumption on.

A packet is parsed already, and whether a connection accepts what it is sent is an outcome given with the
event. The order in which a handler does things is that of the source, since the conditions on calls speak of
the states in between.
-/
import Mmocraft.Server.World

namespace Mmocraft

open Mmocraft.Lib Mmocraft.Game Mmocraft.Net

/-- The packets a client can send, parsed. -/
inductive ClientPacket where
  | handshake (username password : List UInt8) (cpeMagic : UInt8)
  | ping
  | setBlock (x y z : BitVec 16) (mode : UInt8) (blockId : UInt8)
  | setPlayerPosition (position : PlayerPosition)
  | chatMessage (data : List UInt8) (isCommand : Bool)
  | extInfo (extensionCount : BitVec 16)
  | extEntry (extensionName : List UInt8) (version : BitVec 32)
  | twoWayPing (data : List UInt8)
  | extPing (requestTime : BitVec 64)
  deriving DecidableEq, Repr

namespace ClientPacket

/-- `PacketHandshake::has_cpe_support`. -/
def cpeMagicValue : UInt8 := 0x42

/-- `block_creation_mode::set`. -/
def blockCreationModeSet : UInt8 := 1

/-- `block_id::air`. -/
def blockIdAir : UInt8 := 0

end ClientPacket

namespace Server

open ClientPacket

/-! ## Packet handlers -/

/-- `handle_handshake_packet`; `garbage` is the content of the uninitialized `_player_type`. -/
def handleHandshakePacket (s : Server) (i : Nat) (conn : Connection) (username password : List UInt8)
    (cpeMagic : UInt8) (garbage : PlayerTypeId) : Server :=
  let p := s.numOfPlayers
  let s := s.setPlayer i conn (Player.new conn.connectionKey username garbage)
  let s :=
    if cpeMagic = cpeMagicValue then s.prepareStateTransition p .exHandshaking .exHandshaked
    else s.prepareStateTransition p .handshaking .handshaked
  -- forward the packet to the login server
  { s with requests := s.requests ++
      [{ player := p, connectionKey := conn.connectionKey, username := username
         password := password }] }

/-- `handle_set_block_packet`. -/
def handleSetBlockPacket (s : Server) (conn : Connection) (x y z : BitVec 16) (mode blockId : UInt8)
    (accepted : Bool) : Server :=
  let id := if mode = blockCreationModeSet then blockId else blockIdAir
  let r := s.world.syncBlockTask.blockHistory.push blockHistoryCapacity (fun _ => historyDataUnitSize)
    { x := byteswap16 x, y := byteswap16 y, z := byteswap16 z, blockId := id }
  if r.2 then
    s.updateSyncBlockTask fun task => { task with blockHistory := r.1 }
  else
    let reverted := if mode = blockCreationModeSet then blockIdAir else blockId
    s.send conn (.setBlock { x := byteswap16 x, y := byteswap16 y, z := byteswap16 z
                             blockId := reverted }) accepted

/-- `handle_player_position_packet`. -/
def handlePlayerPositionPacket (s : Server) (conn : Connection) (position : PlayerPosition) :
    Server :=
  match conn.player with
  | none => s
  | some p => s.updatePlayer p (·.setPosition position)

/-- `handle_chat_message_packet`, without the message to the chat server. -/
def handleChatMessagePacket (s : Server) (data : List UInt8) (isCommand : Bool) : Server :=
  if isCommand then s
  else
    let history := (s.world.commonChatTransferTask.commonChatHistory.push commonChatHistoryCapacity
      List.length data).1
    s.updateCommonChatTransferTask fun task => { task with commonChatHistory := history }

/-- `handle_ext_info_packet`. -/
def handleExtInfoPacket (s : Server) (conn : Connection) (extensionCount : BitVec 16) : Server :=
  match conn.player with
  | none => s
  | some p => s.updatePlayer p (·.setExtensionCount extensionCount)

/-- The data part of `handle_ext_entry_packet`: register the extension if it is available, decrease
the pending count. -/
def countExtEntry (s : Server) (p : Nat) (extensionName : List UInt8) (version : BitVec 32) :
    Server :=
  s.updatePlayer p fun player =>
    (match availableCpe extensionName version with
      | some ext => player.registerExtension ext
      | none => player).decreasePendingExtensionCount

/-- `handle_ext_entry_packet`. -/
def handleExtEntryPacket (s : Server) (conn : Connection) (extensionName : List UInt8)
    (version : BitVec 32) : Server :=
  match conn.player with
  | none => s
  | some p =>
      let s := s.countExtEntry p extensionName version
      if (s.players p).pendingExtensionCount = 0 then s.transitState p .extensionSynced else s

/-- `handle_packet`, for an online connection in slot `i`. -/
def handlePacket (s : Server) (i : Nat) (conn : Connection) (packet : ClientPacket) (accepted : Bool)
    (garbage : PlayerTypeId) : Server :=
  match packet with
  | .handshake username password cpeMagic =>
      s.handleHandshakePacket i conn username password cpeMagic garbage
  | .ping => s.send conn .ping accepted
  | .setBlock x y z mode blockId => s.handleSetBlockPacket conn x y z mode blockId accepted
  | .setPlayerPosition position => s.handlePlayerPositionPacket conn position
  | .chatMessage data isCommand => s.handleChatMessagePacket data isCommand
  | .extInfo extensionCount => s.handleExtInfoPacket conn extensionCount
  | .extEntry extensionName version => s.handleExtEntryPacket conn extensionName version
  | .twoWayPing data => s.send conn (.twoWayPing data) accepted
  | .extPing requestTime => s.send conn (.extPing requestTime) accepted

/-- `Connection::handle_io_event` for one packet of a receive. -/
def receivePacket (s : Server) (i : Nat) (packet : ClientPacket) (now : Nat) (accepted : Bool)
    (garbage : PlayerTypeId) : Server :=
  match s.connection i with
  | none => s
  | some conn =>
      if conn.isOnline then
        (s.interact i now).handlePacket i (conn.updateLastInteractionTime now) packet accepted garbage
      else s

/-! ## The reply of the login server -/

/-- The reply names no player: the login becomes a guest. -/
def admitGuest (s : Server) (p : Nat) (request : LoginRequest) (reply : LoginReply) : Server :=
  ((s.updatePlayer p (·.setPlayerType PlayerTypeId.guest)).record
    (.authenticated p request reply)).transitState p

/-- `set_player_type` and `set_uuid` with the values of a successful reply. -/
def setIdentity (s : Server) (p : Nat) (reply : LoginReply) : Server :=
  s.updatePlayer p fun player =>
    (player.setPlayerType (int32 reply.playerType)).setUuid reply.playerUuid

/-- The successful part of `handle_handshake_response_message`, up to the kick: the identity of the
player in the connection, if the connection can still be acquired. -/
def identify (s : Server) (request : LoginRequest) (reply : LoginReply) : Server :=
  match (s.tryAcquireConnection request.connectionKey).bind Connection.player with
  | none => s
  | some p => s.setIdentity p reply

/-- The slot whose connection a successful reply disconnects: the previous connection of the player,
if both connections can be acquired. -/
def previousConnection (s : Server) (request : LoginRequest) (reply : LoginReply) : Option Nat :=
  match s.tryAcquireConnection request.connectionKey,
      s.tryAcquireConnection reply.prevConnectionKey with
  | some _, some _ => some reply.prevConnectionKey.index
  | _, _ => none

/-- Disconnect the already logged in player. -/
def kickPrevious (s : Server) (request : LoginRequest) (reply : LoginReply) (now : Nat)
    (accepted : Bool) : Server :=
  match s.previousConnection request reply with
  | none => s
  | some i => s.kick i ErrorCode.playerAlreadyLogin now accepted

/-- `handle_handshake_response_message` up to its suspension or its end.  The connection of a request
has a player from the handshake on. -/
def handleHandshakeResponse (s : Server) (request : LoginRequest) (reply : LoginReply) (now : Nat)
    (accepted : Bool) : Server :=
  let s := s.record (.responded request reply)
  if reply.errorCode = ErrorCode.success then
    let s := (s.identify request reply).kickPrevious request reply now accepted
    { s with loads := s.loads ++ [{ request := request, reply := reply }] }
  else
    match s.tryAcquireConnection request.connectionKey with
    | some conn =>
        if reply.errorCode = ErrorCode.playerNotExist then
          match conn.player with
          | some p => s.admitGuest p request reply
          | none => s
        else s.kick request.connectionKey.index ErrorCode.playerLoginFail now accepted
    | none => { s with loads := s.loads ++ [{ request := request, reply := reply }] }

/-- The successful end of a gamedata load: the document, if there is one, becomes the gamedata, and
the player moves on. -/
def admitLoaded (s : Server) (p : Nat) (load : GamedataLoad) (result : LoadResult) : Server :=
  let s := match result with
    | .document gamedata => s.updatePlayer p (·.setGamedata gamedata)
    | _ => s
  ((s.record (.loaded p load result)).record
    (.authenticated p load.request load.reply)).transitState p

/-- `handle_handshake_response_message` from its resumption on. -/
def resumeHandshakeResponse (s : Server) (load : GamedataLoad) (result : LoadResult) (now : Nat)
    (accepted : Bool) : Server :=
  match s.tryAcquireConnection load.request.connectionKey with
  | none => s
  | some conn =>
      if result = .error then
        s.kick load.request.connectionKey.index ErrorCode.playerLoginFail now accepted
      else
        match conn.player with
        | some p => s.admitLoaded p load result
        | none => s

end Server

end Mmocraft
