/-
# Mmocraft.Net.ServerStream -- the packets that go to a client

What the server writes into the stream of a client: the packets that are pushed one by one, the answers to
pings, the level, and the records of several players or blocks in one piece of data.  Each output is a
sequence of packets, and the size of every packet goes with the id it starts with.

That is all a client has to find the packets by: it reads an id, looks up the size, and goes on behind it. So
`flatten_packets` and `sized_packets` together say that the outputs can be cut at the right places, whatever
is in them, and they are what the receiving side of `Net.SentStream` rests on. The sizes are those of the
serializers; the table of the client is not under the control of the server.
-/
import Mmocraft.Game.BlockHistory
import Mmocraft.Lib.StreamCursor
import Mmocraft.Net.LevelDataChunk

namespace Mmocraft.Net

open Mmocraft.Lib Mmocraft.Game PacketStructure

/-! ## Spawn and despawn records -/

def PacketSpawnPlayer.packetSize : Nat := 74

def PacketDespawnPlayer.packetSize : Nat := 2

/-- The turn of one player in `serialize_position_packet`. -/
def SpawnRecord.serialize (r : SpawnRecord) : List UInt8 :=
  writeByte PacketTypeId.spawnPlayer ++ (writeByte r.gameId ++ (writeString r.username ++
    (writeShort r.position.x ++ (writeShort r.position.y ++ (writeShort r.position.z ++
      (writeByte ⟨r.position.yaw⟩ ++ writeByte ⟨r.position.pitch⟩))))))

/-- `PacketSpawnPlayer::serialize`: what it writes. -/
def PacketSpawnPlayer.serialize (oldPlayers newPlayers : List Player) : List UInt8 :=
  oldPlayers.flatMap (fun player => (spawnRecord player).serialize) ++
    newPlayers.flatMap (fun player => (spawnRecord player).serialize)

/-- The turn of one player in `PacketDespawnPlayer::serialize`. -/
def despawnRecord (player : Player) : List UInt8 :=
  writeByte PacketTypeId.despawnPlayer ++ writeByte player.gameId

/-- `PacketDespawnPlayer::serialize`: what it writes. -/
def PacketDespawnPlayer.serialize (players : List Player) : List UInt8 := players.flatMap despawnRecord

/-! ## The level as packets -/

namespace PacketLevelDataChunk

/-- The records of `recordsFrom`, one by one. -/
def chunkPackets (mem : List UInt8) : Nat → List (List UInt8) → List (List UInt8)
  | _, [] => []
  | pos, piece :: pieces =>
      chunkRecord piece (Memory.read mem (pos + 3 + piece.length) (chunkSize - piece.length)) ::
        chunkPackets mem (pos + packetSize) pieces

/-- The level data are their records, one after the other. -/
theorem flatten_chunkPackets (mem : List UInt8) (pos : Nat) (pieces : List (List UInt8)) :
    (chunkPackets mem pos pieces).flatten = recordsFrom mem pos pieces := by
  induction pieces generalizing pos with
  | nil => rfl
  | cons piece pieces ih => rw [chunkPackets, List.flatten_cons, ih, recordsFrom]

/-- In a memory that has room for them, all records have the size of a packet. -/
theorem length_of_mem_chunkPackets {mem : List UInt8} {pos : Nat} {pieces : List (List UInt8)}
    (hsize : ∀ piece ∈ pieces, piece.length ≤ chunkSize)
    (hroom : pos + pieces.length * packetSize ≤ mem.length) :
    ∀ p ∈ chunkPackets mem pos pieces, p.head? = some PacketTypeId.levelDatachunk ∧
      p.length = packetSize := by
  induction pieces generalizing pos with
  | nil => intro p hp; exact nomatch hp
  | cons piece pieces ih =>
      intro p hp
      rw [List.length_cons, Nat.succ_mul] at hroom
      rcases List.mem_cons.mp hp with rfl | hp
      · have hpiece := hsize piece List.mem_cons_self
        have hpadding : (Memory.read mem (pos + 3 + piece.length) (chunkSize - piece.length)).length =
            chunkSize - piece.length := by
          apply Memory.length_read
          simp only [chunkSize, packetSize] at *
          omega
        refine ⟨rfl, ?_⟩
        rw [length_chunkRecord, hpadding]
        simp only [chunkSize, packetSize] at *
        omega
      · exact ih (fun q hq => hsize q (List.mem_cons_of_mem piece hq)) (by omega) p hp

/-- The packets of the whole level. -/
def packets (p : PacketLevelDataChunk) (garbage : Nat → UInt8) : List (List UInt8) :=
  chunkPackets (p.allocation garbage) 0 (chunksOf chunkSize p.compressor.pending) ++ [p.finalize]

theorem Built.flatten_packets {p : PacketLevelDataChunk} (h : p.Built) (garbage : Nat → UInt8) :
    (p.packets garbage).flatten = p.serialized garbage := by
  rw [packets, List.flatten_append, flatten_chunkPackets, List.flatten_singleton,
    (h.serialize_spec garbage).2.2]

end PacketLevelDataChunk

/-! ## Outputs

An output is what one call hands to a connection: one packet, or several in one buffer. It is kept as the
list of its packets, so that the bytes are a function of it.
-/

/-- What one send of the server adds to the stream of a client.  A level comes from a constructed
`PacketLevelDataChunk`; the three bytes behind the id of a two-way ping are those that were received. -/
inductive ServerOutput where
  | packet (p : SerializablePacket)
  | ping
  | twoWayPing (data : Vector UInt8 3)
  | levelData (p : PacketLevelDataChunk) (built : p.Built) (garbage : Nat → UInt8)
  | blockHistory (records : List BlockHistoryRecord)
  | chatHistory (packets : List PacketChatMessage)
  | setPlayerPosition (players : List Player)
  | spawnPlayer (oldPlayers newPlayers : List Player)
  | despawnPlayer (players : List Player)

namespace ServerOutput

/-- The bytes of the output. -/
def bytes : ServerOutput → List UInt8
  | packet p => p.serialized
  | ping => [PacketTypeId.ping]
  | twoWayPing data => PacketTypeId.twoWayPing :: data.toList
  | levelData p _ garbage => p.serialized garbage
  | blockHistory records => records.flatMap BlockHistoryRecord.packed
  | chatHistory packets => packets.flatMap PacketChatMessage.serialized
  | setPlayerPosition players => PacketSetPlayerPosition.serialize players
  | spawnPlayer oldPlayers newPlayers => PacketSpawnPlayer.serialize oldPlayers newPlayers
  | despawnPlayer players => PacketDespawnPlayer.serialize players

/-- The packets of the output. -/
def packets : ServerOutput → List (List UInt8)
  | packet (.extEntry p) => p.order.1.map PacketExtEntry.serializedEntry
  | packet p => [p.serialized]
  | ping => [[PacketTypeId.ping]]
  | twoWayPing data => [PacketTypeId.twoWayPing :: data.toList]
  | levelData p _ garbage => p.packets garbage
  | blockHistory records => records.map BlockHistoryRecord.packed
  | chatHistory packets => packets.map PacketChatMessage.serialized
  | setPlayerPosition players => (players.filterMap positionRecord).map PositionRecord.serialize
  | spawnPlayer oldPlayers newPlayers =>
      (oldPlayers ++ newPlayers).map fun player => (spawnRecord player).serialize
  | despawnPlayer players => players.map despawnRecord

/-- **An output is the sequence of its packets.** -/
theorem flatten_packets (o : ServerOutput) : o.packets.flatten = o.bytes := by
  cases o with
  | packet p => cases p <;> simp [packets, bytes, SerializablePacket.serialized, PacketExtEntry.serialized,
      List.flatMap_def]
  | ping => rfl
  | twoWayPing data => exact List.append_nil _
  | levelData p built garbage => exact built.flatten_packets garbage
  | blockHistory records => exact List.flatMap_def.symm
  | chatHistory packets => exact List.flatMap_def.symm
  | setPlayerPosition players => rw [packets, bytes, serialize_eq, List.flatMap_def]
  | spawnPlayer oldPlayers newPlayers =>
      rw [packets, bytes, PacketSpawnPlayer.serialize, List.map_append, List.flatten_append,
        List.flatMap_def, List.flatMap_def]
  | despawnPlayer players => exact List.flatMap_def.symm

end ServerOutput

/-! ## The sizes of the packets

A client knows the size of a packet by its id. The table has the sizes for the ids that the server writes;
that the outputs agree with it is what makes the stream readable.
-/

/-- The size of the packets that start with an id, for the ids the server writes. -/
def serverPacketSize (packetId : UInt8) : Option Nat :=
  if packetId = PacketTypeId.handshake then some PacketHandshake.packetSize
  else if packetId = PacketTypeId.ping then some PacketPing.packetSize
  else if packetId = PacketTypeId.levelInitialize then some PacketLevelInit.packetSize
  else if packetId = PacketTypeId.levelDatachunk then some PacketLevelDataChunk.packetSize
  else if packetId = PacketTypeId.levelFinalize then some 7
  else if packetId = PacketTypeId.setBlockClient then some PacketSetBlockClient.packetSize
  else if packetId = PacketTypeId.setBlockServer then some PacketSetBlockServer.packetSize
  else if packetId = PacketTypeId.spawnPlayer then some PacketSpawnPlayer.packetSize
  else if packetId = PacketTypeId.setPlayerPosition then some PacketSetPlayerPosition.packetSize
  else if packetId = PacketTypeId.updatePlayerPosition then some 7
  else if packetId = PacketTypeId.updatePlayerCoordinate then some 5
  else if packetId = PacketTypeId.updatePlayerOrientation then some 4
  else if packetId = PacketTypeId.despawnPlayer then some PacketDespawnPlayer.packetSize
  else if packetId = PacketTypeId.chatMessage then some PacketChatMessage.packetSize
  else if packetId = PacketTypeId.disconnectPlayer then some PacketDisconnectPlayer.packetSize
  else if packetId = PacketTypeId.extInfo then some PacketExtInfo.packetSize
  else if packetId = PacketTypeId.extEntry then some PacketExtEntry.packetSize
  else if packetId = PacketTypeId.twoWayPing then some PacketTwoWayPing.packetSize
  else if packetId = PacketTypeId.setPlayerid then some PacketSetPlayerID.packetSize
  else if packetId = PacketTypeId.extMessage then some PacketExtMessage.packetSize
  else if packetId = PacketTypeId.extPing then some PacketExtPing.packetSize
  else none

/-- The packet has the size that goes with its id. -/
def Sized (p : List UInt8) : Prop :=
  ∃ packetId t, p = packetId :: t ∧ serverPacketSize packetId = some p.length

/-- A packet of the size that goes with its first byte. -/
theorem Sized.of_head {p : List UInt8} {packetId : UInt8} {n : Nat} (hhead : p.head? = some packetId)
    (hlength : p.length = n) (hsize : serverPacketSize packetId = some n) : Sized p := by
  cases p with
  | nil => exact nomatch hhead
  | cons id t =>
      obtain rfl := Option.some.inj hhead
      exact ⟨id, t, rfl, by rw [hsize, hlength]⟩

theorem SpawnRecord.length_serialize (r : SpawnRecord) :
    r.serialize.length = PacketSpawnPlayer.packetSize := by
  simp [serialize, PacketSpawnPlayer.packetSize, maxStringLength]

theorem PositionRecord.sized_serialize (r : PositionRecord) : Sized r.serialize := by
  cases r with
  | setPlayerPosition id p => exact .of_head rfl (by simp [serialize, PacketSetPlayerPosition.packetSize]) rfl
  | updatePlayerPosition id x y z yaw pitch => exact .of_head rfl rfl rfl
  | updatePlayerCoordinate id x y z => exact .of_head rfl rfl rfl
  | updatePlayerOrientation id yaw pitch => exact .of_head rfl rfl rfl

/-- Every packet that is pushed on its own. -/
theorem SerializablePacket.sized_packets (p : SerializablePacket) :
    ∀ q ∈ (ServerOutput.packet p).packets, Sized q := by
  intro q hq
  cases p with
  | extEntry p =>
      obtain ⟨entry, -, rfl⟩ := List.mem_map.mp hq
      exact .of_head rfl (PacketExtEntry.length_serializedEntry entry) rfl
  | handshake p => rw [List.mem_singleton.mp hq]; exact .of_head rfl p.length_serialized rfl
  | levelInit p => rw [List.mem_singleton.mp hq]; exact .of_head rfl p.length_serialized rfl
  | setBlockClient p => rw [List.mem_singleton.mp hq]; exact .of_head rfl p.length_serialized rfl
  | setBlockServer p => rw [List.mem_singleton.mp hq]; exact .of_head rfl p.length_serialized rfl
  | chatMessage p => rw [List.mem_singleton.mp hq]; exact .of_head rfl p.length_serialized rfl
  | disconnectPlayer p => rw [List.mem_singleton.mp hq]; exact .of_head rfl p.length_serialized rfl
  | setPlayerID p => rw [List.mem_singleton.mp hq]; exact .of_head rfl p.length_serialized rfl
  | extInfo p => rw [List.mem_singleton.mp hq]; exact .of_head rfl p.length_serialized rfl
  | extMessage p => rw [List.mem_singleton.mp hq]; exact .of_head rfl p.length_serialized rfl
  | extPing p => rw [List.mem_singleton.mp hq]; exact .of_head rfl p.length_serialized rfl

/-- **Every packet of every output** has the size that goes with its id. -/
theorem ServerOutput.sized_packets (o : ServerOutput) : ∀ p ∈ o.packets, Sized p := by
  intro p hp
  cases o with
  | packet q => exact q.sized_packets p hp
  | ping => rw [List.mem_singleton.mp hp]; exact .of_head rfl rfl rfl
  | twoWayPing data =>
      rw [List.mem_singleton.mp hp]
      exact .of_head rfl (by rw [List.length_cons, Vector.length_toList, PacketTwoWayPing.packetSize]) rfl
  | levelData q built garbage =>
      rcases List.mem_append.mp hp with hp | hp
      · have hroom : 0 + (chunksOf PacketLevelDataChunk.chunkSize q.compressor.pending).length *
            PacketLevelDataChunk.packetSize ≤ (q.allocation garbage).length := by
          have hrecords := built.records_le
          rw [length_chunksOf, PacketLevelDataChunk.length_allocation, Nat.zero_add]
          exact Nat.le_trans (Nat.le_add_right _ _) hrecords
        obtain ⟨hhead, hlength⟩ := PacketLevelDataChunk.length_of_mem_chunkPackets
          (fun piece hpiece => length_le_of_mem_chunksOf hpiece) hroom p hp
        exact .of_head hhead hlength rfl
      · rw [List.mem_singleton.mp hp]
        exact .of_head rfl q.length_finalize rfl
  | blockHistory records =>
      obtain ⟨r, -, rfl⟩ := List.mem_map.mp hp
      exact .of_head rfl r.length_packed rfl
  | chatHistory packets =>
      obtain ⟨q, -, rfl⟩ := List.mem_map.mp hp
      exact .of_head rfl q.length_serialized rfl
  | setPlayerPosition players =>
      obtain ⟨r, -, rfl⟩ := List.mem_map.mp hp
      exact r.sized_serialize
  | spawnPlayer oldPlayers newPlayers =>
      obtain ⟨player, -, rfl⟩ := List.mem_map.mp hp
      exact .of_head rfl (spawnRecord player).length_serialize rfl
  | despawnPlayer players =>
      obtain ⟨player, -, rfl⟩ := List.mem_map.mp hp
      exact .of_head rfl rfl rfl

end Mmocraft.Net
