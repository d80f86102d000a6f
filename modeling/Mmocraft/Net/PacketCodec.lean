/-
# Mmocraft.Net.PacketCodec -- packets and their bytes

The packets that are both parsed and serialized: `PacketHandshake`, `PacketSetBlockClient`,
`PacketChatMessage` and `PacketExtPing`.  Parsing reads the fields one after the other behind the packet
id, serializing writes them to a local buffer that is pushed to the send event.  The two are inverse to
each other: a packet whose strings fit their fields is read back, and a buffer of the size that
`parse_packet` announces is written back.

`PacketSetPlayerPosition` is parsed the same way, and its absolute record is such a packet.
-/
import Mmocraft.Io.SendEvent
import Mmocraft.Net.PositionStream

namespace Mmocraft.Net

open Mmocraft.Lib Mmocraft.Game Mmocraft.Io PacketStructure

/-! ## Round trips -/

/-- A packet is parsed from the buffer that it serializes, and the other way round; `serialized` is the
local buffer of `serialize`. -/
structure RoundTrips {P : Type} (packetId : UInt8) (parse : List UInt8 → Option P)
    (serialized : P → List UInt8) (serialize : P → IoSendEventData → IoSendEventData × Bool)
    (Valid : P → Prop) : Prop where
  length_serialized : ∀ p, (serialized p).length = (parsePacket packetId).2
  head_serialized : ∀ p, (serialized p).head? = some packetId
  appends : ∀ p d, d.WellFormed → (serialize p d).2 = true →
    (serialize p d).1.contents = d.contents ++ serialized p
  parse_serialized : ∀ p, Valid p → parse (serialized p) = some p
  serialized_parse : ∀ buf : List UInt8, buf.length = (parsePacket packetId).2 →
    buf.head? = some packetId → ∃ p, parse buf = some p ∧ serialized p = buf

/-- A buffer behind its first byte. -/
theorem exists_of_head? {buf : List UInt8} {b : UInt8} {n : Nat} (hlength : buf.length = n + 1)
    (hhead : buf.head? = some b) : ∃ rest, buf = writeByte b ++ rest ∧ rest.length = n := by
  cases buf with
  | nil => exact nomatch hhead
  | cons c rest =>
      obtain rfl := Option.some.inj hhead
      exact ⟨rest, rfl, Nat.succ.inj hlength⟩

/-- Pushing a packet appends its buffer. -/
theorem contents_push_packet {d : IoSendEventData} (hd : d.WellFormed) {buf : List UInt8} {n : Nat}
    (hlength : buf.length = n) (hn : n < 2 ^ 31) (hok : (d.push buf).2 = true) :
    (d.push buf).1.contents = d.contents ++ buf :=
  IoSendEventData.contents_push hd ⟨buf, by omega⟩ hok

/-! ## PacketHandshake -/

/-- `PacketHandshake`.  `username` and `server_name`, `password` and `motd`, `cpe_magic` and `user_type`
share their places; the `id` of every value is `packet_id`. -/
structure PacketHandshake where
  protocolVersion : UInt8
  username : List UInt8
  password : List UInt8
  cpeMagic : UInt8
  deriving DecidableEq, Repr

namespace PacketHandshake

/-- The constructor from data, which calls `parse`. -/
def parse (data : List UInt8) : Option PacketHandshake := do
  let (_, buf) ← readByte data
  let (protocolVersion, buf) ← readByte buf
  let (username, buf) ← readString buf
  let (password, buf) ← readString buf
  let (cpeMagic, _) ← readByte buf
  return { protocolVersion := protocolVersion, username := username, password := password
           cpeMagic := cpeMagic }

/-- The buffer of `serialize`. -/
def serialized (p : PacketHandshake) : List UInt8 :=
  writeByte PacketTypeId.handshake ++ (writeByte p.protocolVersion ++ (writeString p.username ++
    (writeString p.password ++ writeByte p.cpeMagic)))

def serialize (p : PacketHandshake) (eventData : IoSendEventData) : IoSendEventData × Bool :=
  eventData.push p.serialized

/-- The strings fit their fields. -/
def Valid (p : PacketHandshake) : Prop := IsFieldString p.username ∧ IsFieldString p.password

theorem length_serialized (p : PacketHandshake) : p.serialized.length = packetSize := by
  simp [serialized, packetSize, maxStringLength]

theorem parse_serialized {p : PacketHandshake} (hp : p.Valid) : parse p.serialized = some p := by
  obtain ⟨hname, hpassword⟩ := hp
  simp [parse, serialized, readString_writeString hname, readString_writeString hpassword]

theorem roundTrips : RoundTrips PacketTypeId.handshake parse serialized serialize Valid where
  length_serialized := length_serialized
  head_serialized _ := rfl
  appends p _ hd hok := contents_push_packet hd p.length_serialized (by decide) hok
  parse_serialized _ hp := parse_serialized hp
  serialized_parse buf hlength hhead := by
    obtain ⟨buf₀, rfl, h₀⟩ := exists_of_head? (n := 130) hlength hhead
    obtain ⟨version, buf₁, -, rfl, h₁⟩ := byte_inverts.exists_write (n := 129) h₀
    obtain ⟨username, buf₂, hname, rfl, h₂⟩ := string_inverts.exists_write (n := 65) h₁
    obtain ⟨password, buf₃, hpassword, rfl, h₃⟩ := string_inverts.exists_write (n := 1) h₂
    obtain ⟨magic, -, rfl⟩ := byte_inverts.exists_write_nil h₃
    have hparse : parse (serialized ⟨version, username, password, magic⟩) = _ :=
      parse_serialized ⟨hname, hpassword⟩
    exact ⟨_, hparse, rfl⟩

end PacketHandshake

/-! ## PacketSetBlockClient -/

structure PacketSetBlockClient where
  x : BitVec 16
  y : BitVec 16
  z : BitVec 16
  mode : UInt8
  blockId : UInt8
  deriving DecidableEq, Repr

namespace PacketSetBlockClient

/-- The constructor from data, which calls `parse`. -/
def parse (data : List UInt8) : Option PacketSetBlockClient := do
  let (_, buf) ← readByte data
  let (x, buf) ← readShort buf
  let (y, buf) ← readShort buf
  let (z, buf) ← readShort buf
  let (mode, buf) ← readByte buf
  let (blockId, _) ← readByte buf
  return { x := x, y := y, z := z, mode := mode, blockId := blockId }

/-- The buffer of `serialize`. -/
def serialized (p : PacketSetBlockClient) : List UInt8 :=
  writeByte PacketTypeId.setBlockClient ++ (writeShort p.x ++ (writeShort p.y ++ (writeShort p.z ++
    (writeByte p.mode ++ writeByte p.blockId))))

def serialize (p : PacketSetBlockClient) (eventData : IoSendEventData) : IoSendEventData × Bool :=
  eventData.push p.serialized

theorem length_serialized (p : PacketSetBlockClient) : p.serialized.length = packetSize := by
  simp [serialized, packetSize]

theorem parse_serialized (p : PacketSetBlockClient) : parse p.serialized = some p := by
  simp [parse, serialized]

theorem roundTrips : RoundTrips PacketTypeId.setBlockClient parse serialized serialize
    (fun _ => True) where
  length_serialized := length_serialized
  head_serialized _ := rfl
  appends p _ hd hok := contents_push_packet hd p.length_serialized (by decide) hok
  parse_serialized p _ := parse_serialized p
  serialized_parse buf hlength hhead := by
    obtain ⟨buf₀, rfl, h₀⟩ := exists_of_head? (n := 8) hlength hhead
    obtain ⟨x, buf₁, -, rfl, h₁⟩ := short_inverts.exists_write (n := 6) h₀
    obtain ⟨y, buf₂, -, rfl, h₂⟩ := short_inverts.exists_write (n := 4) h₁
    obtain ⟨z, buf₃, -, rfl, h₃⟩ := short_inverts.exists_write (n := 2) h₂
    obtain ⟨mode, buf₄, -, rfl, h₄⟩ := byte_inverts.exists_write (n := 1) h₃
    obtain ⟨blockId, -, rfl⟩ := byte_inverts.exists_write_nil h₄
    exact ⟨_, parse_serialized ⟨x, y, z, mode, blockId⟩, rfl⟩

end PacketSetBlockClient

/-! ## PacketChatMessage -/

structure PacketChatMessage where
  playerId : UInt8
  message : List UInt8
  deriving DecidableEq, Repr

namespace PacketChatMessage

/-- The constructor from data, which calls `parse`. -/
def parse (data : List UInt8) : Option PacketChatMessage := do
  let (_, buf) ← readByte data
  let (playerId, buf) ← readByte buf
  let (message, _) ← readString buf
  return { playerId := playerId, message := message }

/-- The buffer of `serialize`. -/
def serialized (p : PacketChatMessage) : List UInt8 :=
  writeByte PacketTypeId.chatMessage ++ (writeByte p.playerId ++ writeString p.message)

def serialize (p : PacketChatMessage) (eventData : IoSendEventData) : IoSendEventData × Bool :=
  eventData.push p.serialized

/-- The message fits its field. -/
def Valid (p : PacketChatMessage) : Prop := IsFieldString p.message

theorem length_serialized (p : PacketChatMessage) : p.serialized.length = packetSize := by
  simp [serialized, packetSize, maxStringLength]

theorem parse_serialized {p : PacketChatMessage} (hp : p.Valid) : parse p.serialized = some p := by
  simp [parse, serialized, readString_writeString_nil hp]

theorem roundTrips : RoundTrips PacketTypeId.chatMessage parse serialized serialize Valid where
  length_serialized := length_serialized
  head_serialized _ := rfl
  appends p _ hd hok := contents_push_packet hd p.length_serialized (by decide) hok
  parse_serialized _ hp := parse_serialized hp
  serialized_parse buf hlength hhead := by
    obtain ⟨buf₀, rfl, h₀⟩ := exists_of_head? (n := 65) hlength hhead
    obtain ⟨playerId, buf₁, -, rfl, h₁⟩ := byte_inverts.exists_write (n := 64) h₀
    obtain ⟨message, hmessage, rfl⟩ := string_inverts.exists_write_nil h₁
    have hparse : parse (serialized ⟨playerId, message⟩) = _ := parse_serialized hmessage
    exact ⟨_, hparse, rfl⟩

end PacketChatMessage

/-! ## PacketExtPing -/

structure PacketExtPing where
  requestTime : BitVec 64 := 0
  deriving DecidableEq, Repr

namespace PacketExtPing

/-- The constructor from data, which calls `parse`. -/
def parse (data : List UInt8) : Option PacketExtPing := do
  let (_, buf) ← readByte data
  let (requestTime, _) ← readUint64 buf
  return { requestTime := requestTime }

/-- The buffer of `serialize`. -/
def serialized (p : PacketExtPing) : List UInt8 :=
  writeByte PacketTypeId.extPing ++ writeUint64 p.requestTime

def serialize (p : PacketExtPing) (eventData : IoSendEventData) : IoSendEventData × Bool :=
  eventData.push p.serialized

theorem length_serialized (p : PacketExtPing) : p.serialized.length = packetSize := by
  simp [serialized, packetSize]

theorem parse_serialized (p : PacketExtPing) : parse p.serialized = some p := by
  simp [parse, serialized]

theorem roundTrips : RoundTrips PacketTypeId.extPing parse serialized serialize (fun _ => True) where
  length_serialized := length_serialized
  head_serialized _ := rfl
  appends p _ hd hok := contents_push_packet hd p.length_serialized (by decide) hok
  parse_serialized p _ := parse_serialized p
  serialized_parse buf hlength hhead := by
    obtain ⟨buf₀, rfl, h₀⟩ := exists_of_head? (n := 8) hlength hhead
    obtain ⟨requestTime, -, rfl⟩ := uint64_inverts.exists_write_nil h₀
    exact ⟨_, parse_serialized ⟨requestTime⟩, rfl⟩

end PacketExtPing

/-! ## PacketSetPlayerPosition -/

structure PacketSetPlayerPosition where
  playerId : UInt8
  playerPos : PlayerPosition
  deriving DecidableEq, Repr

namespace PacketSetPlayerPosition

/-- The constructor from data, which calls `parse`. -/
def parse (data : List UInt8) : Option PacketSetPlayerPosition := do
  let (_, buf) ← readByte data
  let (playerId, buf) ← readByte buf
  let (x, buf) ← readShort buf
  let (y, buf) ← readShort buf
  let (z, buf) ← readShort buf
  let (yaw, buf) ← readByte buf
  let (pitch, _) ← readByte buf
  return { playerId := playerId, playerPos := ⟨x, y, z, yaw.toBitVec, pitch.toBitVec⟩ }

/-- The absolute record is a packet. -/
theorem parse_absolute (id : UInt8) (position : PlayerPosition) :
    parse (PositionRecord.setPlayerPosition id position).serialize = some ⟨id, position⟩ := by
  simp [parse, PositionRecord.serialize]

end PacketSetPlayerPosition

end Mmocraft.Net
