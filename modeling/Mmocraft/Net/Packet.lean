/-
# Mmocraft.Net.Packet -- packet ids, packet sizes and the packet header

The numbering of `net::packet_type_id`, the result codes the receive path produces, the size table
`protocol_db` that `packet.cpp` builds from the `packet_size` constants, and
`PacketStructure::parse_packet`, which looks at one byte only.
-/
import Mathlib.Data.List.Basic
import Mathlib.Tactic.Common

namespace Mmocraft.Net

/-! ## Packet ids -/

namespace PacketTypeId

def handshake : UInt8 := 0x00
def ping : UInt8 := 0x01
def levelInitialize : UInt8 := 0x02
def levelDatachunk : UInt8 := 0x03
def levelFinalize : UInt8 := 0x04
def setBlockClient : UInt8 := 0x05
def setBlockServer : UInt8 := 0x06
def spawnPlayer : UInt8 := 0x07
def setPlayerPosition : UInt8 := 0x08
def updatePlayerPosition : UInt8 := 0x09
def updatePlayerCoordinate : UInt8 := 0x0A
def updatePlayerOrientation : UInt8 := 0x0B
def despawnPlayer : UInt8 := 0x0C
def chatMessage : UInt8 := 0x0D
def disconnectPlayer : UInt8 := 0x0E
def extInfo : UInt8 := 0x10
def extEntry : UInt8 := 0x11
def twoWayPing : UInt8 := 0x2B
def extPing : UInt8 := 0x39
def invalid : UInt8 := 0xFF

end PacketTypeId

/-! ## Packet sizes -/

def PacketHandshake.packetSize : Nat := 131
def PacketPing.packetSize : Nat := 1
def PacketSetBlockClient.packetSize : Nat := 9
def PacketSetPlayerPosition.packetSize : Nat := 10
def PacketChatMessage.packetSize : Nat := 66
def PacketExtInfo.packetSize : Nat := 67
def PacketTwoWayPing.packetSize : Nat := 4
def PacketExtEntry.packetSize : Nat := 69
def PacketExtPing.packetSize : Nat := 9

/-- The size column of `protocol_db`: zero for every id that is not listed. -/
def protocolDb (packetId : UInt8) : Nat :=
  if packetId = PacketTypeId.handshake then PacketHandshake.packetSize
  else if packetId = PacketTypeId.ping then PacketPing.packetSize
  else if packetId = PacketTypeId.setBlockClient then PacketSetBlockClient.packetSize
  else if packetId = PacketTypeId.setPlayerPosition then PacketSetPlayerPosition.packetSize
  else if packetId = PacketTypeId.chatMessage then PacketChatMessage.packetSize
  else if packetId = PacketTypeId.extInfo then PacketExtInfo.packetSize
  else if packetId = PacketTypeId.twoWayPing then PacketTwoWayPing.packetSize
  else if packetId = PacketTypeId.extEntry then PacketExtEntry.packetSize
  else if packetId = PacketTypeId.extPing then PacketExtPing.packetSize
  else 0

/-- No packet is longer than a handshake. -/
theorem protocolDb_le (packetId : UInt8) : protocolDb packetId ≤ PacketHandshake.packetSize := by
  unfold protocolDb
  split_ifs <;> decide

/-- `PacketStructure::parse_packet`: the id and the size announced by the first byte. -/
def parsePacket (bufStart : UInt8) : UInt8 × Nat :=
  let packetSize := protocolDb bufStart
  (if packetSize ≠ 0 then bufStart else PacketTypeId.invalid, packetSize)

/-- The id is `invalid` exactly for the bytes without a size. -/
theorem parsePacket_invalid_iff (b : UInt8) :
    (parsePacket b).1 = PacketTypeId.invalid ↔ protocolDb b = 0 := by
  simp only [parsePacket]
  split_ifs with h
  · refine iff_of_false ?_ h
    rintro rfl
    exact h (by decide)
  · simpa using h

@[simp] theorem parsePacket_size (b : UInt8) : (parsePacket b).2 = protocolDb b := rfl

/-- `PacketStructure::max_size_of_packet_struct`: `sizeof(PacketHandshake)` in the x64 layout, i.e.
the vtable pointer and the id padded to 16 bytes, the version byte padded to 8, two string views of
16 bytes and the last byte padded to 8. -/
def maxSizeOfPacketStruct : Nat := 64

/-! ## Result codes -/

abbrev ErrorCode := Nat

namespace ErrorCode

def success : ErrorCode := 0
def invalidPacketId : ErrorCode := 3001
def unimplementedPacketId : ErrorCode := 3002
def insuffientPacketData : ErrorCode := 3003
def playerLoginFail : ErrorCode := 3301
def playerNotExist : ErrorCode := 3302
def playerAlreadyLogin : ErrorCode := 3303

/-- `ResultCode::is_packet_handle_success`. -/
def isPacketHandleSuccess (code : ErrorCode) : Bool :=
  code == success || code == insuffientPacketData

end ErrorCode

end Mmocraft.Net
