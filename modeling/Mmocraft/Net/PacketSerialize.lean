/-
# Mmocraft.Net.PacketSerialize -- packets pushed to the send buffer

Every packet type with `serialize(io::IoEventData&)`.  All but one write their fields to a local buffer
and return what the push of that buffer returns, so the packet is in the send buffer completely or not
at all.  `PacketExtEntry` pushes one record after the other and returns true whatever the pushes say: it
is complete only if all its records fit.

Each packet has its bytes (`serialized`) beside the function that pushes them, and being complete is a
comparison of the two; so the one packet that pushes piecewise is treated as all the others are, and the
condition under which it is complete too is about the room in the buffer alone.
-/
import Mmocraft.Net.PacketCodec
import Mmocraft.Net.PacketExtension
import Mmocraft.Util.Math

namespace Mmocraft.Net

open Mmocraft.Lib Mmocraft.Io PacketStructure

namespace PacketTypeId

def setPlayerid : UInt8 := 0x37

end PacketTypeId

/-! ## The remaining packets -/

/-- `PacketLevelInit`. -/
structure PacketLevelInit where
  deriving DecidableEq, Repr

namespace PacketLevelInit

def packetSize : Nat := 1

/-- The buffer of `serialize`. -/
def serialized (_ : PacketLevelInit) : List UInt8 := writeByte PacketTypeId.levelInitialize

def serialize (p : PacketLevelInit) (eventData : IoSendEventData) : IoSendEventData × Bool :=
  eventData.push p.serialized

theorem length_serialized (p : PacketLevelInit) : p.serialized.length = packetSize := rfl

end PacketLevelInit

structure PacketSetBlockServer where
  blockPos : Util.Coordinate3D
  blockId : UInt8
  deriving DecidableEq, Repr

namespace PacketSetBlockServer

def packetSize : Nat := 8

/-- The buffer of `serialize`. -/
def serialized (p : PacketSetBlockServer) : List UInt8 :=
  writeByte PacketTypeId.setBlockServer ++ (writeShort p.blockPos.x ++ (writeShort p.blockPos.y ++
    (writeShort p.blockPos.z ++ writeByte p.blockId)))

def serialize (p : PacketSetBlockServer) (eventData : IoSendEventData) : IoSendEventData × Bool :=
  eventData.push p.serialized

theorem length_serialized (p : PacketSetBlockServer) : p.serialized.length = packetSize := by
  simp [serialized, packetSize]

end PacketSetBlockServer

structure PacketDisconnectPlayer where
  reason : List UInt8
  deriving DecidableEq, Repr

namespace PacketDisconnectPlayer

def packetSize : Nat := 65

/-- The buffer of `serialize`. -/
def serialized (p : PacketDisconnectPlayer) : List UInt8 :=
  writeByte PacketTypeId.disconnectPlayer ++ writeString p.reason

def serialize (p : PacketDisconnectPlayer) (eventData : IoSendEventData) : IoSendEventData × Bool :=
  eventData.push p.serialized

theorem length_serialized (p : PacketDisconnectPlayer) : p.serialized.length = packetSize := by
  simp [serialized, packetSize, maxStringLength]

end PacketDisconnectPlayer

structure PacketSetPlayerID where
  playerId : UInt8
  deriving DecidableEq, Repr

namespace PacketSetPlayerID

def packetSize : Nat := 2

/-- The buffer of `serialize`. -/
def serialized (p : PacketSetPlayerID) : List UInt8 :=
  writeByte PacketTypeId.setPlayerid ++ writeByte p.playerId

def serialize (p : PacketSetPlayerID) (eventData : IoSendEventData) : IoSendEventData × Bool :=
  eventData.push p.serialized

theorem length_serialized (p : PacketSetPlayerID) : p.serialized.length = packetSize := rfl

end PacketSetPlayerID

/-! ## Any packet -/

/-- A packet of a type with `serialize(io::IoEventData&)`. -/
inductive SerializablePacket where
  | handshake (p : PacketHandshake)
  | levelInit (p : PacketLevelInit)
  | setBlockClient (p : PacketSetBlockClient)
  | setBlockServer (p : PacketSetBlockServer)
  | chatMessage (p : PacketChatMessage)
  | disconnectPlayer (p : PacketDisconnectPlayer)
  | setPlayerID (p : PacketSetPlayerID)
  | extInfo (p : PacketExtInfo)
  | extEntry (p : PacketExtEntry)
  | extMessage (p : PacketExtMessage)
  | extPing (p : PacketExtPing)

namespace SerializablePacket

/-- The complete bytes of the packet. -/
def serialized : SerializablePacket → List UInt8
  | handshake p => p.serialized
  | levelInit p => p.serialized
  | setBlockClient p => p.serialized
  | setBlockServer p => p.serialized
  | chatMessage p => p.serialized
  | disconnectPlayer p => p.serialized
  | setPlayerID p => p.serialized
  | extInfo p => p.serialized
  | extEntry p => p.serialized
  | extMessage p => p.serialized
  | extPing p => p.serialized

def serialize : SerializablePacket → IoSendEventData → IoSendEventData × Bool
  | handshake p => p.serialize
  | levelInit p => p.serialize
  | setBlockClient p => p.serialize
  | setBlockServer p => p.serialize
  | chatMessage p => p.serialize
  | disconnectPlayer p => p.serialize
  | setPlayerID p => p.serialize
  | extInfo p => p.serialize
  | extEntry p => p.serialize
  | extMessage p => p.serialize
  | extPing p => p.serialize

/-- The records of an `ExtEntry` packet fit behind the tail; other packets have no such condition. -/
def RecordsFit : SerializablePacket → IoSendEventData → Prop
  | extEntry _, d => supportedCpeMap.length * PacketExtEntry.packetSize ≤ d.unusedSize
  | _, _ => True

instance (packet : SerializablePacket) (d : IoSendEventData) : Decidable (packet.RecordsFit d) := by
  unfold RecordsFit
  cases packet <;> infer_instance

end SerializablePacket

/-! ## All or nothing -/

/-- What `serialize` of a packet did to the buffer: the complete bytes were appended and it returned
true, or nothing changed and it returned false. -/
structure AllOrNothing (serialized : List UInt8) (d : IoSendEventData) (r : IoSendEventData × Bool) :
    Prop where
  all : r.2 = true → r.1.contents = d.contents ++ serialized
  nothing : r.2 = false → r.1.contents = d.contents

/-- One push is all or nothing. -/
theorem allOrNothing_push {d : IoSendEventData} (hd : d.WellFormed) {buf : List UInt8} {n : Nat}
    (hlength : buf.length = n) (hn : n < 2 ^ 31) : AllOrNothing buf d (d.push buf) where
  all hok := contents_push_packet hd hlength hn hok
  nothing hrefused := by rw [IoSendEventData.push_refused hrefused]

/-! ## Pushing one record after the other -/

section Records

variable {α : Type} {write : α → List UInt8} {size : Nat}

/-- The pushes of records one after the other, without a look at the results. -/
def pushEach (write : α → List UInt8) (records : List α) (d : IoSendEventData) : IoSendEventData :=
  records.foldl (fun d record => (d.push (write record)).1) d

/-- What the pushes keep. -/
structure SameWindow (d d' : IoSendEventData) : Prop where
  wellFormed : d'.WellFormed
  dataHead : d'.dataHead = d.dataHead
  capacity : d'.capacity = d.capacity

/-- Where the window of a buffer ends. -/
theorem dataTail_eq {d : IoSendEventData} (hd : d.WellFormed) :
    d.dataTail = d.dataHead + d.contents.length := by
  have htail := hd.head_le_tail
  rw [IoSendEventData.length_contents hd]
  omega

/-- A push is accepted exactly if it fits the unused size. -/
theorem push_accepts_iff_unusedSize {d : IoSendEventData} (hd : d.WellFormed) (bytes : PushData) :
    (d.push bytes.1).2 = true ↔ bytes.1.length ≤ d.unusedSize := by
  have hhead := hd.head_nonneg
  have htail := hd.head_le_tail
  have hcap := hd.tail_le_capacity
  rw [IoSendEventData.push_accepts_iff hd bytes, IoSendEventData.unusedSize_eq hd]
  omega

theorem unusedSize_push {d : IoSendEventData} (hd : d.WellFormed) (bytes : PushData)
    (hok : (d.push bytes.1).2 = true) :
    (d.push bytes.1).1.unusedSize = d.unusedSize - bytes.1.length := by
  have hhead := hd.head_nonneg
  have htail := hd.head_le_tail
  have htail' : (d.push bytes.1).1.dataTail = d.dataTail + bytes.1.length := by
    rw [IoSendEventData.push_accepted hd bytes hok]
  rw [IoSendEventData.unusedSize_eq (IoSendEventData.push_wellFormed hd bytes),
    IoSendEventData.unusedSize_eq hd, IoSendEventData.push_capacity hd bytes, htail']
  omega

theorem sameWindow_pushEach (hsize : ∀ record, (write record).length = size) (hlt : size < 2 ^ 31)
    (records : List α) {d : IoSendEventData} (hd : d.WellFormed) :
    SameWindow d (pushEach write records d) := by
  induction records generalizing d with
  | nil => exact ⟨hd, rfl, rfl⟩
  | cons record records ih =>
      let bytes : PushData := ⟨write record, by rw [hsize]; exact hlt⟩
      obtain ⟨hwf, hhead, hcap⟩ := ih (IoSendEventData.push_wellFormed hd bytes)
      exact ⟨hwf, hhead.trans (IoSendEventData.push_dataHead _),
        hcap.trans (IoSendEventData.push_capacity hd bytes)⟩

/-- Records that fit are appended. -/
theorem contents_pushEach (hsize : ∀ record, (write record).length = size) (hlt : size < 2 ^ 31)
    {records : List α} {d : IoSendEventData} (hd : d.WellFormed)
    (hfit : records.length * size ≤ d.unusedSize) :
    (pushEach write records d).contents = d.contents ++ records.flatMap write := by
  induction records generalizing d with
  | nil => exact (List.append_nil _).symm
  | cons record records ih =>
      let bytes : PushData := ⟨write record, by rw [hsize]; exact hlt⟩
      have hlength : bytes.1.length = size := hsize record
      -- behind the first record there is room for the others
      rw [List.length_cons, Nat.succ_mul] at hfit
      have hok : (d.push bytes.1).2 = true := (push_accepts_iff_unusedSize hd bytes).mpr (by omega)
      have hrest : records.length * size ≤ (d.push bytes.1).1.unusedSize := by
        rw [unusedSize_push hd bytes hok]
        omega
      calc (pushEach write records (d.push bytes.1).1).contents
          = (d.push bytes.1).1.contents ++ records.flatMap write :=
            ih (IoSendEventData.push_wellFormed hd bytes) hrest
        _ = d.contents ++ (bytes.1 ++ records.flatMap write) := by
            rw [IoSendEventData.contents_push hd bytes hok, List.append_assoc]
        _ = d.contents ++ (record :: records).flatMap write := by rw [List.flatMap_cons]

/-- Where all records were appended, they did fit. -/
theorem fits_of_contents_pushEach (hsize : ∀ record, (write record).length = size)
    (hlt : size < 2 ^ 31) {records : List α} {d : IoSendEventData} (hd : d.WellFormed)
    {appended : List UInt8} (hall : (pushEach write records d).contents = d.contents ++ appended) :
    appended.length ≤ d.unusedSize := by
  obtain ⟨hwf, hhead, hcap⟩ := sameWindow_pushEach hsize hlt records hd
  have hend := dataTail_eq hwf
  have hstart := dataTail_eq hd
  have hle := hwf.tail_le_capacity
  have hnonneg := hd.head_nonneg
  -- the head has not moved, so the tail has, by all that was appended
  rw [hall, List.length_append, hhead] at hend
  rw [IoSendEventData.unusedSize_eq hd]
  omega

end Records

/-- `PacketExtEntry::serialize` is all or nothing exactly if its records fit. -/
theorem PacketExtEntry.allOrNothing_iff (p : PacketExtEntry) {d : IoSendEventData}
    (hd : d.WellFormed) : AllOrNothing p.serialized d (p.serialize d) ↔
      supportedCpeMap.length * packetSize ≤ d.unusedSize := by
  have hlt : packetSize < 2 ^ 31 := by decide
  constructor
  · intro h
    have hall : (pushEach serializedEntry p.order.1 d).contents = d.contents ++ p.serialized := h.all rfl
    rw [← p.length_serialized]
    exact fits_of_contents_pushEach length_serializedEntry hlt hd hall
  · intro hfit
    rw [← p.length_order] at hfit
    exact ⟨fun _ => contents_pushEach length_serializedEntry hlt hd hfit, fun h => nomatch h⟩

/-- **Serialize is all or nothing**, for every packet type and every state of the send buffer, exactly if
the packet is not `ExtEntry` or its records fit. That packet has one record for each extension, and drops
the results of their pushes: it returns true whatever was refused. -/
theorem serialize_allOrNothing_iff (packet : SerializablePacket) {d : IoSendEventData}
    (hd : d.WellFormed) :
    AllOrNothing packet.serialized d (packet.serialize d) ↔ packet.RecordsFit d := by
  cases packet with
  | extEntry p => exact p.allOrNothing_iff hd
  | handshake p => exact iff_of_true (allOrNothing_push hd p.length_serialized (by decide)) trivial
  | levelInit p => exact iff_of_true (allOrNothing_push hd p.length_serialized (by decide)) trivial
  | setBlockClient p => exact iff_of_true (allOrNothing_push hd p.length_serialized (by decide)) trivial
  | setBlockServer p => exact iff_of_true (allOrNothing_push hd p.length_serialized (by decide)) trivial
  | chatMessage p => exact iff_of_true (allOrNothing_push hd p.length_serialized (by decide)) trivial
  | disconnectPlayer p =>
      exact iff_of_true (allOrNothing_push hd p.length_serialized (by decide)) trivial
  | setPlayerID p => exact iff_of_true (allOrNothing_push hd p.length_serialized (by decide)) trivial
  | extInfo p => exact iff_of_true (allOrNothing_push hd p.length_serialized (by decide)) trivial
  | extMessage p => exact iff_of_true (allOrNothing_push hd p.length_serialized (by decide)) trivial
  | extPing p => exact iff_of_true (allOrNothing_push hd p.length_serialized (by decide)) trivial

/-- The buffer of a connection, empty. -/
def emptySendBuffer : IoSendEventData := .new (List.replicate tcpSendBufferSize 0)

theorem emptySendBuffer_wellFormed : emptySendBuffer.WellFormed :=
  IoSendEventData.new_wellFormed (by rw [List.length_replicate]; decide)

theorem unusedSize_emptySendBuffer : emptySendBuffer.unusedSize = tcpSendBufferSize := by
  rw [IoSendEventData.unusedSize_of_empty emptySendBuffer_wellFormed (IoSendEventData.contents_new _)]
  exact List.length_replicate

/-- `PacketExtEntry` in the order in which the table is written. -/
def extEntryPacket : PacketExtEntry := { order := ⟨supportedCpeMap, List.Perm.refl _⟩ }

/-- An empty buffer takes both records. -/
theorem serialize_allOrNothing_iff_empty :
    emptySendBuffer.WellFormed ∧ AllOrNothing extEntryPacket.serialized emptySendBuffer
      (extEntryPacket.serialize emptySendBuffer) := by
  refine ⟨emptySendBuffer_wellFormed,
    (serialize_allOrNothing_iff (.extEntry extEntryPacket) emptySendBuffer_wellFormed).mpr ?_⟩
  show _ ≤ emptySendBuffer.unusedSize
  rw [unusedSize_emptySendBuffer]
  decide

/-- The buffer of a connection with 8100 bytes in it. -/
def nearlyFullSendBuffer : IoSendEventData := (emptySendBuffer.push (List.replicate 8100 0)).1

/-- With 8100 bytes waiting, one record fits and the other does not: `PacketExtEntry::serialize` returns
true, but its bytes are not all there. -/
theorem extEntry_incomplete : nearlyFullSendBuffer.WellFormed ∧
    (extEntryPacket.serialize nearlyFullSendBuffer).2 = true ∧
    ¬ AllOrNothing extEntryPacket.serialized nearlyFullSendBuffer
      (extEntryPacket.serialize nearlyFullSendBuffer) := by
  let bytes : PushData := ⟨List.replicate 8100 0, by rw [List.length_replicate]; decide⟩
  have hlength : bytes.1.length = 8100 := List.length_replicate
  have hempty := emptySendBuffer_wellFormed
  have hok : (emptySendBuffer.push bytes.1).2 = true := by
    rw [push_accepts_iff_unusedSize hempty, unusedSize_emptySendBuffer, hlength]
    decide
  have hwf : nearlyFullSendBuffer.WellFormed := IoSendEventData.push_wellFormed hempty bytes
  have hunused : nearlyFullSendBuffer.unusedSize = 92 := by
    have hpush := unusedSize_push hempty bytes hok
    rwa [unusedSize_emptySendBuffer, hlength] at hpush
  refine ⟨hwf, rfl, fun h => ?_⟩
  have hfit := (extEntryPacket.allOrNothing_iff hwf).mp h
  rw [hunused] at hfit
  exact absurd hfit (by decide)

end Mmocraft.Net
