/-
# Mmocraft.Net.PacketExtension -- the packets of the protocol extension

The table of supported extensions, and the packets `PacketExtInfo`, `PacketExtEntry` and
`PacketExtMessage` as they are sent.  `PacketExtEntry` is one packet type but as many records as there
are supported extensions, and it pushes them one by one.
-/
import Mmocraft.Io.SendEvent
import Mmocraft.Net.PacketFields
import Mmocraft.Net.Packet

namespace Mmocraft.Net

open Mmocraft.Lib Mmocraft.Io PacketStructure

namespace PacketTypeId

def extMessage : UInt8 := 0x38

end PacketTypeId

/-! ## Supported extensions -/

/-- `CpeInfo`. -/
structure CpeInfo where
  index : UInt8
  version : BitVec 32
  deriving DecidableEq, Repr

/-- `cpe_server_name`: "mmocraft-cpe". -/
def cpeServerName : List UInt8 := [109, 109, 111, 99, 114, 97, 102, 116, 45, 99, 112, 101]

/-- "MessageTypes", version 1. -/
def messageTypesExtension : List UInt8 × CpeInfo :=
  ([77, 101, 115, 115, 97, 103, 101, 84, 121, 112, 101, 115], { index := PacketTypeId.extMessage, version := 1 })

/-- "TwoWayPing", version 1. -/
def twoWayPingExtension : List UInt8 × CpeInfo :=
  ([84, 119, 111, 87, 97, 121, 80, 105, 110, 103], { index := PacketTypeId.twoWayPing, version := 1 })

/-- `supported_cpe_map`. -/
def supportedCpeMap : List (List UInt8 × CpeInfo) := [messageTypesExtension, twoWayPingExtension]

/-- `is_available_cpe` and `cpe_index_of`: the packet id of an extension that is supported in the version. -/
def availableCpe (name : List UInt8) (version : BitVec 32) : Option UInt8 :=
  ((supportedCpeMap.lookup name).filter fun info => info.version = version).map CpeInfo.index

/-- An available extension is an entry of the table. -/
theorem availableCpe_eq_some_iff {name : List UInt8} {version : BitVec 32} {ext : UInt8} :
    availableCpe name version = some ext ↔ (name, { index := ext, version := version }) ∈ supportedCpeMap := by
  simp only [availableCpe, Option.map_eq_some_iff, Option.filter_eq_some_iff, decide_eq_true_eq]
  constructor
  · rintro ⟨info, ⟨hlookup, rfl⟩, rfl⟩
    obtain ⟨before, behind, hsplit, -⟩ := List.lookup_eq_some_iff.mp hlookup
    rw [hsplit]
    exact List.mem_append_right before List.mem_cons_self
  · intro hmem
    -- the names of the table are distinct, so the lookup finds the entry
    have hlookup : supportedCpeMap.lookup name = some { index := ext, version := version } := by
      simp only [supportedCpeMap, List.mem_cons, List.not_mem_nil, or_false] at hmem
      rcases hmem with hentry | hentry
      all_goals
        obtain ⟨rfl, hinfo⟩ := Prod.mk.injEq .. ▸ hentry
        rw [hinfo]
        decide
    exact ⟨_, ⟨hlookup, rfl⟩, rfl⟩

/-- An order in which the iteration over `supported_cpe_map` can go; an `unordered_map` promises
none. -/
abbrev CpeOrder := { order : List (List UInt8 × CpeInfo) // order.Perm supportedCpeMap }

/-! ## PacketExtInfo -/

/-- `PacketExtInfo`, as it is sent: its data are those of the server. -/
structure PacketExtInfo where
  deriving DecidableEq, Repr

namespace PacketExtInfo

/-- The buffer of `serialize`. -/
def serialized (_ : PacketExtInfo) : List UInt8 :=
  writeByte PacketTypeId.extInfo ++ (writeString cpeServerName ++
    writeShort (BitVec.ofNat 16 supportedCpeMap.length))

def serialize (p : PacketExtInfo) (eventData : IoSendEventData) : IoSendEventData × Bool :=
  eventData.push p.serialized

theorem length_serialized (p : PacketExtInfo) : p.serialized.length = packetSize := by
  simp [serialized, packetSize, maxStringLength]

end PacketExtInfo

/-! ## PacketExtEntry -/

/-- `PacketExtEntry`, as it is sent, with the order of the iteration. -/
structure PacketExtEntry where
  order : CpeOrder
  deriving DecidableEq

namespace PacketExtEntry

/-- The buffer of one round of `serialize`. -/
def serializedEntry (entry : List UInt8 × CpeInfo) : List UInt8 :=
  writeByte PacketTypeId.extEntry ++ (writeString entry.1 ++ writeInt entry.2.version)

/-- The records of the packet, one for each supported extension. -/
def serialized (p : PacketExtEntry) : List UInt8 := p.order.1.flatMap serializedEntry

/-- `serialize`: the results of the pushes are dropped, and the packet reports success. -/
def serialize (p : PacketExtEntry) (eventData : IoSendEventData) : IoSendEventData × Bool :=
  (p.order.1.foldl (fun d entry => (d.push (serializedEntry entry)).1) eventData, true)

theorem length_serializedEntry (entry : List UInt8 × CpeInfo) :
    (serializedEntry entry).length = packetSize := by
  simp [serializedEntry, packetSize, maxStringLength]

theorem length_order (p : PacketExtEntry) : p.order.1.length = supportedCpeMap.length :=
  p.order.2.length_eq

/-- The records take 138 bytes. -/
theorem length_serialized (p : PacketExtEntry) :
    p.serialized.length = supportedCpeMap.length * packetSize := by
  rw [serialized, length_flatMap_of_width length_serializedEntry, length_order]

end PacketExtEntry

/-! ## PacketExtMessage -/

/-- `chat_message_type_id`. -/
inductive ChatMessageTypeId where
  | chat
  | status1
  | status2
  | status3
  | bottomRight1
  | bottomRight2
  | bottomRight3
  | announcement
  deriving DecidableEq, Repr

/-- The values of `chat_message_type_id`. -/
def ChatMessageTypeId.value : ChatMessageTypeId → UInt8
  | chat => 0
  | status1 => 1
  | status2 => 2
  | status3 => 3
  | bottomRight1 => 11
  | bottomRight2 => 12
  | bottomRight3 => 13
  | announcement => 100

structure PacketExtMessage where
  msgType : ChatMessageTypeId
  message : List UInt8
  deriving DecidableEq, Repr

namespace PacketExtMessage

def packetSize : Nat := 66

/-- The buffer of `serialize`. -/
def serialized (p : PacketExtMessage) : List UInt8 :=
  writeByte PacketTypeId.extMessage ++ (writeByte p.msgType.value ++ writeString p.message)

def serialize (p : PacketExtMessage) (eventData : IoSendEventData) : IoSendEventData × Bool :=
  eventData.push p.serialized

theorem length_serialized (p : PacketExtMessage) : p.serialized.length = packetSize := by
  simp [serialized, packetSize, maxStringLength]

end PacketExtMessage

end Mmocraft.Net
