/-
# Mmocraft.Server.ClientStream -- from the bytes of a client to the packets of the server

What a client writes, what reaches `handle_packet`, and what the handlers make of it.  Every complete frame
is the bytes of one message of a client, so that no handler reads beyond its packet, whoever sent it.  And
however the stream of a client is cut into receives, the handlers are given exactly the packets of the client,
in their order, as far as they have arrived.

It joins two results about bytes. The receive path hands on frames, by the sizes in `protocol_db`, and that is
proved for any handler; and the messages of a client are exactly the frames (`isFrame_bytes`,
`exists_of_isFrame`), each with its handler and its parsed packet (`parse_bytes`). The table of handlers has
an entry for each id that has a size, which is checked here and relied on by the source.
-/
import Mmocraft.Net.PacketCodec
import Mmocraft.Net.ReceivePath
import Mmocraft.Server.Handlers

namespace Mmocraft

open Mmocraft.Lib Mmocraft.Game Mmocraft.Io Mmocraft.Net

/-! ## Parsing

Each packet is parsed from a buffer that begins with it, and the parser looks at nothing behind its size.
-/

namespace Net

/-- `read_scalar` of an `Int`. -/
def PacketStructure.readInt : Reader UInt8 (BitVec 32) := PacketStructure.readScalar 4

open PacketStructure

/-- A four-byte integer reads back. -/
theorem PacketStructure.int_inverts : Inverts readInt writeInt (fun _ => True) 4 := scalar_inverts 4

@[simp] theorem PacketStructure.readInt_writeInt_nil (value : BitVec 32) :
    readInt (writeInt value) = some (value, []) := by
  simpa using int_inverts.read_write value [] trivial

@[simp] theorem PacketStructure.readShort_writeShort_nil (value : BitVec 16) :
    readShort (writeShort value) = some (value, []) := by
  simpa using readShort_writeShort value []

/-- `PacketExtInfo`, as it is received. -/
structure ReceivedExtInfo where
  appName : List UInt8
  extensionCount : BitVec 16
  deriving DecidableEq, Repr

/-- `PacketExtInfo::parse`. -/
def ReceivedExtInfo.parse (data : List UInt8) : Option ReceivedExtInfo := do
  let (_, buf) ← readByte data
  let (appName, buf) ← readString buf
  let (extensionCount, _) ← readShort buf
  return { appName := appName, extensionCount := extensionCount }

/-- `PacketExtEntry`, as it is received. -/
structure ReceivedExtEntry where
  extensionName : List UInt8
  version : BitVec 32
  deriving DecidableEq, Repr

/-- `PacketExtEntry::parse`. -/
def ReceivedExtEntry.parse (data : List UInt8) : Option ReceivedExtEntry := do
  let (_, buf) ← readByte data
  let (extensionName, buf) ← readString buf
  let (version, _) ← readInt buf
  return { extensionName := extensionName, version := version }

/-- `is_commmand_message`. -/
def PacketChatMessage.isCommandMessage (p : PacketChatMessage) : Bool := p.message.head? == some 0x2F

end Net

/-- The handlers of `packet_handler_db`. -/
inductive PacketHandler where
  | handshake
  | ping
  | setBlock
  | playerPosition
  | chatMessage
  | extInfo
  | extEntry
  | twoWayPing
  | extPing
  deriving DecidableEq, Repr

/-- `packet_handler_db`. -/
def packetHandlerDb (packetId : UInt8) : Option PacketHandler :=
  if packetId = PacketTypeId.handshake then some .handshake
  else if packetId = PacketTypeId.ping then some .ping
  else if packetId = PacketTypeId.setBlockClient then some .setBlock
  else if packetId = PacketTypeId.setPlayerPosition then some .playerPosition
  else if packetId = PacketTypeId.chatMessage then some .chatMessage
  else if packetId = PacketTypeId.extInfo then some .extInfo
  else if packetId = PacketTypeId.extEntry then some .extEntry
  else if packetId = PacketTypeId.twoWayPing then some .twoWayPing
  else if packetId = PacketTypeId.extPing then some .extPing
  else none

/-- What a handler makes of the bytes of its packet. -/
def PacketHandler.parse (data : List UInt8) : PacketHandler → Option ClientPacket
  | .handshake => (PacketHandshake.parse data).map fun p => .handshake p.username p.password p.cpeMagic
  | .ping => some .ping
  | .setBlock => (PacketSetBlockClient.parse data).map fun p => .setBlock p.x p.y p.z p.mode p.blockId
  | .playerPosition => (PacketSetPlayerPosition.parse data).map fun p => .setPlayerPosition p.playerPos
  | .chatMessage => (PacketChatMessage.parse data).map fun p => .chatMessage data p.isCommandMessage
  | .extInfo => (ReceivedExtInfo.parse data).map fun p => .extInfo p.extensionCount
  | .extEntry => (ReceivedExtEntry.parse data).map fun p => .extEntry p.extensionName p.version
  | .twoWayPing => some (.twoWayPing data)
  | .extPing => (PacketExtPing.parse data).map fun p => .extPing p.requestTime

/-- What `handle_packet` hands to a handler. -/
def ClientPacket.parse (data : List UInt8) : Option ClientPacket :=
  (data.head?.bind packetHandlerDb).bind (·.parse data)

/-- `GameServer::handle_packet`: the code it returns.  Every handler returns success. -/
def handlePacketCode (data : List UInt8) : ErrorCode :=
  if (ClientPacket.parse data).isSome then ErrorCode.success else ErrorCode.unimplementedPacketId

/-! ## What a client writes

The messages of a client and their bytes, as the client of the protocol writes them; for each there is one
size, and the table of the server has it.
-/

/-- A message of a client, with everything that is in its bytes. -/
inductive ClientMessage where
  | handshake (p : PacketHandshake)
  | ping
  | setBlock (p : PacketSetBlockClient)
  | setPlayerPosition (p : PacketSetPlayerPosition)
  | chatMessage (p : PacketChatMessage)
  | extInfo (p : ReceivedExtInfo)
  | extEntry (p : ReceivedExtEntry)
  | twoWayPing (data : Vector UInt8 3)
  | extPing (p : PacketExtPing)
  deriving DecidableEq

namespace ClientMessage

open PacketStructure

/-- The strings of the message fit their fields. -/
def Valid : ClientMessage → Prop
  | handshake p => p.Valid
  | chatMessage p => p.Valid
  | extInfo p => IsFieldString p.appName
  | extEntry p => IsFieldString p.extensionName
  | _ => True

def bytes : ClientMessage → List UInt8
  | handshake p => p.serialized
  | ping => [PacketTypeId.ping]
  | setBlock p => p.serialized
  | setPlayerPosition p => (PositionRecord.setPlayerPosition p.playerId p.playerPos).serialize
  | chatMessage p => p.serialized
  | extInfo p => writeByte PacketTypeId.extInfo ++ (writeString p.appName ++ writeShort p.extensionCount)
  | extEntry p => writeByte PacketTypeId.extEntry ++ (writeString p.extensionName ++ writeInt p.version)
  | twoWayPing data => PacketTypeId.twoWayPing :: data.toList
  | extPing p => p.serialized

/-- The packet that the handler of the message is given. -/
def packet : ClientMessage → ClientPacket
  | handshake p => .handshake p.username p.password p.cpeMagic
  | ping => .ping
  | setBlock p => .setBlock p.x p.y p.z p.mode p.blockId
  | setPlayerPosition p => .setPlayerPosition p.playerPos
  | chatMessage p => .chatMessage p.serialized p.isCommandMessage
  | extInfo p => .extInfo p.extensionCount
  | extEntry p => .extEntry p.extensionName p.version
  | twoWayPing data => .twoWayPing (PacketTypeId.twoWayPing :: data.toList)
  | extPing p => .extPing p.requestTime

def handler : ClientMessage → PacketHandler
  | handshake _ => .handshake
  | ping => .ping
  | setBlock _ => .setBlock
  | setPlayerPosition _ => .playerPosition
  | chatMessage _ => .chatMessage
  | extInfo _ => .extInfo
  | extEntry _ => .extEntry
  | twoWayPing _ => .twoWayPing
  | extPing _ => .extPing

end ClientMessage

/-- The id that a handler is registered for. -/
def PacketHandler.packetId : PacketHandler → UInt8
  | .handshake => PacketTypeId.handshake
  | .ping => PacketTypeId.ping
  | .setBlock => PacketTypeId.setBlockClient
  | .playerPosition => PacketTypeId.setPlayerPosition
  | .chatMessage => PacketTypeId.chatMessage
  | .extInfo => PacketTypeId.extInfo
  | .extEntry => PacketTypeId.extEntry
  | .twoWayPing => PacketTypeId.twoWayPing
  | .extPing => PacketTypeId.extPing

/-- Each handler stands in the table under its id. -/
theorem packetHandlerDb_packetId (h : PacketHandler) : packetHandlerDb h.packetId = some h := by
  cases h <;> decide

/-- The sizes and the handlers are registered for the same ids. -/
theorem exists_handler {packetId : UInt8} (hsize : protocolDb packetId ≠ 0) :
    ∃ h : PacketHandler, h.packetId = packetId := by
  unfold protocolDb at hsize
  split_ifs at hsize with h₁ h₂ h₃ h₄ h₅ h₆ h₇ h₈ h₉
  · exact ⟨.handshake, h₁.symm⟩
  · exact ⟨.ping, h₂.symm⟩
  · exact ⟨.setBlock, h₃.symm⟩
  · exact ⟨.playerPosition, h₄.symm⟩
  · exact ⟨.chatMessage, h₅.symm⟩
  · exact ⟨.extInfo, h₆.symm⟩
  · exact ⟨.twoWayPing, h₇.symm⟩
  · exact ⟨.extEntry, h₈.symm⟩
  · exact ⟨.extPing, h₉.symm⟩
  · exact absurd rfl hsize

namespace ClientMessage

open PacketStructure

/-- A message begins with the id of its packet. -/
theorem head?_bytes (m : ClientMessage) : m.bytes.head? = some m.handler.packetId := by
  cases m <;> rfl

/-- A message has the size that `protocol_db` says. -/
theorem length_bytes (m : ClientMessage) : m.bytes.length = protocolDb m.handler.packetId := by
  cases m with
  | handshake p => exact p.length_serialized
  | ping => rfl
  | setBlock p => exact p.length_serialized
  | setPlayerPosition p => simp [bytes, PositionRecord.serialize, handler, PacketHandler.packetId]; decide
  | chatMessage p => exact p.length_serialized
  | extInfo p => simp [bytes, handler, PacketHandler.packetId]; decide
  | extEntry p => simp [bytes, handler, PacketHandler.packetId]; decide
  | twoWayPing data => simp [bytes, handler, PacketHandler.packetId]; decide
  | extPing p => exact p.length_serialized

/-- A message is a frame. -/
theorem isFrame_bytes (m : ClientMessage) : IsFrame protocolDb m.bytes := by
  have hhead := m.head?_bytes
  have hlength := m.length_bytes
  cases hbytes : m.bytes with
  | nil =>
      rw [hbytes] at hhead
      exact nomatch hhead
  | cons b t =>
      rw [hbytes] at hhead hlength
      obtain rfl := Option.some.inj hhead
      exact hlength.symm

/-- **A message is parsed as its packet.** -/
theorem parse_bytes {m : ClientMessage} (hm : m.Valid) : ClientPacket.parse m.bytes = some m.packet := by
  rw [ClientPacket.parse, m.head?_bytes, Option.bind_some, packetHandlerDb_packetId, Option.bind_some]
  cases m with
  | handshake p => simp [handler, PacketHandler.parse, bytes, packet, PacketHandshake.parse_serialized hm]
  | ping => rfl
  | setBlock p => simp [handler, PacketHandler.parse, bytes, packet, PacketSetBlockClient.parse_serialized]
  | setPlayerPosition p =>
      simp [handler, PacketHandler.parse, bytes, packet, PacketSetPlayerPosition.parse_absolute]
  | chatMessage p =>
      simp [handler, PacketHandler.parse, bytes, packet, PacketChatMessage.parse_serialized hm]
  | extInfo p =>
      have hname : IsFieldString p.appName := hm
      simp [handler, PacketHandler.parse, bytes, packet, ReceivedExtInfo.parse, readString_writeString hname]
  | extEntry p =>
      have hname : IsFieldString p.extensionName := hm
      simp [handler, PacketHandler.parse, bytes, packet, ReceivedExtEntry.parse, readString_writeString hname]
  | twoWayPing data => rfl
  | extPing p => simp [handler, PacketHandler.parse, bytes, packet, PacketExtPing.parse_serialized]

/-- **Every frame is a message of a client.** -/
theorem exists_of_isFrame {data : List UInt8} (hdata : IsFrame protocolDb data) :
    ∃ m : ClientMessage, m.Valid ∧ m.bytes = data := by
  cases data with
  | nil => exact hdata.elim
  | cons packetId t =>
      have hsize : protocolDb packetId = (packetId :: t).length := hdata
      have hne : protocolDb packetId ≠ 0 := by
        rw [hsize]
        exact Nat.succ_ne_zero _
      obtain ⟨h, rfl⟩ := exists_handler hne
      have hlength : protocolDb h.packetId = t.length + 1 := hsize
      cases h with
      | handshake =>
          obtain ⟨version, buf₁, -, rfl, h₁⟩ := byte_inverts.exists_write (n := 129) (Nat.succ.inj hlength).symm
          obtain ⟨username, buf₂, hname, rfl, h₂⟩ := string_inverts.exists_write (n := 65) h₁
          obtain ⟨password, buf₃, hpassword, rfl, h₃⟩ := string_inverts.exists_write (n := 1) h₂
          obtain ⟨magic, -, rfl⟩ := byte_inverts.exists_write_nil h₃
          exact ⟨.handshake ⟨version, username, password, magic⟩, ⟨hname, hpassword⟩, rfl⟩
      | ping =>
          obtain rfl := List.eq_nil_of_length_eq_zero (Nat.succ.inj hlength).symm
          exact ⟨.ping, trivial, rfl⟩
      | setBlock =>
          obtain ⟨p, -, hbytes⟩ := PacketSetBlockClient.roundTrips.serialized_parse _ hsize.symm rfl
          exact ⟨.setBlock p, trivial, hbytes⟩
      | playerPosition =>
          obtain ⟨id, buf₁, -, rfl, h₁⟩ := byte_inverts.exists_write (n := 8) (Nat.succ.inj hlength).symm
          obtain ⟨x, buf₂, -, rfl, h₂⟩ := short_inverts.exists_write (n := 6) h₁
          obtain ⟨y, buf₃, -, rfl, h₃⟩ := short_inverts.exists_write (n := 4) h₂
          obtain ⟨z, buf₄, -, rfl, h₄⟩ := short_inverts.exists_write (n := 2) h₃
          obtain ⟨yaw, buf₅, -, rfl, h₅⟩ := byte_inverts.exists_write (n := 1) h₄
          obtain ⟨pitch, -, rfl⟩ := byte_inverts.exists_write_nil h₅
          exact ⟨.setPlayerPosition ⟨id, ⟨x, y, z, yaw.toBitVec, pitch.toBitVec⟩⟩, trivial, rfl⟩
      | chatMessage =>
          obtain ⟨id, buf₁, -, rfl, h₁⟩ := byte_inverts.exists_write (n := 64) (Nat.succ.inj hlength).symm
          obtain ⟨message, hmessage, rfl⟩ := string_inverts.exists_write_nil h₁
          exact ⟨.chatMessage ⟨id, message⟩, hmessage, rfl⟩
      | extInfo =>
          obtain ⟨appName, buf₁, hname, rfl, h₁⟩ := string_inverts.exists_write (n := 2) (Nat.succ.inj hlength).symm
          obtain ⟨count, -, rfl⟩ := short_inverts.exists_write_nil h₁
          exact ⟨.extInfo ⟨appName, count⟩, hname, rfl⟩
      | extEntry =>
          obtain ⟨name, buf₁, hname, rfl, h₁⟩ := string_inverts.exists_write (n := 4) (Nat.succ.inj hlength).symm
          obtain ⟨version, -, rfl⟩ := int_inverts.exists_write_nil h₁
          exact ⟨.extEntry ⟨name, version⟩, hname, rfl⟩
      | twoWayPing =>
          refine ⟨.twoWayPing ⟨t.toArray, (Nat.succ.inj hlength).symm⟩, trivial, ?_⟩
          simp [bytes]
          rfl
      | extPing =>
          obtain ⟨p, -, hbytes⟩ := PacketExtPing.roundTrips.serialized_parse _ hsize.symm rfl
          exact ⟨.extPing p, trivial, hbytes⟩

end ClientMessage

/-! ## The handlers on frames -/

/-- Every frame has a handler, and that succeeds. -/
theorem handlePacketCode_of_isFrame {data : List UInt8} (hdata : IsFrame protocolDb data) :
    handlePacketCode data = ErrorCode.success := by
  obtain ⟨m, hm, rfl⟩ := ClientMessage.exists_of_isFrame hdata
  rw [handlePacketCode, ClientMessage.parse_bytes hm]
  rfl

namespace Net

/-- What the loop cuts off is a frame. -/
theorem isFrame_take {b : UInt8} {t : List UInt8} (hne : protocolDb b ≠ 0)
    (hlength : ¬ (b :: t).length < protocolDb b) : IsFrame protocolDb ((b :: t).take (protocolDb b)) := by
  obtain ⟨k, hk⟩ := Nat.exists_eq_succ_of_ne_zero hne
  rw [hk, List.take_succ_cons]
  show protocolDb b = (b :: t.take k).length
  rw [List.length_cons] at hlength ⊢
  rw [List.length_take]
  omega

/-- The loop hands over frames only. -/
theorem processPackets_congr {f g : List UInt8 → ErrorCode} (h : ∀ p, IsFrame protocolDb p → f p = g p)
    (data : List UInt8) (code : ErrorCode) : processPackets f data code = processPackets g data code := by
  fun_induction processPackets g data code with
  | case1 => rw [processPackets]
  | case2 b t hid => rw [processPackets, dif_pos hid]
  | case3 b t packetSize hid hlength => rw [processPackets, dif_neg hid, if_pos hlength]
  | case4 b t packetSize hid hlength packet handleResult hresult rest ih =>
      have hne : protocolDb b ≠ 0 := fun h0 => hid ((parsePacket_invalid_iff b).mpr h0)
      have hsame : f packet = handleResult := h _ (isFrame_take hne hlength)
      rw [processPackets, dif_neg hid, if_neg hlength]
      show (if (f packet).isPacketHandleSuccess = true then _ else _) = _
      rw [hsame, if_pos hresult, ih]
  | case5 b t packetSize hid hlength packet handleResult hresult =>
      have hne : protocolDb b ≠ 0 := fun h0 => hid ((parsePacket_invalid_iff b).mpr h0)
      have hsame : f packet = handleResult := h _ (isFrame_take hne hlength)
      rw [processPackets, dif_neg hid, if_neg hlength]
      show (if (f packet).isPacketHandleSuccess = true then _ else _) = _
      rw [hsame, if_neg hresult]

end Net

/-! ## The stream of a client -/

namespace ReceivePathStream

open Mmocraft.Net.ReceivePath

/-- The handlers succeed on all that the loop hands over. -/
theorem step_handlePacketCode (c : ReceivePath) (e : ReceivePath.Event) :
    ReceivePath.step handlePacketCode c e = ReceivePath.step (fun _ => ErrorCode.success) c e := by
  have hloop : handleIoEvent handlePacketCode = handleIoEvent fun _ => ErrorCode.success := by
    funext c data
    unfold handleIoEvent
    rw [processPackets_congr fun _ hframe => handlePacketCode_of_isFrame hframe]
  cases e with
  | flushReceive rioOk => rfl
  | complete chunk staysOnline => simp only [ReceivePath.step, onEventComplete, hloop]

/-- The receive path of a server is framed, whatever arrives. -/
theorem framed_of_run {buf : List UInt8} (hbuf : buf.length = tcpRecvBufferSize)
    {events : List ReceivePath.Event} {c : ReceivePath}
    (hrun : run (ReceivePath.step handlePacketCode) (ReceivePath.init buf) events = some c) :
    Framed events c := by
  apply run_invariant_trace (P := Framed) _ (init_framed hbuf) hrun
  intro es e s s' hs hstep
  rw [step_handlePacketCode] at hstep
  exact step_framed (fun _ => by decide) es e s s' hs hstep

end ReceivePathStream

open ReceivePathStream in
/-- **The handlers are given what the client sent.** In every run of receives, whatever arrives, each frame that
is handed over is a message that its handler reads completely.  And if the bytes that arrived are a beginning
of what a client wrote, the handlers were given exactly the messages that are complete. -/
theorem clientStream_handled {buf : List UInt8} (hbuf : buf.length = tcpRecvBufferSize)
    {events : List ReceivePath.Event} {c : ReceivePath}
    (hrun : run (ReceivePath.step handlePacketCode) (ReceivePath.init buf) events = some c) :
    (∀ data ∈ c.handled, ∃ m : ClientMessage, m.Valid ∧ m.bytes = data ∧
      ClientPacket.parse data = some m.packet) ∧
    ∀ sent : List ClientMessage, (∀ m ∈ sent, m.Valid) →
      ReceivePath.received events <+: sent.flatMap ClientMessage.bytes →
      ∃ done later, sent = done ++ later ∧
        c.handled.map ClientPacket.parse = done.map (fun m => some m.packet) ∧
        c.eventData.contents <+: later.flatMap ClientMessage.bytes ∧
        (∀ m, later.head? = some m → c.eventData.contents.length < m.bytes.length) ∧ c.isOnline = true := by
  have h : ReceivePath.Framed events c := framed_of_run hbuf hrun
  constructor
  · intro data hdata
    obtain ⟨m, hm, rfl⟩ := ClientMessage.exists_of_isFrame (h.frames.complete data hdata)
    exact ⟨m, hm, rfl, ClientMessage.parse_bytes hm⟩
  · intro sent hsent hbegin
    have hmessages : ∀ f ∈ sent.map ClientMessage.bytes, IsFrame protocolDb f := by
      intro f hf
      obtain ⟨m, -, rfl⟩ := List.mem_map.mp hf
      exact m.isFrame_bytes
    rw [List.flatMap_def] at hbegin
    obtain ⟨handled, later', rest, hsplit, hframes, hrest, hshort⟩ := Frames.of_beginning hmessages hbegin
    obtain ⟨hhandled, hcontents⟩ := h.frames.unique hframes
    obtain ⟨done, later, rfl, hdone, hlater⟩ := List.map_eq_append_iff.mp hsplit
    subst hdone hlater
    rw [← List.flatMap_def] at hrest
    rw [hhandled, hcontents]
    refine ⟨done, later, rfl, ?_, hrest, ?_, ?_⟩
    · rw [List.map_map]
      apply List.map_congr_left
      intro m hm
      exact ClientMessage.parse_bytes (hsent m (List.mem_append_left later hm))
    · intro m hm
      apply hshort
      rw [List.head?_map, hm, Option.map_some]
    · -- what is left begins with the first byte of a message
      refine (h.online ?_).1
      intro b t hb
      rw [hcontents] at hb
      cases later with
      | nil =>
          rw [hb] at hrest
          exact absurd (List.prefix_nil.mp hrest) (List.cons_ne_nil b t)
      | cons m later =>
          have hhead := m.head?_bytes
          have hlength := m.length_bytes
          rw [hb, List.flatMap_cons] at hrest
          cases hm : m.bytes with
          | nil =>
              rw [hm] at hhead
              exact nomatch hhead
          | cons b' t' =>
              rw [hm, List.cons_append] at hrest
              rw [hm] at hhead hlength
              obtain ⟨rfl, -⟩ := List.cons_prefix_cons.mp hrest
              obtain rfl := Option.some.inj hhead
              rw [← hlength]
              exact Nat.succ_ne_zero _

/-- A ping, a two-way ping and the first byte of a block change arrive together. -/
theorem clientStream_handled_pings : ∃ (buf : List UInt8) (c : ReceivePath),
    buf.length = tcpRecvBufferSize ∧
    run (ReceivePath.step handlePacketCode) (ReceivePath.init buf)
      [.flushReceive true, .complete [1, PacketTypeId.twoWayPing, 0, 7, 9, 5] true] = some c ∧
    (∀ data ∈ c.handled, ∃ m : ClientMessage, m.Valid ∧ m.bytes = data ∧
      ClientPacket.parse data = some m.packet) ∧
    ∃ done later, [.ping, .twoWayPing #v[0, 7, 9], .setBlock ⟨1, 2, 3, 0, 4⟩] = done ++ later ∧
      c.handled.map ClientPacket.parse = done.map (fun m => some m.packet) ∧
      c.eventData.contents <+: later.flatMap ClientMessage.bytes ∧
      (∀ m, later.head? = some m → c.eventData.contents.length < m.bytes.length) ∧ c.isOnline = true := by
  obtain ⟨buf, hbuf⟩ : ∃ buf : List UInt8, buf.length = tcpRecvBufferSize :=
    ⟨List.replicate tcpRecvBufferSize 0, List.length_replicate⟩
  have hunused : (IoRecvEventData.new buf).unusedSize = 4096 := hbuf
  let chunk : List UInt8 := [1, PacketTypeId.twoWayPing, 0, 7, 9, 5]
  let posted : ReceivePath := { ReceivePath.init buf with recvEvent := ⟨.new buf, true⟩ }
  have hflush : ReceivePath.step handlePacketCode (ReceivePath.init buf) (.flushReceive true) =
      some posted := by
    simp [ReceivePath.step, ReceivePath.init, IoRecvEvent.postRioEvent, hunused, maxSizeOfPacketStruct,
      posted]
  have hcomplete : ReceivePath.step handlePacketCode posted (.complete chunk true) =
      some (posted.onEventComplete handlePacketCode chunk true) := by
    simp [ReceivePath.step, posted, ReceivePath.eventData, hunused, chunk]
  have hrun : run (ReceivePath.step handlePacketCode) (ReceivePath.init buf)
      [.flushReceive true, .complete chunk true] =
        some (posted.onEventComplete handlePacketCode chunk true) := by
    rw [run_cons, hflush]
    exact (run_singleton _ _).trans hcomplete
  obtain ⟨hread, hsent⟩ := clientStream_handled hbuf hrun
  refine ⟨buf, _, hbuf, hrun, hread, hsent _ ?_ ?_⟩
  · intro m hm
    simp only [List.mem_cons, List.not_mem_nil, or_false] at hm
    rcases hm with rfl | rfl | rfl <;> trivial
  · show chunk <+: _
    decide

end Mmocraft
