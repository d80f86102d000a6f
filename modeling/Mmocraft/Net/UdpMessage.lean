/-
# Mmocraft.Net.UdpMessage -- requests with their buffer

`MessageRequest` as it lies in memory: a buffer of 2048 bytes, of which the first `_size` are a datagram
with a message id and the encoding of a protobuf message.  A request object is reused: a reply is
serialized into the buffer of the message it answers, and what a failed serialization leaves there is
sent as if it were the message.

Protobuf and the sockets are not part of the repository.  They are parameters, with what their
documentation says as fields and as hypotheses.

A message is set in one of three ways (`SendPath`), in a request object with any content, and sent with any
socket. The round trip is to the bytes and back to the message, for every message type that keeps what
protobuf promises.
-/
import Mmocraft.Lib.Memory
import Mmocraft.Net.UdpServer

namespace Mmocraft.Net

open Mmocraft.Lib

universe u

/-! ## Protobuf and sockets -/

/-- The functions of a protobuf message type that a request uses. -/
structure Protobuf (M : Type u) where
  encode : M → List UInt8
  byteSizeLong : M → Nat
  /-- The memory after the call, and what it returns. -/
  serializeToArray : M → List UInt8 → List UInt8 × Bool
  parseFromArray : List UInt8 → Option M
  length_serializeToArray : ∀ m memory, (serializeToArray m memory).1.length = memory.length

/-- What protobuf promises. Sizes are exact, a message that fits is written and nothing else is, and what
was encoded parses to what it was. -/
structure Protobuf.Lawful {M : Type u} (pb : Protobuf M) : Prop where
  byteSizeLong_eq : ∀ m, pb.byteSizeLong m = (pb.encode m).length
  serialize_fits : ∀ m memory, (pb.encode m).length ≤ memory.length →
    pb.serializeToArray m memory = (Memory.write memory 0 (pb.encode m), true)
  parse_encode : ∀ m, pb.parseFromArray (pb.encode m) = some m

/-- A socket for datagrams: `sendto` fails, or all bytes leave in one datagram. -/
structure DatagramSocket where
  sendto : IPAddress → List UInt8 → Option Nat
  sendto_whole : ∀ address bytes n, sendto address bytes = some n → n = bytes.length

/-! ## The request -/

/-- `message_id::value`. -/
inductive MessageId.Value where
  | invalid
  | ping
  | serverAnnouncement
  | chatCommand
  | fetchConfig
  | fetchServerAddress
  | packetHandshake
  | playerLogout
  | size
  deriving DecidableEq, Repr

/-- The integer of an enumerator. -/
def MessageId.Value.toInt : MessageId.Value → Int
  | .invalid => 0
  | .ping => 1
  | .serverAnnouncement => MessageId.serverAnnouncement
  | .chatCommand => MessageId.chatCommand
  | .fetchConfig => MessageId.fetchConfig
  | .fetchServerAddress => MessageId.fetchServerAddress
  | .packetHandshake => MessageId.packetHandshake
  | .playerLogout => MessageId.playerLogout
  | .size => 8

/-- `size_of_header()`. -/
def sizeOfHeader : Nat := 1

/-- `message_capacity()`. -/
def messageCapacity : Nat := udpBufferSize - sizeOfHeader

/-- `MessageRequest` with the whole of `_buf` and its two addresses. -/
@[ext] structure RequestBuffer where
  size : Nat
  buf : List UInt8
  reqAddress : IPAddress
  replyAddress : IPAddress
  size_pos : sizeOfHeader ≤ size
  size_le : size ≤ udpBufferSize
  length_buf : buf.length = udpBufferSize

namespace RequestBuffer

variable {M : Type u} (pb : Protobuf M) (r : RequestBuffer)

/-- The datagram in the buffer. -/
def toRequest : MessageRequest where
  data := r.buf.take r.size
  ne_nil := by
    have hsize := r.size_pos
    have hbuf := r.length_buf
    rw [← List.length_pos_iff, List.length_take, hbuf]
    exact Nat.lt_min.mpr ⟨hsize, by decide⟩
  length_le := by
    rw [List.length_take]
    exact Nat.le_trans (Nat.min_le_left _ _) r.size_le

/-- `message_id()`. -/
def messageId : Int := r.toRequest.messageId

/-- `reset`: the id becomes a `char`. -/
def reset (msgId : Int) : RequestBuffer where
  size := sizeOfHeader
  buf := Memory.write r.buf 0 [UInt8.ofBitVec (BitVec.ofInt 8 msgId)]
  reqAddress := r.reqAddress
  replyAddress := r.replyAddress
  size_pos := Nat.le_refl _
  size_le := by decide
  length_buf := by
    have hbuf := r.length_buf
    rw [Memory.length_write, hbuf]
    rw [hbuf, List.length_singleton]
    decide

/-- `set_size`. -/
def setSize (dataSize : Nat) (h : sizeOfHeader ≤ dataSize) : RequestBuffer where
  size := min dataSize udpBufferSize
  buf := r.buf
  reqAddress := r.reqAddress
  replyAddress := r.replyAddress
  size_pos := Nat.le_min.mpr ⟨h, by decide⟩
  size_le := Nat.min_le_right _ _
  length_buf := r.length_buf

/-- `set_message_size`. -/
def setMessageSize (msgSize : Nat) : RequestBuffer :=
  r.setSize (msgSize + sizeOfHeader) (Nat.le_add_left _ _)

/-- Bytes stored from `begin_message()` on. -/
def storeMessage (bytes : List UInt8) (h : bytes.length = (r.buf.drop sizeOfHeader).length) :
    RequestBuffer where
  size := r.size
  buf := r.buf.take sizeOfHeader ++ bytes
  reqAddress := r.reqAddress
  replyAddress := r.replyAddress
  size_pos := r.size_pos
  size_le := r.size_le
  length_buf := by
    rw [List.length_append, h, ← List.length_append, List.take_append_drop, r.length_buf]

/-- `set_message`.  What `SerializeToArray` returns is not used. -/
def setMessage (m : M) : RequestBuffer :=
  (r.storeMessage (pb.serializeToArray m (r.buf.drop sizeOfHeader)).1
    (pb.length_serializeToArray _ _)).setMessageSize (pb.byteSizeLong m)

/-- `parse_message`. -/
def parseMessage : Option M := pb.parseFromArray r.toRequest.message

/-- `read_message`, for the datagram that arrives from `sender`.  One that exceeds the buffer fills it,
and `recvfrom` fails. -/
def readMessage (sender : IPAddress) (datagram : List UInt8) : Bool × RequestBuffer :=
  let received : RequestBuffer :=
    { r with
      buf := Memory.write r.buf 0 (datagram.take udpBufferSize)
      replyAddress := sender
      length_buf := by
        have hbuf := r.length_buf
        rw [Memory.length_write, hbuf]
        rw [List.length_take, hbuf, Nat.zero_add]
        exact Nat.min_le_left _ _ }
  if h : sizeOfHeader ≤ datagram.length ∧ datagram.length ≤ udpBufferSize then
    (true, received.setSize datagram.length h.1)
  else (false, received)

/-- `flush_send`: its result, and the datagram that leaves. -/
def flushSend (isReply : Bool) (socket : DatagramSocket) : Bool × Option (IPAddress × List UInt8) :=
  let address := if isReply then r.replyAddress else r.reqAddress
  let datagram := r.toRequest.data
  match socket.sendto address datagram with
  | none => (false, none)
  | some transferred => (true, some (address, datagram.take transferred))

/-- The constructor with a message, on uninitialized memory. -/
def new (memory : RequestBuffer) (msgId : MessageId.Value) (m : M) : RequestBuffer :=
  (memory.reset msgId.toInt).setMessage pb m

/-- `send_message`. -/
def sendMessage (m : M) (socket : DatagramSocket) : Bool × Option (IPAddress × List UInt8) :=
  (r.setMessage pb m).flushSend false socket

/-- `send_reply`. -/
def sendReply (m : M) (socket : DatagramSocket) : Bool × Option (IPAddress × List UInt8) :=
  (r.setMessage pb m).flushSend true socket

/-! ## What a request holds -/

theorem buf_eq_cons : r.buf = r.toRequest.header :: r.buf.drop sizeOfHeader := by
  have hsize := r.size_pos
  have hbuf := r.length_buf
  obtain ⟨size, buf, _, _, hpos, _, _⟩ := r
  cases buf with
  | nil => exact absurd hbuf (show (0 : Nat) ≠ udpBufferSize by decide)
  | cons first rest =>
      obtain ⟨n, rfl⟩ : ∃ n, size = n + 1 := ⟨size - 1, by rw [sizeOfHeader] at hpos; omega⟩
      rfl

theorem length_messageArea : (r.buf.drop sizeOfHeader).length = messageCapacity := by
  rw [List.length_drop, r.length_buf, messageCapacity]

/-- A message that fits stands behind the id, alone. -/
theorem data_setMessage_of_fits {pb : Protobuf M} (h : pb.Lawful) {m : M}
    (hm : (pb.encode m).length ≤ messageCapacity) :
    (r.setMessage pb m).toRequest.data = r.toRequest.header :: pb.encode m := by
  have hfirst : r.buf.take sizeOfHeader = [r.toRequest.header] := by
    rw [r.buf_eq_cons]
    rfl
  have hsize : min (pb.byteSizeLong m + sizeOfHeader) udpBufferSize = (pb.encode m).length + 1 := by
    rw [h.byteSizeLong_eq, sizeOfHeader]
    rw [messageCapacity, sizeOfHeader] at hm
    have hcapacity : udpBufferSize = 2048 := rfl
    omega
  -- what the memory held behind the message is cut off by the size
  have hbytes := h.serialize_fits m (r.buf.drop sizeOfHeader) (by rwa [length_messageArea])
  have hbuf : (r.setMessage pb m).buf = r.toRequest.header :: (pb.encode m ++
      (r.buf.drop sizeOfHeader).drop (pb.encode m).length) := by
    simp only [setMessage, setMessageSize, setSize, storeMessage, hbytes, hfirst, Memory.write,
      List.take_zero, List.nil_append, Nat.zero_add, List.singleton_append]
  have hdata : (r.setMessage pb m).toRequest.data =
      (r.setMessage pb m).buf.take (min (pb.byteSizeLong m + sizeOfHeader) udpBufferSize) := rfl
  rw [hdata, hbuf, hsize, List.take_succ_cons, List.take_left]

/-- A success is a whole datagram. -/
theorem flushSend_success (isReply : Bool) (socket : DatagramSocket)
    (h : (r.flushSend isReply socket).1 = true) :
    ∃ address, (r.flushSend isReply socket).2 = some (address, r.toRequest.data) := by
  rw [flushSend] at h ⊢
  cases hsendto : socket.sendto (if isReply then r.replyAddress else r.reqAddress) r.toRequest.data with
  | none =>
      rw [hsendto] at h
      cases h
  | some transferred =>
      refine ⟨if isReply then r.replyAddress else r.reqAddress, ?_⟩
      dsimp only
      rw [socket.sendto_whole _ _ _ hsendto, List.take_length]

/-- A datagram of a message is read as what it is. -/
theorem readMessage_data (sender : IPAddress) (request : MessageRequest) :
    ∃ received, r.readMessage sender request.data = (true, received) ∧ received.toRequest = request := by
  have hpos : sizeOfHeader ≤ request.data.length := List.length_pos_iff.mpr request.ne_nil
  have hle := request.length_le
  rw [readMessage, dif_pos ⟨hpos, hle⟩]
  refine ⟨_, rfl, ?_⟩
  have hdata : ∀ r' : RequestBuffer, r'.toRequest.data = request.data → r'.toRequest = request := by
    intro r' heq
    cases request
    cases hr : r'.toRequest
    rw [hr] at heq
    cases heq
    rfl
  apply hdata
  simp only [toRequest, setSize, Nat.min_eq_left hle, List.take_of_length_le hle]
  rw [Memory.write, List.take_zero, List.nil_append, List.take_left]

end RequestBuffer

/-! ## The round trip -/

/-- The ways in which a message is set and sent. -/
inductive SendPath where
  /-- A request constructed with the message, on uninitialized memory. -/
  | constructed (memory : RequestBuffer) (msgId : MessageId.Value)
  | sendMessage (r : RequestBuffer)
  | sendReply (r : RequestBuffer)

namespace SendPath

variable {M : Type u}

/-- The id that goes with the message. -/
def messageId : SendPath → Int
  | .constructed _ msgId => msgId.toInt
  | .sendMessage r => r.messageId
  | .sendReply r => r.messageId

/-- The result of the path, and the datagram that leaves. -/
def send (pb : Protobuf M) (m : M) (socket : DatagramSocket) :
    SendPath → Bool × Option (IPAddress × List UInt8)
  | .constructed memory msgId => (RequestBuffer.new pb memory msgId m).flushSend false socket
  | .sendMessage r => r.sendMessage pb m socket
  | .sendReply r => r.sendReply pb m socket

/-- The object that the message is set in, and whether it is sent as a reply. -/
def target : SendPath → RequestBuffer × Bool
  | .constructed memory msgId => (memory.reset msgId.toInt, false)
  | .sendMessage r => (r, false)
  | .sendReply r => (r, true)

/-- Each path sets a message and sends. -/
theorem send_eq (pb : Protobuf M) (m : M) (socket : DatagramSocket) (path : SendPath) :
    path.send pb m socket = (path.target.1.setMessage pb m).flushSend path.target.2 socket := by
  cases path <;> rfl

/-- The ids survive the `char` of the header. -/
theorem messageId_reset (memory : RequestBuffer) (msgId : MessageId.Value) :
    (memory.reset msgId.toInt).messageId = msgId.toInt := by
  cases msgId <;> rfl

theorem messageId_target (path : SendPath) : path.target.1.messageId = path.messageId := by
  cases path with
  | constructed memory msgId => exact messageId_reset memory msgId
  | sendMessage r => rfl
  | sendReply r => rfl

end SendPath

section RoundTrip

variable {M : Type u}

/-- The sender reports failure, or one datagram leaves: behind its id is the encoding and nothing else,
and every receiver reads the id and the message. -/
def Delivered (pb : Protobuf M) (messageId : Int) (m : M) (sent : Bool × Option (IPAddress × List UInt8)) :
    Prop :=
  sent.1 = true → ∃ address datagram, sent.2 = some (address, datagram) ∧
    datagram.tail = pb.encode m ∧
      ∀ (receiver : RequestBuffer) (sender : IPAddress), ∃ received,
        receiver.readMessage sender datagram = (true, received) ∧ received.messageId = messageId ∧
          received.parseMessage pb = some m

/-- A socket that never fails. -/
def DatagramSocket.reliable : DatagramSocket where
  sendto _ bytes := some bytes.length
  sendto_whole _ _ _ h := (Option.some.inj h).symm

/-- A message that fits its buffer is delivered, or the socket failed. -/
theorem delivered_of_fits {pb : Protobuf M} (h : pb.Lawful) {m : M}
    (hm : (pb.encode m).length ≤ messageCapacity) (r : RequestBuffer) (isReply : Bool)
    (socket : DatagramSocket) :
    Delivered pb r.messageId m ((r.setMessage pb m).flushSend isReply socket) := by
  have hdata := r.data_setMessage_of_fits h hm
  intro hsent
  obtain ⟨address, hdatagram⟩ := (r.setMessage pb m).flushSend_success isReply socket hsent
  refine ⟨address, _, hdatagram, ?_, ?_⟩
  · rw [hdata, List.tail_cons]
  · intro receiver sender
    obtain ⟨received, hread, hrequest⟩ := receiver.readMessage_data sender (r.setMessage pb m).toRequest
    refine ⟨received, hread, ?_, ?_⟩
    · rw [RequestBuffer.messageId, RequestBuffer.messageId, hrequest, MessageRequest.messageId,
        MessageRequest.messageId, MessageRequest.header]
      simp only [hdata, List.head_cons]
    · rw [RequestBuffer.parseMessage, hrequest, MessageRequest.message, hdata]
      exact h.parse_encode m

/-- What a reliable socket sends for a message delivers it only if the message fits. -/
theorem fits_of_delivered {pb : Protobuf M} {m : M} {messageId : Int} (r : RequestBuffer) (isReply : Bool)
    (h : Delivered pb messageId m ((r.setMessage pb m).flushSend isReply .reliable)) :
    (pb.encode m).length ≤ messageCapacity := by
  obtain ⟨address, datagram, hsent, hbytes, -⟩ := h rfl
  have hdatagram : (r.setMessage pb m).toRequest.data = datagram := by
    have hpair := congrArg Prod.snd (Option.some.inj hsent)
    dsimp only at hpair
    rwa [List.take_length] at hpair
  -- a datagram of a request is never longer than the buffer
  rw [← hbytes, ← hdatagram, List.length_tail, messageCapacity, sizeOfHeader]
  exact Nat.sub_le_sub_right (r.setMessage pb m).toRequest.length_le 1

/-- **A message makes the round trip, or its sender reports failure, exactly if its encoding fits behind
the header**: a longer one is not serialized, and what the buffer held is sent in its place. -/
theorem datagram_roundTrip_iff {pb : Protobuf M} (h : pb.Lawful) (path : SendPath) (m : M) :
    (∀ socket, Delivered pb path.messageId m (path.send pb m socket)) ↔
      (pb.encode m).length ≤ messageCapacity := by
  simp only [SendPath.send_eq]
  constructor
  · intro hdelivered
    exact fits_of_delivered _ _ (hdelivered .reliable)
  · intro hm socket
    rw [← SendPath.messageId_target]
    exact delivered_of_fits h hm _ _ socket

/-! ## Messages of bytes -/

/-- A message type that is its own encoding: nothing is written where the memory is too small. -/
def rawBytes : Protobuf (List UInt8) where
  encode m := m
  byteSizeLong m := m.length
  serializeToArray m memory :=
    if m.length ≤ memory.length then (Memory.write memory 0 m, true) else (memory, false)
  parseFromArray bytes := some bytes
  length_serializeToArray m memory := by
    split_ifs with hfits
    · exact Memory.length_write (by rwa [Nat.zero_add])
    · rfl

theorem rawBytes_lawful : rawBytes.Lawful where
  byteSizeLong_eq _ := rfl
  serialize_fits _ _ hfits := if_pos hfits
  parse_encode _ := rfl

/-- A request object that has been cleared. -/
def cleared : RequestBuffer where
  size := sizeOfHeader
  buf := List.replicate udpBufferSize 0
  reqAddress := {}
  replyAddress := {}
  size_pos := Nat.le_refl _
  size_le := by decide
  length_buf := List.length_replicate

theorem roundTrip_ping :
    (∀ socket, Delivered rawBytes (SendPath.constructed cleared .ping).messageId [1, 2, 3]
      ((SendPath.constructed cleared .ping).send rawBytes [1, 2, 3] socket)) ↔
      (rawBytes.encode [1, 2, 3]).length ≤ messageCapacity :=
  datagram_roundTrip_iff rawBytes_lawful _ _

/-- A reply of 2048 bytes is answered by what the request object held. -/
theorem oversized_reply_not_delivered :
    ¬ ∀ socket, Delivered rawBytes (SendPath.sendReply cleared).messageId (List.replicate 2048 0x41)
      ((SendPath.sendReply cleared).send rawBytes (List.replicate 2048 0x41) socket) := by
  intro hdelivered
  have hfits := fits_of_delivered cleared true (hdelivered .reliable)
  have hlength : (rawBytes.encode (List.replicate 2048 0x41)).length = 2048 := List.length_replicate
  rw [hlength] at hfits
  exact absurd hfits (by decide)

end RoundTrip

end Mmocraft.Net
