/-
# Mmocraft.Io.RegisteredIo -- the buffer pools and the ranges that are posted

`RegisteredIO` owns two `RioBufferPool`s, each cut into one buffer for every connection id.  The event
data of a connection points into its buffers, and what is posted to RIO is a pointer converted back to
an offset of the pool.  For the events of one connection the result is that every posted range lies in
the buffer of its connection id.

A multicast that does not fit the send buffer is posted by `multicast_send`, from memory registered for
its own data: no part of either pool.

Slices of different connection ids are disjoint, so two connections never share a byte of a posted range as
long as they have different ids; that they do is for the connection table to say (`Server.PostedRanges`).
-/
import Mmocraft.Io.SendEvent
import Mmocraft.Lib.MachineInt
import Mmocraft.Lib.Ranges
import Mmocraft.Net.ReceivePath

namespace Mmocraft.Io

open Mmocraft.Lib Mmocraft.Net

/-! ## The pools -/

/-- `RioBufferPool`, allocated at address `base`. -/
structure RioBufferPool where
  poolSize : Nat
  bufferSize : Nat
  /-- `_buffer`. -/
  base : Nat
  deriving DecidableEq, Repr

namespace RioBufferPool

/-- `offset`. -/
def offset (pool : RioBufferPool) (index : Nat) : Nat := pool.bufferSize * index

/-- `buffer`. -/
def buffer (pool : RioBufferPool) (index : Nat) : Nat := pool.base + pool.offset index

/-- The slice of a connection id. -/
def slice (pool : RioBufferPool) (index : Nat) : Range := Range.slice pool.bufferSize index

end RioBufferPool

/-- The pool that a `BufferId` names. -/
inductive RioBufferId where
  | recvBufferPool
  | sendBufferPool
  deriving DecidableEq, Repr

/-- `RIO_BUF`. -/
structure RioBuf where
  bufferId : RioBufferId
  offset : Nat
  length : Nat
  deriving DecidableEq, Repr

/-- The range of its pool. -/
def RioBuf.range (buf : RioBuf) : Range := ⟨buf.offset, buf.length⟩

/-- `RegisteredIO`, as far as its buffers go. -/
structure RegisteredIo where
  recvBufferPool : RioBufferPool
  sendBufferPool : RioBufferPool
  deriving DecidableEq, Repr

namespace RegisteredIo

/-- The constructor, with the addresses that the two pools get. -/
def new (maxConnections recvBase sendBase : Nat) : RegisteredIo where
  recvBufferPool := { poolSize := maxConnections, bufferSize := tcpRecvBufferSize, base := recvBase }
  sendBufferPool := { poolSize := maxConnections, bufferSize := tcpSendBufferSize, base := sendBase }

/-- The pool of a `BufferId`. -/
def pool (rio : RegisteredIo) : RioBufferId → RioBufferPool
  | .recvBufferPool => rio.recvBufferPool
  | .sendBufferPool => rio.sendBufferPool

/-- The `RIO_BUF` of `recv` and of `send`: the pointer as an offset of the pool. -/
def rioBuf (rio : RegisteredIo) (id : RioBufferId) (buf bufSize : Nat) : RioBuf where
  bufferId := id
  offset := ulong ((buf : Int) - (rio.pool id).buffer 0)
  length := ulong bufSize

/-- `RegisteredIO::recv`: what is passed to `RIOReceive`. -/
def recv (rio : RegisteredIo) (buf bufSize : Nat) : RioBuf := rio.rioBuf .recvBufferPool buf bufSize

/-- `RegisteredIO::send`: what is passed to `RIOSend`. -/
def send (rio : RegisteredIo) (buf bufSize : Nat) : RioBuf := rio.rioBuf .sendBufferPool buf bufSize

/-- The pools have a buffer for each of `n` connections, and their offsets fit 32 bits. -/
structure Addressable (rio : RegisteredIo) (n : Nat) : Prop where
  poolSize_eq : ∀ id, (rio.pool id).poolSize = n
  recv_bufferSize : rio.recvBufferPool.bufferSize = tcpRecvBufferSize
  send_bufferSize : rio.sendBufferPool.bufferSize = tcpSendBufferSize
  size_lt : ∀ id, (rio.pool id).bufferSize * n < 2 ^ 32

/-- The pools of the constructor, with a bound on the larger one. -/
theorem addressable_new {n : Nat} (recvBase sendBase : Nat) (h : n * tcpSendBufferSize < 2 ^ 32) :
    (new n recvBase sendBase).Addressable n where
  poolSize_eq id := by cases id <;> rfl
  recv_bufferSize := rfl
  send_bufferSize := rfl
  size_lt := by
    have hsend : tcpSendBufferSize * n < 2 ^ 32 := by rwa [Nat.mul_comm]
    have hrecv : tcpRecvBufferSize * n ≤ tcpSendBufferSize * n := Nat.mul_le_mul_right n (by decide)
    intro id
    cases id with
    | recvBufferPool => exact Nat.lt_of_le_of_lt hrecv hsend
    | sendBufferPool => exact hsend

/-- **Pointer to offset.** A range of the buffer of an index is posted as a range of its slice, where
the whole pool is addressable by 32 bits. -/
theorem rioBuf_inside {rio : RegisteredIo} {n : Nat} (hrio : rio.Addressable n) (id : RioBufferId)
    {index start len : Nat} (hindex : index < n)
    (hrange : start + len ≤ (rio.pool id).bufferSize) :
    (rio.rioBuf id ((rio.pool id).buffer index + start) len).range.Inside ((rio.pool id).slice index) := by
  have hpool := hrio.size_lt id
  have hstop := Range.slice_stop_le (rio.pool id).bufferSize hindex
  have hbuffer : (((rio.pool id).buffer index + start : Nat) : Int) - (rio.pool id).buffer 0 =
      (((rio.pool id).bufferSize * index + start : Nat) : Int) := by
    simp only [RioBufferPool.buffer, RioBufferPool.offset, Nat.mul_zero]
    omega
  -- neither the offset nor the length is cut by its conversion to `ULONG`
  simp only [RioBufferPool.slice, Range.slice, Range.stop] at hstop ⊢
  have hoffset : ulong (((rio.pool id).bufferSize * index + start : Nat) : Int) =
      (rio.pool id).bufferSize * index + start := by
    rw [ulong_of_nonneg (by omega) (by omega), Int.toNat_natCast]
  have hlength : ulong (len : Int) = len := by
    rw [ulong_of_nonneg (by omega) (by omega), Int.toNat_natCast]
  simp only [Range.Inside, Range.stop, RioBuf.range, rioBuf, hbuffer, hoffset, hlength]
  omega

end RegisteredIo

/-! ## The buffers of a connection -/

/-- The memory of one buffer, with whatever it held before. -/
abbrev SliceMemory (size : Nat) := { bytes : List UInt8 // bytes.length = size }

/-- `ConnectionIO`: its two events, and where the data of each points. The addresses are what the
constructors were given, so that it is a theorem and not a definition that they are those of the slices of
the connection. -/
structure PooledIo where
  connectionId : Nat
  /-- `_data` of the receive event data. -/
  recvData : Nat
  /-- `_data` of the send event data. -/
  sendData : Nat
  recv : ReceivePath
  send : IoSendEvent

/-- What happens on a connection.  The flushes are the visits of `flush_receive` and `flush_send`. -/
inductive PooledIo.Event where
  | push (bytes : PushData)
  | flushReceive (rioOk : Bool)
  /-- A receive completes with the bytes `chunk`; `handlePacket` is what the handler returns. -/
  | completeReceive (chunk : List UInt8) (handlePacket : List UInt8 → ErrorCode) (staysOnline : Bool)
  /-- A receive completes with `event_failed`. -/
  | failReceive
  | flushSend (rioOk : Bool)
  /-- A send completes with `n` transferred bytes. -/
  | completeSend (n : Nat)
  /-- A send completes with `event_failed`. -/
  | failSend

namespace PooledIo

/-- The constructor: `create_recv_io_event` and `create_send_io_event`. -/
def new (rio : RegisteredIo) (connectionId : Nat) (recvMemory : SliceMemory tcpRecvBufferSize)
    (sendMemory : SliceMemory tcpSendBufferSize) : PooledIo where
  connectionId := connectionId
  recvData := rio.recvBufferPool.buffer connectionId
  sendData := rio.sendBufferPool.buffer connectionId
  recv := .init recvMemory.1
  send := .init sendMemory.1

/-- `post_recv_event`, with the `RIO_BUF`s that are passed to RIO. -/
def postRecvEvent (rio : RegisteredIo) (x : PooledIo) (rioOk : Bool) : PooledIo × List RioBuf :=
  let event := x.recv.recvEvent
  -- an event that is posted, or has no room for a packet, is not posted
  if event.isProcessing || event.eventData.unusedSize < maxSizeOfPacketStruct then (x, [])
  else
    ({ x with recv := { x.recv with recvEvent := (event.postRioEvent rioOk).1 } },
      [rio.recv (x.recvData + event.eventData.size) event.eventData.unusedSize])

/-- `post_send_event`, with the `RIO_BUF`s that are passed to RIO. -/
def postSendEvent (rio : RegisteredIo) (x : PooledIo) (rioOk : Bool) : PooledIo × List RioBuf :=
  if x.send.isProcessing || x.send.eventData.size == 0 then (x, [])
  else
    ({ x with send := (x.send.postRioEvent rioOk).1 },
      [rio.send (x.sendData + x.send.eventData.dataHead.toNat) x.send.eventData.size])

/-- One event; `online` is that of the connection.  A flush visits no connection that is offline, and a
completion belongs to a posted range. -/
def step (rio : RegisteredIo) (online : Bool) (x : PooledIo) : Event → Option (PooledIo × List RioBuf)
  | .push bytes => some ({ x with send := x.send.push bytes.1 }, [])
  | .flushReceive rioOk => if online then some (x.postRecvEvent rio rioOk) else none
  | .completeReceive chunk handlePacket staysOnline =>
      if x.recv.recvEvent.isProcessing ∧ 0 < chunk.length ∧ chunk.length ≤ x.recv.eventData.unusedSize then
        let recv := { x.recv with isOnline := online }
        some ({ x with recv := recv.onEventComplete handlePacket chunk staysOnline }, [])
      else none
  | .failReceive =>
      if x.recv.recvEvent.isProcessing then
        let recvEvent := { x.recv.recvEvent with isProcessing := false }
        some ({ x with recv := { x.recv with recvEvent := recvEvent } }, [])
      else none
  | .flushSend rioOk => if online then some (x.postSendEvent rio rioOk) else none
  | .completeSend n => (x.send.step (.complete n)).map fun send => ({ x with send := send }, [])
  | .failSend => (x.send.step .eventFailed).map fun send => ({ x with send := send }, [])

/-- The event data point to the buffers of the connection id, and stay within them. -/
structure Ok (rio : RegisteredIo) (x : PooledIo) : Prop where
  recvData_eq : x.recvData = rio.recvBufferPool.buffer x.connectionId
  sendData_eq : x.sendData = rio.sendBufferPool.buffer x.connectionId
  recv_wellFormed : x.recv.eventData.WellFormed
  recv_capacity : x.recv.eventData.capacity = rio.recvBufferPool.bufferSize
  send_queue : x.send.Queue
  send_capacity : x.send.eventData.capacity = rio.sendBufferPool.bufferSize

theorem new_ok {rio : RegisteredIo} {n : Nat} (hrio : rio.Addressable n) (connectionId : Nat)
    (recvMemory : SliceMemory tcpRecvBufferSize) (sendMemory : SliceMemory tcpSendBufferSize) :
    (new rio connectionId recvMemory sendMemory).Ok rio where
  recvData_eq := rfl
  sendData_eq := rfl
  recv_wellFormed := IoRecvEventData.new_wellFormed _
  recv_capacity := recvMemory.2.trans hrio.recv_bufferSize.symm
  send_queue := by
    apply IoSendEvent.init_queue
    rw [sendMemory.2]
    decide
  send_capacity := sendMemory.2.trans hrio.send_bufferSize.symm

section Steps

variable {rio : RegisteredIo} {x : PooledIo} {n : Nat}

/-- A step of the send event keeps the capacity of its buffer. -/
theorem send_step_capacity {send send' : IoSendEvent} {e : IoSendEvent.Event} (h : send.Queue)
    (hstep : send.step e = some send') : send'.eventData.capacity = send.eventData.capacity := by
  cases e with
  | push bytes =>
      cases hstep
      exact IoSendEventData.push_capacity h.wellFormed bytes
  | postRioEvent rioOk =>
      cases hstep
      unfold IoSendEvent.postRioEvent
      split_ifs <;> rfl
  | complete transferred =>
      simp only [IoSendEvent.step] at hstep
      split at hstep
      · cases hstep
      · split_ifs at hstep
        cases hstep
        exact IoSendEventData.pop_capacity transferred
  | eventFailed =>
      simp only [IoSendEvent.step] at hstep
      split_ifs at hstep
      cases hstep
      rfl

/-- A step of the send event keeps the buffers of the connection in place. -/
theorem Ok.send_step (h : x.Ok rio) {send' : IoSendEvent} {e : IoSendEvent.Event}
    (hstep : x.send.step e = some send') : Ok rio { x with send := send' } where
  recvData_eq := h.recvData_eq
  sendData_eq := h.sendData_eq
  recv_wellFormed := h.recv_wellFormed
  recv_capacity := h.recv_capacity
  send_queue := IoSendEvent.step_queue _ e _ h.send_queue hstep
  send_capacity := (send_step_capacity h.send_queue hstep).trans h.send_capacity

/-- A change of the receive path keeps the buffers in place, if it keeps the buffer itself. -/
theorem Ok.recv_change (h : x.Ok rio) {recv' : ReceivePath} (hwell : recv'.eventData.WellFormed)
    (hcapacity : recv'.eventData.capacity = x.recv.eventData.capacity) : Ok rio { x with recv := recv' } where
  recvData_eq := h.recvData_eq
  sendData_eq := h.sendData_eq
  recv_wellFormed := hwell
  recv_capacity := hcapacity.trans h.recv_capacity
  send_queue := h.send_queue
  send_capacity := h.send_capacity

/-- **A posted receive.** Its range is the free part of the buffer. -/
theorem Ok.postRecvEvent (h : x.Ok rio) (hrio : rio.Addressable n) (hindex : x.connectionId < n)
    (rioOk : Bool) :
    (x.postRecvEvent rio rioOk).1.Ok rio ∧ (x.postRecvEvent rio rioOk).1.connectionId = x.connectionId ∧
      ∀ buf ∈ (x.postRecvEvent rio rioOk).2,
        buf.range.Inside ((rio.pool buf.bufferId).slice x.connectionId) := by
  have hsize : x.recv.eventData.size ≤ x.recv.eventData.capacity := h.recv_wellFormed
  have hcapacity := h.recv_capacity
  unfold PooledIo.postRecvEvent
  dsimp only
  split_ifs
  · exact ⟨h, rfl, fun _ hmem => nomatch hmem⟩
  · have hevent := IoRecvEvent.postRioEvent_eventData x.recv.recvEvent rioOk
    refine ⟨h.recv_change ?_ ?_, rfl, ?_⟩
    · show ((x.recv.recvEvent.postRioEvent rioOk).1.eventData).WellFormed
      rw [hevent]
      exact h.recv_wellFormed
    · show ((x.recv.recvEvent.postRioEvent rioOk).1.eventData).capacity = _
      rw [hevent]
      rfl
    · intro buf hbuf
      rw [List.mem_singleton.mp hbuf, h.recvData_eq]
      apply RegisteredIo.rioBuf_inside hrio .recvBufferPool hindex
      show x.recv.eventData.size + (x.recv.eventData.capacity - x.recv.eventData.size) ≤
        rio.recvBufferPool.bufferSize
      omega

/-- **A posted send.** Its range is the window of the buffer. -/
theorem Ok.postSendEvent (h : x.Ok rio) (hrio : rio.Addressable n) (hindex : x.connectionId < n)
    (rioOk : Bool) :
    (x.postSendEvent rio rioOk).1.Ok rio ∧ (x.postSendEvent rio rioOk).1.connectionId = x.connectionId ∧
      ∀ buf ∈ (x.postSendEvent rio rioOk).2,
        buf.range.Inside ((rio.pool buf.bufferId).slice x.connectionId) := by
  have hwell := h.send_queue.wellFormed
  have hhead := hwell.head_nonneg
  have hwindow := hwell.head_le_tail
  have htail := hwell.tail_le_capacity
  have hcapacity := h.send_capacity
  unfold PooledIo.postSendEvent
  split_ifs
  · exact ⟨h, rfl, fun _ hmem => nomatch hmem⟩
  · refine ⟨h.send_step (e := .postRioEvent rioOk) rfl, rfl, ?_⟩
    intro buf hbuf
    rw [List.mem_singleton.mp hbuf, h.sendData_eq]
    apply RegisteredIo.rioBuf_inside hrio .sendBufferPool hindex
    rw [IoSendEventData.size_eq hwell, IoSendEventData.length_contents hwell]
    show x.send.eventData.dataHead.toNat + (x.send.eventData.dataTail - x.send.eventData.dataHead).toNat ≤
      rio.sendBufferPool.bufferSize
    omega

/-- **One event.** The buffers stay in place, the connection keeps its id, and what is passed to RIO lies
in the slice of that id. -/
theorem Ok.step (h : x.Ok rio) (hrio : rio.Addressable n) (hindex : x.connectionId < n) {online : Bool}
    {e : Event} {x' : PooledIo} {bufs : List RioBuf} (hstep : x.step rio online e = some (x', bufs)) :
    x'.Ok rio ∧ x'.connectionId = x.connectionId ∧
      ∀ buf ∈ bufs, buf.range.Inside ((rio.pool buf.bufferId).slice x.connectionId) := by
  cases e with
  | push bytes =>
      cases hstep
      exact ⟨h.send_step (e := .push bytes) rfl, rfl, fun _ hmem => nomatch hmem⟩
  | flushReceive rioOk =>
      simp only [PooledIo.step] at hstep
      split_ifs at hstep
      have hposted := h.postRecvEvent hrio hindex rioOk
      rw [Option.some.inj hstep] at hposted
      exact hposted
  | completeReceive chunk handlePacket staysOnline =>
      simp only [PooledIo.step] at hstep
      split_ifs at hstep with hcomplete
      cases hstep
      obtain ⟨hwell, hcapacity, -⟩ := @ReceivePath.onEventComplete_eventData handlePacket
        { x.recv with isOnline := online } chunk staysOnline h.recv_wellFormed hcomplete.2.2
      exact ⟨h.recv_change hwell hcapacity, rfl, fun _ hmem => nomatch hmem⟩
  | failReceive =>
      simp only [PooledIo.step] at hstep
      split_ifs at hstep
      cases hstep
      exact ⟨h.recv_change h.recv_wellFormed rfl, rfl, fun _ hmem => nomatch hmem⟩
  | flushSend rioOk =>
      simp only [PooledIo.step] at hstep
      split_ifs at hstep
      have hposted := h.postSendEvent hrio hindex rioOk
      rw [Option.some.inj hstep] at hposted
      exact hposted
  | completeSend transferred =>
      obtain ⟨send', hsend, heq⟩ := Option.map_eq_some_iff.mp hstep
      cases heq
      exact ⟨h.send_step hsend, rfl, fun _ hmem => nomatch hmem⟩
  | failSend =>
      obtain ⟨send', hsend, heq⟩ := Option.map_eq_some_iff.mp hstep
      cases heq
      exact ⟨h.send_step hsend, rfl, fun _ hmem => nomatch hmem⟩

end Steps

end PooledIo

end Mmocraft.Io
