/-
# Mmocraft.Io.RecvEvent -- the receive buffer and its RIO event

`IoRecvEventDataImpl` keeps the received bytes at the front of a fixed buffer: the network appends
behind them, `push` with a null pointer only moves the end, and `pop` moves the remaining bytes
back to the front.  `IoRecvEvent` owns one such buffer and posts at most one receive at a time.
-/
import Mmocraft.Lib.Memory
import Mmocraft.Net.Packet

namespace Mmocraft.Io

open Mmocraft.Lib

/-- `config::memory::tcp_recv_buffer_size`. -/
def tcpRecvBufferSize : Nat := 4096

/-- `IoRecvEventDataImpl`: the buffer `_data` of `_capacity` bytes and the used size. -/
structure IoRecvEventData where
  data : List UInt8
  size : Nat
  deriving DecidableEq, Repr

namespace IoRecvEventData

/-- A fresh buffer over the given memory. -/
def new (buf : List UInt8) : IoRecvEventData := { data := buf, size := 0 }

def capacity (d : IoRecvEventData) : Nat := d.data.length

def unusedSize (d : IoRecvEventData) : Nat := d.capacity - d.size

/-- The bytes between `begin()` and `end()`. -/
def contents (d : IoRecvEventData) : List UInt8 := Memory.read d.data 0 d.size

/-- What the network does with a posted receive: the bytes land behind `end()`. -/
def fill (d : IoRecvEventData) (bytes : List UInt8) : IoRecvEventData :=
  { d with data := Memory.write d.data d.size bytes }

/-- `push(nullptr, n)`: the bytes are already in place, only the size grows. -/
def push (d : IoRecvEventData) (n : Nat) : IoRecvEventData :=
  { d with size := d.size + n }

/-- `pop(n)`: `memmove` the remaining bytes to the front, unless nothing remains. -/
def pop (d : IoRecvEventData) (n : Nat) : IoRecvEventData :=
  let remain := d.size - n
  if remain = 0 then { d with size := 0 }
  else { data := Memory.write d.data 0 (Memory.read d.data n remain), size := remain }

/-- The used part never leaves the buffer (the assertion in `push`). -/
def WellFormed (d : IoRecvEventData) : Prop := d.size ≤ d.capacity

theorem new_wellFormed (buf : List UInt8) : (new buf).WellFormed := Nat.zero_le _

@[simp] theorem contents_new (buf : List UInt8) : (new buf).contents = [] := by
  simp [new, contents]

theorem length_contents {d : IoRecvEventData} (h : d.WellFormed) : d.contents.length = d.size :=
  Memory.length_read (by simpa [WellFormed, capacity] using h)

section Receive

variable {d : IoRecvEventData} {bytes : List UInt8}

theorem capacity_fill_push (h : d.WellFormed) (hfit : bytes.length ≤ d.unusedSize) :
    ((d.fill bytes).push bytes.length).capacity = d.capacity := by
  simp only [WellFormed, unusedSize, capacity, fill, push] at h hfit ⊢
  exact Memory.length_write (by omega)

/-- Receiving into the free space keeps the buffer well formed ... -/
theorem fill_push_wellFormed (h : d.WellFormed) (hfit : bytes.length ≤ d.unusedSize) :
    ((d.fill bytes).push bytes.length).WellFormed := by
  unfold WellFormed
  rw [capacity_fill_push h hfit]
  simp only [WellFormed, unusedSize, fill, push] at h hfit ⊢
  omega

/-- ... and appends the received bytes to its contents. -/
theorem contents_fill_push (h : d.WellFormed) :
    ((d.fill bytes).push bytes.length).contents = d.contents ++ bytes := by
  have hsize : d.size ≤ d.data.length := h
  simp only [contents, fill, push]
  rw [Memory.read_add, Memory.read_write_below (by omega) hsize, Nat.zero_add,
    Memory.read_write_self hsize]

end Receive

section Pop

variable {d : IoRecvEventData} {n : Nat}

theorem capacity_pop (h : d.WellFormed) : (d.pop n).capacity = d.capacity := by
  have hsize : d.size ≤ d.data.length := h
  simp only [pop, capacity]
  split_ifs with hr
  · rfl
  · exact Memory.length_write (by rw [Memory.length_read (by omega)]; omega)

theorem pop_wellFormed (h : d.WellFormed) : (d.pop n).WellFormed := by
  have hcap : (d.pop n).capacity = d.capacity := capacity_pop h
  have hsize : d.size ≤ d.data.length := h
  unfold WellFormed
  rw [hcap]
  simp only [pop, capacity]
  split_ifs <;> simp only <;> omega

/-- `pop` removes the processed bytes from the front. -/
theorem contents_pop (h : d.WellFormed) : (d.pop n).contents = d.contents.drop n := by
  have hsize : d.size ≤ d.data.length := h
  simp only [pop, contents]
  rw [Memory.drop_read, Nat.zero_add]
  split_ifs with hr
  · rw [hr, Memory.read_zero_length, Memory.read_zero_length]
  · have hlen : (Memory.read d.data n (d.size - n)).length = d.size - n :=
      Memory.length_read (by omega)
    have hself : Memory.read (Memory.write d.data 0 (Memory.read d.data n (d.size - n))) 0
        (Memory.read d.data n (d.size - n)).length = Memory.read d.data n (d.size - n) :=
      Memory.read_write_self (Nat.zero_le _)
    rwa [hlen] at hself

end Pop

end IoRecvEventData

/-- `IoRecvEvent`: the event data and the flag that marks a posted receive. -/
structure IoRecvEvent where
  eventData : IoRecvEventData
  isProcessing : Bool
  deriving DecidableEq, Repr

namespace IoRecvEvent

/-- `IoRecvEvent::post_rio_event`; `rioOk` is the outcome of `RIOReceive`.  The free space is posted
as a whole. -/
def postRioEvent (e : IoRecvEvent) (rioOk : Bool) : IoRecvEvent × Bool :=
  if e.isProcessing || e.eventData.unusedSize < Net.maxSizeOfPacketStruct then (e, false)
  else ({ e with isProcessing := rioOk }, rioOk)

@[simp] theorem postRioEvent_eventData (e : IoRecvEvent) (rioOk : Bool) :
    (e.postRioEvent rioOk).1.eventData = e.eventData := by
  unfold postRioEvent
  split_ifs <;> rfl

/-- A free event with room for a packet structure is refused only by RIO itself. -/
theorem postRioEvent_accepted {e : IoRecvEvent} {rioOk : Bool} (hfree : e.isProcessing = false)
    (hroom : Net.maxSizeOfPacketStruct ≤ e.eventData.unusedSize) :
    (e.postRioEvent rioOk).2 = rioOk := by
  unfold postRioEvent
  rw [if_neg (by simp [hfree]; omega)]

end IoRecvEvent

end Mmocraft.Io
