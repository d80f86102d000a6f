/-
# Mmocraft.Io.EventData -- the implementations of event data as queues

`IoRecvEventDataImpl` keeps its bytes at the front of the buffer, `IoSendEventDataImpl` moves its ends
forward and starts again at a push that finds it empty, `IoSendEventLockFreeDataImpl` starts again at the
pop that empties it.  The two send buffers are queues.  The receive buffer copies pushed data to
`begin()`, where the send buffers copy to `end()`: it is a queue only as long as data are pushed to an
empty buffer.

The queue they are compared with has no memory: what was pushed and not popped, in order. `Simulates` of
`Lib.FifoQueue` gives, for every sequence of calls whose pushes fit, that each push is accepted and that the
contents are those of the queue; the receive buffer needs a condition on the pushes for that, the send buffers
need none.
-/
import Mmocraft.Io.RecvEvent
import Mmocraft.Io.SendEvent
import Mmocraft.Lib.FifoQueue

namespace Mmocraft.Io

open Mmocraft.Lib

/-- A buffer whose size an `int` holds. -/
abbrev BufferMemory := { buf : List UInt8 // buf.length < 2 ^ 31 }

/-! ## IoRecvEventDataImpl -/

namespace IoRecvEventData

/-- `push` of data that are not null. -/
def pushData (d : IoRecvEventData) (bytes : List UInt8) : IoRecvEventData × Bool :=
  ({ data := Memory.write d.data 0 bytes, size := d.size + bytes.length }, true)

/-- The receive buffer as a queue. -/
def queueImpl (capacity : Nat) : QueueImpl IoRecvEventData UInt8 where
  capacity := capacity
  push := pushData
  pop := pop
  contents := contents

/-- Nothing is pushed, or the buffer is empty. -/
def PushesToEmpty (queue bytes : List UInt8) : Prop := bytes = [] ∨ queue = []

instance (queue bytes : List UInt8) : Decidable (PushesToEmpty queue bytes) :=
  inferInstanceAs (Decidable (_ ∨ _))

/-- The relation to the queue. -/
structure IsQueue (capacity : Nat) (d : IoRecvEventData) (queue : List UInt8) (pushed : Nat) : Prop where
  capacity_eq : d.capacity = capacity
  wellFormed : d.WellFormed
  contents_eq : d.contents = queue

/-- A new receive buffer is empty. -/
theorem isQueue_new (buf : List UInt8) : IsQueue buf.length (new buf) [] 0 :=
  ⟨rfl, new_wellFormed buf, contents_new buf⟩

theorem IsQueue.size_eq {capacity : Nat} {d : IoRecvEventData} {queue : List UInt8} {pushed : Nat}
    (h : IsQueue capacity d queue pushed) : d.size = queue.length := by
  rw [← length_contents h.wellFormed, h.contents_eq]

/-- A receive buffer is a queue while data are pushed to an empty one. -/
theorem simulates (capacity : Nat) :
    (queueImpl capacity).Simulates PushesToEmpty (IsQueue capacity) where
  contents h := h.contents_eq
  push {d queue pushed bytes} h hG hfit := by
    refine ⟨rfl, ?_⟩
    have hsize := h.size_eq
    have hcap : d.data.length = capacity := h.capacity_eq
    rcases hG with rfl | rfl
    · -- nothing moves
      have hsame : (d.pushData []).1 = d := by
        simp only [pushData, Memory.write_nil, List.length_nil, Nat.add_zero]
      rw [List.append_nil]
      show IsQueue capacity (d.pushData []).1 queue _
      rw [hsame]
      exact ⟨h.capacity_eq, h.wellFormed, h.contents_eq⟩
    · -- the front of the buffer is its end
      have hfit' : bytes.length ≤ capacity := le_trans (Nat.le_add_left _ _) hfit
      have hlength : (Memory.write d.data 0 bytes).length = capacity := by
        rw [Memory.length_write (by omega), hcap]
      have hzero : d.size = 0 := hsize
      refine ⟨hlength, ?_, ?_⟩
      · show d.size + bytes.length ≤ (Memory.write d.data 0 bytes).length
        omega
      · show Memory.read (Memory.write d.data 0 bytes) 0 (d.size + bytes.length) = [] ++ bytes
        rw [hzero, Nat.zero_add, Memory.read_write_self (Nat.zero_le _), List.nil_append]
  pop h _ := ⟨(capacity_pop h.wellFormed).trans h.capacity_eq, pop_wellFormed h.wellFormed,
    (contents_pop h.wellFormed).trans (by rw [h.contents_eq])⟩

end IoRecvEventData

/-! ## IoSendEventDataImpl -/

/-- `IoSendEventDataImpl`: the buffer `_data` of `_capacity` bytes and the window. -/
structure IoSendEventDataImpl where
  data : List UInt8
  dataHead : Int
  dataTail : Int
  deriving DecidableEq, Repr

namespace IoSendEventDataImpl

/-- A fresh buffer over the given memory. -/
def new (buf : List UInt8) : IoSendEventDataImpl := { data := buf, dataHead := 0, dataTail := 0 }

def capacity (d : IoSendEventDataImpl) : Nat := d.data.length

def unusedSize (d : IoSendEventDataImpl) : Nat := sizeT (d.capacity - sizeT d.dataTail)

/-- The bytes between `begin()` and `end()`. -/
def contents (d : IoSendEventDataImpl) : List UInt8 :=
  Memory.read d.data d.dataHead.toNat (d.dataTail - d.dataHead).toNat

/-- An empty window goes back to the start of the buffer. -/
def reset (d : IoSendEventDataImpl) : IoSendEventDataImpl :=
  if d.dataHead = d.dataTail then { d with dataHead := 0, dataTail := 0 } else d

def push (d : IoSendEventDataImpl) (bytes : List UInt8) : IoSendEventDataImpl × Bool :=
  let d := d.reset
  if bytes.length > d.unusedSize then (d, false)
  else ({ d with data := Memory.write d.data d.dataTail.toNat bytes
                 dataTail := int32 (d.dataTail + int32 bytes.length) }, true)

def pop (d : IoSendEventDataImpl) (n : Nat) : IoSendEventDataImpl :=
  { d with dataHead := int32 (d.dataHead + int32 n) }

/-- The send buffer as a queue. -/
def queueImpl (capacity : Nat) : QueueImpl IoSendEventDataImpl UInt8 where
  capacity := capacity
  push := push
  pop := pop
  contents := contents

/-- The relation to the queue: the tail has moved by what was pushed since the queue was empty. -/
structure IsQueue (capacity : Nat) (d : IoSendEventDataImpl) (queue : List UInt8) (pushed : Nat) :
    Prop where
  capacity_eq : d.capacity = capacity
  head_nonneg : 0 ≤ d.dataHead
  head_le_tail : d.dataHead ≤ d.dataTail
  tail_le_capacity : d.dataTail ≤ capacity
  contents_eq : d.contents = queue
  tail_le_pushed : queue ≠ [] → d.dataTail ≤ pushed

/-- So is a new send buffer. -/
theorem isQueue_new (buf : List UInt8) : IsQueue buf.length (new buf) [] 0 where
  capacity_eq := rfl
  head_nonneg := le_refl _
  head_le_tail := le_refl _
  tail_le_capacity := Int.natCast_nonneg _
  contents_eq := by simp [new, contents]
  tail_le_pushed h := absurd rfl h

section IsQueue

variable {capacity : Nat} {d : IoSendEventDataImpl} {queue : List UInt8} {pushed : Nat}

theorem IsQueue.length_queue (h : IsQueue capacity d queue pushed) :
    (queue.length : Int) = d.dataTail - d.dataHead := by
  have hcap : d.data.length = capacity := h.capacity_eq
  have hhead := h.head_nonneg
  have htail := h.head_le_tail
  have hle := h.tail_le_capacity
  have hlength : d.contents.length = (d.dataTail - d.dataHead).toNat :=
    Memory.length_read (by omega)
  rw [← h.contents_eq, hlength]
  omega

/-- After the reset the tail is never past what was pushed since the queue was empty. -/
theorem IsQueue.reset (h : IsQueue capacity d queue pushed) :
    IsQueue capacity d.reset queue pushed ∧ d.reset.dataTail ≤ pushed := by
  have hlength := h.length_queue
  unfold IoSendEventDataImpl.reset
  split_ifs with hempty
  · obtain rfl : queue = [] := List.eq_nil_of_length_eq_zero (by omega)
    refine ⟨⟨h.capacity_eq, le_refl _, le_refl _, Int.natCast_nonneg _, ?_, fun hne => absurd rfl hne⟩,
      Int.natCast_nonneg _⟩
    simp [contents]
  · have hne : queue ≠ [] := by
      rintro rfl
      rw [List.length_nil] at hlength
      omega
    exact ⟨h, h.tail_le_pushed hne⟩

/-- A push that fits behind what was pushed since the queue was empty is written at the tail. -/
theorem IsQueue.push_eq (h : IsQueue capacity d queue pushed) (hcapacity : capacity < 2 ^ 31)
    {bytes : List UInt8} (hfit : pushed + bytes.length ≤ capacity) :
    d.push bytes = ({ d.reset with
      data := Memory.write d.reset.data d.reset.dataTail.toNat bytes
      dataTail := d.reset.dataTail + bytes.length }, true) := by
  obtain ⟨hr, htail⟩ := h.reset
  have hhead := hr.head_nonneg
  have hwindow := hr.head_le_tail
  have hunused : d.reset.unusedSize = capacity - d.reset.dataTail.toNat := by
    rw [unusedSize, hr.capacity_eq, sizeT_of_nonneg (x := d.reset.dataTail) (by omega) (by omega),
      sizeT_of_nonneg (by omega) (by omega)]
    omega
  simp only [IoSendEventDataImpl.push]
  rw [if_neg (by rw [hunused]; omega),
    int32_of_range (x := (bytes.length : Int)) (by omega) (by omega),
    int32_of_range (by omega) (by omega)]

/-- Bytes written at the tail extend the window. -/
theorem IsQueue.contents_write (h : IsQueue capacity d queue pushed) (bytes : List UInt8) :
    Memory.read (Memory.write d.data d.dataTail.toNat bytes) d.dataHead.toNat
      (d.dataTail + bytes.length - d.dataHead).toNat = queue ++ bytes := by
  have hcap : d.data.length = capacity := h.capacity_eq
  have hhead := h.head_nonneg
  have hwindow := h.head_le_tail
  have htail := h.tail_le_capacity
  have hend : d.dataHead.toNat + (d.dataTail - d.dataHead).toNat = d.dataTail.toNat := by omega
  have hlength : (d.dataTail + bytes.length - d.dataHead).toNat =
      (d.dataTail - d.dataHead).toNat + bytes.length := by omega
  rw [← h.contents_eq, hlength, ← hend]
  exact Memory.read_write_append (by omega)

/-- A pop moves the head. -/
theorem IsQueue.pop_eq (h : IsQueue capacity d queue pushed) (hcapacity : capacity < 2 ^ 31) {n : Nat}
    (hn : n ≤ queue.length) : d.pop n = { d with dataHead := d.dataHead + n } := by
  have hlength := h.length_queue
  have hhead := h.head_nonneg
  have hle := h.tail_le_capacity
  rw [IoSendEventDataImpl.pop, int32_of_range (x := (n : Int)) (by omega) (by omega),
    int32_of_range (by omega) (by omega)]

theorem simulates (hcapacity : capacity < 2 ^ 31) :
    (queueImpl capacity).Simulates (fun _ _ => True) (IsQueue capacity) where
  contents h := h.contents_eq
  push {d queue pushed bytes} h _ hfit := by
    obtain ⟨hr, htail⟩ := h.reset
    have hfit' : pushed + bytes.length ≤ capacity := hfit
    have hcap : d.reset.data.length = capacity := hr.capacity_eq
    have hhead := hr.head_nonneg
    have hwindow := hr.head_le_tail
    show (d.push bytes).2 = true ∧ IsQueue capacity (d.push bytes).1 _ _
    rw [h.push_eq hcapacity hfit']
    refine ⟨rfl, ⟨?_, hhead, by simp only; omega, by simp only; omega, hr.contents_write bytes,
      fun hne => ?_⟩⟩
    · exact (Memory.length_write (by omega)).trans hcap
    · rw [QueueImpl.sinceEmpty_of_ne_nil hne]
      simp only
      omega
  pop {d queue pushed n} h hn := by
    have hlength := h.length_queue
    have hhead := h.head_nonneg
    show IsQueue capacity (d.pop n) _ _
    rw [h.pop_eq hcapacity hn]
    refine ⟨h.capacity_eq, by simp only; omega, by simp only; omega, h.tail_le_capacity, ?_, fun hne => ?_⟩
    · have hdrop := Memory.drop_read d.data d.dataHead.toNat (d.dataTail - d.dataHead).toNat n
      rw [show (d.dataTail - d.dataHead).toNat - n = (d.dataTail - (d.dataHead + n)).toNat by omega,
        show d.dataHead.toNat + n = (d.dataHead + n).toNat by omega] at hdrop
      exact hdrop.symm.trans (congrArg (List.drop n) h.contents_eq)
    · -- the tail stays, and so does the count while the queue is not empty
      rw [QueueImpl.sinceEmpty_of_ne_nil hne]
      refine h.tail_le_pushed ?_
      rintro rfl
      exact hne List.drop_nil

end IsQueue

end IoSendEventDataImpl

/-! ## IoSendEventLockFreeDataImpl -/

namespace IoSendEventData

/-- The lock-free send buffer as a queue. -/
def queueImpl (capacity : Nat) : QueueImpl IoSendEventData UInt8 where
  capacity := capacity
  push := push
  pop := pop
  contents := contents

/-- The relation to the queue: the tail has moved by what was pushed since the queue was empty. -/
structure IsQueue (capacity : Nat) (d : IoSendEventData) (queue : List UInt8) (pushed : Nat) : Prop where
  capacity_eq : d.capacity = capacity
  wellFormed : d.WellFormed
  contents_eq : d.contents = queue
  tail_le_pushed : d.dataTail ≤ pushed

theorem isQueue_new (buf : BufferMemory) : IsQueue buf.1.length (new buf.1) [] 0 :=
  ⟨rfl, new_wellFormed buf.2, contents_new _, le_refl _⟩

theorem simulates (capacity : Nat) :
    (queueImpl capacity).Simulates (fun _ _ => True) (IsQueue capacity) where
  contents h := h.contents_eq
  push {d queue pushed bytes} h _ hfit := by
    have hfit' : pushed + bytes.length ≤ capacity := hfit
    have htail := h.tail_le_pushed
    have hcap := h.capacity_eq
    have hlt := h.wellFormed.capacity_lt
    let pushData : PushData := ⟨bytes, by omega⟩
    have hok : (d.push bytes).2 = true :=
      (push_accepts_iff h.wellFormed pushData).mpr (by show d.dataTail + (bytes.length : Int) ≤ _; omega)
    have haccepted := push_accepted h.wellFormed pushData hok
    have htail' : (d.push bytes).1.dataTail = d.dataTail + bytes.length :=
      congrArg IoSendEventData.dataTail haccepted
    refine ⟨hok, ⟨(push_capacity h.wellFormed pushData).trans hcap, push_wellFormed h.wellFormed pushData, ?_, ?_⟩⟩
    · exact (contents_push h.wellFormed pushData hok).trans (congrArg (· ++ bytes) h.contents_eq)
    · show (d.push bytes).1.dataTail ≤ _
      rw [htail']
      rcases eq_or_ne (queue ++ bytes) [] with hnil | hne
      · -- nothing was pushed to an empty window
        obtain ⟨rfl, rfl⟩ := List.append_eq_nil_iff.mp hnil
        have hlength := length_contents h.wellFormed
        rw [h.contents_eq, List.length_nil] at hlength
        have hwindow := h.wellFormed.head_le_tail
        have hzero := h.wellFormed.reset (by omega)
        rw [hzero]
        exact Int.natCast_nonneg _
      · rw [QueueImpl.sinceEmpty_of_ne_nil hne]
        omega
  pop {d queue pushed n} h hn := by
    have hlength := length_contents h.wellFormed
    rw [h.contents_eq] at hlength
    have hwindow := h.wellFormed.head_le_tail
    have hpop : d.dataHead + n ≤ d.dataTail := by omega
    refine ⟨(pop_capacity n).trans h.capacity_eq, pop_wellFormed h.wellFormed hpop, ?_, ?_⟩
    · exact (contents_pop h.wellFormed hpop).trans (congrArg (List.drop n) h.contents_eq)
    · show (d.pop n).dataTail ≤ _
      rw [pop_eq h.wellFormed hpop]
      split_ifs with hempty
      · exact Int.natCast_nonneg _
      · have hne : queue.drop n ≠ [] := by
          intro hnil
          have hlength' := congrArg List.length hnil
          rw [List.length_drop, List.length_nil] at hlength'
          omega
        rw [QueueImpl.sinceEmpty_of_ne_nil hne]
        exact h.tail_le_pushed

end IoSendEventData

/-! ## The implementations agree -/

/-- **Event data implementations agree** with the queue, and so with each other: the two send buffers in
every run, the receive buffer in every run in which data are pushed only while it is empty. Its push copies
to the beginning of the buffer, where the others copy to the end of what it holds. -/
theorem eventData_agrees (recv send lockFree : BufferMemory) {ops : List (QueueImpl.Op UInt8)} :
    (∀ t, Along (IoRecvEventData.queueImpl recv.1.length).step
        (QueueImpl.Guard IoRecvEventData.PushesToEmpty) { impl := .new recv.1 } ops →
      run (IoRecvEventData.queueImpl recv.1.length).step { impl := .new recv.1 } ops = some t →
      (IoRecvEventData.queueImpl recv.1.length).Agrees t) ∧
    (∀ t, run (IoSendEventDataImpl.queueImpl send.1.length).step { impl := .new send.1 } ops = some t →
      (IoSendEventDataImpl.queueImpl send.1.length).Agrees t) ∧
    (∀ t, run (IoSendEventData.queueImpl lockFree.1.length).step { impl := .new lockFree.1 } ops = some t →
      (IoSendEventData.queueImpl lockFree.1.length).Agrees t) :=
  ⟨fun _ hG hrun => (IoRecvEventData.simulates _).agrees (IoRecvEventData.isQueue_new recv.1) hG hrun,
    fun _ hrun => (IoSendEventDataImpl.simulates send.2).agrees_of_forall
      (IoSendEventDataImpl.isQueue_new send.1) hrun,
    fun _ hrun => (IoSendEventData.simulates _).agrees_of_forall (IoSendEventData.isQueue_new lockFree) hrun⟩

/-- A buffer of four bytes. -/
def fourBytes : BufferMemory := ⟨[0, 0, 0, 0], by decide⟩

/-- Partial pops, and a push after the buffer was emptied. -/
theorem eventData_agrees_fourBytes : ∃ t,
    run (IoRecvEventData.queueImpl 4).step { impl := .new fourBytes.1 }
      [.push [1, 2, 3], .pop 1, .pop 2, .push [4, 5]] = some t ∧
    t.queue = [4, 5] ∧ (IoRecvEventData.queueImpl 4).Agrees t := by
  let ops : List (QueueImpl.Op UInt8) := [.push [1, 2, 3], .pop 1, .pop 2, .push [4, 5]]
  have hG : Along (IoRecvEventData.queueImpl 4).step (QueueImpl.Guard IoRecvEventData.PushesToEmpty)
      { impl := .new fourBytes.1 } ops := by decide
  obtain ⟨t, hrun⟩ : ∃ t, run (IoRecvEventData.queueImpl 4).step { impl := .new fourBytes.1 } ops =
      some t := ⟨_, rfl⟩
  have hqueue : t.queue = [4, 5] := by
    cases hrun
    rfl
  exact ⟨t, hrun, hqueue, (eventData_agrees fourBytes fourBytes fourBytes).1 t hG hrun⟩

/-- Two bytes pushed one after the other: the second is written over the first. -/
theorem recvEventData_overwrites : ∃ t,
    run (IoRecvEventData.queueImpl 4).step { impl := .new fourBytes.1 } [.push [1], .push [2]] = some t ∧
    t.queue = [1, 2] ∧ t.impl.contents = [2, 0] ∧ ¬ (IoRecvEventData.queueImpl 4).Agrees t := by
  refine ⟨_, rfl, rfl, by decide, fun h => ?_⟩
  exact absurd h.contents (by decide)

end Mmocraft.Io
