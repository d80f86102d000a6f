/-
# Mmocraft.Io.SendEvent -- the lock-free send buffer and its RIO event

`IoSendEventLockFreeDataImpl` is an append-only window `[data_head, data_tail)` over a fixed buffer:
`push` reserves room by advancing the tail, `pop` advances the head by what was transferred, and
when the head catches up with the tail both are reset to zero by one compare-and-swap.
`IoSendEvent` hands the whole window to RIO, at most once at a time, while pushes go on.

The result is that the window is a queue: in every run, the bytes transferred so far followed by the
bytes of the window are exactly the accepted pushes, in order.

The push is one step here; its two steps are taken apart in `Io.ConcurrentSend`. A completion may transfer any
part of the window, or fail, and then everything is still in the window.
-/
import Mmocraft.Lib.Memory
import Mmocraft.Lib.MachineInt
import Mmocraft.Lib.Runs

namespace Mmocraft.Io

open Mmocraft.Lib

/-- `config::memory::tcp_send_buffer_size`. -/
def tcpSendBufferSize : Nat := 8192

/-- The data of one `push`: its size is converted to `int` by the code. -/
abbrev PushData := { bytes : List UInt8 // bytes.length < 2 ^ 31 }

/-! ## The buffer -/

/-- `IoSendEventLockFreeDataImpl`: the buffer `_data` of `_capacity` bytes and the window. -/
structure IoSendEventData where
  data : List UInt8
  dataHead : Int
  dataTail : Int
  deriving DecidableEq, Repr

namespace IoSendEventData

/-- A fresh buffer over the given memory. -/
def new (buf : List UInt8) : IoSendEventData := { data := buf, dataHead := 0, dataTail := 0 }

def capacity (d : IoSendEventData) : Nat := d.data.length

def size (d : IoSendEventData) : Nat := sizeT (int32 (d.dataTail - d.dataHead))

def unusedSize (d : IoSendEventData) : Nat := sizeT (d.capacity - sizeT d.dataTail)

/-- The bytes between `begin()` and `end()`. -/
def contents (d : IoSendEventData) : List UInt8 :=
  Memory.read d.data d.dataHead.toNat (d.dataTail - d.dataHead).toNat

/-- `push`: the signed sum is compared with the unsigned capacity, then the tail is published and
the bytes are copied behind the old tail. -/
def push (d : IoSendEventData) (bytes : List UInt8) : IoSendEventData × Bool :=
  let newTail := int32 (d.dataTail + int32 bytes.length)
  if d.capacity < sizeT newTail then (d, false)
  else ({ d with data := Memory.write d.data d.dataTail.toNat bytes, dataTail := newTail }, true)

/-- `pop`: advance the head; if it meets the tail, reset both. -/
def pop (d : IoSendEventData) (n : Nat) : IoSendEventData :=
  let newHead := int32 (d.dataHead + int32 n)
  if d.dataTail = newHead then { d with dataHead := 0, dataTail := 0 }
  else { d with dataHead := newHead }

/-- The window lies in the buffer, the buffer is addressable by `int`, and an empty window has been
reset. -/
structure WellFormed (d : IoSendEventData) : Prop where
  head_nonneg : 0 ≤ d.dataHead
  head_le_tail : d.dataHead ≤ d.dataTail
  tail_le_capacity : d.dataTail ≤ d.capacity
  capacity_lt : d.capacity < 2 ^ 31
  reset : d.dataHead = d.dataTail → d.dataTail = 0

theorem new_wellFormed {buf : List UInt8} (h : buf.length < 2 ^ 31) : (new buf).WellFormed where
  head_nonneg := le_refl _
  head_le_tail := le_refl _
  tail_le_capacity := Int.natCast_nonneg _
  capacity_lt := h
  reset := fun _ => rfl

@[simp] theorem contents_new (buf : List UInt8) : (new buf).contents = [] := by
  simp [new, contents]

section WellFormed

variable {d : IoSendEventData}

theorem length_contents (h : d.WellFormed) :
    d.contents.length = (d.dataTail - d.dataHead).toNat := by
  have h1 := h.head_nonneg
  have h2 := h.head_le_tail
  have h3 : d.dataTail ≤ (d.data.length : Int) := h.tail_le_capacity
  exact Memory.length_read (by omega)

theorem size_eq (h : d.WellFormed) : d.size = d.contents.length := by
  have h1 := h.head_nonneg
  have h2 := h.head_le_tail
  have h3 := h.tail_le_capacity
  have h4 := h.capacity_lt
  rw [length_contents h, size, int32_of_range (by omega) (by omega),
    sizeT_of_nonneg (by omega) (by omega)]

theorem unusedSize_eq (h : d.WellFormed) : d.unusedSize = d.capacity - d.dataTail.toNat := by
  have h1 := h.head_nonneg
  have h2 := h.head_le_tail
  have h3 := h.tail_le_capacity
  have h4 := h.capacity_lt
  rw [unusedSize, sizeT_of_nonneg (x := d.dataTail) (by omega) (by omega),
    sizeT_of_nonneg (by omega) (by omega)]
  omega

/-- An empty window leaves the full capacity. -/
theorem unusedSize_of_empty (h : d.WellFormed) (hempty : d.contents = []) :
    d.unusedSize = d.capacity := by
  have hlen : (d.dataTail - d.dataHead).toNat = 0 := by rw [← length_contents h, hempty]; rfl
  have h2 := h.head_le_tail
  have htail : d.dataTail = 0 := h.reset (by omega)
  rw [unusedSize_eq h, htail]
  rfl

/-- The signed, wrapping comparison of `push` decides exactly whether the bytes fit. -/
theorem push_accepts_iff (h : d.WellFormed) (bytes : PushData) :
    (d.push bytes.1).2 = true ↔ d.dataTail + bytes.1.length ≤ d.capacity := by
  have h1 := h.head_nonneg
  have h2 := h.head_le_tail
  have h3 := h.tail_le_capacity
  have h4 := h.capacity_lt
  have hn := bytes.2
  have hconv : int32 (bytes.1.length : Int) = bytes.1.length :=
    int32_of_range (by omega) (by omega)
  simp only [push, hconv]
  rcases lt_or_ge (d.dataTail + (bytes.1.length : Int)) (2 ^ 31) with hlt | hge
  · rw [int32_of_range (by omega) hlt, sizeT_of_nonneg (by omega) (by omega)]
    split_ifs with hfull
    · exact iff_of_false (by simp) (by omega)
    · exact iff_of_true rfl (by omega)
  · -- the sum wraps to a negative int, which compares as a huge size
    have hhuge := sizeT_of_neg (x := d.dataTail + (bytes.1.length : Int) - 2 ^ 32)
      (by omega) (by omega)
    rw [int32_of_overflow hge (by omega), if_pos (by omega)]
    exact iff_of_false (by simp) (by omega)

theorem push_refused {bytes : List UInt8} (h : (d.push bytes).2 = false) :
    (d.push bytes).1 = d := by
  simp only [push] at h ⊢
  split_ifs at h ⊢
  rfl

/-- What an accepted push leaves. -/
theorem push_accepted (h : d.WellFormed) (bytes : PushData) (hok : (d.push bytes.1).2 = true) :
    (d.push bytes.1).1 = { d with
      data := Memory.write d.data d.dataTail.toNat bytes.1
      dataTail := d.dataTail + bytes.1.length } := by
  have h1 := h.head_nonneg
  have h2 := h.head_le_tail
  have h4 := h.capacity_lt
  have hn := bytes.2
  have hfit := (push_accepts_iff h bytes).mp hok
  simp only [push] at hok ⊢
  split_ifs at hok ⊢
  rw [int32_of_range (x := (bytes.1.length : Int)) (by omega) (by omega),
    int32_of_range (by omega) (by omega)]

/-- The bytes of a push stay within the buffer. -/
theorem push_capacity (h : d.WellFormed) (bytes : PushData) : (d.push bytes.1).1.capacity = d.capacity := by
  cases hok : (d.push bytes.1).2 with
  | false => rw [push_refused hok]
  | true =>
      have hfit := (push_accepts_iff h bytes).mp hok
      have h1 := h.head_nonneg
      have h2 := h.head_le_tail
      rw [push_accepted h bytes hok]
      exact Memory.length_write (by unfold capacity at hfit; omega)

theorem push_wellFormed (h : d.WellFormed) (bytes : PushData) : (d.push bytes.1).1.WellFormed := by
  have hcapacity := push_capacity h bytes
  cases hok : (d.push bytes.1).2 with
  | false => rwa [push_refused hok]
  | true =>
      have hfit := (push_accepts_iff h bytes).mp hok
      have h1 := h.head_nonneg
      have h2 := h.head_le_tail
      rw [push_accepted h bytes hok] at hcapacity ⊢
      refine ⟨h1, by simp only; omega, ?_, ?_, ?_⟩
      · rwa [hcapacity]
      · rw [hcapacity]
        exact h.capacity_lt
      · intro heq
        simp only at heq ⊢
        have := h.reset (by omega)
        omega

@[simp] theorem push_dataHead (bytes : List UInt8) : (d.push bytes).1.dataHead = d.dataHead := by
  simp only [push]
  split_ifs <;> rfl

/-- A push never moves the tail back. -/
theorem dataTail_le_push (h : d.WellFormed) (bytes : PushData) :
    d.dataTail ≤ (d.push bytes.1).1.dataTail := by
  cases hok : (d.push bytes.1).2 with
  | false => exact le_of_eq (by rw [push_refused hok])
  | true =>
      rw [push_accepted h bytes hok]
      simp only
      omega

/-- An accepted push appends its bytes to the window. -/
theorem contents_push (h : d.WellFormed) (bytes : PushData) (hok : (d.push bytes.1).2 = true) :
    (d.push bytes.1).1.contents = d.contents ++ bytes.1 := by
  have h1 := h.head_nonneg
  have h2 := h.head_le_tail
  have h3 : d.dataTail ≤ (d.data.length : Int) := h.tail_le_capacity
  rw [push_accepted h bytes hok]
  simp only [contents]
  -- the bytes are written where the window ends
  rw [show (d.dataTail + (bytes.1.length : Int) - d.dataHead).toNat =
      (d.dataTail - d.dataHead).toNat + bytes.1.length by omega,
    show d.dataTail.toNat = d.dataHead.toNat + (d.dataTail - d.dataHead).toNat by omega]
  exact Memory.read_write_append (by omega)

/-- What `pop` leaves when no more is popped than the window holds. -/
theorem pop_eq (h : d.WellFormed) {n : Nat} (hn : d.dataHead + n ≤ d.dataTail) :
    d.pop n = if d.dataTail = d.dataHead + n then { d with dataHead := 0, dataTail := 0 }
      else { d with dataHead := d.dataHead + n } := by
  have h1 := h.head_nonneg
  have h3 := h.tail_le_capacity
  have h4 := h.capacity_lt
  unfold pop
  rw [int32_of_range (x := (n : Int)) (by omega) (by omega), int32_of_range (by omega) (by omega)]

theorem pop_wellFormed (h : d.WellFormed) {n : Nat} (hn : d.dataHead + n ≤ d.dataTail) :
    (d.pop n).WellFormed := by
  have h1 := h.head_nonneg
  rw [pop_eq h hn]
  split_ifs with heq
  · exact ⟨le_refl _, le_refl _, Int.natCast_nonneg _, h.capacity_lt, fun _ => rfl⟩
  · exact ⟨by simp only; omega, hn, h.tail_le_capacity, h.capacity_lt,
      fun h' => absurd h'.symm heq⟩

@[simp] theorem pop_capacity (n : Nat) : (d.pop n).capacity = d.capacity := by
  simp only [pop]
  split_ifs <;> rfl

/-- `pop` removes the transferred bytes from the front of the window. -/
theorem contents_pop (h : d.WellFormed) {n : Nat} (hn : d.dataHead + n ≤ d.dataTail) :
    (d.pop n).contents = d.contents.drop n := by
  have h1 := h.head_nonneg
  have hdrop : d.contents.drop n =
      Memory.read d.data (d.dataHead.toNat + n) ((d.dataTail - d.dataHead).toNat - n) :=
    Memory.drop_read _ _ _ _
  rw [hdrop, pop_eq h hn]
  split_ifs with heq
  · rw [show (d.dataTail - d.dataHead).toNat - n = 0 by omega, Memory.read_zero_length]
    simp [contents]
  · simp only [contents]
    congr 1 <;> omega

end WellFormed

end IoSendEventData

/-! ## The send event of one connection -/

/-- `IoSendEvent` with the range that is outstanding at RIO, as (offset, length), and two histories:
the concatenation of the successful pushes and the bytes RIO has transferred. -/
structure IoSendEvent where
  eventData : IoSendEventData
  isProcessing : Bool
  outstanding : Option (Nat × Nat)
  accepted : List UInt8
  transferred : List UInt8
  deriving DecidableEq, Repr

namespace IoSendEvent

def init (buf : List UInt8) : IoSendEvent :=
  { eventData := .new buf, isProcessing := false, outstanding := none
    accepted := [], transferred := [] }

/-- Push through the event, recording what was accepted. -/
def push (e : IoSendEvent) (bytes : List UInt8) : IoSendEvent :=
  let r := e.eventData.push bytes
  { e with eventData := r.1, accepted := if r.2 then e.accepted ++ bytes else e.accepted }

/-- `IoSendEvent::post_rio_event`; `rioOk` is the outcome of `RIOSend`.  The whole window is
posted. -/
def postRioEvent (e : IoSendEvent) (rioOk : Bool) : IoSendEvent × Bool :=
  if e.isProcessing || e.eventData.size == 0 then (e, false)
  else if rioOk then
    ({ e with isProcessing := true
              outstanding := some (e.eventData.dataHead.toNat, e.eventData.size) }, true)
  else ({ e with isProcessing := false }, false)

/-- `IoSendEvent::on_event_complete` with `n` transferred bytes of the range at `offset`. -/
def onEventComplete (e : IoSendEvent) (offset n : Nat) : IoSendEvent :=
  { e with eventData := e.eventData.pop n, isProcessing := false, outstanding := none
           transferred := e.transferred ++ Memory.read e.eventData.data offset n }

/-- `IoSendEvent::on_event_complete` with the signal `event_failed`. -/
def onEventFailed (e : IoSendEvent) : IoSendEvent :=
  { e with isProcessing := false, outstanding := none }

inductive Event where
  | push (bytes : PushData)
  | postRioEvent (rioOk : Bool)
  | complete (n : Nat)
  | eventFailed

/-- A completion belongs to an outstanding range and transfers between one byte and all of it. -/
def step (e : IoSendEvent) : Event → Option IoSendEvent
  | .push bytes => some (e.push bytes.1)
  | .postRioEvent rioOk => some (e.postRioEvent rioOk).1
  | .complete n =>
      match e.outstanding with
      | none => none
      | some (offset, length) =>
          if 0 < n ∧ n ≤ length then some (e.onEventComplete offset n) else none
  | .eventFailed => if e.outstanding.isSome then some e.onEventFailed else none

/-- The invariant: the buffer is well formed and a queue, and an outstanding range is the front of
the window, which no push overwrites. -/
structure Queue (e : IoSendEvent) : Prop where
  wellFormed : e.eventData.WellFormed
  stream : e.transferred ++ e.eventData.contents = e.accepted
  outstanding : ∀ offset length, e.outstanding = some (offset, length) →
    (offset : Int) = e.eventData.dataHead ∧ (offset + length : Int) ≤ e.eventData.dataTail

theorem init_queue {buf : List UInt8} (h : buf.length < 2 ^ 31) : Queue (init buf) where
  wellFormed := IoSendEventData.new_wellFormed h
  stream := by
    show [] ++ (IoSendEventData.new buf).contents = []
    rw [IoSendEventData.contents_new, List.append_nil]
  outstanding := by intro _ _ h; exact absurd h (by simp [init])

section Steps

variable {e : IoSendEvent}

theorem push_queue (h : Queue e) (bytes : PushData) : Queue (e.push bytes.1) where
  wellFormed := IoSendEventData.push_wellFormed h.wellFormed bytes
  stream := by
    show e.transferred ++ (e.eventData.push bytes.1).1.contents =
      if (e.eventData.push bytes.1).2 then e.accepted ++ bytes.1 else e.accepted
    cases hok : (e.eventData.push bytes.1).2 with
    | false =>
        rw [IoSendEventData.push_refused hok, if_neg Bool.false_ne_true]
        exact h.stream
    | true =>
        rw [IoSendEventData.contents_push h.wellFormed bytes hok, if_pos rfl, ← List.append_assoc,
          h.stream]
  outstanding := by
    intro offset length hout
    obtain ⟨hhead, htail⟩ := h.outstanding offset length hout
    refine ⟨?_, htail.trans (IoSendEventData.dataTail_le_push h.wellFormed bytes)⟩
    show (offset : Int) = (e.eventData.push bytes.1).1.dataHead
    rw [IoSendEventData.push_dataHead, hhead]

theorem postRioEvent_queue (h : Queue e) (rioOk : Bool) : Queue (e.postRioEvent rioOk).1 := by
  unfold postRioEvent
  split_ifs with hbusy hrio
  · exact h
  · refine ⟨h.wellFormed, h.stream, ?_⟩
    intro offset length hout
    simp only [Option.some.injEq, Prod.mk.injEq] at hout
    obtain ⟨rfl, rfl⟩ := hout
    have h1 := h.wellFormed.head_nonneg
    have h2 := h.wellFormed.head_le_tail
    rw [IoSendEventData.size_eq h.wellFormed, IoSendEventData.length_contents h.wellFormed]
    simp only
    omega
  · exact ⟨h.wellFormed, h.stream, h.outstanding⟩

@[simp] theorem postRioEvent_accepted (e : IoSendEvent) (rioOk : Bool) :
    (e.postRioEvent rioOk).1.accepted = e.accepted := by
  unfold postRioEvent
  split_ifs <;> rfl

@[simp] theorem postRioEvent_transferred (e : IoSendEvent) (rioOk : Bool) :
    (e.postRioEvent rioOk).1.transferred = e.transferred := by
  unfold postRioEvent
  split_ifs <;> rfl

/-- What is outstanding after a post was so before, or is the whole window, which RIO took. -/
theorem outstanding_of_postRioEvent {rioOk : Bool} {offset length : Nat}
    (hout : (e.postRioEvent rioOk).1.outstanding = some (offset, length)) :
    e.outstanding = some (offset, length) ∨
      ((e.postRioEvent rioOk).2 = true ∧ length = e.eventData.size) := by
  unfold postRioEvent at hout ⊢
  split_ifs at hout ⊢
  · exact Or.inl hout
  · simp only [Option.some.injEq, Prod.mk.injEq] at hout
    exact Or.inr ⟨rfl, hout.2.symm⟩
  · exact Or.inl hout

theorem onEventComplete_queue (h : Queue e) {offset length n : Nat}
    (hout : e.outstanding = some (offset, length)) (hn : n ≤ length) :
    Queue (e.onEventComplete offset n) := by
  obtain ⟨hhead, htail⟩ := h.outstanding offset length hout
  have hpop : e.eventData.dataHead + n ≤ e.eventData.dataTail := by omega
  have hoffset : offset = e.eventData.dataHead.toNat := by omega
  refine ⟨IoSendEventData.pop_wellFormed h.wellFormed hpop, ?_, ?_⟩
  · -- the transferred bytes are the front of the window
    have hfront : Memory.read e.eventData.data offset n = e.eventData.contents.take n := by
      rw [hoffset, IoSendEventData.contents, Memory.take_read _ _ _ _ (by omega)]
    show (e.transferred ++ Memory.read e.eventData.data offset n) ++ (e.eventData.pop n).contents =
      e.accepted
    rw [hfront, IoSendEventData.contents_pop h.wellFormed hpop, List.append_assoc,
      List.take_append_drop, h.stream]
  · intro _ _ h'
    exact absurd h' (by simp [onEventComplete])

theorem onEventFailed_queue (h : Queue e) : Queue e.onEventFailed where
  wellFormed := h.wellFormed
  stream := h.stream
  outstanding := by intro _ _ h'; exact absurd h' (by simp [onEventFailed])

end Steps

/-- Every step keeps the invariant. -/
theorem step_queue (e : IoSendEvent) (ev : Event) (e' : IoSendEvent) (h : Queue e)
    (hstep : step e ev = some e') : Queue e' := by
  cases ev with
  | push bytes =>
      obtain rfl : e.push bytes.1 = e' := by simpa [step] using hstep
      exact push_queue h bytes
  | postRioEvent rioOk =>
      obtain rfl : (e.postRioEvent rioOk).1 = e' := by simpa [step] using hstep
      exact postRioEvent_queue h rioOk
  | complete n =>
      simp only [step] at hstep
      cases hout : e.outstanding with
      | none => simp [hout] at hstep
      | some range =>
          obtain ⟨offset, length⟩ := range
          rw [hout] at hstep
          simp only [Option.ite_none_right_eq_some, Option.some.injEq] at hstep
          obtain ⟨⟨-, hn⟩, rfl⟩ := hstep
          exact onEventComplete_queue h hout hn
  | eventFailed =>
      simp only [step, Option.ite_none_right_eq_some, Option.some.injEq] at hstep
      obtain ⟨-, rfl⟩ := hstep
      exact onEventFailed_queue h

/-- **Send stream integrity.** In every reachable state of the send event: the window lies in the
buffer; a push is accepted exactly if it fits behind the tail, and a refused push changes nothing;
the transferred bytes followed by the window are the accepted pushes in order; and once everything
has been transferred the whole capacity is free again. -/
theorem transferred_append_contents {buf : List UInt8} (hcap : buf.length < 2 ^ 31)
    {events : List Event} {e : IoSendEvent} (hrun : run step (init buf) events = some e) :
    (0 ≤ e.eventData.dataHead ∧ e.eventData.dataHead ≤ e.eventData.dataTail ∧
      e.eventData.dataTail ≤ e.eventData.capacity) ∧
    (∀ bytes : PushData,
      ((e.eventData.push bytes.1).2 = true ↔
        e.eventData.dataTail + bytes.1.length ≤ e.eventData.capacity) ∧
      ((e.eventData.push bytes.1).2 = false → (e.eventData.push bytes.1).1 = e.eventData)) ∧
    e.transferred ++ e.eventData.contents = e.accepted ∧
    (e.transferred = e.accepted → e.eventData.unusedSize = e.eventData.capacity) := by
  have h : Queue e := run_invariant step_queue (init_queue hcap) hrun
  refine ⟨⟨h.wellFormed.head_nonneg, h.wellFormed.head_le_tail, h.wellFormed.tail_le_capacity⟩,
    fun bytes => ⟨IoSendEventData.push_accepts_iff h.wellFormed bytes,
      IoSendEventData.push_refused⟩, h.stream, ?_⟩
  intro hall
  refine IoSendEventData.unusedSize_of_empty h.wellFormed ?_
  have hstream := h.stream
  rw [hall] at hstream
  exact List.append_right_eq_self.mp hstream

/-- A push during an outstanding send and a partial completion: the tail of the window survives. -/
theorem transferred_append_contents_partial : ∃ e,
    run step (init [0, 0, 0, 0])
      [.push ⟨[1, 2], by decide⟩, .postRioEvent true, .push ⟨[3], by decide⟩, .complete 1] =
        some e ∧
    e.transferred = [1] ∧ e.eventData.contents = [2, 3] ∧
    e.transferred ++ e.eventData.contents = e.accepted := by
  have hcap : ([0, 0, 0, 0] : List UInt8).length < 2 ^ 31 := by decide
  let events : List Event :=
    [.push ⟨[1, 2], by decide⟩, .postRioEvent true, .push ⟨[3], by decide⟩, .complete 1]
  obtain ⟨e, hrun⟩ : ∃ e, run step (init [0, 0, 0, 0]) events = some e := ⟨_, rfl⟩
  have htransferred : e.transferred = [1] := by cases hrun; rfl
  have hcontents : e.eventData.contents = [2, 3] := by cases hrun; rfl
  exact ⟨e, hrun, htransferred, hcontents, (transferred_append_contents hcap hrun).2.2.1⟩

end IoSendEvent

end Mmocraft.Io
