/-
# Mmocraft.Util.ConcurrentBuffer -- concurrent pushes into a double buffer

`DoubleBuffering` step by step.  A push selects the input buffer, adds its size to the counter of that
buffer, and then either copies its record to where the counter stood or, if it went past the buffer,
takes its size back; the pushes of any number of threads interleave at these steps.  The task switches
the buffers, reads the snapshot as often as it likes, and clears it.

The counter can stand above what is reserved, by the sizes that are still to be taken back, and a push
can be left behind by the switch of the buffer it selected.  `Calm` is the condition that neither does
harm, and under it reservations do not collide and no record is lost.

Calls that are not interrupted are always calm, and refine `Game.DoubleBuffering`, whose pushes take a record
as a whole: that is what the tasks of the world are modelled with.
-/
import Mathlib.Algebra.Order.BigOperators.Group.List
import Mathlib.Algebra.Ring.Int.Defs
import Mathlib.Logic.Function.Basic
import Mmocraft.Game.WorldTask
import Mmocraft.Lib.MachineInt
import Mmocraft.Lib.Ranges
import Mmocraft.Lib.Runs

namespace Mmocraft.Util

open Mmocraft.Lib

/-! ## The buffers

A push selects a buffer, reserves room with `fetch_add`, and copies, or takes an overflow back with
`fetch_sub`; each is a step of its own, and so are the calls of the task. Beside the memory the state keeps
which records are stored where, which were lost, and which sizes were seen.
-/

/-- The data of a record; no object is larger. -/
abbrev RecordData := { bytes : List UInt8 // bytes.length < 2 ^ 63 }

/-- Where a push stands. A push has no other memory than this between its steps, and the buffer it selected.
-/
inductive PushStep where
  /-- It has selected a buffer. -/
  | entered
  /-- `fetch_add` has returned the offset that the record is copied to. -/
  | reserved (start : Nat)
  /-- `fetch_add` went past the buffer; `fetch_sub` comes next. -/
  | overflowed
  deriving DecidableEq, Repr

/-- A push that is under way on the buffer `buffer`. -/
structure Push where
  buffer : Bool
  bytes : RecordData
  step : PushStep
  deriving DecidableEq, Repr

/-- A record whose push has returned true; `seen` says whether a run of the handler has read it. -/
structure StoredRecord where
  start : Nat
  bytes : RecordData
  seen : Bool := false
  deriving DecidableEq, Repr

def StoredRecord.range (r : StoredRecord) : Range := ⟨r.start, r.bytes.1.length⟩

/-- `DoubleBuffering::Buffer`.  The counter holds `bufSize` modulo 2^64.  `stored` is a history: the
records since the last clear. -/
structure Buffer where
  bufSize : Int := 0
  buf : List UInt8
  stored : List StoredRecord := []

/-- `size`. -/
def Buffer.size (buffer : Buffer) : Nat := sizeT buffer.bufSize

/-- Where the task stands that the buffers belong to. -/
inductive ConsumerPhase where
  | idle
  /-- The buffers were switched. -/
  | switched
  /-- The handler has read the snapshot. -/
  | read
  deriving DecidableEq, Repr

/-- `DoubleBuffering` with the pushes that are under way.  Three histories: the sizes that
`get_snapshot_data` saw, whether a `fetch_sub` took more than there was, and the records that were
cleared before a handler saw them. -/
structure ConcurrentBuffer where
  bufs : Bool → Buffer
  inputBufIndex : Bool := false
  pushes : List Push := []
  phase : ConsumerPhase := .idle
  sizesSeen : List Nat := []
  wentNegative : Bool := false
  lost : List RecordData := []

namespace ConcurrentBuffer

def outputBufIndex (s : ConcurrentBuffer) : Bool := !s.inputBufIndex

def updateBuffer (s : ConcurrentBuffer) (b : Bool) (f : Buffer → Buffer) : ConcurrentBuffer :=
  { s with bufs := Function.update s.bufs b (f (s.bufs b)) }

/-- The comparison in `Buffer::push`, where the counter stood at `before`. -/
def fits (capacity : Nat) (before : Int) (bytes : RecordData) : Bool :=
  decide (sizeT (sizeT before + bytes.1.length) ≤ capacity)

/-- `fetch_add` of the `k`-th push. -/
def fetchAdd (capacity : Nat) (s : ConcurrentBuffer) (k : Nat) (b : Bool) (bytes : RecordData) :
    ConcurrentBuffer :=
  let before := (s.bufs b).bufSize
  let step := if fits capacity before bytes then .reserved (sizeT before) else .overflowed
  { s.updateBuffer b fun buffer => { buffer with bufSize := before + bytes.1.length } with
    pushes := s.pushes.set k { buffer := b, bytes := bytes, step := step } }

/-- The `memcpy` of the `k`-th push, which returns true. -/
def copy (s : ConcurrentBuffer) (k : Nat) (b : Bool) (bytes : RecordData) (start : Nat) :
    ConcurrentBuffer :=
  { s.updateBuffer b fun buffer =>
      { buffer with
        buf := Memory.write buffer.buf start bytes.1
        stored := buffer.stored ++ [{ start := start, bytes := bytes }] } with
    pushes := s.pushes.eraseIdx k }

/-- `fetch_sub` of the `k`-th push, which returns false. -/
def fetchSub (s : ConcurrentBuffer) (k : Nat) (b : Bool) (bytes : RecordData) : ConcurrentBuffer :=
  { s.updateBuffer b fun buffer => { buffer with bufSize := buffer.bufSize - bytes.1.length } with
    pushes := s.pushes.eraseIdx k
    wentNegative := s.wentNegative || decide ((s.bufs b).bufSize < bytes.1.length) }

/-- `snapshot`. -/
def snapshot (s : ConcurrentBuffer) : ConcurrentBuffer :=
  { s with inputBufIndex := !s.inputBufIndex, phase := .switched }

/-- `get_snapshot_data`: the records below the size are seen, by a run of the handler if there is
one. -/
def getSnapshotData (s : ConcurrentBuffer) : ConcurrentBuffer :=
  let size := (s.bufs s.outputBufIndex).size
  { s.updateBuffer s.outputBufIndex fun buffer =>
      { buffer with stored := buffer.stored.map fun r =>
          { r with seen := r.seen || (decide (s.phase ≠ .idle) && decide (r.range.stop ≤ size)) } } with
    sizesSeen := s.sizesSeen ++ [size]
    phase := if s.phase = .idle then .idle else .read }

/-- The record of a push that has room reserved in a buffer. -/
def reservedRecord (b : Bool) (p : Push) : Option RecordData :=
  match p.step with
  | .reserved _ => if p.buffer = b then some p.bytes else none
  | _ => none

/-- `clear_snapshot`: with the size go the records, those whose pushes are still to return included. -/
def clearSnapshot (s : ConcurrentBuffer) : ConcurrentBuffer :=
  { s.updateBuffer s.outputBufIndex fun buffer => { buffer with bufSize := 0, stored := [] } with
    phase := .idle
    lost := s.lost ++
      ((s.bufs s.outputBufIndex).stored.filter fun r => !r.seen).map StoredRecord.bytes ++
      s.pushes.filterMap (reservedRecord s.outputBufIndex) }

/-- The steps; `k` counts the pushes that are under way. -/
inductive Event where
  /-- A push begins: it selects the input buffer. -/
  | enter (bytes : RecordData)
  | fetchAdd (k : Nat)
  | copy (k : Nat)
  | fetchSub (k : Nat)
  | snapshot
  | getSnapshotData
  | clearSnapshot

/-- One step.  The task switches, reads at least once and clears, in that order; the snapshot can be
read at any time. -/
def step (capacity : Nat) (s : ConcurrentBuffer) : Event → Option ConcurrentBuffer
  | .enter bytes =>
      some { s with pushes := s.pushes ++
        [{ buffer := s.inputBufIndex, bytes := bytes, step := .entered }] }
  | .fetchAdd k =>
      match s.pushes[k]? with
      | some ⟨b, bytes, .entered⟩ => some (s.fetchAdd capacity k b bytes)
      | _ => none
  | .copy k =>
      match s.pushes[k]? with
      | some ⟨b, bytes, .reserved start⟩ => some (s.copy k b bytes start)
      | _ => none
  | .fetchSub k =>
      match s.pushes[k]? with
      | some ⟨b, bytes, .overflowed⟩ => some (s.fetchSub k b bytes)
      | _ => none
  | .snapshot => if s.phase = .idle then some s.snapshot else none
  | .getSnapshotData => some s.getSnapshotData
  | .clearSnapshot => if s.phase = .read then some s.clearSnapshot else none

/-! ## The condition and the property -/

/-- A `fetch_add` that reserves room finds nothing to be taken back on its buffer, and does not come
to a snapshot that was read; and whoever reads the snapshot finds no push between its `fetch_add` and
its return there. -/
def Calm (capacity : Nat) (s : ConcurrentBuffer) : Event → Prop
  | .fetchAdd k => ∀ p ∈ s.pushes[k]?, p.step = .entered →
      (fits capacity (s.bufs p.buffer).bufSize p.bytes = true →
        ∀ q ∈ s.pushes, q.buffer = p.buffer → q.step ≠ .overflowed) ∧
      ¬ (p.buffer = s.outputBufIndex ∧ s.phase = .read)
  | .getSnapshotData => ∀ p ∈ s.pushes, p.buffer = s.outputBufIndex → p.step = .entered
  | _ => True

instance (capacity : Nat) (s : ConcurrentBuffer) : (e : Event) → Decidable (s.Calm capacity e)
  | .fetchAdd k => inferInstanceAs (Decidable (∀ p ∈ s.pushes[k]?, _))
  | .getSnapshotData => inferInstanceAs (Decidable (∀ p ∈ s.pushes, _))
  | .enter _ | .copy _ | .fetchSub _ | .snapshot | .clearSnapshot => isTrue trivial

/-- What concurrent pushes must not do to each other. -/
structure ReservationsKept (capacity : Nat) (s : ConcurrentBuffer) : Prop where
  disjoint : ∀ b, ((s.bufs b).stored.map StoredRecord.range).Pairwise Range.Disjoint
  inside : ∀ b, ∀ r ∈ (s.bufs b).stored, r.range.stop ≤ capacity
  intact : ∀ b, ∀ r ∈ (s.bufs b).stored,
    Memory.read (s.bufs b).buf r.start r.bytes.1.length = r.bytes.1
  sizes : ∀ n ∈ s.sizesSeen, n ≤ capacity
  nonneg : s.wentNegative = false
  noneLost : s.lost = []

end ConcurrentBuffer

/-! ## One buffer and the pushes on it

For one buffer the switch of the task does not matter. Its counter is what is stored, and what pushes on it
have added and will copy or take back; the ranges of both are disjoint and lie below the counter.
-/

namespace Push

/-- What a push has added to the counter of a buffer and will take back. -/
def overflow (b : Bool) (p : Push) : Int :=
  if p.buffer = b ∧ p.step = .overflowed then p.bytes.1.length else 0

/-- The room that a push has reserved in a buffer and not copied to. -/
def reservation (b : Bool) (p : Push) : Option Range :=
  match p.step with
  | .reserved start => if p.buffer = b then some ⟨start, p.bytes.1.length⟩ else none
  | _ => none

theorem overflow_nonneg (b : Bool) (p : Push) : 0 ≤ p.overflow b := by
  unfold overflow
  split_ifs
  · exact Int.natCast_nonneg _
  · exact le_refl _

theorem overflow_eq_zero {b : Bool} {p : Push} (h : p.buffer = b → p.step ≠ .overflowed) :
    p.overflow b = 0 := if_neg fun hp => h hp.1 hp.2

theorem reservation_eq_none {b : Bool} {p : Push} (h : p.buffer = b → ∀ start, p.step ≠ .reserved start) :
    p.reservation b = none := by
  unfold reservation
  split
  · rename_i start hstep
    exact if_neg fun hb => h hb start hstep
  · rfl

theorem reservation_reserved (b : Bool) (bytes : RecordData) (start : Nat) :
    reservation b ⟨b, bytes, .reserved start⟩ = some ⟨start, bytes.1.length⟩ := if_pos rfl

@[simp] theorem reservation_entered (b b' : Bool) (bytes : RecordData) :
    reservation b ⟨b', bytes, .entered⟩ = none := rfl

@[simp] theorem reservation_overflowed (b b' : Bool) (bytes : RecordData) :
    reservation b ⟨b', bytes, .overflowed⟩ = none := rfl

@[simp] theorem overflow_entered (b b' : Bool) (bytes : RecordData) :
    overflow b ⟨b', bytes, .entered⟩ = 0 := if_neg fun h => nomatch h.2

@[simp] theorem overflow_reserved (b b' : Bool) (bytes : RecordData) (start : Nat) :
    overflow b ⟨b', bytes, .reserved start⟩ = 0 := if_neg fun h => nomatch h.2

@[simp] theorem overflow_overflowed (b : Bool) (bytes : RecordData) :
    overflow b ⟨b, bytes, .overflowed⟩ = bytes.1.length := if_pos ⟨rfl, rfl⟩

end Push

namespace Buffer

/-- The sizes that the pushes will take back from the counter of a buffer. -/
def overflows (pushes : List Push) (b : Bool) : Int := (pushes.map (Push.overflow b)).sum

/-- What the counter of a buffer is without them. -/
def room (buffer : Buffer) (pushes : List Push) (b : Bool) : Int :=
  buffer.bufSize - overflows pushes b

/-- The ranges of a buffer that are taken: by records, and by pushes that are to copy theirs. -/
def ranges (buffer : Buffer) (pushes : List Push) (b : Bool) : List Range :=
  buffer.stored.map StoredRecord.range ++ pushes.filterMap (Push.reservation b)

/-- The invariant of one buffer: the ranges taken are disjoint and fill the room. The room is the counter
less the overflows that are still to be taken back; records that are stored and ranges that are reserved
fill it. -/
structure Ok (capacity : Nat) (pushes : List Push) (b : Bool) (buffer : Buffer) : Prop where
  length_buf : buffer.buf.length = capacity
  room_nonneg : 0 ≤ buffer.room pushes b
  room_le : buffer.room pushes b ≤ capacity
  total : buffer.room pushes b = (((buffer.ranges pushes b).map Range.len).sum : Nat)
  stop_le : ∀ r ∈ buffer.ranges pushes b, (r.stop : Int) ≤ buffer.room pushes b
  disjoint : (buffer.ranges pushes b).Pairwise Range.Disjoint
  intact : ∀ r ∈ buffer.stored, Memory.read buffer.buf r.start r.bytes.1.length = r.bytes.1

theorem overflows_append (l₁ l₂ : List Push) (b : Bool) :
    overflows (l₁ ++ l₂) b = overflows l₁ b + overflows l₂ b := by
  rw [overflows, List.map_append, List.sum_append, ← overflows, ← overflows]

theorem overflows_cons (p : Push) (l : List Push) (b : Bool) :
    overflows (p :: l) b = p.overflow b + overflows l b := by
  rw [overflows, List.map_cons, List.sum_cons, ← overflows]

theorem overflows_nonneg (pushes : List Push) (b : Bool) : 0 ≤ overflows pushes b := by
  refine List.sum_nonneg fun x hx => ?_
  obtain ⟨p, -, rfl⟩ := List.mem_map.mp hx
  exact p.overflow_nonneg b

/-- No push is to take anything back. -/
theorem overflows_eq_zero {pushes : List Push} {b : Bool}
    (h : ∀ p ∈ pushes, p.buffer = b → p.step ≠ .overflowed) : overflows pushes b = 0 := by
  induction pushes with
  | nil => rfl
  | cons p pushes ih =>
      rw [overflows_cons, Push.overflow_eq_zero (h p List.mem_cons_self),
        ih fun q hq => h q (List.mem_cons_of_mem p hq), add_zero]

theorem ranges_append_cons (buffer : Buffer) (l₁ l₂ : List Push) (p : Push) (b : Bool) :
    buffer.ranges (l₁ ++ p :: l₂) b =
      buffer.stored.map StoredRecord.range ++ (l₁.filterMap (Push.reservation b) ++
        ((p.reservation b).toList ++ l₂.filterMap (Push.reservation b))) := by
  rw [ranges, List.filterMap_append, List.filterMap_cons]
  cases p.reservation b <;> rfl

theorem ranges_append (buffer : Buffer) (l₁ l₂ : List Push) (b : Bool) :
    buffer.ranges (l₁ ++ l₂) b =
      buffer.stored.map StoredRecord.range ++
        (l₁.filterMap (Push.reservation b) ++ l₂.filterMap (Push.reservation b)) := by
  rw [ranges, List.filterMap_append]

namespace Ok

variable {capacity : Nat} {pushes pushes' : List Push} {b : Bool} {buffer buffer' : Buffer}

/-- The room and, up to their order, the ranges are all that matters. -/
theorem of_perm (h : Ok capacity pushes b buffer) (hlength : buffer'.buf.length = buffer.buf.length)
    (hroom : buffer'.room pushes' b = buffer.room pushes b)
    (hranges : (buffer'.ranges pushes' b).Perm (buffer.ranges pushes b))
    (hintact : ∀ r ∈ buffer'.stored, Memory.read buffer'.buf r.start r.bytes.1.length = r.bytes.1) :
    Ok capacity pushes' b buffer' where
  length_buf := hlength.trans h.length_buf
  room_nonneg := hroom ▸ h.room_nonneg
  room_le := hroom ▸ h.room_le
  total := by rw [hroom, h.total, (hranges.map Range.len).sum_eq]
  stop_le r hr := hroom ▸ h.stop_le r (hranges.mem_iff.mp hr)
  disjoint := (hranges.pairwise_iff Range.Disjoint.symm).mpr h.disjoint
  intact := hintact

/-- A push that changes its step, or returns, without touching this buffer. -/
theorem of_pushes (h : Ok capacity pushes b buffer) (hoverflows : overflows pushes' b = overflows pushes b)
    (hreserved : pushes'.filterMap (Push.reservation b) = pushes.filterMap (Push.reservation b)) :
    Ok capacity pushes' b buffer :=
  h.of_perm rfl (by rw [room, hoverflows, room]) (by rw [ranges, hreserved, ranges]) h.intact

/-- A push of another buffer does not matter. -/
theorem of_other {l₁ l₂ : List Push} {p p' : Push} (h : Ok capacity (l₁ ++ p :: l₂) b buffer)
    (hp : p.buffer ≠ b) (hp' : p'.buffer ≠ b) : Ok capacity (l₁ ++ p' :: l₂) b buffer := by
  have hoverflow : ∀ q : Push, q.buffer ≠ b → q.overflow b = 0 := fun q hq =>
    Push.overflow_eq_zero fun heq => absurd heq hq
  have hreservation : ∀ q : Push, q.buffer ≠ b → q.reservation b = none := fun q hq =>
    Push.reservation_eq_none fun heq => absurd heq hq
  refine h.of_pushes ?_ ?_
  · rw [overflows_append, overflows_append, overflows_cons, overflows_cons, hoverflow p hp,
      hoverflow p' hp']
  · rw [List.filterMap_append, List.filterMap_append, List.filterMap_cons_none (hreservation p hp),
      List.filterMap_cons_none (hreservation p' hp')]

/-- A push of another buffer that returns does not matter. -/
theorem of_other_returned {l₁ l₂ : List Push} {p : Push} (h : Ok capacity (l₁ ++ p :: l₂) b buffer)
    (hp : p.buffer ≠ b) : Ok capacity (l₁ ++ l₂) b buffer := by
  refine h.of_pushes ?_ ?_
  · rw [overflows_append, overflows_append, overflows_cons,
      Push.overflow_eq_zero fun heq => absurd heq hp, zero_add]
  · rw [List.filterMap_append, List.filterMap_append,
      List.filterMap_cons_none (Push.reservation_eq_none fun heq => absurd heq hp)]

/-- A push that begins has not touched the counter. -/
theorem enter (h : Ok capacity pushes b buffer) (b' : Bool) (bytes : RecordData) :
    Ok capacity (pushes ++ [⟨b', bytes, .entered⟩]) b buffer := by
  refine h.of_pushes ?_ ?_
  · rw [overflows_append, overflows_cons, Push.overflow_entered, zero_add]
    exact add_zero _
  · rw [List.filterMap_append, List.filterMap_cons_none (Push.reservation_entered ..)]
    exact List.append_nil _

/-- A `fetch_add` that goes past the buffer is owed back. -/
theorem overflow {l₁ l₂ : List Push} {bytes : RecordData}
    (h : Ok capacity (l₁ ++ ⟨b, bytes, .entered⟩ :: l₂) b buffer) :
    Ok capacity (l₁ ++ ⟨b, bytes, .overflowed⟩ :: l₂) b
      { buffer with bufSize := buffer.bufSize + bytes.1.length } := by
  refine h.of_perm rfl ?_ ?_ h.intact
  · simp only [room, overflows_append, overflows_cons, Push.overflow_entered,
      Push.overflow_overflowed]
    omega
  · rw [ranges_append_cons, ranges_append_cons, Push.reservation_entered, Push.reservation_overflowed]

/-- A `fetch_sub` gives back what was owed, and the counter was at least that. -/
theorem takeBack {l₁ l₂ : List Push} {bytes : RecordData}
    (h : Ok capacity (l₁ ++ ⟨b, bytes, .overflowed⟩ :: l₂) b buffer) :
    (bytes.1.length : Int) ≤ buffer.bufSize ∧
    Ok capacity (l₁ ++ l₂) b { buffer with bufSize := buffer.bufSize - bytes.1.length } := by
  have hroom := h.room_nonneg
  have h₁ := overflows_nonneg l₁ b
  have h₂ := overflows_nonneg l₂ b
  simp only [room, overflows_append, overflows_cons, Push.overflow_overflowed] at hroom
  refine ⟨by omega, h.of_perm rfl ?_ ?_ h.intact⟩
  · simp only [room, overflows_append, overflows_cons, Push.overflow_overflowed]
    omega
  · rw [ranges_append_cons, ranges_append, Push.reservation_overflowed]
    exact List.Perm.refl _

/-- With nothing to be taken back, the counter is the room. -/
theorem bufSize_eq (h : ∀ p ∈ pushes, p.buffer = b → p.step ≠ .overflowed) :
    buffer.bufSize = buffer.room pushes b := by
  rw [room, overflows_eq_zero h, sub_zero]

/-- **Reservation.** With nothing to be taken back, a `fetch_add` that fits reserves the range behind
the room. -/
theorem reserve {l₁ l₂ : List Push} {bytes : RecordData} (hcapacity : capacity < 2 ^ 63)
    (h : Ok capacity (l₁ ++ ⟨b, bytes, .entered⟩ :: l₂) b buffer)
    (hcalm : ∀ q ∈ l₁ ++ ⟨b, bytes, .entered⟩ :: l₂, q.buffer = b → q.step ≠ .overflowed)
    (hfits : ConcurrentBuffer.fits capacity buffer.bufSize bytes = true) :
    Ok capacity (l₁ ++ ⟨b, bytes, .reserved (sizeT buffer.bufSize)⟩ :: l₂) b
      { buffer with bufSize := buffer.bufSize + bytes.1.length } := by
  have hsize : buffer.bufSize = buffer.room _ b := bufSize_eq hcalm
  have hnonneg := h.room_nonneg
  have hle := h.room_le
  have hbytes := bytes.2
  have hstart : (sizeT buffer.bufSize : Int) = buffer.bufSize := by
    rw [sizeT_of_nonneg (by omega) (by omega)]
    omega
  have hin : buffer.bufSize + bytes.1.length ≤ capacity := by
    have hle' := of_decide_eq_true hfits
    rw [sizeT_of_nonneg (x := _ + _) (by omega) (by omega)] at hle'
    omega
  have hroom : ({ buffer with bufSize := buffer.bufSize + bytes.1.length } : Buffer).room
      (l₁ ++ ⟨b, bytes, .reserved (sizeT buffer.bufSize)⟩ :: l₂) b =
      buffer.room (l₁ ++ ⟨b, bytes, .entered⟩ :: l₂) b + bytes.1.length := by
    simp only [room, overflows_append, overflows_cons, Push.overflow_entered, Push.overflow_reserved]
    omega
  have hranges : (({ buffer with bufSize := buffer.bufSize + bytes.1.length } : Buffer).ranges
      (l₁ ++ ⟨b, bytes, .reserved (sizeT buffer.bufSize)⟩ :: l₂) b).Perm
      (⟨sizeT buffer.bufSize, bytes.1.length⟩ ::
        buffer.ranges (l₁ ++ ⟨b, bytes, .entered⟩ :: l₂) b) := by
    rw [ranges_append_cons, ranges_append_cons, Push.reservation_reserved, Push.reservation_entered,
      Option.toList_some, Option.toList_none, List.nil_append, List.singleton_append,
      ← List.append_assoc, ← List.append_assoc]
    exact List.perm_middle
  refine ⟨h.length_buf, by omega, by omega, ?_, fun r hr => ?_, ?_, h.intact⟩
  · rw [hroom, (hranges.map Range.len).sum_eq, List.map_cons, List.sum_cons, h.total]
    push_cast
    omega
  · rw [hroom]
    rcases List.mem_cons.mp (hranges.mem_iff.mp hr) with rfl | hr
    · show ((sizeT buffer.bufSize + bytes.1.length : Nat) : Int) ≤ _
      omega
    · have hstop := h.stop_le r hr
      omega
  · rw [hranges.pairwise_iff Range.Disjoint.symm, List.pairwise_cons]
    refine ⟨fun r hr => Or.inr ?_, h.disjoint⟩
    have hstop := h.stop_le r hr
    show r.stop ≤ sizeT buffer.bufSize
    omega

/-- The copy writes where only this push may, and the record is stored. -/
theorem copy {l₁ l₂ : List Push} {bytes : RecordData} {start : Nat}
    (h : Ok capacity (l₁ ++ ⟨b, bytes, .reserved start⟩ :: l₂) b buffer) :
    Ok capacity (l₁ ++ l₂) b
      { buffer with
        buf := Memory.write buffer.buf start bytes.1
        stored := buffer.stored ++ [{ start := start, bytes := bytes }] } := by
  have hranges := ranges_append_cons buffer l₁ l₂ ⟨b, bytes, .reserved start⟩ b
  rw [Push.reservation_reserved] at hranges
  have htaken : (⟨start, bytes.1.length⟩ : Range) ∈
      l₁.filterMap (Push.reservation b) ++ ((some ⟨start, bytes.1.length⟩ : Option Range).toList ++
        l₂.filterMap (Push.reservation b)) :=
    List.mem_append_right _ (List.mem_append_left _ (List.mem_singleton_self _))
  have hin : start + bytes.1.length ≤ buffer.buf.length := by
    have hstop : ((start + bytes.1.length : Nat) : Int) ≤ _ :=
      h.stop_le ⟨start, bytes.1.length⟩ (hranges ▸ List.mem_append_right _ htaken)
    have hle := h.room_le
    have hlength := h.length_buf
    omega
  refine h.of_perm (Memory.length_write hin) ?_ ?_ fun r hr => ?_
  · simp only [room, overflows_append, overflows_cons, Push.overflow_reserved, zero_add]
  · rw [hranges, ranges_append, List.map_append, List.append_assoc, Option.toList_some,
      List.singleton_append, List.map_singleton, List.singleton_append]
    exact List.Perm.append_left _ List.perm_middle.symm
  · rcases List.mem_append.mp hr with hr | hr
    · have hdisjoint := (List.pairwise_append.mp (hranges ▸ h.disjoint)).2.2 r.range
        (List.mem_map_of_mem hr) _ htaken
      rw [Memory.read_write_of_disjoint hdisjoint.symm (by omega)]
      exact h.intact r hr
    · obtain rfl := List.mem_singleton.mp hr
      exact Memory.read_write_self (by omega)

/-- A cleared buffer is empty once no push has anything reserved or owed there. -/
theorem clear (h : Ok capacity pushes b buffer)
    (hcalm : ∀ p ∈ pushes, p.buffer = b → p.step = .entered) :
    Ok capacity pushes b { buffer with bufSize := 0, stored := [] } := by
  have hoverflows : overflows pushes b = 0 :=
    overflows_eq_zero fun p hp hb => by rw [hcalm p hp hb]; decide
  have hreserved : pushes.filterMap (Push.reservation b) = [] := by
    rw [List.filterMap_eq_nil_iff]
    exact fun p hp => Push.reservation_eq_none fun hb start => by rw [hcalm p hp hb]; simp
  refine ⟨h.length_buf, ?_, ?_, ?_, ?_, ?_, fun r hr => nomatch hr⟩ <;>
    simp [room, ranges, hoverflows, hreserved]

end Ok

end Buffer

/-! ## Every step

A step concerns one buffer, and the other one is as it was. The condition is used in three places: where
room is reserved, where it is reserved on the output buffer, and where the task reads.
-/

namespace ConcurrentBuffer

/-! ### What the steps leave -/

/-- An update that leaves the records of its buffer leaves those of both. -/
theorem stored_update {bufs : Bool → Buffer} {b : Bool} {buffer : Buffer}
    (h : buffer.stored = (bufs b).stored) (b' : Bool) :
    (Function.update bufs b buffer b').stored = (bufs b').stored := by
  by_cases hb : b' = b
  · subst hb
    rw [Function.update_self, h]
  · rw [Function.update_of_ne hb]

theorem stored_fetchAdd (capacity : Nat) (s : ConcurrentBuffer) (k : Nat) (b : Bool) (bytes : RecordData)
    (b' : Bool) : ((s.fetchAdd capacity k b bytes).bufs b').stored = (s.bufs b').stored := by
  apply stored_update
  rfl

theorem stored_fetchSub (s : ConcurrentBuffer) (k : Nat) (b : Bool) (bytes : RecordData) (b' : Bool) :
    ((s.fetchSub k b bytes).bufs b').stored = (s.bufs b').stored := by
  apply stored_update
  rfl

/-- The invariant: both buffers are in order, and once the snapshot was read no push is going to change
it and everything in it was seen. -/
structure Invariant (capacity : Nat) (s : ConcurrentBuffer) : Prop where
  ok : ∀ b, (s.bufs b).Ok capacity s.pushes b
  settled : s.phase = .read → ∀ p ∈ s.pushes, p.buffer = s.outputBufIndex → p.step = .entered
  seen : s.phase = .read → ∀ r ∈ (s.bufs s.outputBufIndex).stored, r.seen = true
  sizes : ∀ n ∈ s.sizesSeen, n ≤ capacity
  nonneg : s.wentNegative = false
  noneLost : s.lost = []

namespace Invariant

variable {capacity : Nat} {s s' : ConcurrentBuffer}

theorem reservationsKept (h : Invariant capacity s) : ReservationsKept capacity s where
  disjoint b := (List.pairwise_append.mp (h.ok b).disjoint).1
  inside b r hr := by
    have hstop := (h.ok b).stop_le r.range (List.mem_append_left _ (List.mem_map_of_mem hr))
    have hle := (h.ok b).room_le
    omega
  intact b := (h.ok b).intact
  sizes := h.sizes
  nonneg := h.nonneg
  noneLost := h.noneLost

theorem enter (h : Invariant capacity s) (bytes : RecordData) : Invariant capacity
    { s with pushes := s.pushes ++ [{ buffer := s.inputBufIndex, bytes := bytes, step := .entered }] } where
  ok b := (h.ok b).enter _ bytes
  settled hread p hp hb := by
    rcases List.mem_append.mp hp with hp | hp
    · exact h.settled hread p hp hb
    · rw [List.mem_singleton.mp hp]
  seen := h.seen
  sizes := h.sizes
  nonneg := h.nonneg
  noneLost := h.noneLost

/-- A change of one buffer and of the pushes. -/
theorem ok_update {bufs bufs' : Bool → Buffer} {b : Bool} {buffer : Buffer} {pushes : List Push}
    (hbufs : bufs' = Function.update bufs b buffer) (hself : buffer.Ok capacity pushes b)
    (hother : ∀ b', b ≠ b' → (bufs b').Ok capacity pushes b') (b' : Bool) :
    (bufs' b').Ok capacity pushes b' := by
  rw [hbufs]
  by_cases hb : b' = b
  · subst hb
    rw [Function.update_self]
    exact hself
  · rw [Function.update_of_ne hb]
    exact hother b' (Ne.symm hb)

theorem fetchAdd (hcapacity : capacity < 2 ^ 63) (h : Invariant capacity s) {k : Nat} {b : Bool}
    {bytes : RecordData} (hk : s.pushes[k]? = some ⟨b, bytes, .entered⟩)
    (hcalm : s.Calm capacity (.fetchAdd k)) :
    Invariant capacity (s.fetchAdd capacity k b bytes) := by
  obtain ⟨hnothingOwed, hread⟩ := hcalm _ hk rfl
  obtain ⟨l₁, l₂, hpushes, hset, -⟩ := exists_split_of_getElem? hk
  have hpushes' : (s.fetchAdd capacity k b bytes).pushes = l₁ ++ _ :: l₂ := hset _
  refine ⟨ok_update rfl ?_ fun b' hb => ?_, fun hphase p hp hb => ?_, fun hphase => ?_, h.sizes, h.nonneg,
    h.noneLost⟩
  · have hok := h.ok b
    rw [hpushes']
    rw [hpushes] at hok hnothingOwed
    split_ifs with hfits
    · exact hok.reserve hcapacity (hnothingOwed hfits) hfits
    · exact hok.overflow
  · have hok := h.ok b'
    rw [hpushes']
    rw [hpushes] at hok
    exact hok.of_other hb hb
  · rcases List.mem_or_eq_of_mem_set hp with hp | rfl
    · exact h.settled hphase p hp hb
    · exact absurd ⟨hb, hphase⟩ hread
  · show ∀ r ∈ ((s.fetchAdd capacity k b bytes).bufs s.outputBufIndex).stored, r.seen = true
    rw [stored_fetchAdd]
    exact h.seen hphase

theorem copy (h : Invariant capacity s) {k start : Nat} {b : Bool} {bytes : RecordData}
    (hk : s.pushes[k]? = some ⟨b, bytes, .reserved start⟩) :
    Invariant capacity (s.copy k b bytes start) := by
  obtain ⟨l₁, l₂, hpushes, -, herase⟩ := exists_split_of_getElem? hk
  have hpushes' : (s.copy k b bytes start).pushes = l₁ ++ l₂ := herase
  refine ⟨ok_update rfl ?_ fun b' hb => ?_, fun hphase p hp hb => ?_, fun hphase => ?_, h.sizes, h.nonneg,
    h.noneLost⟩
  · have hok := h.ok b
    rw [hpushes']
    rw [hpushes] at hok
    exact hok.copy
  · have hok := h.ok b'
    rw [hpushes']
    rw [hpushes] at hok
    exact hok.of_other_returned hb
  · exact h.settled hphase p (List.mem_of_mem_eraseIdx hp) hb
  · have hb : s.outputBufIndex ≠ b := fun hb =>
      nomatch h.settled hphase _ (List.mem_of_getElem? hk) hb.symm
    show ∀ r ∈ (Function.update s.bufs b _ s.outputBufIndex).stored, r.seen = true
    rw [Function.update_of_ne hb]
    exact h.seen hphase

theorem fetchSub (h : Invariant capacity s) {k : Nat} {b : Bool} {bytes : RecordData}
    (hk : s.pushes[k]? = some ⟨b, bytes, .overflowed⟩) :
    Invariant capacity (s.fetchSub k b bytes) := by
  obtain ⟨l₁, l₂, hpushes, -, herase⟩ := exists_split_of_getElem? hk
  have hpushes' : (s.fetchSub k b bytes).pushes = l₁ ++ l₂ := herase
  have hok := h.ok b
  rw [hpushes] at hok
  obtain ⟨hle, htaken⟩ := hok.takeBack
  refine ⟨ok_update rfl ?_ fun b' hb => ?_, fun hphase p hp hb => ?_, fun hphase => ?_, h.sizes, ?_,
    h.noneLost⟩
  · rw [hpushes']
    exact htaken
  · have hok := h.ok b'
    rw [hpushes']
    rw [hpushes] at hok
    exact hok.of_other_returned hb
  · exact h.settled hphase p (List.mem_of_mem_eraseIdx hp) hb
  · show ∀ r ∈ ((s.fetchSub k b bytes).bufs s.outputBufIndex).stored, r.seen = true
    rw [stored_fetchSub]
    exact h.seen hphase
  · show (s.wentNegative || decide ((s.bufs b).bufSize < bytes.1.length)) = false
    rw [h.nonneg, Bool.false_or, decide_eq_false_iff_not]
    omega

theorem snapshot (h : Invariant capacity s) : Invariant capacity s.snapshot where
  ok := h.ok
  settled hread := nomatch hread
  seen hread := nomatch hread
  sizes := h.sizes
  nonneg := h.nonneg
  noneLost := h.noneLost

/-- A read without a push in between sees every record of the buffer. -/
theorem getSnapshotData (hcapacity : capacity < 2 ^ 63) (h : Invariant capacity s)
    (hcalm : s.Calm capacity .getSnapshotData) : Invariant capacity s.getSnapshotData := by
  have hok := h.ok s.outputBufIndex
  have hle := hok.room_le
  have hroom : (s.bufs s.outputBufIndex).bufSize = (s.bufs s.outputBufIndex).room s.pushes s.outputBufIndex :=
    Buffer.Ok.bufSize_eq fun p hp hbuffer => by rw [hcalm p hp hbuffer]; decide
  have hsize : ((s.bufs s.outputBufIndex).size : Int) =
      (s.bufs s.outputBufIndex).room s.pushes s.outputBufIndex := by
    have hnonneg := hok.room_nonneg
    rw [Buffer.size, sizeT_of_nonneg (by omega) (by omega)]
    omega
  refine ⟨ok_update rfl ?_ (fun b' _ => h.ok b'), fun _ => hcalm, fun hphase => ?_, fun n hn => ?_, h.nonneg,
    h.noneLost⟩
  · refine hok.of_perm rfl rfl ?_ fun r hr => ?_
    · rw [Buffer.ranges, Buffer.ranges, List.map_map]
      exact List.Perm.refl _
    · obtain ⟨r₀, hr₀, rfl⟩ := List.mem_map.mp hr
      exact hok.intact r₀ hr₀
  · have hhandler : s.phase ≠ .idle := by
      intro hidle
      have hphase' : (if s.phase = .idle then ConsumerPhase.idle else .read) = .read := hphase
      rw [if_pos hidle] at hphase'
      exact nomatch hphase'
    show ∀ r ∈ (Function.update s.bufs s.outputBufIndex _ s.outputBufIndex).stored, r.seen = true
    rw [Function.update_self]
    intro r hr
    obtain ⟨r₀, hr₀, rfl⟩ := List.mem_map.mp hr
    have hstop := hok.stop_le r₀.range (List.mem_append_left _ (List.mem_map_of_mem hr₀))
    have hseen : r₀.range.stop ≤ (s.bufs s.outputBufIndex).size := by omega
    simp [hhandler, hseen]
  · rcases List.mem_append.mp hn with hn | hn
    · exact h.sizes n hn
    · rw [List.mem_singleton.mp hn]
      omega

/-- The clear of a snapshot that was seen, with no push left on it, loses nothing. -/
theorem clearSnapshot (h : Invariant capacity s) (hread : s.phase = .read) :
    Invariant capacity s.clearSnapshot := by
  have hsettled := h.settled hread
  refine ⟨ok_update rfl ((h.ok _).clear hsettled) (fun b' _ => h.ok b'), (fun hphase => nomatch hphase),
    (fun hphase => nomatch hphase), h.sizes, h.nonneg, ?_⟩
  have hunseen : (s.bufs s.outputBufIndex).stored.filter (fun r => !r.seen) = [] := by
    rw [List.filter_eq_nil_iff]
    intro r hr
    rw [h.seen hread r hr]
    decide
  have hreserved : s.pushes.filterMap (reservedRecord s.outputBufIndex) = [] := by
    rw [List.filterMap_eq_nil_iff]
    intro p hp
    unfold reservedRecord
    split
    · rename_i start hstep
      exact if_neg fun hb => nomatch hstep.symm.trans (hsettled p hp hb)
    · rfl
  show s.lost ++ _ ++ _ = []
  rw [h.noneLost, hunseen, hreserved]
  rfl

theorem step (hcapacity : capacity < 2 ^ 63) (h : Invariant capacity s) (e : Event)
    (hcalm : s.Calm capacity e) (hstep : s.step capacity e = some s') : Invariant capacity s' := by
  cases e with
  | enter bytes =>
      obtain rfl := Option.some.inj hstep
      exact h.enter bytes
  | fetchAdd k =>
      simp only [ConcurrentBuffer.step] at hstep
      split at hstep
      · rename_i b bytes hk
        obtain rfl := Option.some.inj hstep
        exact h.fetchAdd hcapacity hk hcalm
      · exact nomatch hstep
  | copy k =>
      simp only [ConcurrentBuffer.step] at hstep
      split at hstep
      · rename_i b bytes start hk
        obtain rfl := Option.some.inj hstep
        exact h.copy hk
      · exact nomatch hstep
  | fetchSub k =>
      simp only [ConcurrentBuffer.step] at hstep
      split at hstep
      · rename_i b bytes hk
        obtain rfl := Option.some.inj hstep
        exact h.fetchSub hk
      · exact nomatch hstep
  | snapshot =>
      simp only [ConcurrentBuffer.step] at hstep
      split_ifs at hstep
      obtain rfl := Option.some.inj hstep
      exact h.snapshot
  | getSnapshotData =>
      obtain rfl := Option.some.inj hstep
      exact h.getSnapshotData hcapacity hcalm
  | clearSnapshot =>
      simp only [ConcurrentBuffer.step] at hstep
      split_ifs at hstep with hread
      obtain rfl := Option.some.inj hstep
      exact h.clearSnapshot hread

end Invariant

/-! ## Calls that are not interrupted

Where no step comes between those of a call, the buffers are `Game.DoubleBuffering`, which keeps whole
records: the tasks of the world are modelled with that one, and what is said of them is about it.
-/

/-- The records of both buffers, as the task sees the whole of it. -/
def records (s : ConcurrentBuffer) : Game.DoubleBuffering RecordData where
  live := (s.bufs s.inputBufIndex).stored.map StoredRecord.bytes
  output := (s.bufs s.outputBufIndex).stored.map StoredRecord.bytes

/-- The steps of the push of a record that no other step comes between. -/
def pushEvents (capacity : Nat) (s : ConcurrentBuffer) (bytes : RecordData) : List Event :=
  [.enter bytes, .fetchAdd s.pushes.length,
    if fits capacity (s.bufs s.inputBufIndex).bufSize bytes then .copy s.pushes.length
    else .fetchSub s.pushes.length]

/-- With no push between its `fetch_add` and its return on the input buffer, the counter there is the
sum of the sizes of the records. -/
theorem Invariant.bufSize_eq_sum {capacity : Nat} {s : ConcurrentBuffer} (h : Invariant capacity s)
    (hcalm : ∀ p ∈ s.pushes, p.buffer = s.inputBufIndex → p.step = .entered) :
    (s.bufs s.inputBufIndex).bufSize =
      ((s.records.live.map fun bytes => bytes.1.length).sum : Nat) := by
  have hreserved : s.pushes.filterMap (Push.reservation s.inputBufIndex) = [] := by
    rw [List.filterMap_eq_nil_iff]
    exact fun p hp => Push.reservation_eq_none fun hb start => by rw [hcalm p hp hb]; simp
  have hsize : (s.bufs s.inputBufIndex).bufSize = (s.bufs s.inputBufIndex).room s.pushes s.inputBufIndex :=
    Buffer.Ok.bufSize_eq fun p hp hb => by rw [hcalm p hp hb]; decide
  rw [hsize, (h.ok _).total, Buffer.ranges, hreserved, List.append_nil, records, List.map_map, List.map_map]
  rfl

/-- A record then fits exactly if the push of it as a whole is accepted. -/
theorem Invariant.fits_iff {capacity : Nat} {s : ConcurrentBuffer} (hcapacity : capacity < 2 ^ 63)
    (h : Invariant capacity s) (hcalm : ∀ p ∈ s.pushes, p.buffer = s.inputBufIndex → p.step = .entered)
    (bytes : RecordData) :
    fits capacity (s.bufs s.inputBufIndex).bufSize bytes = true ↔
      ¬ (s.records.live.map fun bytes => bytes.1.length).sum + bytes.1.length > capacity := by
  have hsum := h.bufSize_eq_sum hcalm
  have hle : (s.bufs s.inputBufIndex).bufSize ≤ capacity := by
    rw [Buffer.Ok.bufSize_eq fun p hp hb => by rw [hcalm p hp hb]; decide]
    exact (h.ok _).room_le
  have hbytes := bytes.2
  have hsize : sizeT (s.bufs s.inputBufIndex).bufSize =
      (s.records.live.map fun bytes => bytes.1.length).sum := by
    rw [sizeT_of_nonneg (by omega) (by omega)]
    omega
  rw [fits, decide_eq_true_iff, hsize, sizeT_of_nonneg (by omega) (by omega)]
  omega

theorem records_of_stored {s s' : ConcurrentBuffer} (hindex : s'.inputBufIndex = s.inputBufIndex)
    (hstored : ∀ b, (s'.bufs b).stored = (s.bufs b).stored) : s'.records = s.records := by
  rw [records, records, outputBufIndex, outputBufIndex, hindex, hstored, hstored]

/-- The copy of a record to the input buffer puts it behind the others. -/
theorem records_copy (s : ConcurrentBuffer) (k : Nat) (bytes : RecordData) (start : Nat) :
    (s.copy k s.inputBufIndex bytes start).records =
      { s.records with live := s.records.live ++ [bytes] } := by
  simp [records, copy, updateBuffer, outputBufIndex]

theorem records_snapshot (s : ConcurrentBuffer) : s.snapshot.records = s.records.snapshot := by
  simp [records, snapshot, outputBufIndex, Game.DoubleBuffering.snapshot]

/-- A read of the snapshot marks records as seen. -/
theorem records_getSnapshotData (s : ConcurrentBuffer) : s.getSnapshotData.records = s.records := by
  simp [records, getSnapshotData, updateBuffer, outputBufIndex, Function.comp_def]

theorem records_clearSnapshot (s : ConcurrentBuffer) :
    s.clearSnapshot.records = s.records.clearSnapshot := by
  simp [records, clearSnapshot, updateBuffer, outputBufIndex, Game.DoubleBuffering.clearSnapshot]

/-- **A push that is not interrupted** refines `Game.DoubleBuffering.push`: it leaves the same records, and
takes its size back exactly if that push is refused. -/
theorem run_pushEvents {capacity : Nat} {s : ConcurrentBuffer} (hcapacity : capacity < 2 ^ 63)
    (h : Invariant capacity s) (hcalm : ∀ p ∈ s.pushes, p.buffer = s.inputBufIndex → p.step = .entered)
    (bytes : RecordData) :
    ∃ s', run (step capacity) s (s.pushEvents capacity bytes) = some s' ∧ s'.pushes = s.pushes ∧
      (s'.records, fits capacity (s.bufs s.inputBufIndex).bufSize bytes) =
        s.records.push capacity (fun bytes => bytes.1.length) bytes := by
  have hfits := h.fits_iff hcapacity hcalm bytes
  let entered : Push := { buffer := s.inputBufIndex, bytes := bytes, step := .entered }
  let s₁ : ConcurrentBuffer := { s with pushes := s.pushes ++ [entered] }
  let s₂ := s₁.fetchAdd capacity s.pushes.length s.inputBufIndex bytes
  have hadd : s₁.step capacity (.fetchAdd s.pushes.length) = some s₂ := by
    simp [step, s₁, s₂, entered]
  -- the push is the last one under way until it returns
  have hreturned : s₂.pushes.eraseIdx s.pushes.length = s.pushes := by
    simp [s₂, s₁, fetchAdd, List.eraseIdx_append_of_length_le]
  have hrun : ∀ e s₃, s₂.step capacity e = some s₃ →
      run (step capacity) s [.enter bytes, .fetchAdd s.pushes.length, e] = some s₃ := by
    intro e s₃ hlast
    refine run_cons_eq_some.mpr ⟨s₁, rfl, run_cons_eq_some.mpr ⟨s₂, hadd, ?_⟩⟩
    rw [run_singleton, hlast]
  by_cases hroom : fits capacity (s.bufs s.inputBufIndex).bufSize bytes = true
  · have hcopy : s₂.step capacity (.copy s.pushes.length) = some (s₂.copy s.pushes.length s.inputBufIndex
        bytes (sizeT (s.bufs s.inputBufIndex).bufSize)) := by
      simp [step, s₁, s₂, entered, fetchAdd, hroom]
    refine ⟨_, hrun _ _ (by rw [if_pos hroom, hcopy]), hreturned, ?_⟩
    have hrecords : s₂.records = s.records :=
      records_of_stored rfl (stored_fetchAdd capacity s₁ _ _ bytes)
    rw [hroom, Game.DoubleBuffering.push, if_neg (hfits.mp hroom)]
    exact congrArg (·, true) ((records_copy s₂ _ bytes _).trans (by rw [hrecords]))
  · have hsub : s₂.step capacity (.fetchSub s.pushes.length) =
        some (s₂.fetchSub s.pushes.length s.inputBufIndex bytes) := by
      simp [step, s₁, s₂, entered, fetchAdd, hroom]
    refine ⟨_, hrun _ _ (by rw [if_neg hroom, hsub]), hreturned, ?_⟩
    have hrecords : (s₂.fetchSub s.pushes.length s.inputBufIndex bytes).records = s.records :=
      records_of_stored rfl fun b => (stored_fetchSub s₂ _ _ bytes b).trans
        (stored_fetchAdd capacity s₁ _ _ bytes b)
    rw [hrecords, Bool.eq_false_of_not_eq_true hroom, Game.DoubleBuffering.push,
      if_pos (not_not.mp fun hle => hroom (hfits.mpr hle))]

/-- A call of a producer or of the task. -/
inductive Call where
  | push (bytes : RecordData)
  | snapshot
  | getSnapshotData
  | clearSnapshot

/-- The steps of a call that no other step comes between. -/
def callEvents (capacity : Nat) (s : ConcurrentBuffer) : Call → List Event
  | .push bytes => s.pushEvents capacity bytes
  | .snapshot => [.snapshot]
  | .getSnapshotData => [.getSnapshotData]
  | .clearSnapshot => [.clearSnapshot]

/-- A whole call. -/
def call (capacity : Nat) (s : ConcurrentBuffer) (c : Call) : Option ConcurrentBuffer :=
  run (step capacity) s (s.callEvents capacity c)

/-- The same call of the double buffering of records. -/
def Call.onRecords (capacity : Nat) (records : Game.DoubleBuffering RecordData) :
    Call → Game.DoubleBuffering RecordData
  | .push bytes => (records.push capacity (fun bytes => bytes.1.length) bytes).1
  | .snapshot => records.snapshot
  | .getSnapshotData => records
  | .clearSnapshot => records.clearSnapshot

/-- A push of a thread that is alone is taken in calm. -/
theorem calm_pushEvents {capacity : Nat} {s : ConcurrentBuffer} (hnone : s.pushes = []) (bytes : RecordData) :
    Along (step capacity) (Calm capacity) s (s.pushEvents capacity bytes) := by
  refine ⟨trivial, fun s₁ hs₁ => ⟨?_, fun s₂ _ => ⟨?_, fun _ _ => trivial⟩⟩⟩
  · obtain rfl := Option.some.inj hs₁
    intro p hp hentered
    obtain rfl : p = ⟨s.inputBufIndex, bytes, .entered⟩ := by simpa [hnone, eq_comm] using hp
    refine ⟨fun _ q hq _ => ?_, fun hread => ?_⟩
    · obtain rfl : q = ⟨s.inputBufIndex, bytes, .entered⟩ := by simpa [hnone] using hq
      simp
    · exact absurd hread.1 (by simp [outputBufIndex])
  · split_ifs <;> trivial

/-- **A whole call refines** the call of the double buffering of records. -/
theorem Invariant.call {capacity : Nat} {s s' : ConcurrentBuffer} (hcapacity : capacity < 2 ^ 63)
    (h : Invariant capacity s) (hnone : s.pushes = []) {c : Call} (hcall : s.call capacity c = some s') :
    Invariant capacity s' ∧ s'.pushes = [] ∧ s'.records = c.onRecords capacity s.records := by
  cases c with
  | push bytes =>
      obtain ⟨t, ht, hpushes, hrecords⟩ := run_pushEvents hcapacity h (by simp [hnone]) bytes
      obtain rfl := Option.some.inj (ht.symm.trans hcall)
      exact ⟨run_invariant_along (fun _ e _ h hG hstep => h.step hcapacity e hG hstep) h
        (calm_pushEvents hnone bytes) ht, hpushes.trans hnone, congrArg Prod.fst hrecords⟩
  | snapshot =>
      replace hcall : s.step capacity .snapshot = some s' := (run_singleton ..).symm.trans hcall
      refine ⟨h.step hcapacity .snapshot trivial hcall, ?_⟩
      rw [ConcurrentBuffer.step, Option.ite_none_right_eq_some] at hcall
      obtain rfl := Option.some.inj hcall.2
      exact ⟨hnone, records_snapshot s⟩
  | getSnapshotData =>
      replace hcall : s.step capacity .getSnapshotData = some s' := (run_singleton ..).symm.trans hcall
      refine ⟨h.step hcapacity _ (by simp [Calm, hnone]) hcall, ?_⟩
      obtain rfl := Option.some.inj hcall
      exact ⟨hnone, records_getSnapshotData s⟩
  | clearSnapshot =>
      replace hcall : s.step capacity .clearSnapshot = some s' := (run_singleton ..).symm.trans hcall
      refine ⟨h.step hcapacity .clearSnapshot trivial hcall, ?_⟩
      rw [ConcurrentBuffer.step, Option.ite_none_right_eq_some] at hcall
      obtain rfl := Option.some.inj hcall.2
      exact ⟨hnone, records_clearSnapshot s⟩

/-! ## Runs -/

/-- The buffers before the first push. -/
def init (buf : Bool → List UInt8) : ConcurrentBuffer := { bufs := fun b => { buf := buf b } }

theorem init_invariant {capacity : Nat} {buf : Bool → List UInt8}
    (hlength : ∀ b, (buf b).length = capacity) : Invariant capacity (init buf) where
  ok b :=
    { length_buf := hlength b
      room_nonneg := le_refl _
      room_le := Int.natCast_nonneg capacity
      total := rfl
      stop_le := fun _ hr => nomatch hr
      disjoint := List.Pairwise.nil
      intact := fun _ hr => nomatch hr }
  settled hread := nomatch hread
  seen hread := nomatch hread
  sizes _ hn := nomatch hn
  nonneg := rfl
  noneLost := rfl

/-- **Calm runs keep reservations apart.** Whatever the order in which pushes and the task take their
steps, as long as every step is taken in calm. -/
theorem reservationsKept_of_run {capacity : Nat} (hcapacity : capacity < 2 ^ 63)
    {buf : Bool → List UInt8} (hlength : ∀ b, (buf b).length = capacity) {es : List Event}
    {s : ConcurrentBuffer} (hcalm : Along (step capacity) (Calm capacity) (init buf) es)
    (hrun : run (step capacity) (init buf) es = some s) : ReservationsKept capacity s := by
  have hinvariant : Invariant capacity s :=
    run_invariant_along (fun _ e _ h hG hstep => h.step hcapacity e hG hstep) (init_invariant hlength)
      hcalm hrun
  exact hinvariant.reservationsKept

/-- The buffers of the block and chat histories, all zero. -/
def zeroed : ConcurrentBuffer := init fun _ => List.replicate Game.blockHistoryCapacity (0 : UInt8)

/-- A record of `n` zero bytes. -/
def zeros (n : Nat) (h : n < 2 ^ 63 := by decide) : RecordData :=
  ⟨List.replicate n 0, by rw [List.length_replicate]; exact h⟩

/-- Two pushes overlap; the second goes past the buffer and takes its size back. -/
def overlappingPushes : List Event :=
  [.enter (zeros 8190), .enter (zeros 8), .fetchAdd 0, .fetchAdd 1, .copy 0, .fetchSub 0,
    .snapshot, .getSnapshotData, .clearSnapshot]

theorem reservationsKept_overlappingPushes :
    ∃ s, run (step Game.blockHistoryCapacity) zeroed overlappingPushes = some s ∧
      ReservationsKept Game.blockHistoryCapacity s :=
  ⟨_, run_getD (t := zeroed) (by decide +kernel),
    reservationsKept_of_run (by decide) (fun _ => List.length_replicate)
      (show Along _ _ zeroed overlappingPushes by decide +kernel) (run_getD (t := zeroed) (by decide +kernel))⟩

/-- The push of a record selects the input buffer and goes on when that buffer was switched out and
handled. -/
def straggler : List Event :=
  [.enter (zeros 8), .fetchAdd 0, .copy 0, .enter (zeros 8), .snapshot, .getSnapshotData, .fetchAdd 0,
    .copy 0, .clearSnapshot]

/-- Two pushes go past the buffer.  Between their `fetch_sub`s a third finds room, and behind the second
`fetch_sub` a fourth finds the end of the third's. -/
def staleOverflow : List Event :=
  [.enter (zeros 8180), .fetchAdd 0, .copy 0,
    .enter (zeros 13), .fetchAdd 0, .enter (zeros 2), .fetchAdd 1, .fetchSub 0,
    .enter (zeros 10), .fetchAdd 1, .copy 1, .fetchSub 0,
    .enter (zeros 2), .fetchAdd 0, .copy 0]

/-- **Without calm a record is lost, and reservations collide.** -/
theorem not_reservationsKept :
    (∃ s, run (step Game.blockHistoryCapacity) zeroed straggler = some s ∧
      ¬ ReservationsKept Game.blockHistoryCapacity s) ∧
    ∃ s, run (step Game.blockHistoryCapacity) zeroed staleOverflow = some s ∧
      ¬ ReservationsKept Game.blockHistoryCapacity s := by
  constructor
  · refine ⟨_, run_getD (t := zeroed) (by decide +kernel), fun h => ?_⟩
    exact absurd h.noneLost (by decide +kernel)
  · refine ⟨_, run_getD (t := zeroed) (by decide +kernel), fun h => ?_⟩
    exact absurd (h.disjoint false) (by decide +kernel)

end ConcurrentBuffer

end Mmocraft.Util
