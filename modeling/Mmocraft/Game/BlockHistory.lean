/-
# Mmocraft.Game.BlockHistory -- the block history as bytes

`BlockHistory` is a double buffer of bytes.  `add_record` lays out a packed record in the memory of the
machine, with the coordinates swapped, and appends its eight bytes to the input buffer; the snapshot is
read in two ways: as a stream of packets that is sent as it is, and as records that are committed to the
block mapping.  Both are right: a swapped coordinate lies in memory as the serializer writes it, and the
slices of eight bytes are the records that were pushed.

`Represents` connects the bytes with a `DoubleBuffering` of records, which is what the model of the server
uses; each function has a lemma that says it does to the bytes what the other does to the records. The runs at
the end are those of the task, with snapshots when it is scheduled and the clearing when its handler has
returned.
-/
import Mmocraft.Game.BlockMapping
import Mmocraft.Game.WorldTask
import Mmocraft.Lib.Runs
import Mmocraft.Net.PacketSerialize

namespace Mmocraft.Game

open Mmocraft.Lib Mmocraft.Net Mmocraft.Util

/-! ## Records in memory -/

namespace BlockHistoryRecord

/-- `BlockHistory::add_record` makes this record of a coordinate and a block. -/
def of (x y z : BitVec 16) (blockId : UInt8) : BlockHistoryRecord :=
  { x := byteswap16 x, y := byteswap16 y, z := byteswap16 z, blockId := blockId }

/-- The record as it lies in memory, packed. -/
def packed (r : BlockHistoryRecord) : List UInt8 :=
  PacketTypeId.setBlockServer :: (littleEndian16 r.x ++ (littleEndian16 r.y ++
    (littleEndian16 r.z ++ [r.blockId])))

/-- The packet id and the record that lie in eight bytes of memory. -/
def ofPacked : List UInt8 → Option (UInt8 × BlockHistoryRecord)
  | [packetId, x₀, x₁, y₀, y₁, z₀, z₁, blockId] =>
      some (packetId, { x := ofLittleEndian16 x₀ x₁, y := ofLittleEndian16 y₀ y₁
                        z := ofLittleEndian16 z₀ z₁, blockId := blockId })
  | _ => none

@[simp] theorem length_packed (r : BlockHistoryRecord) : r.packed.length = historyDataUnitSize := rfl

theorem ofPacked_packed (r : BlockHistoryRecord) :
    ofPacked r.packed = some (PacketTypeId.setBlockServer, r) := by
  simp [packed, littleEndian16, ofPacked]

end BlockHistoryRecord

/-- The record that `add_record` makes of the position and the block of a packet. -/
def recordOf (p : PacketSetBlockServer) : BlockHistoryRecord :=
  .of p.blockPos.x p.blockPos.y p.blockPos.z p.blockId

/-- **A record in memory is the packet on the wire.** -/
theorem packed_recordOf (p : PacketSetBlockServer) : (recordOf p).packed = p.serialized := by
  simp only [BlockHistoryRecord.packed, recordOf, BlockHistoryRecord.of, littleEndian16_byteswap16]
  rfl

/-! ## The buffers -/

/-- `DoubleBuffering::Buffer`. -/
structure HistoryBuffer where
  buf : List UInt8
  bufSize : Nat := 0

namespace HistoryBuffer

def push (b : HistoryBuffer) (data : List UInt8) : HistoryBuffer × Bool :=
  if b.bufSize + data.length > b.buf.length then (b, false)
  else ({ buf := Memory.write b.buf b.bufSize data, bufSize := b.bufSize + data.length }, true)

def clear (b : HistoryBuffer) : HistoryBuffer := { b with bufSize := 0 }

/-- The buffer holds these bytes. -/
structure Holds (b : HistoryBuffer) (bytes : List UInt8) : Prop where
  length_buf : b.buf.length = blockHistoryCapacity
  bufSize_eq : b.bufSize = bytes.length
  bytes_eq : Memory.read b.buf 0 b.bufSize = bytes

variable {b : HistoryBuffer} {bytes : List UInt8}

theorem Holds.clear (h : b.Holds bytes) : b.clear.Holds [] :=
  ⟨h.length_buf, rfl, Memory.read_zero_length _ _⟩

theorem Holds.length_le (h : b.Holds bytes) : bytes.length ≤ blockHistoryCapacity := by
  have hlength := congrArg List.length h.bytes_eq
  simp only [Memory.read, List.length_take, List.length_drop, h.length_buf] at hlength
  have hsize := h.bufSize_eq
  omega

/-- A push is accepted exactly if its bytes fit. -/
theorem Holds.push_accepts_iff (h : b.Holds bytes) (data : List UInt8) :
    (b.push data).2 = true ↔ bytes.length + data.length ≤ blockHistoryCapacity := by
  unfold HistoryBuffer.push
  rw [h.length_buf, h.bufSize_eq]
  split_ifs with hfull
  · exact iff_of_false (by simp) (by omega)
  · exact iff_of_true rfl (by omega)

theorem push_refused (hrefused : (b.push bytes).2 = false) : (b.push bytes).1 = b := by
  unfold HistoryBuffer.push at hrefused ⊢
  split_ifs at hrefused ⊢
  rfl

/-- An accepted push appends its bytes. -/
theorem Holds.push (h : b.Holds bytes) {data : List UInt8} (hok : (b.push data).2 = true) :
    (b.push data).1.Holds (bytes ++ data) := by
  have hfit := (h.push_accepts_iff data).mp hok
  have hsize : b.bufSize ≤ b.buf.length := by
    rw [h.length_buf, h.bufSize_eq]
    exact h.length_le
  have hpush : b.push data = ({ buf := Memory.write b.buf b.bufSize data
                                bufSize := b.bufSize + data.length }, true) := by
    unfold HistoryBuffer.push
    rw [if_neg (by rw [h.length_buf, h.bufSize_eq]; omega)]
  rw [hpush]
  refine ⟨?_, ?_, ?_⟩
  · exact (Memory.length_write (by rw [h.length_buf, h.bufSize_eq]; omega)).trans h.length_buf
  · show b.bufSize + data.length = (bytes ++ data).length
    rw [List.length_append, h.bufSize_eq]
  · have happend : Memory.read (Memory.write b.buf (0 + b.bufSize) data) 0 (b.bufSize + data.length) =
        Memory.read b.buf 0 b.bufSize ++ data := Memory.read_write_append (by omega)
    rwa [Nat.zero_add, h.bytes_eq] at happend

end HistoryBuffer

/-! ## BlockHistory -/

/-- `BlockHistory`, a `DoubleBuffering`. -/
structure BlockHistory where
  bufs : Bool → HistoryBuffer
  inputBufIndex : Bool := false

namespace BlockHistory

def inputBuffer (h : BlockHistory) : HistoryBuffer := h.bufs h.inputBufIndex

def outputBuffer (h : BlockHistory) : HistoryBuffer := h.bufs (!h.inputBufIndex)

def addRecord (h : BlockHistory) (pos : Coordinate3D) (blockId : UInt8) : BlockHistory × Bool :=
  let r := h.inputBuffer.push (BlockHistoryRecord.of pos.x pos.y pos.z blockId).packed
  ({ h with bufs := Function.update h.bufs h.inputBufIndex r.1 }, r.2)

def snapshot (h : BlockHistory) : BlockHistory := { h with inputBufIndex := !h.inputBufIndex }

def clearSnapshot (h : BlockHistory) : BlockHistory :=
  { h with bufs := Function.update h.bufs (!h.inputBufIndex) h.outputBuffer.clear }

/-- `get_snapshot_data`, the bytes of the view. -/
def getSnapshotData (h : BlockHistory) : List UInt8 :=
  Memory.read h.outputBuffer.buf 0 h.outputBuffer.bufSize

def size (h : BlockHistory) : Nat := h.outputBuffer.bufSize / historyDataUnitSize

/-- `get_record`, with the packet id of the record. -/
def getRecord (h : BlockHistory) (index : Nat) : Option (UInt8 × BlockHistoryRecord) :=
  BlockHistoryRecord.ofPacked (Memory.read h.outputBuffer.buf (index * historyDataUnitSize) historyDataUnitSize)

/-! ## Bytes and records -/

/-- The bytes of the buffers are those of the records of a double buffer. -/
structure Represents (h : BlockHistory) (b : DoubleBuffering BlockHistoryRecord) : Prop where
  input : h.inputBuffer.Holds (b.live.flatMap BlockHistoryRecord.packed)
  output : h.outputBuffer.Holds (b.output.flatMap BlockHistoryRecord.packed)

section Represents

variable {h : BlockHistory} {b : DoubleBuffering BlockHistoryRecord}

theorem length_flatMap_packed (records : List BlockHistoryRecord) :
    (records.flatMap BlockHistoryRecord.packed).length = records.length * historyDataUnitSize :=
  length_flatMap_of_width BlockHistoryRecord.length_packed records

/-- **A record is accepted by the bytes exactly if it is accepted by the records**, and the buffers go
on to correspond. -/
theorem Represents.addRecord (hr : Represents h b) (pos : Coordinate3D) (blockId : UInt8) :
    (h.addRecord pos blockId).2 = (b.push blockHistoryCapacity (fun _ => historyDataUnitSize)
      (.of pos.x pos.y pos.z blockId)).2 ∧
    Represents (h.addRecord pos blockId).1 (b.push blockHistoryCapacity
      (fun _ => historyDataUnitSize) (.of pos.x pos.y pos.z blockId)).1 := by
  -- the bytes and the records count eight for each record
  have hlive := length_flatMap_packed b.live
  have hsum : (b.live.map fun _ => historyDataUnitSize).sum =
      b.live.length * historyDataUnitSize := by
    rw [List.map_const', List.sum_replicate_nat]
  have haccepts := hr.input.push_accepts_iff (BlockHistoryRecord.of pos.x pos.y pos.z blockId).packed
  rw [hlive, BlockHistoryRecord.length_packed] at haccepts
  have hpush := b.push_accepts_iff blockHistoryCapacity (fun _ => historyDataUnitSize)
    (BlockHistoryRecord.of pos.x pos.y pos.z blockId)
  rw [hsum] at hpush
  have hsame : (h.addRecord pos blockId).2 = (b.push blockHistoryCapacity
      (fun _ => historyDataUnitSize) (BlockHistoryRecord.of pos.x pos.y pos.z blockId)).2 :=
    Bool.eq_iff_iff.mpr (haccepts.trans hpush.symm)
  have houtput : (h.addRecord pos blockId).1.outputBuffer = h.outputBuffer :=
    Function.update_of_ne (Bool.not_ne_self _) _ _
  have hinput : (h.addRecord pos blockId).1.inputBuffer =
      (h.inputBuffer.push (BlockHistoryRecord.of pos.x pos.y pos.z blockId).packed).1 :=
    Function.update_self ..
  refine ⟨hsame, ⟨?_, ?_⟩⟩
  · rw [hinput]
    cases hok : (h.addRecord pos blockId).2 with
    | true =>
        rw [DoubleBuffering.push_of_ok (hsame.symm.trans hok)]
        have hholds := hr.input.push hok
        rwa [← List.flatMap_singleton (f := BlockHistoryRecord.packed), ← List.flatMap_append] at hholds
    | false =>
        rw [DoubleBuffering.push_of_refused (hsame.symm.trans hok), HistoryBuffer.push_refused hok]
        exact hr.input
  · rw [houtput, DoubleBuffering.push_output]
    exact hr.output

/-- A refused record changes nothing. -/
theorem addRecord_of_refused {pos : Coordinate3D} {blockId : UInt8}
    (hrefused : (h.addRecord pos blockId).2 = false) : (h.addRecord pos blockId).1 = h := by
  have hsame : Function.update h.bufs h.inputBufIndex
      (h.inputBuffer.push (BlockHistoryRecord.of pos.x pos.y pos.z blockId).packed).1 = h.bufs := by
    rw [HistoryBuffer.push_refused hrefused]
    exact Function.update_eq_self _ _
  show { h with bufs := Function.update _ _ _ } = h
  rw [hsame]

theorem Represents.snapshot (hr : Represents h b) : Represents h.snapshot b.snapshot where
  input := hr.output
  output := by
    show (h.bufs (!!h.inputBufIndex)).Holds _
    rw [Bool.not_not]
    exact hr.input

theorem Represents.clearSnapshot (hr : Represents h b) :
    Represents h.clearSnapshot b.clearSnapshot where
  input := by
    have hinput : h.clearSnapshot.inputBuffer = h.inputBuffer :=
      Function.update_of_ne (Bool.not_ne_self _).symm _ _
    rw [hinput]
    exact hr.input
  output := by
    have houtput : h.clearSnapshot.outputBuffer = h.outputBuffer.clear := Function.update_self ..
    rw [houtput]
    exact hr.output.clear

/-- The snapshot is the records one after the other. -/
theorem Represents.getSnapshotData (hr : Represents h b) :
    h.getSnapshotData = b.output.flatMap BlockHistoryRecord.packed := hr.output.bytes_eq

theorem Represents.size (hr : Represents h b) : h.size = b.output.length := by
  rw [BlockHistory.size, hr.output.bufSize_eq, length_flatMap_packed]
  exact Nat.mul_div_cancel _ (by decide)

/-- `get_record` finds the records. -/
theorem Represents.getRecord (hr : Represents h b) {i : Nat} (hi : i < b.output.length) :
    h.getRecord i = some (PacketTypeId.setBlockServer, b.output[i]) := by
  have hbytes := hr.output.bytes_eq
  have hslice := slice_flatMap BlockHistoryRecord.length_packed hi
  have hroom : i * historyDataUnitSize + historyDataUnitSize ≤ h.outputBuffer.bufSize := by
    rw [hr.output.bufSize_eq, length_flatMap_packed, ← Nat.succ_mul]
    exact Nat.mul_le_mul_right _ hi
  rw [← hbytes, Memory.drop_read, Nat.zero_add, Memory.take_read _ _ _ _ (by omega)] at hslice
  rw [BlockHistory.getRecord, hslice, BlockHistoryRecord.ofPacked_packed]

end Represents

end BlockHistory

/-! ## The task that owns the history -/

/-- The part of `BlockSyncTask` that works on its history, with two histories of its own: what
`add_record` has accepted since the last snapshot, and between the last two. -/
structure BlockHistoryTask where
  blockHistory : BlockHistory
  state : TaskState := .unused
  accepted : List PacketSetBlockServer := []
  taken : List PacketSetBlockServer := []

namespace BlockHistoryTask

/-- A new task; the buffers are not initialized. -/
def init (memory : Bool → List UInt8) : BlockHistoryTask :=
  { blockHistory := { bufs := fun b => { buf := memory b } } }

/-- `push` of a block. -/
def push (t : BlockHistoryTask) (pos : Coordinate3D) (blockId : UInt8) : BlockHistoryTask :=
  let r := t.blockHistory.addRecord pos blockId
  { t with blockHistory := r.1
           accepted := if r.2 then t.accepted ++ [{ blockPos := pos, blockId := blockId }]
             else t.accepted }

/-- `before_scheduling`. -/
def beforeScheduling (t : BlockHistoryTask) : BlockHistoryTask :=
  { blockHistory := t.blockHistory.snapshot, state := .processing, accepted := [], taken := t.accepted }

/-- `on_event_complete`, when the handler has returned. -/
def onEventComplete (t : BlockHistoryTask) : BlockHistoryTask :=
  { t with blockHistory := t.blockHistory.clearSnapshot, state := .unused }

inductive Event where
  | push (pos : Coordinate3D) (blockId : UInt8)
  | beforeScheduling
  | onEventComplete

/-- A task is scheduled only while it is unused, and completes only while it is processing. -/
def step (t : BlockHistoryTask) : Event → Option BlockHistoryTask
  | .push pos blockId => some (t.push pos blockId)
  | .beforeScheduling => if t.state = .unused then some t.beforeScheduling else none
  | .onEventComplete => if t.state = .processing then some t.onEventComplete else none

/-- The invariant: the history holds what was accepted, and its output buffer holds what was taken as
long as the task is processing, and nothing afterwards. -/
structure Ok (t : BlockHistoryTask) : Prop where
  represents : ∃ b, t.blockHistory.Represents b ∧ b.live = t.accepted.map recordOf ∧
    b.output = if t.state = .processing then t.taken.map recordOf else []

theorem init_ok {memory : Bool → List UInt8} (hmemory : ∀ b, (memory b).length = blockHistoryCapacity) :
    Ok (init memory) :=
  have hempty : ∀ b, HistoryBuffer.Holds { buf := memory b } [] := fun b =>
    ⟨hmemory b, rfl, Memory.read_zero_length _ _⟩
  ⟨{}, ⟨hempty false, hempty true⟩, rfl, rfl⟩

theorem push_ok {t : BlockHistoryTask} (h : Ok t) (pos : Coordinate3D) (blockId : UInt8) :
    Ok (t.push pos blockId) := by
  obtain ⟨b, hr, hlive, houtput⟩ := h.represents
  obtain ⟨hsame, hr'⟩ := hr.addRecord pos blockId
  refine ⟨⟨_, hr', ?_, (DoubleBuffering.push_output ..).trans houtput⟩⟩
  show _ = List.map recordOf (if (t.blockHistory.addRecord pos blockId).2 then _ else _)
  cases hok : (t.blockHistory.addRecord pos blockId).2 with
  | true =>
      rw [DoubleBuffering.push_of_ok (hsame.symm.trans hok), if_pos rfl, List.map_append, ← hlive]
      rfl
  | false =>
      rw [DoubleBuffering.push_of_refused (hsame.symm.trans hok), if_neg Bool.false_ne_true]
      exact hlive

theorem beforeScheduling_ok {t : BlockHistoryTask} (h : Ok t) (hunused : t.state = .unused) :
    Ok t.beforeScheduling := by
  obtain ⟨b, hr, hlive, houtput⟩ := h.represents
  rw [hunused, if_neg (by decide)] at houtput
  exact ⟨b.snapshot, hr.snapshot, houtput, hlive⟩

theorem onEventComplete_ok {t : BlockHistoryTask} (h : Ok t) : Ok t.onEventComplete := by
  obtain ⟨b, hr, hlive, -⟩ := h.represents
  exact ⟨b.clearSnapshot, hr.clearSnapshot, hlive, rfl⟩

/-- Every step keeps the invariant. -/
theorem step_ok (t : BlockHistoryTask) (ev : Event) (t' : BlockHistoryTask) (h : Ok t)
    (hstep : step t ev = some t') : Ok t' := by
  cases ev with
  | push pos blockId =>
      obtain rfl := Option.some.inj hstep
      exact push_ok h pos blockId
  | beforeScheduling =>
      simp only [step, Option.ite_none_right_eq_some, Option.some.injEq] at hstep
      obtain ⟨hunused, rfl⟩ := hstep
      exact beforeScheduling_ok h hunused
  | onEventComplete =>
      simp only [step, Option.ite_none_right_eq_some, Option.some.injEq] at hstep
      obtain ⟨-, rfl⟩ := hstep
      exact onEventComplete_ok h

end BlockHistoryTask

/-! ## The packet stream -/

/-- `_byteswap_ushort`, as the index function applies it to a coordinate of a record. -/
def byteswapUshort (v : Int) : Nat := (byteswap16 (BitVec.ofInt 16 v)).toNat

/-- The index function reads the coordinates through this swap. -/
theorem coordinateToBlockMapIndex_eq_byteswapUshort (metadata : WorldMetadata) (x y z : Int) :
    coordinateToBlockMapIndex metadata x y z =
      sizeT (blockFileHeaderSize + byteswapUshort x + int32 (metadata.width * byteswapUshort z) +
        int32 (int32 (metadata.width * metadata.length) * byteswapUshort y)) := rfl

@[simp] theorem byteswapUshort_byteswap16 (w : BitVec 16) : byteswapUshort (byteswap16 w).toNat = w.toNat := by
  rw [byteswapUshort, BitVec.ofInt_natCast, BitVec.ofNat_toNat, BitVec.setWidth_eq, byteswap16_byteswap16]

/-- The record is for the position and the block of the packet. -/
structure IsRecordOf (p : PacketSetBlockServer) (r : BlockHistoryRecord) : Prop where
  x_eq : byteswapUshort r.x.toNat = p.blockPos.x.toNat
  y_eq : byteswapUshort r.y.toNat = p.blockPos.y.toNat
  z_eq : byteswapUshort r.z.toNat = p.blockPos.z.toNat
  blockId_eq : r.blockId = p.blockId

theorem isRecordOf_recordOf (p : PacketSetBlockServer) : IsRecordOf p (recordOf p) :=
  ⟨byteswapUshort_byteswap16 _, byteswapUshort_byteswap16 _, byteswapUshort_byteswap16 _, rfl⟩

/-- The snapshot of a history holds exactly these packets. It is said three times, as a stream of bytes, as
what a send buffer that has room holds after the same packets were serialized into it, and as the records
that the history itself returns. -/
structure IsPacketStream (h : BlockHistory) (packets : List PacketSetBlockServer) : Prop where
  bytes_eq : h.getSnapshotData = packets.flatMap PacketSetBlockServer.serialized
  /-- What the serializer appends, packet by packet. -/
  appended : ∀ d : Io.IoSendEventData, d.WellFormed →
    packets.length * PacketSetBlockServer.packetSize ≤ d.unusedSize →
    (packets.foldl (fun d p => (p.serialize d).1) d).contents = d.contents ++ h.getSnapshotData
  size_eq : h.size = packets.length
  getRecord : ∀ i (hi : i < packets.length), ∃ r,
    h.getRecord i = some (PacketTypeId.setBlockServer, r) ∧ IsRecordOf packets[i] r

theorem BlockHistory.Represents.isPacketStream {h : BlockHistory} {b : DoubleBuffering BlockHistoryRecord}
    (hr : h.Represents b) {packets : List PacketSetBlockServer}
    (houtput : b.output = packets.map recordOf) : IsPacketStream h packets := by
  have hbytes : h.getSnapshotData = packets.flatMap PacketSetBlockServer.serialized := by
    rw [hr.getSnapshotData, houtput, List.flatMap_map]
    simp only [packed_recordOf]
  refine ⟨hbytes, fun d hd hfit => ?_, ?_, fun i hi => ?_⟩
  · rw [hbytes]
    exact contents_pushEach PacketSetBlockServer.length_serialized (by decide) hd hfit
  · rw [hr.size, houtput, List.length_map]
  · have hi' : i < b.output.length := by rwa [houtput, List.length_map]
    refine ⟨recordOf packets[i], ?_, isRecordOf_recordOf _⟩
    rw [hr.getRecord hi']
    simp only [houtput, List.getElem_map]

/-- **Block history is a packet stream.** In every run of the task that owns the history: while the task
is processing, the snapshot consists of the packets that were accepted between the last two snapshots,
as bytes and as records; and a record is refused exactly if eight more bytes do not fit behind those
accepted since, in which case nothing changes. -/
theorem blockHistory_isPacketStream {memory : Bool → List UInt8}
    (hmemory : ∀ b, (memory b).length = blockHistoryCapacity) {events : List BlockHistoryTask.Event}
    {t : BlockHistoryTask} (hrun : run BlockHistoryTask.step (.init memory) events = some t) :
    (t.state = .processing → IsPacketStream t.blockHistory t.taken) ∧
    t.blockHistory.inputBuffer.bufSize = t.accepted.length * historyDataUnitSize ∧
    ∀ pos blockId,
      ((t.blockHistory.addRecord pos blockId).2 = false ↔
        blockHistoryCapacity < t.blockHistory.inputBuffer.bufSize + 8) ∧
      ((t.blockHistory.addRecord pos blockId).2 = false →
        (t.blockHistory.addRecord pos blockId).1 = t.blockHistory) := by
  have hok : BlockHistoryTask.Ok t :=
    run_invariant BlockHistoryTask.step_ok (BlockHistoryTask.init_ok hmemory) hrun
  obtain ⟨b, hr, hlive, houtput⟩ := hok.represents
  have hsize : t.blockHistory.inputBuffer.bufSize = t.accepted.length * historyDataUnitSize := by
    rw [hr.input.bufSize_eq, BlockHistory.length_flatMap_packed, hlive, List.length_map]
  refine ⟨fun hprocessing => ?_, hsize, fun pos blockId => ⟨?_, BlockHistory.addRecord_of_refused⟩⟩
  · rw [if_pos hprocessing] at houtput
    exact hr.isPacketStream houtput
  · have haccepts := hr.input.push_accepts_iff (BlockHistoryRecord.of pos.x pos.y pos.z blockId).packed
    rw [← hr.input.bufSize_eq, BlockHistoryRecord.length_packed] at haccepts
    rw [← Bool.not_eq_true, show (t.blockHistory.addRecord pos blockId).2 = true ↔ _ from haccepts]
    exact Nat.not_le

/-- Three records in two batches, and one that waits: while the second batch is processed, the snapshot holds
its two records in order, and not the record of the first. -/
theorem blockHistory_isPacketStream_twoBatches : ∃ t : BlockHistoryTask,
    run BlockHistoryTask.step (.init fun _ => List.replicate blockHistoryCapacity 0)
      [.push ⟨1, 2, -1⟩ 3, .beforeScheduling, .push ⟨4, 5, 6⟩ 7, .onEventComplete, .push ⟨4, 5, 7⟩ 0,
        .beforeScheduling, .push ⟨8, 9, 10⟩ 1] = some t ∧
    t.taken = [{ blockPos := ⟨4, 5, 6⟩, blockId := 7 }, { blockPos := ⟨4, 5, 7⟩, blockId := 0 }] ∧
    IsPacketStream t.blockHistory t.taken ∧
    t.blockHistory.inputBuffer.bufSize = t.accepted.length * historyDataUnitSize := by
  obtain ⟨t, hrun, hresult⟩ := Option.map_eq_some_iff.mp
    (show (run BlockHistoryTask.step (.init fun _ => List.replicate blockHistoryCapacity 0)
      [.push ⟨1, 2, -1⟩ 3, .beforeScheduling, .push ⟨4, 5, 6⟩ 7, .onEventComplete, .push ⟨4, 5, 7⟩ 0,
        .beforeScheduling, .push ⟨8, 9, 10⟩ 1]).map (fun t => (t.taken, t.state)) =
      some ([{ blockPos := ⟨4, 5, 6⟩, blockId := 7 }, { blockPos := ⟨4, 5, 7⟩, blockId := 0 }], .processing) by
      decide +kernel)
  obtain ⟨htaken, hstate⟩ := Prod.mk.injEq .. ▸ hresult
  obtain ⟨hstream, hsize, -⟩ := blockHistory_isPacketStream (fun _ => List.length_replicate) hrun
  exact ⟨t, hrun, htaken, hstream hstate, hsize⟩

end Mmocraft.Game
