/-
# Mmocraft.Net.LevelDataChunk -- the level as a stream of chunk packets

`PacketLevelDataChunk::serialize` writes the compressed level into a freshly allocated buffer as a
sequence of 1028-byte chunk packets and a finalize packet.  `ChunkStream` describes the streams it
can produce without mentioning buffers; the writer is shown to produce one, and the decoder of the
client to read the payload back out of any.

The buffer is not cleared when it is allocated, and of the padding behind the data of a chunk nothing is
written, so the padding of a `ChunkStream` is arbitrary. The capacity is taken from the bound of the
compressor before the compression; `Built` says that it is enough, which is the one place where the sizes of
the source have to be followed through their types (`chunks_le_maxChunkCount`).
-/
import Mmocraft.Lib.BigEndian
import Mmocraft.Lib.Chunks
import Mmocraft.Lib.MachineInt
import Mmocraft.Net.Packet
import Mmocraft.Util.Compressor

namespace Mmocraft.Net

open Mmocraft.Lib Mmocraft.Util

/-! ## Serialization -/

/-- `PacketLevelDataChunk`. -/
structure PacketLevelDataChunk where
  compressor : Compressor
  maxChunkCount : Nat
  x : BitVec 16
  y : BitVec 16
  z : BitVec 16

namespace PacketLevelDataChunk

def chunkSize : Nat := 1024

def packetSize : Nat := 1028

/-- The constructor. -/
def new (zlib : Zlib) (blockData : List UInt8) (blockDataSize : Nat) (width height length : BitVec 16) :
    PacketLevelDataChunk :=
  let compressor := Compressor.new zlib blockData blockDataSize
  { compressor := compressor
    maxChunkCount := sizeT ((compressor.deflateBound : Int) - 1) / chunkSize + 1
    x := width, y := height, z := length }

/-- The loop of `serialize`: `buf` is the allocation, `bufStart` the offset of the write pointer. -/
def serializeChunks (compressor : Compressor) (buf : List UInt8) (bufStart : Nat) :
    List UInt8 × Nat :=
  let r := compressor.deflateN buf (bufStart + 3) chunkSize
  if _h : r.availOut = chunkSize then (r.mem, bufStart)
  else
    let idWritten := Memory.write r.mem bufStart [PacketTypeId.levelDatachunk]
    let lengthWritten := Memory.write idWritten (bufStart + 1) (be16 (chunkSize - r.availOut))
    -- the chunk data is already written
    let percentWritten := Memory.write lengthWritten (bufStart + 3 + chunkSize) [0]
    serializeChunks r.compressor percentWritten (bufStart + packetSize)
termination_by compressor.pending.length
decreasing_by
  have hpos : compressor.pending ≠ [] := fun h =>
    _h ((compressor.deflateN_availOut_eq_iff buf (bufStart + 3) (by decide)).mpr h)
  have := List.length_pos_iff.mpr hpos
  simp only [Compressor.deflateN, List.length_drop, chunkSize]
  omega

/-- The level finalize packet. -/
def finalize (p : PacketLevelDataChunk) : List UInt8 :=
  PacketTypeId.levelFinalize :: (be16 p.x.toNat ++ be16 p.y.toNat ++ be16 p.z.toNat)

def dataCapacity (p : PacketLevelDataChunk) : Nat := p.maxChunkCount * (chunkSize + 4) + 7

/-- `serialize`: the allocation and the number of bytes of it that are data.  `new std::byte[n]`
leaves the bytes indeterminate: `garbage` says what they are.  The `memset` for the null padding
runs after the loop, when `remain_bytes` is `chunk_size`, and so clears nothing. -/
def serialize (p : PacketLevelDataChunk) (garbage : Nat → UInt8) : List UInt8 × Nat :=
  let buf := (List.range p.dataCapacity).map garbage
  let r := serializeChunks p.compressor buf 0
  (Memory.write r.1 r.2 p.finalize, r.2 + p.finalize.length)

/-- The bytes that are sent. -/
def serialized (p : PacketLevelDataChunk) (garbage : Nat → UInt8) : List UInt8 :=
  let r := p.serialize garbage
  Memory.read r.1 0 r.2

end PacketLevelDataChunk

/-! ## The streams of chunks -/

open PacketLevelDataChunk (chunkSize packetSize)

/-- One chunk packet: id, length, data, padding, percent complete. -/
def chunkRecord (piece padding : List UInt8) : List UInt8 :=
  PacketTypeId.levelDatachunk :: (be16 piece.length ++ piece ++ padding ++ [0])

/-- `ChunkStream data stream`: the stream is a sequence of chunk packets that carries `data`, every
chunk but the last one full.  The padding is arbitrary. -/
inductive ChunkStream : List UInt8 → List UInt8 → Prop where
  | nil : ChunkStream [] []
  | cons {piece padding data stream : List UInt8} (hpos : piece ≠ [])
      (hsize : piece.length + padding.length = chunkSize)
      (hfull : padding = [] ∨ data = []) (hrest : ChunkStream data stream) :
      ChunkStream (piece ++ data) (chunkRecord piece padding ++ stream)

@[simp] theorem length_chunkRecord (piece padding : List UInt8) :
    (chunkRecord piece padding).length = piece.length + padding.length + 4 := by
  simp only [chunkRecord, List.length_cons, List.length_append, length_be16, List.length_nil]
  omega

/-! ## The writer produces a chunk stream -/

namespace PacketLevelDataChunk

/-- The four writes of one round of the loop, read back as one record. -/
theorem read_chunkRecord (c : Compressor) (mem : List UInt8) (pos : Nat)
    (hroom : pos + packetSize ≤ mem.length) :
    let piece := c.pending.take chunkSize
    let r := c.deflateN mem (pos + 3) chunkSize
    let idWritten := Memory.write r.mem pos [PacketTypeId.levelDatachunk]
    let lengthWritten := Memory.write idWritten (pos + 1) (be16 (chunkSize - r.availOut))
    let percentWritten := Memory.write lengthWritten (pos + 3 + chunkSize) [0]
    percentWritten.length = mem.length ∧
      Memory.read percentWritten 0 pos = Memory.read mem 0 pos ∧
      (∀ off len, pos + packetSize ≤ off → Memory.read percentWritten off len = Memory.read mem off len) ∧
      Memory.read percentWritten pos packetSize = chunkRecord piece
        (Memory.read mem (pos + 3 + piece.length) (chunkSize - piece.length)) := by
  intro piece r idWritten lengthWritten percentWritten
  have hpiece : piece.length ≤ chunkSize := List.length_take_le ..
  have hlen : chunkSize - r.availOut = piece.length := by
    show chunkSize - (chunkSize - piece.length) = piece.length
    omega
  simp only [packetSize] at hroom
  have hchunk : chunkSize = 1024 := rfl
  have hmem : r.mem = Memory.write mem (pos + 3) piece := rfl
  have h1 : r.mem.length = mem.length := by rw [hmem, Memory.length_write (by omega)]
  have h2 : idWritten.length = mem.length := by
    rw [Memory.length_write (by simp only [List.length_cons, List.length_nil]; omega), h1]
  have h3 : lengthWritten.length = mem.length := by
    rw [Memory.length_write (by rw [length_be16]; omega), h2]
  have h4 : percentWritten.length = mem.length := by
    rw [Memory.length_write (by simp only [List.length_cons, List.length_nil]; omega), h3]
  -- below the record nothing changes
  have hbelow : Memory.read percentWritten 0 pos = Memory.read mem 0 pos := by
    rw [Memory.read_write_below (by omega) (by omega), Memory.read_write_below (by omega) (by omega),
      Memory.read_write_below (by omega) (by omega), hmem,
      Memory.read_write_below (by omega) (by omega)]
  have habove : ∀ off len, pos + packetSize ≤ off →
      Memory.read percentWritten off len = Memory.read mem off len := by
    intro off len hoff
    simp only [packetSize] at hoff
    rw [Memory.read_write_above (by simp only [List.length_cons, List.length_nil]; omega) (by omega),
      Memory.read_write_above (by rw [length_be16]; omega) (by omega),
      Memory.read_write_above (by simp only [List.length_cons, List.length_nil]; omega) (by omega),
      hmem, Memory.read_write_above (by omega) (by omega)]
  have hid : Memory.read percentWritten pos 1 = [PacketTypeId.levelDatachunk] := by
    rw [Memory.read_write_below (by omega) (by omega), Memory.read_write_below (by omega) (by omega)]
    exact Memory.read_write_self (by omega)
  have hlength : Memory.read percentWritten (pos + 1) 2 = be16 piece.length := by
    rw [Memory.read_write_below (by omega) (by omega), ← hlen]
    exact Memory.read_write_self (by omega)
  have hdata : Memory.read percentWritten (pos + 1 + 2) piece.length = piece := by
    rw [Memory.read_write_below (by omega) (by omega),
      Memory.read_write_above (by rw [length_be16]) (by omega),
      Memory.read_write_above (by simp only [List.length_cons, List.length_nil]; omega) (by omega),
      hmem]
    exact Memory.read_write_self (by omega)
  have hpadding : Memory.read percentWritten (pos + 1 + 2 + piece.length) (chunkSize - piece.length) =
      Memory.read mem (pos + 3 + piece.length) (chunkSize - piece.length) := by
    rw [Memory.read_write_below (by omega) (by omega),
      Memory.read_write_above (by rw [length_be16]; omega) (by omega),
      Memory.read_write_above (by simp only [List.length_cons, List.length_nil]; omega) (by omega),
      hmem, Memory.read_write_above (by omega) (by omega)]
  have hpercent : Memory.read percentWritten (pos + 1 + 2 + piece.length + (chunkSize - piece.length))
      1 = [0] := by
    rw [show pos + 1 + 2 + piece.length + (chunkSize - piece.length) = pos + 3 + chunkSize by omega]
    exact Memory.read_write_self (by omega)
  refine ⟨h4, hbelow, habove, ?_⟩
  rw [show packetSize = 1 + 2 + piece.length + (chunkSize - piece.length) + 1 by
      simp only [packetSize]; omega,
    Memory.read_add, Memory.read_add, Memory.read_add, Memory.read_add, hid]
  simp only [Nat.add_assoc] at hlength hdata hpadding hpercent ⊢
  rw [hlength, hdata, hpadding, hpercent]
  simp only [chunkRecord, List.cons_append, List.nil_append, List.append_assoc]

/-- The records of the pieces, as they come to stand in a memory from `pos` on: what a piece leaves of
its record is not written. -/
def recordsFrom (mem : List UInt8) : Nat → List (List UInt8) → List UInt8
  | _, [] => []
  | pos, piece :: pieces =>
      chunkRecord piece (Memory.read mem (pos + 3 + piece.length) (chunkSize - piece.length)) ++
        recordsFrom mem (pos + packetSize) pieces

/-- Only the memory behind `pos` matters. -/
theorem recordsFrom_congr {mem mem' : List UInt8} {pos : Nat} {pieces : List (List UInt8)}
    (h : ∀ off len, pos ≤ off → Memory.read mem off len = Memory.read mem' off len) :
    recordsFrom mem pos pieces = recordsFrom mem' pos pieces := by
  induction pieces generalizing pos with
  | nil => rfl
  | cons piece pieces ih =>
      rw [recordsFrom, recordsFrom, h _ _ (by omega),
        ih fun off len hoff => h off len (by simp only [packetSize] at hoff; omega)]

/-- The records in a memory that has room for them are a chunk stream. -/
theorem chunkStream_recordsFrom (data mem : List UInt8) (pos : Nat)
    (hroom : pos + (data.length + 1023) / 1024 * packetSize ≤ mem.length) :
    ChunkStream data (recordsFrom mem pos (chunksOf chunkSize data)) := by
  induction data using chunks_induction (show 0 < chunkSize by decide) generalizing pos with
  | nil =>
      rw [chunksOf_nil]
      exact ChunkStream.nil
  | front data hdata ih =>
      have hlen := List.length_pos_of_ne_nil hdata
      have htake : (data.take chunkSize).length = min chunkSize data.length := List.length_take
      have hdrop : (data.drop chunkSize).length = data.length - chunkSize := List.length_drop
      simp only [chunkSize, packetSize] at hroom htake hdrop ih ⊢
      have hrest := ih (pos + 1028) (by omega)
      have hpadding : (Memory.read mem (pos + 3 + (data.take 1024).length)
          (1024 - (data.take 1024).length)).length = 1024 - (data.take 1024).length :=
        Memory.length_read (by omega)
      rw [chunksOf_of_ne_nil (by decide) hdata, recordsFrom]
      nth_rewrite 1 [← List.take_append_drop 1024 data]
      refine ChunkStream.cons (by simpa using hdata) ?_ ?_ hrest
      · simp only [chunkSize] at *
        omega
      · rw [← List.length_eq_zero_iff, ← List.length_eq_zero_iff]
        simp only [chunkSize] at *
        omega

/-- **The loop of `serialize` writes the records of everything pending**, right after what is already in
the buffer, and nothing else. -/
theorem serializeChunks_spec (c : Compressor) (buf : List UInt8) (pos : Nat)
    (hroom : pos + (c.pending.length + 1023) / 1024 * packetSize ≤ buf.length) :
    (serializeChunks c buf pos).1.length = buf.length ∧
      (serializeChunks c buf pos).2 = pos + (c.pending.length + 1023) / 1024 * packetSize ∧
      Memory.read (serializeChunks c buf pos).1 0
          (pos + (c.pending.length + 1023) / 1024 * packetSize) =
        Memory.read buf 0 pos ++ recordsFrom buf pos (chunksOf chunkSize c.pending) := by
  fun_induction serializeChunks c buf pos with
  | case1 c buf pos r hstop =>
      have hpending : c.pending = [] := (c.deflateN_availOut_eq_iff buf _ (by decide)).mp hstop
      have hmem : r.mem = buf := by
        show Memory.write buf _ (c.pending.take _) = buf
        rw [hpending, List.take_nil, Memory.write_nil]
      rw [hmem, hpending, chunksOf_nil, recordsFrom, List.append_nil]
      exact ⟨rfl, rfl, rfl⟩
  | case2 c buf pos r hmore idWritten lengthWritten percentWritten ih =>
      have hpos : c.pending ≠ [] := fun h =>
        hmore ((c.deflateN_availOut_eq_iff buf _ (by decide)).mpr h)
      have hlen := List.length_pos_iff.mpr hpos
      simp only [packetSize] at hroom
      obtain ⟨hlength, hbelow, habove, hrecord⟩ :=
        read_chunkRecord c buf pos (by simp only [packetSize]; omega)
      have hrest : r.compressor.pending = c.pending.drop chunkSize := rfl
      have hcount : (c.pending.length + 1023) / 1024 =
          ((c.pending.drop chunkSize).length + 1023) / 1024 + 1 := by
        simp only [List.length_drop, chunkSize]
        omega
      obtain ⟨hlen', hend, hread⟩ := ih (by
        rw [hrest, hlength]
        simp only [List.length_drop, chunkSize, packetSize]
        omega)
      have hstop : pos + packetSize + (r.compressor.pending.length + 1023) / 1024 * packetSize =
          pos + (c.pending.length + 1023) / 1024 * packetSize := by
        rw [hcount, hrest, Nat.succ_mul]
        omega
      rw [hstop] at hend hread
      refine ⟨hlen'.trans hlength, hend, ?_⟩
      rw [hread, hrest, Memory.read_add, hbelow, Nat.zero_add, hrecord, List.append_assoc,
        chunksOf_of_ne_nil (by decide) hpos, recordsFrom, recordsFrom_congr habove]

/-- The chunks that `max_chunk_count` allows for hold any stream within the compressor's bound. -/
theorem chunks_le_maxChunkCount (bound len : Nat) (hlen : len ≤ bound) (hbound : bound < 2 ^ 64) :
    (len + 1023) / 1024 ≤ sizeT ((bound : Int) - 1) / chunkSize + 1 := by
  rcases Nat.eq_zero_or_pos bound with h0 | hpos
  · rw [show (len + 1023) / 1024 = 0 by omega]
    exact Nat.zero_le _
  · rw [sizeT_of_nonneg (by omega) (by omega)]
    simp only [chunkSize]
    omega

/-- What the constructor makes, for a compressor whose stream stays within its bound. -/
structure Built (p : PacketLevelDataChunk) : Prop where
  maxChunkCount_eq : p.maxChunkCount = sizeT ((p.compressor.deflateBound : Int) - 1) / chunkSize + 1
  pending_le : p.compressor.pending.length ≤ p.compressor.deflateBound
  deflateBound_lt : p.compressor.deflateBound < 2 ^ 64

theorem new_built {zlib : Zlib} (hz : zlib.Bounded) {blockData : List UInt8} {size : Nat}
    (hsize : size ≤ blockData.length) (hlt : size < 2 ^ 32) (width height length : BitVec 16) :
    (new zlib blockData size width height length).Built := by
  have hbound := hz (blockData.take size)
  rw [List.length_take, Nat.min_eq_left hsize] at hbound
  exact ⟨rfl, (hbound hlt).1, (hbound hlt).2⟩

/-- The allocation of `serialize`, before anything is written. -/
def allocation (p : PacketLevelDataChunk) (garbage : Nat → UInt8) : List UInt8 :=
  (List.range p.dataCapacity).map garbage

@[simp] theorem length_allocation (p : PacketLevelDataChunk) (garbage : Nat → UInt8) :
    (p.allocation garbage).length = p.dataCapacity := by
  rw [allocation, List.length_map, List.length_range]

/-- One id and three coordinates. -/
theorem length_finalize (p : PacketLevelDataChunk) : p.finalize.length = 7 := rfl

namespace Built

variable {p : PacketLevelDataChunk}

/-- The allocation holds the records and the finalize packet. -/
theorem records_le (h : p.Built) :
    (p.compressor.pending.length + 1023) / 1024 * packetSize + 7 ≤ p.dataCapacity := by
  have hcount := chunks_le_maxChunkCount _ _ h.pending_le h.deflateBound_lt
  rw [← h.maxChunkCount_eq] at hcount
  exact Nat.add_le_add_right (Nat.mul_le_mul_right packetSize hcount) 7

/-- **What is sent**: the records of the whole compressed level, then the finalize packet.  The allocation
has the length it had. -/
theorem serialize_spec (h : p.Built) (garbage : Nat → UInt8) :
    (p.serialize garbage).1.length = p.dataCapacity ∧
      (p.serialize garbage).2 = (p.compressor.pending.length + 1023) / 1024 * packetSize + 7 ∧
      p.serialized garbage =
        recordsFrom (p.allocation garbage) 0 (chunksOf chunkSize p.compressor.pending) ++ p.finalize := by
  have hroom := h.records_le
  have hfinal := p.length_finalize
  have hallocation := p.length_allocation garbage
  obtain ⟨hlen, hend, hread⟩ :=
    serializeChunks_spec p.compressor (p.allocation garbage) 0 (by omega)
  rw [Nat.zero_add] at hend hread
  rw [Memory.read_zero_length, List.nil_append] at hread
  have hserialize : p.serialize garbage =
      (Memory.write (serializeChunks p.compressor (p.allocation garbage) 0).1
        (serializeChunks p.compressor (p.allocation garbage) 0).2 p.finalize,
      (serializeChunks p.compressor (p.allocation garbage) 0).2 + p.finalize.length) := rfl
  refine ⟨?_, ?_, ?_⟩
  · rw [hserialize]
    simp only
    rw [Memory.length_write (by omega), hlen, hallocation]
  · rw [hserialize]
    simp only
    rw [hend, hfinal]
  · show Memory.read (p.serialize garbage).1 0 (p.serialize garbage).2 = _
    rw [hserialize]
    simp only
    rw [hend, Memory.read_add, Nat.zero_add, Memory.read_write_below (by omega) (by omega),
      Memory.read_write_self (by omega), hread]

end Built

/-- What is sent is a chunk stream of the compressed level and the finalize packet. -/
theorem serialized_new (zlib : Zlib) (hz : zlib.Bounded) (blockData : List UInt8) (size : Nat)
    (hsize : size ≤ blockData.length) (hlt : size < 2 ^ 32) (width height length : BitVec 16)
    (garbage : Nat → UInt8) :
    ∃ stream, ChunkStream (zlib.deflate (blockData.take size)) stream ∧
      (new zlib blockData size width height length).serialized garbage =
        stream ++ (new zlib blockData size width height length).finalize := by
  have hbuilt := new_built hz hsize hlt width height length
  have hroom := hbuilt.records_le
  have hstream := chunkStream_recordsFrom (new zlib blockData size width height length).compressor.pending
    ((new zlib blockData size width height length).allocation garbage) 0
    (by rw [length_allocation]; omega)
  exact ⟨_, hstream, (hbuilt.serialize_spec garbage).2.2⟩

end PacketLevelDataChunk

/-! ## The client's decoder -/

/-- The client's side of the level transfer: concatenate the chunk payloads by their length fields
up to the finalize packet. -/
def decodeChunks (stream : List UInt8) : Option (List UInt8) :=
  match stream with
  | [] => none
  | id :: rest =>
      if id = PacketTypeId.levelFinalize then some []
      else if id = PacketTypeId.levelDatachunk ∧ packetSize ≤ rest.length + 1 then
        let len := ofBigEndian (rest.take 2)
        let data := (rest.drop 2).take len
        (decodeChunks (rest.drop (packetSize - 1))).map (data ++ ·)
      else none
termination_by stream.length
decreasing_by
  simp only [List.length_drop, List.length_cons]
  omega

/-- **The decoder reads the payload back**, whatever the padding is. -/
theorem ChunkStream.decodeChunks_append {data stream : List UInt8} (h : ChunkStream data stream)
    (tail : List UInt8) :
    decodeChunks (stream ++ PacketTypeId.levelFinalize :: tail) = some data := by
  induction h with
  | nil =>
      rw [List.nil_append, decodeChunks]
      rfl
  | @cons piece padding data stream hpos hsize hfull hrest ih =>
      have hrec : (chunkRecord piece padding ++ stream) ++ PacketTypeId.levelFinalize :: tail =
          PacketTypeId.levelDatachunk :: (be16 piece.length ++ (piece ++ (padding ++ ([0] ++
            (stream ++ PacketTypeId.levelFinalize :: tail))))) := by
        simp only [chunkRecord, List.append_assoc, List.cons_append]
      have hlen : ofBigEndian (be16 piece.length) = piece.length :=
        ofBigEndian_be16 (by simp only [chunkSize] at hsize; omega)
      rw [hrec, decodeChunks, if_neg (by decide), if_pos]
      · have htake : ∀ t, (be16 piece.length ++ t).take 2 = be16 piece.length := fun t => by
          rw [List.take_append_of_le_length (by simp)]
          rfl
        have hdrop : ∀ t, (be16 piece.length ++ t).drop 2 = t := fun t => by
          rw [List.drop_append_of_le_length (by simp)]
          rfl
        have hskip : ∀ t, (be16 piece.length ++ (piece ++ (padding ++ ([0] ++ t)))).drop
            (packetSize - 1) = t := by
          intro t
          rw [← List.append_assoc, ← List.append_assoc, ← List.append_assoc]
          have hl : (((be16 piece.length ++ piece) ++ padding) ++ [0]).length = packetSize - 1 := by
            simp only [List.length_append, length_be16, List.length_cons, List.length_nil,
              chunkSize, packetSize] at hsize ⊢
            omega
          rw [← hl, List.drop_left]
        simp only [htake, hdrop, hskip, hlen, ih, List.take_left, Option.map_some]
      · refine ⟨rfl, ?_⟩
        simp only [List.length_append, length_be16, chunkSize, packetSize, List.length_cons,
          List.length_nil] at hsize ⊢
        omega

end Mmocraft.Net
