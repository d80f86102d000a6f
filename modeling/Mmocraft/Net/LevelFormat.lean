/-
# Mmocraft.Net.LevelFormat -- the format of the level chunks

The compressed level is cut into pieces of 1024 bytes, and each is sent in a record of its own whose data
are padded with zeros.  `PacketLevelDataChunk::serialize` writes nothing behind the data of the last
piece: the `memset` that is to pad it comes after the loop and takes the remainder of the call that found
nothing more, a whole chunk, for which it clears nothing.  The padding is what the allocation held, so the
format is right exactly if the last piece is full or the memory was zero.
-/
import Mmocraft.Net.LevelDataChunk

namespace Mmocraft.Net

open Mmocraft.Lib Mmocraft.Util

namespace PacketLevelDataChunk

/-! ## The format -/

/-- A record: chunk id, length, data, zeros up to 1024 bytes, percent complete. -/
def zeroPaddedRecord (piece : List UInt8) : List UInt8 :=
  chunkRecord piece (List.replicate (chunkSize - piece.length) 0)

/-- The format of the level data, within the allocation: a write behind its end would make the list
longer. -/
structure LevelFormat (p : PacketLevelDataChunk) (garbage : Nat → UInt8) : Prop where
  format : p.serialized garbage =
    (chunksOf chunkSize p.compressor.pending).flatMap zeroPaddedRecord ++ p.finalize
  count : (chunksOf chunkSize p.compressor.pending).length = (p.compressor.pending.length + 1023) / 1024
  length_record : ∀ piece ∈ chunksOf chunkSize p.compressor.pending,
    (zeroPaddedRecord piece).length = packetSize
  carried : (chunksOf chunkSize p.compressor.pending).flatten = p.compressor.pending
  length_finalize : p.finalize.length = 7
  inAllocation : (p.serialize garbage).1.length = p.dataCapacity ∧
    (p.serialize garbage).2 ≤ p.dataCapacity

theorem length_zeroPaddedRecord {piece : List UInt8} (h : piece.length ≤ chunkSize) :
    (zeroPaddedRecord piece).length = packetSize := by
  rw [zeroPaddedRecord, length_chunkRecord, List.length_replicate]
  simp only [chunkSize, packetSize] at h ⊢
  omega

/-- Two records of one piece differ by their padding. -/
theorem chunkRecord_append_inj {piece padding padding' stream stream' : List UInt8}
    (hlength : padding.length = padding'.length) :
    chunkRecord piece padding ++ stream = chunkRecord piece padding' ++ stream' ↔
      padding = padding' ∧ stream = stream' := by
  constructor
  · intro h
    obtain ⟨hrecord, hstream⟩ := List.append_inj h (by rw [length_chunkRecord, length_chunkRecord, hlength])
    have hpadding := List.append_cancel_right (List.cons.inj hrecord).2
    exact ⟨List.append_cancel_left hpadding, hstream⟩
  · rintro ⟨rfl, rfl⟩
    rfl

/-- **The padding of the last piece** is all that can be wrong with the records. -/
theorem recordsFrom_eq_iff (data mem : List UInt8) (pos : Nat)
    (hroom : pos + (data.length + 1023) / 1024 * packetSize ≤ mem.length) :
    recordsFrom mem pos (chunksOf chunkSize data) =
        (chunksOf chunkSize data).flatMap zeroPaddedRecord ↔
      data.length % 1024 = 0 ∨
        Memory.read mem (pos + data.length / 1024 * packetSize + 3 + data.length % 1024)
          (1024 - data.length % 1024) = List.replicate (1024 - data.length % 1024) 0 := by
  induction data using chunks_induction (show 0 < chunkSize by decide) generalizing pos with
  | nil =>
      rw [chunksOf_nil]
      exact iff_of_true rfl (Or.inl rfl)
  | front data hdata ih =>
      have hlen := List.length_pos_of_ne_nil hdata
      have htake : (data.take chunkSize).length = min chunkSize data.length := List.length_take
      have hdrop : (data.drop chunkSize).length = data.length - chunkSize := List.length_drop
      have hchunk : chunkSize = 1024 := rfl
      have hpacket : packetSize = 1028 := rfl
      have hrest := ih (pos + packetSize) (by rw [hpacket] at hroom ⊢; omega)
      have hpadding : (Memory.read mem (pos + 3 + (data.take chunkSize).length)
          (chunkSize - (data.take chunkSize).length)).length =
          (List.replicate (chunkSize - (data.take chunkSize).length) (0 : UInt8)).length := by
        rw [List.length_replicate]
        exact Memory.length_read (by rw [hpacket] at hroom; omega)
      rw [chunksOf_of_ne_nil (by decide) hdata, recordsFrom, List.flatMap_cons, zeroPaddedRecord,
        chunkRecord_append_inj hpadding, hrest, htake]
      rcases Nat.lt_or_ge data.length 1024 with hlast | hfull
      · -- the last piece: no data are left
        rw [hdrop, Nat.min_eq_right (by omega), Nat.mod_eq_of_lt hlast, Nat.div_eq_of_lt hlast,
          Nat.zero_mul, Nat.add_zero, show data.length - chunkSize = 0 by omega, hchunk,
          or_iff_right (show data.length ≠ 0 by omega)]
        exact and_iff_left (Or.inl rfl)
      · -- a full piece: no padding
        have hmod : (data.length - chunkSize) % 1024 = data.length % 1024 := by omega
        have hpos : pos + packetSize + (data.length - chunkSize) / 1024 * packetSize =
            pos + data.length / 1024 * packetSize := by
          rw [hpacket]
          omega
        rw [hdrop, hmod, hpos, Nat.min_eq_left (by omega), Nat.sub_self, Memory.read_zero_length,
          List.replicate_zero]
        exact and_iff_right rfl

/-- What the allocation holds where nothing is written. -/
theorem read_allocation {p : PacketLevelDataChunk} {garbage : Nat → UInt8} {off len : Nat}
    (h : off + len ≤ p.dataCapacity) :
    Memory.read (p.allocation garbage) off len = (List.range' off len).map garbage := by
  apply List.ext_getElem
  · rw [Memory.length_read (by rw [length_allocation]; exact h), List.length_map, List.length_range']
  · intro i hi hi'
    simp [Memory.read, allocation]

/-- The last piece and its padding lie within its record. -/
theorem lastPadding_le {len capacity : Nat} (hmod : len % 1024 ≠ 0)
    (hroom : (len + 1023) / 1024 * packetSize + 7 ≤ capacity) :
    len / 1024 * packetSize + 3 + len % 1024 + (1024 - len % 1024) ≤ capacity := by
  have hcount : (len + 1023) / 1024 = len / 1024 + 1 := by omega
  have hlt := Nat.mod_lt len (show 0 < 1024 by decide)
  rw [hcount, Nat.succ_mul] at hroom
  have hpacket : packetSize = 1028 := rfl
  omega

/-- The padding that is sent is what the allocation held. -/
theorem format_iff {p : PacketLevelDataChunk} (h : p.Built) (garbage : Nat → UInt8) :
    p.serialized garbage =
        (chunksOf chunkSize p.compressor.pending).flatMap zeroPaddedRecord ++ p.finalize ↔
      p.compressor.pending.length % 1024 = 0 ∨
        (List.range' (p.compressor.pending.length / 1024 * packetSize + 3 +
            p.compressor.pending.length % 1024) (1024 - p.compressor.pending.length % 1024)).map garbage =
          List.replicate (1024 - p.compressor.pending.length % 1024) 0 := by
  have hroom := h.records_le
  have hrecords := recordsFrom_eq_iff p.compressor.pending (p.allocation garbage) 0
    (by rw [length_allocation]; omega)
  rw [(h.serialize_spec garbage).2.2, List.append_left_inj, hrecords, Nat.zero_add]
  by_cases hmod : p.compressor.pending.length % 1024 = 0
  · exact iff_of_true (Or.inl hmod) (Or.inl hmod)
  · have hstop : p.compressor.pending.length / 1024 * packetSize + 3 + p.compressor.pending.length % 1024 +
        (1024 - p.compressor.pending.length % 1024) ≤ p.dataCapacity := by
      exact lastPadding_le hmod hroom
    rw [read_allocation hstop]

/-- **The level format** is what is sent exactly if the last piece is full, or the allocation held zeros
behind the data of the last piece. The rest of the format holds always: the number and the sizes of the
records, the finalize record, and that no byte is written outside of the allocation. -/
theorem levelFormat_iff {p : PacketLevelDataChunk} (h : p.Built) (garbage : Nat → UInt8) :
    LevelFormat p garbage ↔ p.compressor.pending.length % 1024 = 0 ∨
      ∀ x, p.compressor.pending.length / 1024 * packetSize + 3 + p.compressor.pending.length % 1024 ≤ x →
        x < p.compressor.pending.length / 1024 * packetSize + 3 + chunkSize → garbage x = 0 := by
  have hformat := format_iff h garbage
  rw [List.eq_replicate_iff, List.length_map, List.length_range'] at hformat
  have hzeros : (∀ b ∈ (List.range' (p.compressor.pending.length / 1024 * packetSize + 3 +
      p.compressor.pending.length % 1024) (1024 - p.compressor.pending.length % 1024)).map garbage, b = 0) ↔
      ∀ x, p.compressor.pending.length / 1024 * packetSize + 3 + p.compressor.pending.length % 1024 ≤ x →
        x < p.compressor.pending.length / 1024 * packetSize + 3 + chunkSize → garbage x = 0 := by
    have hmod := Nat.mod_lt p.compressor.pending.length (show 0 < 1024 by decide)
    have hchunk : chunkSize = 1024 := rfl
    rw [List.forall_mem_map]
    refine forall_congr' fun x => ?_
    rw [List.mem_range'_1, and_imp]
    refine imp_congr_right fun _ => imp_congr_left ?_
    omega
  rw [hzeros, and_iff_right rfl] at hformat
  constructor
  · intro hlevel
    exact hformat.mp hlevel.format
  · intro hpadding
    obtain ⟨hlength, hend, -⟩ := h.serialize_spec garbage
    exact
      { format := hformat.mpr hpadding
        count := length_chunksOf _ _
        length_record := fun piece hpiece => length_zeroPaddedRecord (length_le_of_mem_chunksOf hpiece)
        carried := flatten_chunksOf (by decide) _
        length_finalize := p.length_finalize
        inAllocation := ⟨hlength, hend ▸ h.records_le⟩ }

/-- A compressed level of one byte. -/
def oneByte : PacketLevelDataChunk :=
  { compressor := { pending := [1], maxCompressedSize := 1 }, maxChunkCount := 1, x := 1, y := 1, z := 1 }

theorem oneByte_built : oneByte.Built := ⟨by decide, by decide, by decide⟩

/-- A compressed level of a full chunk and one byte of the next. -/
def fullChunkAndByte : PacketLevelDataChunk :=
  { oneByte with
    compressor := { pending := List.replicate 1025 7, maxCompressedSize := 1025 }
    maxChunkCount := 2 }

theorem fullChunkAndByte_built : fullChunkAndByte.Built :=
  ⟨by decide, Nat.le_of_eq List.length_replicate, by decide⟩

/-- The memory happens to be zero behind the byte in the second record, and is not elsewhere. -/
theorem levelFormat_fullChunkAndByte :
    LevelFormat fullChunkAndByte fun x => if packetSize + 4 ≤ x ∧ x < packetSize + 1027 then 0 else 7 := by
  refine (levelFormat_iff fullChunkAndByte_built _).mpr (Or.inr fun x hstart hstop => if_pos ?_)
  have hlength : fullChunkAndByte.compressor.pending.length = 1025 := List.length_replicate
  rw [hlength] at hstart hstop
  have hsize : packetSize = 1028 := rfl
  have hchunk : chunkSize = 1024 := rfl
  omega

/-- **What the memory held is sent.** -/
theorem not_levelFormat_oneByte : ¬ LevelFormat oneByte fun _ => 7 := by
  intro h
  exact absurd ((format_iff oneByte_built _).mp h.format) (by decide +kernel)

end PacketLevelDataChunk

end Mmocraft.Net
