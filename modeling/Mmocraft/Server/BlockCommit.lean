/-
# Mmocraft.Server.BlockCommit -- what the block history writes to the mapped file

`World::commit_block_changes` takes the records of a history one after the other and writes the block
of each to the cell of its coordinates, if the offset passes the one comparison there is: the offset is
counted from the start of the file, behind a header of four bytes, and compared with the volume.

In the world every coordinate has a cell of its own, but the last four cells are never written.  Outside
of it an offset can be that of another coordinate, or one of the header.  Both results are
equivalences: what the history has to be for the commit to do what it should.

A commit is a fold over the records, and the last record that is written to an offset decides (`Lib.Updates`).
Both equivalences follow from what is stored at each offset afterwards, and from which coordinates have the
same offset.
-/
import Mmocraft.Game.BlockHistory
import Mmocraft.Lib.Updates
import Mmocraft.Server.Step

namespace Mmocraft

open Mmocraft.Lib Mmocraft.Game Mmocraft.Net

/-! ## Records and their coordinates -/

namespace Game.BlockHistoryRecord

/-- The coordinates of a record; a `util::Coordinate` is a `short`. -/
def coordinateX (r : BlockHistoryRecord) : Int := (byteswap16 r.x).toInt

def coordinateY (r : BlockHistoryRecord) : Int := (byteswap16 r.y).toInt

def coordinateZ (r : BlockHistoryRecord) : Int := (byteswap16 r.z).toInt

/-- The record is for a coordinate of the world. -/
def InWorld (r : BlockHistoryRecord) (metadata : WorldMetadata) : Prop :=
  metadata.Contains r.coordinateX r.coordinateY r.coordinateZ

instance (r : BlockHistoryRecord) (metadata : WorldMetadata) : Decidable (r.InWorld metadata) :=
  inferInstanceAs (Decidable (metadata.Contains r.coordinateX r.coordinateY r.coordinateZ))

/-- The record is for the coordinate `x`, `y`, `z`. -/
def At (r : BlockHistoryRecord) (x y z : Int) : Prop :=
  r.coordinateX = x ∧ r.coordinateY = y ∧ r.coordinateZ = z

instance (r : BlockHistoryRecord) (x y z : Int) : Decidable (r.At x y z) :=
  inferInstanceAs (Decidable (_ ∧ _ ∧ _))

/-- The offset that the index function gives for the record. -/
def offset (r : BlockHistoryRecord) (metadata : WorldMetadata) : Nat :=
  coordinateToBlockMapIndex metadata r.x.toNat r.y.toNat r.z.toNat

/-- The offset that the record is written to, if it passes the comparison with the volume. -/
def writes (r : BlockHistoryRecord) (metadata : WorldMetadata) : Option Nat :=
  if r.offset metadata < metadata.volume then some (r.offset metadata) else none

theorem writes_eq_some {r : BlockHistoryRecord} {metadata : WorldMetadata} {i : Nat} :
    r.writes metadata = some i ↔ r.offset metadata = i ∧ i < metadata.volume := by
  unfold writes
  split_ifs with hlt
  · rw [Option.some.injEq]
    exact ⟨fun h => ⟨h, h ▸ hlt⟩, And.left⟩
  · exact iff_of_false (by simp) fun h => hlt (h.1 ▸ h.2)

/-- A nonnegative coordinate is read back as it was. -/
theorem toNat_of_nonneg {v : BitVec 16} (h : 0 ≤ v.toInt) : (v.toNat : Int) = v.toInt := by
  rw [BitVec.toInt_eq_toNat_cond] at h ⊢
  split_ifs at h ⊢
  · rfl
  · have hlt := v.isLt
    omega

/-- A record of the world is offset by the header behind its cell. -/
theorem offset_eq {r : BlockHistoryRecord} {metadata : WorldMetadata} (hvalid : metadata.Valid)
    (h : r.InWorld metadata) : r.offset metadata =
      blockFileHeaderSize + metadata.cellIndex r.coordinateX r.coordinateY r.coordinateZ := by
  have hx := toNat_of_nonneg h.x_nonneg
  have hy := toNat_of_nonneg h.y_nonneg
  have hz := toNat_of_nonneg h.z_nonneg
  have hin : metadata.Contains (byteswap16 r.x).toNat (byteswap16 r.y).toNat (byteswap16 r.z).toNat := by
    rw [hx, hy, hz]
    exact h
  have heq := hvalid.coordinateToBlockMapIndex_eq hin
  rw [byteswap16_byteswap16, byteswap16_byteswap16, byteswap16_byteswap16, hx, hy, hz] at heq
  exact heq

end Game.BlockHistoryRecord

/-! ## The commit -/

/-- The block stored for a coordinate. -/
def World.storedBlock (world : World) (x y z : Int) : Option UInt8 :=
  world.blockMapping[blockFileHeaderSize + world.metadata.cellIndex x y z]?

/-- The block of the last record for a coordinate. -/
def lastBlock (records : List BlockHistoryRecord) (x y z : Int) : Option UInt8 :=
  (records.filter fun r => decide (r.At x y z)).getLast?.map BlockHistoryRecord.blockId

theorem exists_of_lastBlock {records : List BlockHistoryRecord} {x y z : Int} {blockId : UInt8}
    (h : lastBlock records x y z = some blockId) : ∃ r ∈ records, r.At x y z := by
  obtain ⟨r, hr, -⟩ := Option.map_eq_some_iff.mp h
  obtain ⟨hmem, hat⟩ := List.mem_filter.mp (List.mem_of_getLast? hr)
  exact ⟨r, hmem, of_decide_eq_true hat⟩

namespace Server

variable {s : Server} {records : List BlockHistoryRecord}

/-- The commit writes the records one after the other. -/
theorem blockMapping_commitBlockChanges (s : Server) (records : List BlockHistoryRecord) :
    (s.commitBlockChanges records).world.blockMapping =
      records.foldl (writeCell (·.writes s.world.metadata) BlockHistoryRecord.blockId)
        s.world.blockMapping := by
  show records.foldl (commitBlockChange s.world.metadata) s.world.blockMapping = _
  congr 1
  funext blocks r
  rw [commitBlockChange, writeCell, BlockHistoryRecord.writes, BlockHistoryRecord.offset]
  split_ifs <;> rfl

theorem length_commitBlockChanges (s : Server) (records : List BlockHistoryRecord) :
    (s.commitBlockChanges records).world.blockMapping.length = s.world.blockMapping.length := by
  rw [blockMapping_commitBlockChanges, length_foldl_writeCell]

/-- The last record that is written to an offset leaves its block there. -/
theorem getElem?_commitBlockChanges {i : Nat} (hi : i < s.world.blockMapping.length) :
    (s.commitBlockChanges records).world.blockMapping[i]? =
      ((records.filter fun r => decide (r.writes s.world.metadata = some i)).getLast?.map
        BlockHistoryRecord.blockId).or s.world.blockMapping[i]? := by
  rw [blockMapping_commitBlockChanges, getElem?_foldl_writeCell _ _ hi]

/-! ## Records of the world -/

/-- What committing records of the world is for. Each cell of the world has its last record, or what it had,
and different coordinates are different cells. -/
structure Committed (s : Server) (records : List BlockHistoryRecord) : Prop where
  stored : ∀ x y z, s.world.metadata.Contains x y z →
    (s.commitBlockChanges records).world.storedBlock x y z =
      (lastBlock records x y z).or (s.world.storedBlock x y z)
  distinct : ∀ x y z x' y' z', s.world.metadata.Contains x y z → s.world.metadata.Contains x' y' z' →
    s.world.metadata.cellIndex x y z = s.world.metadata.cellIndex x' y' z' → x = x' ∧ y = y' ∧ z = z'

/-- A record of the world is written to the cell of its coordinate alone, and not to the last four. -/
theorem writes_cell_iff (hvalid : s.world.metadata.Valid) {r : BlockHistoryRecord}
    (hr : r.InWorld s.world.metadata) {x y z : Int} (hin : s.world.metadata.Contains x y z) :
    r.writes s.world.metadata = some (blockFileHeaderSize + s.world.metadata.cellIndex x y z) ↔
      r.At x y z ∧ blockFileHeaderSize + s.world.metadata.cellIndex x y z < s.world.metadata.volume := by
  rw [BlockHistoryRecord.writes_eq_some, BlockHistoryRecord.offset_eq hvalid hr, Nat.add_left_cancel_iff]
  constructor
  · rintro ⟨hcell, hlt⟩
    exact ⟨WorldMetadata.Valid.cellIndex_inj hr hin hcell, hlt⟩
  · rintro ⟨⟨hx, hy, hz⟩, hlt⟩
    exact ⟨by rw [hx, hy, hz], hlt⟩

/-- What a commit leaves for a coordinate of the world. -/
theorem storedBlock_commitBlockChanges (hvalid : s.world.metadata.Valid)
    (hmapped : s.world.blockMapping.length = blockFileHeaderSize + s.world.metadata.volume)
    (hrecords : ∀ r ∈ records, r.InWorld s.world.metadata) {x y z : Int}
    (hin : s.world.metadata.Contains x y z) :
    (s.commitBlockChanges records).world.storedBlock x y z =
      if blockFileHeaderSize + s.world.metadata.cellIndex x y z < s.world.metadata.volume then
        (lastBlock records x y z).or (s.world.storedBlock x y z)
      else s.world.storedBlock x y z := by
  have hcell := hvalid.cellIndex_lt hin
  show (s.commitBlockChanges records).world.blockMapping[blockFileHeaderSize +
    s.world.metadata.cellIndex x y z]? = _
  rw [getElem?_commitBlockChanges (by omega)]
  split_ifs with hlt
  · have hfilter : (records.filter fun r => decide (r.writes s.world.metadata =
        some (blockFileHeaderSize + s.world.metadata.cellIndex x y z))) =
        records.filter fun r => decide (r.At x y z) :=
      List.filter_congr fun r hr => by
        rw [decide_eq_decide, writes_cell_iff hvalid (hrecords r hr) hin]
        exact and_iff_left hlt
    rw [hfilter]
    rfl
  · have hnone : (records.filter fun r => decide (r.writes s.world.metadata =
        some (blockFileHeaderSize + s.world.metadata.cellIndex x y z))) = [] :=
      List.filter_eq_nil_iff.mpr fun r hr => by
        rw [decide_eq_true_iff, writes_cell_iff hvalid (hrecords r hr) hin]
        exact fun h => hlt h.2
    rw [hnone]
    rfl

/-- **The last four cells.** Committing records of the world does what it is for exactly if the last record
for each of these cells, if there is one, has the block that is stored there. The comparison in the source
forgets the header of the file, which the offset of a block counts in, so that a write to one of the last
four cells is dropped. -/
theorem committed_iff (hvalid : s.world.metadata.Valid)
    (hmapped : s.world.blockMapping.length = blockFileHeaderSize + s.world.metadata.volume)
    (hrecords : ∀ r ∈ records, r.InWorld s.world.metadata) :
    Committed s records ↔ ∀ x y z, s.world.metadata.Contains x y z →
      s.world.metadata.volume ≤ blockFileHeaderSize + s.world.metadata.cellIndex x y z →
      ∀ blockId, lastBlock records x y z = some blockId → s.world.storedBlock x y z = some blockId := by
  constructor
  · intro h x y z hin hlast blockId hblock
    have hstored := h.stored x y z hin
    rw [storedBlock_commitBlockChanges hvalid hmapped hrecords hin, if_neg (by omega), hblock] at hstored
    exact hstored
  · intro h
    refine ⟨fun x y z hin => ?_, fun _ _ _ _ _ _ hin hin' => WorldMetadata.Valid.cellIndex_inj hin hin'⟩
    rw [storedBlock_commitBlockChanges hvalid hmapped hrecords hin]
    split_ifs with hlt
    · rfl
    · cases hblock : lastBlock records x y z with
      | none => rfl
      | some blockId => exact h x y z hin (by omega) blockId hblock

/-- A server with a 4 x 4 x 4 world of stone. -/
def stoneServer : Server :=
  init 2
    { width := 4, height := 4, length := 4, volume := 64, spawnX := 0, spawnY := 4, spawnZ := 0
      spawnYaw := 0, spawnPitch := 0 }
    (be32 64 ++ List.replicate 64 1)

theorem stoneServer_valid : stoneServer.world.metadata.Valid := by constructor <;> decide

theorem stoneServer_mapped :
    stoneServer.world.blockMapping.length = blockFileHeaderSize + stoneServer.world.metadata.volume := rfl

theorem committed_firstCell : Committed stoneServer [.of 0 0 0 2, .of 0 0 0 3] := by
  refine (committed_iff stoneServer_valid stoneServer_mapped (by decide)).mpr fun x y z _ hlast _ hblock => ?_
  obtain ⟨r, hr, rfl, rfl, rfl⟩ := exists_of_lastBlock hblock
  have hnone : ∀ r ∈ [BlockHistoryRecord.of 0 0 0 2, .of 0 0 0 3], ¬ 64 ≤ blockFileHeaderSize +
      stoneServer.world.metadata.cellIndex r.coordinateX r.coordinateY r.coordinateZ := by decide
  exact absurd hlast (hnone r hr)

/-- **The last cell keeps its block.** -/
theorem not_committed_lastCell : ¬ Committed stoneServer [.of 3 3 3 2] := by
  intro h
  exact absurd (h.stored 3 3 3 (by decide)) (by decide)

/-! ## Records outside of the world -/

/-- What committing any records must not do. -/
structure OutsideInert (s : Server) (records : List BlockHistoryRecord) : Prop where
  unchanged : ∀ before r after, records = before ++ r :: after → ¬ r.InWorld s.world.metadata →
    (s.commitBlockChanges (before ++ [r])).world.blockMapping =
      (s.commitBlockChanges before).world.blockMapping
  inBlocks : ∀ r ∈ records, ∀ i, r.writes s.world.metadata = some i →
    blockFileHeaderSize ≤ i ∧ i < blockFileHeaderSize + s.world.metadata.volume

/-- A record changes nothing exactly if it is not written, or finds its block where it is written. -/
theorem commitBlockChanges_append_eq_iff
    (hmapped : s.world.blockMapping.length = blockFileHeaderSize + s.world.metadata.volume)
    (before : List BlockHistoryRecord) (r : BlockHistoryRecord) :
    (s.commitBlockChanges (before ++ [r])).world.blockMapping =
        (s.commitBlockChanges before).world.blockMapping ↔
      ∀ i, r.writes s.world.metadata = some i →
        (s.commitBlockChanges before).world.blockMapping[i]? = some r.blockId := by
  have hlength := length_commitBlockChanges s before
  have hstep : (s.commitBlockChanges (before ++ [r])).world.blockMapping =
      writeCell (·.writes s.world.metadata) BlockHistoryRecord.blockId
        (s.commitBlockChanges before).world.blockMapping r := by
    rw [blockMapping_commitBlockChanges, blockMapping_commitBlockChanges, List.foldl_append,
      List.foldl_cons, List.foldl_nil]
  rw [hstep]
  constructor
  · intro hsame i hi
    have hlt := (BlockHistoryRecord.writes_eq_some.mp hi).2
    rw [← hsame, getElem?_writeCell _ _ (by omega), if_pos hi]
  · intro h
    unfold writeCell
    split
    · rfl
    · rename_i i hi
      obtain ⟨hlt, hblock⟩ := List.getElem?_eq_some_iff.mp (h i hi)
      rw [← hblock, List.set_getElem_self]

/-- The block of the last record with an offset, or what the file holds there if there is none. -/
def lastAtOffset (s : Server) (records : List BlockHistoryRecord) (i : Nat) : Option UInt8 :=
  ((records.filter fun r => decide (r.offset s.world.metadata = i)).getLast?.map
    BlockHistoryRecord.blockId).or s.world.blockMapping[i]?

/-- Below the volume the comparison does not stop a record. -/
theorem getElem?_commitBlockChanges_of_lt
    (hmapped : s.world.blockMapping.length = blockFileHeaderSize + s.world.metadata.volume) {i : Nat}
    (hi : i < s.world.metadata.volume) :
    (s.commitBlockChanges records).world.blockMapping[i]? = s.lastAtOffset records i := by
  have hfilter : (records.filter fun r => decide (r.writes s.world.metadata = some i)) =
      records.filter fun r => decide (r.offset s.world.metadata = i) :=
    List.filter_congr fun r _ => by
      rw [decide_eq_decide, BlockHistoryRecord.writes_eq_some]
      exact and_iff_left hi
  rw [getElem?_commitBlockChanges (by omega), hfilter, lastAtOffset]

/-- **Outside of the world** records are inert exactly if each record that passes the comparison has an
offset behind the header and, unless it is for a coordinate of the world, the block that the last record
before it with this offset has, or the file if there is none. -/
theorem outsideInert_iff
    (hmapped : s.world.blockMapping.length = blockFileHeaderSize + s.world.metadata.volume) :
    OutsideInert s records ↔ ∀ before r after, records = before ++ r :: after →
      r.offset s.world.metadata < s.world.metadata.volume →
      blockFileHeaderSize ≤ r.offset s.world.metadata ∧
      (¬ r.InWorld s.world.metadata →
        s.lastAtOffset before (r.offset s.world.metadata) = some r.blockId) := by
  constructor
  · intro h before r after hsplit hlt
    have hwrites : r.writes s.world.metadata = some (r.offset s.world.metadata) :=
      BlockHistoryRecord.writes_eq_some.mpr ⟨rfl, hlt⟩
    have hmem : r ∈ records := by
      rw [hsplit]
      exact List.mem_append_right before List.mem_cons_self
    refine ⟨(h.inBlocks r hmem _ hwrites).1, fun hout => ?_⟩
    rw [← getElem?_commitBlockChanges_of_lt hmapped hlt]
    exact (commitBlockChanges_append_eq_iff hmapped before r).mp (h.unchanged before r after hsplit hout) _
      hwrites
  · intro h
    constructor
    · intro before r after hsplit hout
      refine (commitBlockChanges_append_eq_iff hmapped before r).mpr fun i hi => ?_
      obtain ⟨rfl, hlt⟩ := BlockHistoryRecord.writes_eq_some.mp hi
      rw [getElem?_commitBlockChanges_of_lt hmapped hlt]
      exact (h before r after hsplit hlt).2 hout
    · intro r hr i hi
      obtain ⟨before, after, hsplit⟩ := List.append_of_mem hr
      obtain ⟨rfl, hlt⟩ := BlockHistoryRecord.writes_eq_some.mp hi
      exact ⟨(h before r after hsplit hlt).1, by omega⟩

/-- Records above the world and before its corner. -/
theorem outsideInert_aboveAndBelow : OutsideInert stoneServer [.of 0 4 0 2, .of 0 (-1) 0 2] := by
  refine (outsideInert_iff stoneServer_mapped).mpr fun before r after hsplit hlt => ?_
  have hnone : ∀ r ∈ [BlockHistoryRecord.of 0 4 0 2, .of 0 (-1) 0 2],
      ¬ r.offset stoneServer.world.metadata < stoneServer.world.metadata.volume := by decide
  exact absurd hlt (hnone r (hsplit ▸ List.mem_append_right before List.mem_cons_self))

/-- A server with a world that is one row of blocks, 65537 of them. -/
def longRow : Server :=
  init 2
    { width := 65537, height := 1, length := 1, volume := 65537, spawnX := 0, spawnY := 1, spawnZ := 0
      spawnYaw := 0, spawnPitch := 0 }
    (be32 65537 ++ List.replicate 65537 1)

/-- **Beside the world a record changes a block of the next row, and a wrapped product leads into the
header.** -/
theorem not_outsideInert :
    ¬ OutsideInert stoneServer [.of 4 0 0 2] ∧ ¬ OutsideInert longRow [.of 0 0 (-1) 2] := by
  constructor
  · intro h
    exact absurd (h.unchanged [] (.of 4 0 0 2) [] rfl (by decide)) (by decide)
  · intro h
    exact absurd (h.inBlocks (.of 0 0 (-1) 2) List.mem_cons_self 3 (by decide)) (by decide)

end Server

end Mmocraft
