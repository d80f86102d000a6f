/-
# Mmocraft.Game.WorldGenerator -- the files of a new world

`WorldGenerator`: the configured sizes become three `short`s, their `int` products the volume, and a
flat world of that volume goes to the block file behind its big-endian volume.  The block file is a
text stream: each line feed among its bytes is written as two bytes.

The flat world is what the index function of the world expects, layer by layer; the file is, as long as
the volume holds no byte that the stream rewrites.  The size arithmetic is exact up to the bounds that
the 16-bit coordinates of a spawn position allow, of which the generator checks none.

Arithmetic is that of the types of the source: `short`s that wrap, `int` products, a `size_t` for the
allocation. The layout of the world is stated without any of these (`LaidOut`), by the block that every
coordinate should have.
-/
import Mmocraft.Lib.BigEndian
import Mmocraft.Lib.MachineInt
import Mmocraft.Lib.Memory
import Mmocraft.Util.Math
import Mmocraft.Game.BlockMapping

namespace Mmocraft.Game

open Mmocraft.Lib
open Mmocraft.Util

/-! ## Text streams -/

/-- What a text stream writes for its bytes: a carriage return before each line feed. -/
def textStream (bytes : List UInt8) : List UInt8 :=
  bytes.flatMap fun byte => if byte = 0x0A then [0x0D, 0x0A] else [byte]

/-- Every line feed costs one byte. -/
theorem length_textStream (bytes : List UInt8) :
    (textStream bytes).length = bytes.length + bytes.count 0x0A := by
  induction bytes with
  | nil => rfl
  | cons byte bytes ih =>
      rw [textStream, List.flatMap_cons, List.length_append, ← textStream, ih, List.length_cons]
      by_cases hfeed : byte = 0x0A
      · rw [if_pos hfeed, hfeed, List.count_cons_self]
        simp only [List.length_cons, List.length_nil]
        omega
      · rw [if_neg hfeed, List.count_cons_of_ne hfeed]
        simp only [List.length_cons, List.length_nil]
        omega

/-- Bytes without a line feed are written as they are. -/
theorem textStream_eq_self {bytes : List UInt8} (h : 0x0A ∉ bytes) : textStream bytes = bytes := by
  induction bytes with
  | nil => rfl
  | cons byte bytes ih =>
      rw [List.mem_cons, not_or] at h
      rw [textStream, List.flatMap_cons, if_neg (fun heq => h.1 heq.symm), ← textStream, ih h.2]
      rfl

/-- No other bytes are. -/
theorem textStream_eq_self_iff {bytes : List UInt8} : textStream bytes = bytes ↔ 0x0A ∉ bytes := by
  constructor
  · intro heq
    have hlength := length_textStream bytes
    rw [heq] at hlength
    exact List.count_eq_zero.mp (by omega)
  · exact textStream_eq_self

/-! ## The generator -/

namespace BlockId

/-- `block_id::air`. -/
def air : UInt8 := 0

/-- `block_id::grass`. -/
def grass : UInt8 := 2

/-- `block_id::dirt`. -/
def dirt : UInt8 := 3

/-- `block_id::bedrock`. -/
def bedrock : UInt8 := 7

end BlockId

/-- The sizes of `Configuration::World`, each an `int32`. -/
structure WorldConfig where
  width : BitVec 32
  height : BitVec 32
  length : BitVec 32
  deriving DecidableEq, Repr

/-- The two files of a world, where they exist. -/
structure WorldFiles where
  blockData : Option (List UInt8) := none
  metadata : Option WorldMetadata := none
  deriving DecidableEq, Repr

namespace WorldGenerator

/-- `map_size.x * map_size.y * map_size.z`, an `int` product. -/
def sizeProduct (mapSize : Coordinate3D) : Int :=
  int32 (int32 (mapSize.x.toInt * mapSize.y.toInt) * mapSize.z.toInt)

/-- `plain_size` of `generate_flat_world`. -/
def plainSize (mapSize : Coordinate3D) : Int := int32 (mapSize.x.toInt * mapSize.z.toInt)

/-- The size of the array that `generate_flat_world` allocates. -/
def allocationSize (mapSize : Coordinate3D) : Nat := sizeT (int32 (plainSize mapSize * mapSize.y.toInt))

/-- `num_of_dirt_block` of `generate_flat_world`. -/
def numOfDirtBlock (mapSize : Coordinate3D) : Int := int32 (plainSize mapSize * mapSize.y.toInt.tdiv 2)

/-- `generate_flat_world`: a cleared array, and three calls of `memset`. -/
def generateFlatWorld (mapSize : Coordinate3D) : List UInt8 :=
  let blocks := List.replicate (allocationSize mapSize) BlockId.air
  let blocks := Memory.fill blocks 0 (sizeT (numOfDirtBlock mapSize)) BlockId.dirt
  let blocks := Memory.fill blocks (numOfDirtBlock mapSize).toNat (sizeT (plainSize mapSize)) BlockId.grass
  -- the bedrock replaces the lowest layer of dirt
  Memory.fill blocks 0 (sizeT (plainSize mapSize)) BlockId.bedrock

/-- The header of the block file: `htonl` of the volume cut to 32 bits. -/
def blockFileHeader (mapVolume : Nat) : List UInt8 := be32 mapVolume

/-- `create_block_file`.  The stream is opened without `std::ios::binary`. -/
def createBlockFile (mapSize : Coordinate3D) (mapVolume : Nat) : List UInt8 :=
  let blocks := generateFlatWorld mapSize
  textStream (blockFileHeader mapVolume) ++ textStream (blocks.take (sizeProduct mapSize).toNat)

/-- `create_metadata_file`. -/
def createMetadataFile (mapSize : Coordinate3D) : WorldMetadata :=
  { width := mapSize.x.toInt
    height := mapSize.y.toInt
    length := mapSize.z.toInt
    volume := (sizeProduct mapSize % 2 ^ 32).toNat
    -- players enter above the middle of the plain
    spawnX := mapSize.x.toInt.tdiv 2
    spawnY := mapSize.y.toInt
    spawnZ := mapSize.z.toInt.tdiv 2
    spawnYaw := 0
    spawnPitch := 0 }

/-- The `Coordinate3D` of the configured sizes. -/
def mapSize (conf : WorldConfig) : Coordinate3D :=
  Coordinate3D.new conf.width.toInt conf.height.toInt conf.length.toInt

/-- `map_volume`: the product as a `size_t`. -/
def mapVolume (conf : WorldConfig) : Nat := sizeT (sizeProduct (mapSize conf))

/-- `create_world_if_not_exist`.  A fatal log ends the process. -/
def createWorldIfNotExist (conf : WorldConfig) (files : WorldFiles) : Except String WorldFiles :=
  if files.metadata.isSome then
    .ok files
  else if conf.width.toInt < 10 ∨ conf.height.toInt < 10 ∨ conf.length.toInt < 10 then
    .error "world map size must greater than 10x10x10."
  else
    .ok { blockData := some (createBlockFile (mapSize conf) (mapVolume conf))
          metadata := some (createMetadataFile (mapSize conf)) }

end WorldGenerator

/-! ## Accepted configurations -/

namespace WorldConfig

/-- The sizes that the check of `create_world_if_not_exist` lets through. -/
structure Accepted (conf : WorldConfig) : Prop where
  width_ge : 10 ≤ conf.width.toInt
  height_ge : 10 ≤ conf.height.toInt
  length_ge : 10 ≤ conf.length.toInt

/-- Dirt and grass are two layers of an accepted world. -/
theorem Accepted.two_le_height {conf : WorldConfig} (h : conf.Accepted) : 2 ≤ conf.height.toInt.toNat := by
  have := h.height_ge
  omega

/-- The product of the configured sizes. -/
def volume (conf : WorldConfig) : Int := conf.width.toInt * conf.height.toInt * conf.length.toInt

/-- Accepted sizes that are `short`s, with a product that is an `int`. -/
structure Representable (conf : WorldConfig) : Prop extends Accepted conf where
  width_le : conf.width.toInt ≤ 32767
  height_le : conf.height.toInt ≤ 32767
  length_le : conf.length.toInt ≤ 32767
  volume_lt : conf.volume < 2 ^ 31

end WorldConfig

namespace WorldGenerator

variable {conf : WorldConfig}

/-- **A new world is written from exactly the accepted sizes.** -/
theorem createWorldIfNotExist_ok_iff {files written : WorldFiles} (hnew : files.metadata = none) :
    createWorldIfNotExist conf files = .ok written ↔
      conf.Accepted ∧ written =
        { blockData := some (createBlockFile (mapSize conf) (mapVolume conf))
          metadata := some (createMetadataFile (mapSize conf)) } := by
  rw [createWorldIfNotExist, hnew, if_neg (by simp)]
  split_ifs with hsmall
  · constructor
    · intro herr
      cases herr
    · rintro ⟨⟨hw, hh, hl⟩, -⟩
      omega
  · constructor
    · intro hok
      cases hok
      exact ⟨⟨by omega, by omega, by omega⟩, rfl⟩
    · rintro ⟨-, rfl⟩
      rfl

/-! ## Sizes that fit -/

/-- Sizes that fit are kept. -/
theorem mapSize_of_representable (h : conf.Representable) :
    (mapSize conf).x.toInt = conf.width.toInt ∧ (mapSize conf).y.toInt = conf.height.toInt ∧
      (mapSize conf).z.toInt = conf.length.toInt := by
  obtain ⟨⟨hw, hh, hl⟩, hw', hh', hl', -⟩ := h
  exact ⟨toInt_ofInt16_eq_iff.mpr ⟨by omega, by omega⟩, toInt_ofInt16_eq_iff.mpr ⟨by omega, by omega⟩,
    toInt_ofInt16_eq_iff.mpr ⟨by omega, by omega⟩⟩

/-- The product of two positive `short`s is an `int`. -/
theorem int32_mul_of_short {a b : Int} (ha : 0 ≤ a) (ha' : a ≤ 32767) (hb : 0 ≤ b) (hb' : b ≤ 32767) :
    int32 (a * b) = a * b := by
  have hnonneg : 0 ≤ a * b := Int.mul_nonneg ha hb
  have hle : a * b ≤ 32767 * 32767 := Int.mul_le_mul ha' hb' hb (by decide)
  exact int32_of_range (by omega) (by omega)

theorem sizeProduct_eq {size : Coordinate3D} (hx : 0 ≤ size.x.toInt) (hx' : size.x.toInt ≤ 32767)
    (hy : 0 ≤ size.y.toInt) (hy' : size.y.toInt ≤ 32767) :
    sizeProduct size = int32 (size.x.toInt * size.y.toInt * size.z.toInt) := by
  rw [sizeProduct, int32_mul_of_short hx hx' hy hy']

theorem allocationSize_eq {size : Coordinate3D} (hx : 0 ≤ size.x.toInt) (hx' : size.x.toInt ≤ 32767)
    (hz : 0 ≤ size.z.toInt) (hz' : size.z.toInt ≤ 32767) :
    allocationSize size = sizeT (int32 (size.x.toInt * size.y.toInt * size.z.toInt)) := by
  rw [allocationSize, plainSize, int32_mul_of_short hx hx' hz hz', Int.mul_assoc, Int.mul_assoc,
    Int.mul_comm size.z.toInt]

/-! ## The flat world -/

/-- The block of a layer: bedrock, dirt below the middle, grass in the middle, air above. -/
def flatLayer (height y : Nat) : UInt8 :=
  if y = 0 then BlockId.bedrock
  else if y < height / 2 then BlockId.dirt
  else if y = height / 2 then BlockId.grass
  else BlockId.air

/-- The cleared array after the first `memset`, where no product wraps. -/
def dirtBlocks (plain height : Nat) : List UInt8 :=
  Memory.fill (List.replicate (plain * height) BlockId.air) 0 (plain * (height / 2)) BlockId.dirt

/-- The array after the second `memset`. -/
def grassBlocks (plain height : Nat) : List UInt8 :=
  Memory.fill (dirtBlocks plain height) (plain * (height / 2)) plain BlockId.grass

/-- The array after the third `memset`. -/
def flatBlocks (plain height : Nat) : List UInt8 :=
  Memory.fill (grassBlocks plain height) 0 plain BlockId.bedrock

/-- A cell of a layer lies below another layer exactly when its own layer does. -/
theorem cell_lt_iff {plain cell : Nat} (hcell : cell < plain) (y y' : Nat) :
    y * plain + cell < plain * y' ↔ y < y' := by
  have hdiv : (y * plain + cell) / plain = y := by
    rw [Nat.mul_comm, Nat.mul_add_div (by omega), Nat.div_eq_of_lt hcell, Nat.add_zero]
  rw [Nat.mul_comm plain, ← Nat.div_lt_iff_lt_mul (by omega), hdiv]

section FlatBlocks

variable {plain height : Nat}

/-- The middle layer ends inside the array. -/
theorem plain_mul_half_le (plain : Nat) (hheight : 2 ≤ height) : plain * (height / 2) + plain ≤ plain * height :=
  calc plain * (height / 2) + plain = plain * (height / 2 + 1) := (Nat.mul_succ _ _).symm
    _ ≤ plain * height := Nat.mul_le_mul_left _ (by omega)

theorem length_dirtBlocks (hheight : 2 ≤ height) : (dirtBlocks plain height).length = plain * height := by
  have hhalf := plain_mul_half_le plain hheight
  rw [dirtBlocks, Memory.length_fill, List.length_replicate]
  rw [List.length_replicate]
  omega

theorem length_grassBlocks (hheight : 2 ≤ height) :
    (grassBlocks plain height).length = plain * height := by
  have hhalf := plain_mul_half_le plain hheight
  rw [grassBlocks, Memory.length_fill] <;> rw [length_dirtBlocks hheight]
  exact hhalf

theorem length_flatBlocks (hheight : 2 ≤ height) : (flatBlocks plain height).length = plain * height := by
  have hhalf := plain_mul_half_le plain hheight
  rw [flatBlocks, Memory.length_fill] <;> rw [length_grassBlocks hheight]
  omega

/-- **The flat world by layers.** -/
theorem getElem?_flatBlocks (hheight : 2 ≤ height) {cell y : Nat} (hcell : cell < plain) (hy : y < height) :
    (flatBlocks plain height)[y * plain + cell]? = some (flatLayer height y) := by
  have hhalf := plain_mul_half_le plain hheight
  have hbottom := cell_lt_iff hcell y 1
  have hdirt := cell_lt_iff hcell y (height / 2)
  have hgrass := cell_lt_iff hcell y (height / 2 + 1)
  have hinside := (cell_lt_iff hcell y height).mpr hy
  rw [Nat.mul_one] at hbottom
  rw [Nat.mul_add, Nat.mul_one] at hgrass
  rw [flatBlocks, Memory.getElem?_fill _ (by rw [length_grassBlocks hheight]; omega), grassBlocks,
    Memory.getElem?_fill _ (by rw [length_dirtBlocks hheight]; exact hhalf), dirtBlocks,
    Memory.getElem?_fill _ (by rw [List.length_replicate]; omega), List.getElem?_replicate_of_lt hinside,
    flatLayer]
  -- the later calls overwrite the earlier ones
  by_cases hzero : y = 0
  · rw [if_pos hzero, if_pos ⟨Nat.zero_le _, by omega⟩]
  rw [if_neg hzero, if_neg (by omega)]
  by_cases hlow : y < height / 2
  · rw [if_pos hlow, if_neg (by omega), if_pos ⟨Nat.zero_le _, by omega⟩]
  rw [if_neg hlow]
  by_cases hmiddle : y = height / 2
  · rw [if_pos hmiddle, if_pos (by omega)]
  · rw [if_neg hmiddle, if_neg (by omega), if_neg (by omega)]

theorem lineFeed_notMem_flatBlocks : (0x0A : UInt8) ∉ flatBlocks plain height := by
  have hfill : ∀ (blocks : List UInt8) (off len : Nat) (b : UInt8), (0x0A : UInt8) ∉ blocks → b ≠ 0x0A →
      (0x0A : UInt8) ∉ Memory.fill blocks off len b := by
    intro blocks off len b hblocks hb hmem
    rw [Memory.fill, Memory.write, List.mem_append, List.mem_append] at hmem
    rcases hmem with (hmem | hmem) | hmem
    · exact hblocks (List.mem_of_mem_take hmem)
    · exact hb (List.eq_of_mem_replicate hmem).symm
    · exact hblocks (List.mem_of_mem_drop hmem)
  -- bedrock, grass and dirt over a cleared array
  apply hfill _ _ _ _ _ (by decide)
  apply hfill _ _ _ _ _ (by decide)
  apply hfill _ _ _ _ _ (by decide)
  intro hair
  exact absurd (List.eq_of_mem_replicate hair) (by decide)

end FlatBlocks

section Representable

variable (h : conf.Representable)
include h

theorem volume_nonneg : 0 ≤ conf.volume := by
  obtain ⟨⟨hw, hh, hl⟩, -⟩ := h
  exact Int.mul_nonneg (Int.mul_nonneg (by omega) (by omega)) (by omega)

theorem sizeProduct_of_representable : sizeProduct (mapSize conf) = conf.volume := by
  have hnonneg := volume_nonneg h
  obtain ⟨hx, hy, hz⟩ := mapSize_of_representable h
  obtain ⟨⟨hw, hh, hl⟩, hw', hh', hl', hlt⟩ := h
  rw [sizeProduct_eq (by omega) (by omega) (by omega) (by omega), hx, hy, hz, ← WorldConfig.volume]
  exact int32_of_range (by omega) hlt

theorem mapVolume_of_representable : mapVolume conf = conf.volume.toNat := by
  have hnonneg := volume_nonneg h
  have hlt := h.volume_lt
  rw [mapVolume, sizeProduct_of_representable h, sizeT_of_nonneg hnonneg (by omega)]

theorem volume_toNat : conf.volume.toNat =
    conf.width.toInt.toNat * conf.length.toInt.toNat * conf.height.toInt.toNat := by
  obtain ⟨⟨hw, hh, hl⟩, -⟩ := h
  rw [WorldConfig.volume, Int.mul_right_comm, Int.toNat_mul (Int.mul_nonneg (by omega) (by omega)) (by omega),
    Int.toNat_mul (by omega) (by omega)]

/-- The generated array is the flat world of the configured sizes. -/
theorem generateFlatWorld_of_representable : generateFlatWorld (mapSize conf) =
    flatBlocks (conf.width.toInt.toNat * conf.length.toInt.toNat) conf.height.toInt.toNat := by
  have hvolume := volume_toNat h
  have hnonneg := volume_nonneg h
  obtain ⟨hx, hy, hz⟩ := mapSize_of_representable h
  obtain ⟨⟨hw, hh, hl⟩, hw', hh', hl', hlt⟩ := h
  have halloc : allocationSize (mapSize conf) = conf.volume.toNat := by
    rw [allocationSize_eq (by omega) (by omega) (by omega) (by omega), hx, hy, hz, ← WorldConfig.volume,
      int32_of_range (by omega) hlt, sizeT_of_nonneg hnonneg (by omega)]
  have hplain : plainSize (mapSize conf) =
      ((conf.width.toInt.toNat * conf.length.toInt.toNat : Nat) : Int) := by
    rw [plainSize, int32_mul_of_short (by omega) (by omega) (by omega) (by omega), hx, hz,
      Int.natCast_mul, Int.toNat_of_nonneg (by omega), Int.toNat_of_nonneg (by omega)]
  have hhalf : (mapSize conf).y.toInt.tdiv 2 = ((conf.height.toInt.toNat / 2 : Nat) : Int) := by
    rw [hy, Int.tdiv_eq_ediv_of_nonneg (by omega)]
    omega
  -- the products of the generator are below the volume, and the volume is an `int`
  have hmiddle := plain_mul_half_le (conf.width.toInt.toNat * conf.length.toInt.toNat)
    (show 2 ≤ conf.height.toInt.toNat by omega)
  have hsmall : conf.volume.toNat < 2 ^ 31 := by omega
  rw [hvolume] at hsmall
  have hdirt : numOfDirtBlock (mapSize conf) = ((conf.width.toInt.toNat * conf.length.toInt.toNat *
      (conf.height.toInt.toNat / 2) : Nat) : Int) := by
    rw [numOfDirtBlock, hplain, hhalf, ← Int.natCast_mul]
    exact int32_of_range (by omega) (by omega)
  rw [generateFlatWorld, hdirt, hplain, halloc, hvolume, sizeT_of_nonneg (by omega) (by omega),
    sizeT_of_nonneg (by omega) (by omega)]
  rfl

/-- The metadata of a world that fits describes it. -/
theorem createMetadataFile_valid : (createMetadataFile (mapSize conf)).Valid := by
  have hnonneg := volume_nonneg h
  have hproduct := sizeProduct_of_representable h
  obtain ⟨hx, hy, hz⟩ := mapSize_of_representable h
  obtain ⟨⟨hw, hh, hl⟩, hw', hh', hl', hlt⟩ := h
  have hvolume : (createMetadataFile (mapSize conf)).volume = conf.volume.toNat := by
    simp only [createMetadataFile, hproduct]
    omega
  refine ⟨?_, ?_, ?_, ?_, by omega⟩ <;> simp only [createMetadataFile, hx, hy, hz]
  · omega
  · omega
  · omega
  · rw [hproduct, ← WorldConfig.volume]
    omega

/-! ## The block file -/

/-- The generator writes a block for each cell. -/
theorem length_generateFlatWorld : (generateFlatWorld (mapSize conf)).length = conf.volume.toNat := by
  rw [generateFlatWorld_of_representable h, length_flatBlocks h.two_le_height, volume_toNat h]

/-- The file of a world that fits: the two parts, each as the text stream writes it. -/
theorem createBlockFile_of_representable : createBlockFile (mapSize conf) (mapVolume conf) =
    textStream (be32 conf.volume.toNat) ++ generateFlatWorld (mapSize conf) := by
  have hlength := length_generateFlatWorld h
  -- the header is the length of the array, so the whole array is written
  rw [createBlockFile, blockFileHeader, mapVolume_of_representable h, sizeProduct_of_representable h,
    ← hlength, List.take_length, hlength]
  congr 1
  -- no block id is a line feed
  rw [generateFlatWorld_of_representable h]
  exact textStream_eq_self lineFeed_notMem_flatBlocks

end Representable

/-- The block file of a world: the big-endian volume, the blocks of the flat world, and at the index of
every coordinate the block of its layer. -/
structure LaidOut (conf : WorldConfig) (blockData : List UInt8) (metadata : WorldMetadata) : Prop where
  bytes_eq : blockData = be32 conf.volume.toNat ++ generateFlatWorld (mapSize conf)
  length_eq : blockData.length = blockFileHeaderSize + conf.volume.toNat
  addressed : ∀ x y z : BitVec 16, metadata.Contains x.toNat y.toNat z.toNat →
    blockData[coordinateToBlockMapIndex metadata (byteswap16 x).toNat (byteswap16 y).toNat
      (byteswap16 z).toNat]? = some (flatLayer conf.height.toInt.toNat y.toNat)

/-- The two parts behind each other are such a file. -/
theorem laidOut_of_bytes_eq (h : conf.Representable) {blockData : List UInt8}
    (hbytes : blockData = be32 conf.volume.toNat ++ generateFlatWorld (mapSize conf)) :
    LaidOut conf blockData (createMetadataFile (mapSize conf)) := by
  have hvalid := createMetadataFile_valid h
  have hblocks := generateFlatWorld_of_representable h
  obtain ⟨hx, hy, hz⟩ := mapSize_of_representable h
  refine ⟨hbytes, ?_, ?_⟩
  · rw [hbytes, List.length_append, length_be32, length_generateFlatWorld h]
    rfl
  · intro x y z hin
    have hindex := hvalid.coordinateToBlockMapIndex_eq hin
    obtain ⟨-, hxlt, -, hylt, -, hzlt⟩ := hin
    simp only [createMetadataFile, hx, hy, hz] at hxlt hylt hzlt
    have hcell : z.toNat * conf.width.toInt.toNat + x.toNat <
        conf.width.toInt.toNat * conf.length.toInt.toNat :=
      calc z.toNat * conf.width.toInt.toNat + x.toNat
          < z.toNat * conf.width.toInt.toNat + conf.width.toInt.toNat := by omega
        _ = (z.toNat + 1) * conf.width.toInt.toNat := (Nat.succ_mul _ _).symm
        _ ≤ conf.length.toInt.toNat * conf.width.toInt.toNat := Nat.mul_le_mul_right _ (by omega)
        _ = conf.width.toInt.toNat * conf.length.toInt.toNat := Nat.mul_comm _ _
    have hsplit : (createMetadataFile (mapSize conf)).cellIndex x.toNat y.toNat z.toNat =
        y.toNat * (conf.width.toInt.toNat * conf.length.toInt.toNat) +
          (z.toNat * conf.width.toInt.toNat + x.toNat) := by
      simp only [WorldMetadata.cellIndex, createMetadataFile, hx, hz, Int.toNat_natCast]
      rw [Nat.add_mul, Nat.mul_assoc, Nat.mul_comm conf.length.toInt.toNat, Nat.add_assoc]
    rw [hindex, hbytes, List.getElem?_append_right (by rw [length_be32]; exact Nat.le_add_right 4 _),
      length_be32, blockFileHeaderSize, Nat.add_sub_cancel_left, hblocks, hsplit]
    exact getElem?_flatBlocks h.two_le_height hcell (by omega)

/-- A line feed in the volume moves all blocks; without one the file is as intended. -/
theorem createBlockFile_laidOut_iff (h : conf.Representable) :
    LaidOut conf (createBlockFile (mapSize conf) (mapVolume conf)) (createMetadataFile (mapSize conf)) ↔
      0x0A ∉ be32 conf.volume.toNat := by
  have hfile := createBlockFile_of_representable h
  constructor
  · intro hlaid
    have hbytes := hlaid.bytes_eq
    rw [hfile, List.append_cancel_right_eq] at hbytes
    exact textStream_eq_self_iff.mp hbytes
  · intro hfree
    apply laidOut_of_bytes_eq h
    rw [hfile, textStream_eq_self hfree]

/-- **A new block file is laid out as the world reads it exactly where no byte of its volume is a line
feed**: the stream that writes the volume adds a byte before each one. -/
theorem blockFile_laidOut_iff (h : conf.Representable) {files : WorldFiles} (hnew : files.metadata = none) :
    ∃ blockData metadata,
      createWorldIfNotExist conf files = .ok { blockData := some blockData, metadata := some metadata } ∧
        (LaidOut conf blockData metadata ↔ 0x0A ∉ be32 conf.volume.toNat) :=
  ⟨_, _, (createWorldIfNotExist_ok_iff hnew).mpr ⟨h.toAccepted, rfl⟩, createBlockFile_laidOut_iff h⟩

/-- A cube of 4096 blocks. -/
def cube : WorldConfig := { width := 16, height := 16, length := 16 }

theorem cube_representable : cube.Representable := by
  constructor
  · exact ⟨by decide, by decide, by decide⟩
  all_goals decide

theorem blockFile_cube : ∃ blockData metadata,
    createWorldIfNotExist cube {} = .ok { blockData := some blockData, metadata := some metadata } ∧
      (LaidOut cube blockData metadata ↔ 0x0A ∉ be32 cube.volume.toNat) :=
  blockFile_laidOut_iff cube_representable rfl

/-- A slab of 2560 blocks: its volume is `0x0A00`. -/
def slab : WorldConfig := { width := 16, height := 10, length := 16 }

theorem slab_not_laidOut : slab.Representable ∧ ∃ blockData metadata,
    createWorldIfNotExist slab {} = .ok { blockData := some blockData, metadata := some metadata } ∧
      ¬ LaidOut slab blockData metadata := by
  have hslab : slab.Representable := by
    constructor
    · exact ⟨by decide, by decide, by decide⟩
    all_goals decide
  refine ⟨hslab, _, _, (createWorldIfNotExist_ok_iff rfl).mpr ⟨hslab.toAccepted, rfl⟩, ?_⟩
  rw [createBlockFile_laidOut_iff hslab]
  decide

end WorldGenerator

end Mmocraft.Game
