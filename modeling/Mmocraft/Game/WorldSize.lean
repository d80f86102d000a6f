/-
# Mmocraft.Game.WorldSize -- the arithmetic of world sizes

A configured size passes through a `short`, an `int` product, a `size_t` and an `uint32` before it is
written, and half of it comes back as a spawn coordinate in 1/32 block.  Each conversion keeps a range of
values; together they are exact on the accepted sizes below fixed bounds, and nowhere else.
-/
import Mmocraft.Game.Player
import Mmocraft.Game.WorldGenerator

namespace Mmocraft.Game

open Mmocraft.Lib

namespace WorldGenerator

variable {conf : WorldConfig}

/-! ## What exact arithmetic is -/

/-- The spawn coordinates of the metadata survive the fixed-point fields of a position. -/
structure SpawnSurvives (metadata : WorldMetadata) (p : Player) : Prop where
  x_eq : (p.setSpawnCoordinate metadata.spawnX metadata.spawnY metadata.spawnZ).spawnPosition.x.toInt =
    metadata.spawnX * 32
  y_eq : (p.setSpawnCoordinate metadata.spawnX metadata.spawnY metadata.spawnZ).spawnPosition.y.toInt =
    metadata.spawnY * 32 + 51
  z_eq : (p.setSpawnCoordinate metadata.spawnX metadata.spawnY metadata.spawnZ).spawnPosition.z.toInt =
    metadata.spawnZ * 32

/-- Nothing of the configured sizes is lost: the three sizes, their volume wherever it is computed, and
the spawn coordinates of every player without one. -/
structure SizesExact (conf : WorldConfig) (metadata : WorldMetadata) : Prop where
  x_kept : (mapSize conf).x.toInt = conf.width.toInt
  y_kept : (mapSize conf).y.toInt = conf.height.toInt
  z_kept : (mapSize conf).z.toInt = conf.length.toInt
  mapVolume_eq : (mapVolume conf : Int) = conf.volume
  header_eq : (ofBigEndian (blockFileHeader (mapVolume conf)) : Int) = conf.volume
  allocation_eq : (allocationSize (mapSize conf) : Int) = conf.volume
  metadata_eq : metadata.width = conf.width.toInt ∧ metadata.height = conf.height.toInt ∧
    metadata.length = conf.length.toInt ∧ (metadata.volume : Int) = conf.volume
  spawn : ∀ p : Player, p.spawnPosition.rawCoordinate = 0 → SpawnSurvives metadata p

/-- The bounds of the conversions. -/
structure WithinBounds (conf : WorldConfig) : Prop where
  width_le : conf.width.toInt ≤ 2047
  height_le : conf.height.toInt ≤ 1022
  length_le : conf.length.toInt ≤ 2047
  volume_lt : conf.volume < 2 ^ 31

/-! ## Spawn coordinates -/

/-- A spawn position survives exactly where its three products are `short`s. -/
theorem spawnSurvives_iff {metadata : WorldMetadata} {p : Player} (hp : p.spawnPosition.rawCoordinate = 0) :
    SpawnSurvives metadata p ↔
      (-2 ^ 15 ≤ metadata.spawnX * 32 ∧ metadata.spawnX * 32 < 2 ^ 15) ∧
      (-2 ^ 15 ≤ metadata.spawnY * 32 + 51 ∧ metadata.spawnY * 32 + 51 < 2 ^ 15) ∧
      (-2 ^ 15 ≤ metadata.spawnZ * 32 ∧ metadata.spawnZ * 32 < 2 ^ 15) := by
  have hset : (p.setSpawnCoordinate metadata.spawnX metadata.spawnY metadata.spawnZ).spawnPosition =
      p.spawnPosition.setRawCoordinate (metadata.spawnX * 32) (metadata.spawnY * 32 + 51)
        (metadata.spawnZ * 32) := by
    rw [Player.setSpawnCoordinate, if_pos hp]
    rfl
  rw [← toInt_ofInt16_eq_iff, ← toInt_ofInt16_eq_iff, ← toInt_ofInt16_eq_iff]
  constructor
  · rintro ⟨hx, hy, hz⟩
    rw [hset] at hx hy hz
    exact ⟨hx, hy, hz⟩
  · rintro ⟨hx, hy, hz⟩
    constructor <;> rw [hset]
    · exact hx
    · exact hy
    · exact hz

/-! ## The bounds -/

theorem volume_lt_of_short (h : conf.Accepted) (hw : conf.width.toInt ≤ 32767)
    (hh : conf.height.toInt ≤ 32767) (hl : conf.length.toInt ≤ 32767) :
    0 ≤ conf.volume ∧ conf.volume < 2 ^ 63 := by
  obtain ⟨hw', hh', hl'⟩ := h
  have hplane : conf.width.toInt * conf.height.toInt ≤ 32767 * 32767 :=
    Int.mul_le_mul hw hh (by omega) (by decide)
  have hplane' : 0 ≤ conf.width.toInt * conf.height.toInt := Int.mul_nonneg (by omega) (by omega)
  have hvolume : conf.volume ≤ 32767 * 32767 * 32767 :=
    Int.mul_le_mul hplane hl (by omega) (by decide)
  exact ⟨Int.mul_nonneg hplane' (by omega), by omega⟩

/-- Exact arithmetic stays below every bound. -/
theorem SizesExact.withinBounds (h : conf.Accepted)
    (hexact : SizesExact conf (createMetadataFile (mapSize conf))) : WithinBounds conf := by
  obtain ⟨hx, hy, hz, hvolume, -, -, -, hspawn⟩ := hexact
  have hw := (toInt_ofInt16_eq_iff.mp hx).2
  have hh := (toInt_ofInt16_eq_iff.mp hy).2
  have hl := (toInt_ofInt16_eq_iff.mp hz).2
  obtain ⟨hnonneg, hlt⟩ := volume_lt_of_short h (by omega) (by omega) (by omega)
  obtain ⟨hw', hh', hl'⟩ := h
  have hproduct : sizeProduct (mapSize conf) = int32 conf.volume := by
    rw [sizeProduct_eq (by omega) (by omega) (by omega) (by omega), hx, hy, hz, ← WorldConfig.volume]
  rw [mapVolume, hproduct, sizeT_int32_eq_iff hnonneg hlt] at hvolume
  -- a player that has never been in the world
  obtain ⟨⟨-, hspawnX⟩, ⟨-, hspawnY⟩, -, hspawnZ⟩ :=
    (spawnSurvives_iff (p := Player.new default [] default) rfl).mp (hspawn _ rfl)
  simp only [createMetadataFile, hx, hy, hz] at hspawnX hspawnY hspawnZ
  -- half of a size is a coordinate, the whole height is one
  rw [Int.tdiv_eq_ediv_of_nonneg (by omega)] at hspawnX hspawnZ
  exact ⟨by omega, by omega, by omega, hvolume⟩

/-- Sizes within the bounds pass through every conversion. -/
theorem WithinBounds.sizesExact (h : conf.Accepted) (hbounds : WithinBounds conf) :
    SizesExact conf (createMetadataFile (mapSize conf)) := by
  obtain ⟨hw, hh, hl, hlt⟩ := hbounds
  have hrep : conf.Representable := ⟨h, by omega, by omega, by omega, hlt⟩
  obtain ⟨hx, hy, hz⟩ := mapSize_of_representable hrep
  have hproduct := sizeProduct_of_representable hrep
  have hnonneg := volume_nonneg hrep
  obtain ⟨hw', hh', hl'⟩ := h
  have hvolume : (mapVolume conf : Int) = conf.volume := by
    rw [mapVolume_of_representable hrep, Int.toNat_of_nonneg hnonneg]
  refine ⟨hx, hy, hz, hvolume, ?_, ?_, ?_, ?_⟩
  · rw [← hvolume, blockFileHeader, ofBigEndian_be32 (by omega)]
  · rw [allocationSize_eq (by omega) (by omega) (by omega) (by omega), hx, hy, hz, ← WorldConfig.volume]
    exact (sizeT_int32_eq_iff hnonneg (by omega)).mpr hlt
  · simp only [createMetadataFile, hx, hy, hz, hproduct, true_and]
    omega
  · intro p hp
    rw [spawnSurvives_iff hp]
    simp only [createMetadataFile, hx, hy, hz]
    rw [Int.tdiv_eq_ediv_of_nonneg (by omega), Int.tdiv_eq_ediv_of_nonneg (by omega)]
    omega

/-- **The sizes of a new world are exact up to 2047 by 1022 by 2047, with a volume below `2 ^ 31`**, of
which the check of the generator says nothing. The sizes go through 16-bit coordinates, `int` volumes and a
spawn position in units of a 32nd of a block, and the bounds are where the first of these conversions stops
being exact. -/
theorem worldSizes_exact_iff (h : conf.Accepted) {files : WorldFiles} (hnew : files.metadata = none) :
    ∃ blockData metadata,
      createWorldIfNotExist conf files = .ok { blockData := some blockData, metadata := some metadata } ∧
        (SizesExact conf metadata ↔ WithinBounds conf) :=
  ⟨_, _, (createWorldIfNotExist_ok_iff hnew).mpr ⟨h, rfl⟩,
    SizesExact.withinBounds h, WithinBounds.sizesExact h⟩

theorem worldSizes_cube : ∃ blockData metadata,
    createWorldIfNotExist cube {} = .ok { blockData := some blockData, metadata := some metadata } ∧
      (SizesExact cube metadata ↔ WithinBounds cube) :=
  worldSizes_exact_iff ⟨by decide, by decide, by decide⟩ rfl

/-- A wide plain, of `2 ^ 30` blocks. -/
def widePlain : WorldConfig := { width := 4096, height := 64, length := 4096 }

theorem widePlain_not_exact : widePlain.Accepted ∧ ∃ blockData metadata,
    createWorldIfNotExist widePlain {} =
        .ok { blockData := some blockData, metadata := some metadata } ∧
      ¬ SizesExact widePlain metadata := by
  have haccepted : widePlain.Accepted := ⟨by decide, by decide, by decide⟩
  refine ⟨haccepted, _, _, (createWorldIfNotExist_ok_iff rfl).mpr ⟨haccepted, rfl⟩, ?_⟩
  intro hexact
  exact absurd (hexact.withinBounds haccepted).width_le (by decide)

end WorldGenerator

end Mmocraft.Game
