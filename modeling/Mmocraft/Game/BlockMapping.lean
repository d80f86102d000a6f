/-
# Mmocraft.Game.BlockMapping -- the mapped block file and its index function

The world metadata, the block file as `WorldGenerator` lays it out (a big-endian volume followed by
the blocks) and `World::coordinate_to_block_map_index`, which computes the offset of a block in that
file from coordinates in network byte order.
-/
import Mmocraft.Lib.BigEndian
import Mmocraft.Lib.MachineInt

namespace Mmocraft.Game

open Mmocraft.Lib

/-- The fields of `WorldMetadata` that the world reads. -/
structure WorldMetadata where
  width : Int
  height : Int
  length : Int
  volume : Nat
  spawnX : Int
  spawnY : Int
  spawnZ : Int
  spawnYaw : Nat
  spawnPitch : Nat
  deriving DecidableEq, Repr

/-- `WorldGenerator::block_file_header_size`. -/
def blockFileHeaderSize : Nat := 4

/-- `World::coordinate_to_block_map_index`: the coordinates arrive in network byte order and are
swapped; the products are `int` products, the sum is a `size_t`. -/
def coordinateToBlockMapIndex (metadata : WorldMetadata) (x y z : Int) : Nat :=
  let swap (v : Int) : Int := (byteswap16 (BitVec.ofInt 16 v)).toNat
  sizeT (blockFileHeaderSize + swap x + int32 (metadata.width * swap z) +
    int32 (int32 (metadata.width * metadata.length) * swap y))

/-- The sum of the index function, when the terms stay below `2 ^ 31`. -/
theorem sum_of_products {W L x y z V : Nat} (hlt : W * L * y + W * z + x < V) (hWL : W * L ≤ V)
    (hV : V < 2 ^ 31) :
    sizeT ((blockFileHeaderSize : Int) + (x : Int) + int32 ((W : Int) * (z : Int)) +
      int32 (int32 ((W : Int) * (L : Int)) * (y : Int))) =
      blockFileHeaderSize + (W * L * y + W * z + x) := by
  have hint : ∀ n : Nat, n < 2 ^ 31 → int32 (n : Int) = (n : Int) := fun n hn =>
    int32_of_range (by omega) (by omega)
  rw [← Int.natCast_mul, ← Int.natCast_mul, hint (W * z) (by omega), hint (W * L) (by omega),
    ← Int.natCast_mul, hint (W * L * y) (by omega)]
  generalize W * L * y = P at *
  generalize W * z = Q at *
  simp only [blockFileHeaderSize]
  rw [sizeT_of_nonneg (by omega) (by omega)]
  omega

/-- The metadata of a world: positive dimensions, and their product. -/
structure WorldMetadata.Valid (metadata : WorldMetadata) : Prop where
  width_pos : 1 ≤ metadata.width
  height_pos : 1 ≤ metadata.height
  length_pos : 1 ≤ metadata.length
  volume_eq : (metadata.volume : Int) = metadata.width * metadata.height * metadata.length
  volume_lt : metadata.volume < 2 ^ 31

/-- A world of positive dimensions together with its mapped file. -/
structure MappedWorld where
  metadata : WorldMetadata
  blockMapping : List UInt8
  valid : metadata.Valid
  header_eq : blockMapping.take blockFileHeaderSize = be32 metadata.volume
  size_eq : blockMapping.length = blockFileHeaderSize + metadata.volume

/-- The coordinates of the world. -/
structure WorldMetadata.Contains (metadata : WorldMetadata) (x y z : Int) : Prop where
  x_nonneg : 0 ≤ x
  x_lt : x < metadata.width
  y_nonneg : 0 ≤ y
  y_lt : y < metadata.height
  z_nonneg : 0 ≤ z
  z_lt : z < metadata.length

instance (metadata : WorldMetadata) (x y z : Int) : Decidable (metadata.Contains x y z) :=
  decidable_of_iff (0 ≤ x ∧ x < metadata.width ∧ 0 ≤ y ∧ y < metadata.height ∧ 0 ≤ z ∧ z < metadata.length)
    ⟨fun ⟨h1, h2, h3, h4, h5, h6⟩ => ⟨h1, h2, h3, h4, h5, h6⟩,
      fun ⟨h1, h2, h3, h4, h5, h6⟩ => ⟨h1, h2, h3, h4, h5, h6⟩⟩

/-- The position of a coordinate among the blocks: `x` fastest, then `z`, then `y`. -/
def WorldMetadata.cellIndex (metadata : WorldMetadata) (x y z : Int) : Nat :=
  (y.toNat * metadata.length.toNat + z.toNat) * metadata.width.toNat + x.toNat

/-! ## The cells -/

theorem index_lt {x y z W H L : Nat} (hx : x < W) (hy : y < H) (hz : z < L) :
    (y * L + z) * W + x < W * H * L :=
  calc (y * L + z) * W + x
      < (y * L + z) * W + W := by omega
    _ = (y * L + z + 1) * W := by rw [Nat.add_mul _ 1, Nat.one_mul]
    _ ≤ (y * L + L) * W := Nat.mul_le_mul_right _ (by omega)
    _ = (y + 1) * L * W := by rw [Nat.add_mul _ 1, Nat.one_mul]
    _ ≤ H * L * W := Nat.mul_le_mul_right _ (Nat.mul_le_mul_right _ (by omega))
    _ = W * H * L := by rw [Nat.mul_assoc, Nat.mul_comm L W, ← Nat.mul_assoc, Nat.mul_comm H W]

/-- A digit below the base and what stands before it. -/
theorem mul_add_inj {a a' b x x' : Nat} (hx : x < b) (hx' : x' < b) (h : a * b + x = a' * b + x') :
    a = a' ∧ x = x' := by
  have hdiv : ∀ c y : Nat, y < b → (c * b + y) / b = c := fun c y hy => by
    rw [Nat.mul_comm, Nat.mul_add_div (by omega), Nat.div_eq_of_lt hy, Nat.add_zero]
  have ha : a = a' := by rw [← hdiv a x hx, h, hdiv a' x' hx']
  subst ha
  exact ⟨rfl, by omega⟩

namespace WorldMetadata

variable {metadata : WorldMetadata}

namespace Valid

theorem volume_pos (h : metadata.Valid) : 1 ≤ metadata.volume := by
  have hvolume := h.volume_eq
  have : 0 < metadata.width * metadata.height * metadata.length :=
    Int.mul_pos (Int.mul_pos h.width_pos h.height_pos) h.length_pos
  omega

theorem volume_toNat (h : metadata.Valid) :
    metadata.volume = metadata.width.toNat * metadata.height.toNat * metadata.length.toNat := by
  obtain ⟨hw, hh, hl, heq, -⟩ := h
  rw [← Int.toNat_of_nonneg (show 0 ≤ metadata.width by omega),
    ← Int.toNat_of_nonneg (show 0 ≤ metadata.height by omega),
    ← Int.toNat_of_nonneg (show 0 ≤ metadata.length by omega)] at heq
  exact_mod_cast heq

/-- The cell of a coordinate is below the volume. -/
theorem cellIndex_lt (h : metadata.Valid) {x y z : Int} (hin : metadata.Contains x y z) :
    metadata.cellIndex x y z < metadata.volume := by
  obtain ⟨hx, hx', hy, hy', hz, hz'⟩ := hin
  rw [h.volume_toNat]
  exact index_lt (by omega) (by omega) (by omega)

/-- **Distinct coordinates have distinct cells.** -/
theorem cellIndex_inj {x y z x' y' z' : Int} (hin : metadata.Contains x y z)
    (hin' : metadata.Contains x' y' z') (heq : metadata.cellIndex x y z = metadata.cellIndex x' y' z') :
    x = x' ∧ y = y' ∧ z = z' := by
  obtain ⟨hx, hxw, hy, -, hz, hzl⟩ := hin
  obtain ⟨hx', hxw', hy', -, hz', hzl'⟩ := hin'
  obtain ⟨hrow, hcol⟩ := mul_add_inj (by omega) (by omega) heq
  obtain ⟨hlayer, hline⟩ := mul_add_inj (by omega) (by omega) hrow
  omega

/-- **The index function addresses the cell after the header**: on a coordinate of the world in network
byte order none of its products wraps. -/
theorem coordinateToBlockMapIndex_eq (h : metadata.Valid) {x y z : BitVec 16}
    (hin : metadata.Contains x.toNat y.toNat z.toNat) :
    coordinateToBlockMapIndex metadata (byteswap16 x).toNat (byteswap16 y).toNat (byteswap16 z).toNat =
      blockFileHeaderSize + metadata.cellIndex x.toNat y.toNat z.toNat := by
  have hlt := h.cellIndex_lt hin
  have hvolume := h.volume_toNat
  obtain ⟨hw, hh, hl, -, hvol⟩ := h
  have hwidth : ((metadata.width.toNat : Nat) : Int) = metadata.width := by omega
  have hlength : ((metadata.length.toNat : Nat) : Int) = metadata.length := by omega
  have hheight : 1 ≤ metadata.height.toNat := by omega
  have hswap : ∀ v : BitVec 16,
      ((byteswap16 (BitVec.ofInt 16 ((byteswap16 v).toNat : Int))).toNat : Int) = v.toNat := by
    intro v
    rw [BitVec.ofInt_natCast, BitVec.ofNat_toNat, BitVec.setWidth_eq, byteswap16_byteswap16]
  simp only [coordinateToBlockMapIndex, hswap]
  rw [← hwidth, ← hlength]
  simp only [cellIndex, Int.toNat_natCast] at hlt ⊢
  generalize metadata.width.toNat = W at *
  generalize metadata.length.toNat = L at *
  generalize metadata.height.toNat = H at *
  have hexp : (y.toNat * L + z.toNat) * W + x.toNat = W * L * y.toNat + W * z.toNat + x.toNat := by
    rw [Nat.add_mul, Nat.mul_comm _ W, Nat.mul_comm _ W, Nat.mul_comm y.toNat L, Nat.mul_assoc]
  have hWL : W * L ≤ metadata.volume := by
    rw [hvolume, Nat.mul_comm W H, Nat.mul_assoc]
    exact Nat.le_mul_of_pos_left _ (by omega)
  rw [hexp] at hlt ⊢
  exact sum_of_products hlt hWL hvol

end Valid

end WorldMetadata

end Mmocraft.Game
