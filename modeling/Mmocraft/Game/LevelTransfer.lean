/-
# Mmocraft.Game.LevelTransfer -- the level a client receives

`World::process_level_wait_player` passes the mapped file and the volume of the world to
`PacketLevelDataChunk`.  The mapped file starts with a four-byte header, so the last four blocks of
the world lie beyond the extent that is compressed.  What a client decodes is determined here
exactly: all blocks but the last four.
-/
import Mmocraft.Game.BlockMapping
import Mmocraft.Net.LevelDataChunk

namespace Mmocraft.Game

open Mmocraft.Lib Mmocraft.Net Mmocraft.Util

namespace MappedWorld

/-- `World::process_level_wait_player`, up to the multicast of the data it builds. -/
def levelData (w : MappedWorld) (zlib : Zlib) (garbage : Nat → UInt8) : List UInt8 :=
  (PacketLevelDataChunk.new zlib w.blockMapping w.metadata.volume
    (BitVec.ofInt 16 w.metadata.width) (BitVec.ofInt 16 w.metadata.height)
    (BitVec.ofInt 16 w.metadata.length)).serialized garbage

/-- What a client makes of the level data: inflate the payload, drop the volume. -/
def clientBlocks (w : MappedWorld) (zlib : Zlib) (garbage : Nat → UInt8) : Option (List UInt8) :=
  (decodeChunks (w.levelData zlib garbage)).map fun data =>
    (zlib.inflate data).drop blockFileHeaderSize

/-- The level transfer is faithful: the client has every block of the world, and at each coordinate
the one the server's index function addresses. -/
def FaithfulTransfer (w : MappedWorld) (zlib : Zlib) (garbage : Nat → UInt8) : Prop :=
  ∃ blocks, w.clientBlocks zlib garbage = some blocks ∧
    blocks.length = w.metadata.volume ∧
    ∀ x y z : BitVec 16, w.metadata.Contains x.toNat y.toNat z.toNat →
      blocks[w.metadata.cellIndex x.toNat y.toNat z.toNat]? =
        w.blockMapping[coordinateToBlockMapIndex w.metadata (byteswap16 x).toNat
          (byteswap16 y).toNat (byteswap16 z).toNat]?

section Transfer

variable (w : MappedWorld) {zlib : Zlib} (hlossless : zlib.Lossless) (hbounded : zlib.Bounded)
  (garbage : Nat → UInt8)

include hlossless hbounded

/-- **What the client gets**: the blocks of the file without the last four, since the extent that is
compressed counts the header. -/
theorem clientBlocks_eq :
    w.clientBlocks zlib garbage = some ((w.blockMapping.drop blockFileHeaderSize).take
      (w.metadata.volume - blockFileHeaderSize)) := by
  have hsize := w.size_eq
  have hvol := w.valid.volume_lt
  obtain ⟨stream, hstream, hserialized⟩ := PacketLevelDataChunk.serialized_new zlib hbounded
    w.blockMapping w.metadata.volume (by omega) (by omega) (BitVec.ofInt 16 w.metadata.width)
    (BitVec.ofInt 16 w.metadata.height) (BitVec.ofInt 16 w.metadata.length) garbage
  have hdecode : decodeChunks (w.levelData zlib garbage) =
      some (zlib.deflate (w.blockMapping.take w.metadata.volume)) := by
    rw [levelData, hserialized]
    exact hstream.decodeChunks_append _
  rw [clientBlocks, hdecode, Option.map_some, hlossless, List.drop_take]

/-- The client is short of four blocks (or has none at all, in a world of fewer). -/
theorem length_clientBlocks {blocks : List UInt8}
    (h : w.clientBlocks zlib garbage = some blocks) :
    blocks.length = w.metadata.volume - blockFileHeaderSize := by
  have hsize := w.size_eq
  obtain rfl := Option.some.inj ((w.clientBlocks_eq hlossless hbounded garbage).symm.trans h)
  rw [List.length_take, List.length_drop]
  omega

/-- **No level transfer is faithful**, for any world and any content of its file. The level data are read
from the mapped file with its header, and of its size only the volume is sent, so the last four blocks of
the world are missing. -/
theorem not_faithfulTransfer : ¬ w.FaithfulTransfer zlib garbage := by
  rintro ⟨blocks, hblocks, hlength, -⟩
  have hshort := w.length_clientBlocks hlossless hbounded garbage hblocks
  have hpos := w.valid.volume_pos
  simp only [blockFileHeaderSize] at hshort
  omega

end Transfer

/-! ## A stone cube -/

/-- A 10 x 10 x 10 world of stone. -/
def stoneCube : MappedWorld where
  metadata :=
    { width := 10, height := 10, length := 10, volume := 1000
      spawnX := 5, spawnY := 10, spawnZ := 5, spawnYaw := 0, spawnPitch := 0 }
  blockMapping := be32 1000 ++ List.replicate 1000 1
  valid := by constructor <;> decide
  header_eq := List.take_left' rfl
  size_eq := by rw [List.length_append, List.length_replicate]; rfl

/-- The first 1000 bytes of its file. -/
def stoneCubeSource : List UInt8 := stoneCube.blockMapping.take 1000

/-- The gzip stream of `stoneCubeSource`. -/
def stoneCubeGzip : List UInt8 :=
  [31, 139, 8, 0, 0, 0, 0, 0, 0, 10, 99, 96, 96, 126, 193, 56, 10, 70, 193, 40, 24, 214, 0, 0, 131,
    177, 57, 75, 232, 3, 0, 0]

/-- zlib on that input; any other source is stored behind a tag. -/
def stoneCubeZlib : Zlib where
  deflate source := if source = stoneCubeSource then stoneCubeGzip else 0 :: source
  inflate stream := if stream = stoneCubeGzip then stoneCubeSource else stream.drop 1
  deflateBound size := size + (size + 7) / 8 + (size + 63) / 64 + 5 + 18

theorem stoneCubeZlib_lossless : stoneCubeZlib.Lossless := by
  intro source
  by_cases h : source = stoneCubeSource
  · simp only [stoneCubeZlib, h, if_true]
  · have htag : ¬ 0 :: source = stoneCubeGzip := by simp [stoneCubeGzip]
    simp only [stoneCubeZlib, if_neg h, if_neg htag, List.drop_succ_cons, List.drop_zero]

theorem stoneCubeZlib_bounded : stoneCubeZlib.Bounded := by
  intro source hlt
  simp only [stoneCubeZlib]
  refine ⟨?_, by omega⟩
  by_cases h : source = stoneCubeSource
  · rw [if_pos h, h]
    have hlen : stoneCubeSource.length = 1000 := by
      rw [stoneCubeSource, List.length_take, stoneCube.size_eq]
      rfl
    rw [hlen]
    decide
  · rw [if_neg h, List.length_cons]
    omega

theorem not_faithfulTransfer_stoneCube :
    stoneCubeZlib.Lossless ∧ stoneCubeZlib.Bounded ∧
      ¬ stoneCube.FaithfulTransfer stoneCubeZlib (fun _ => 0) :=
  ⟨stoneCubeZlib_lossless, stoneCubeZlib_bounded,
    stoneCube.not_faithfulTransfer stoneCubeZlib_lossless stoneCubeZlib_bounded fun _ => 0⟩

/-- The client of the stone cube has 996 blocks, and none at the last coordinate. -/
theorem clientBlocks_stoneCube :
    ∃ blocks, stoneCube.clientBlocks stoneCubeZlib (fun _ => 0) = some blocks ∧
      blocks.length = 996 ∧ stoneCube.metadata.Contains 9 9 9 ∧
      blocks[stoneCube.metadata.cellIndex 9 9 9]? = none ∧
      ¬ stoneCube.FaithfulTransfer stoneCubeZlib (fun _ => 0) := by
  have hblocks := stoneCube.clientBlocks_eq stoneCubeZlib_lossless stoneCubeZlib_bounded fun _ => 0
  have hlen : ∀ blocks, stoneCube.clientBlocks stoneCubeZlib (fun _ => 0) = some blocks →
      blocks.length = 996 := fun blocks h =>
    stoneCube.length_clientBlocks stoneCubeZlib_lossless stoneCubeZlib_bounded _ h
  refine ⟨_, hblocks, hlen _ hblocks, by decide, ?_, ?_⟩
  · rw [List.getElem?_eq_none_iff, hlen _ hblocks]
    decide
  · rintro ⟨blocks, hsome, hlength, -⟩
    rw [hlen blocks hsome] at hlength
    exact absurd hlength (by decide)

end MappedWorld

end Mmocraft.Game
