/-
# Mmocraft.Net.PositionStream -- the bytes of player positions

`PacketSetPlayerPosition::serialize` writes one record after the other, at most one a player, and a
client replays them: an absolute record replaces the position it holds of the player, a relative one
adds signed bytes to the coordinates and replaces the orientation.

A coordinate that changes by up to 32 is sent in one byte, but the selection looks at `x` and at `y`
twice, and never at `z`.  The replay leads to the latest positions exactly if no player moves along `z`
by more than a signed byte holds, unless it also moves far along `x` or `y`.

The replay is that of a client which has the positions that were transferred last. What clients have that were
told something else in between is the subject of `Server.PositionView`.
-/
import Mmocraft.Net.PacketFields
import Mmocraft.Net.PlayerPackets

namespace Mmocraft.Net

open Mmocraft.Lib Mmocraft.Game PacketStructure

/-! ## Records as bytes -/

namespace PositionRecord

/-- The bytes of a record, in the order of the four branches. -/
def serialize : PositionRecord → List UInt8
  | setPlayerPosition id p =>
      writeByte PacketTypeId.setPlayerPosition ++ (writeByte id ++ (writeShort p.x ++ (writeShort p.y ++
        (writeShort p.z ++ (writeByte ⟨p.yaw⟩ ++ writeByte ⟨p.pitch⟩)))))
  | updatePlayerPosition id x y z yaw pitch =>
      writeByte PacketTypeId.updatePlayerPosition ++ (writeByte id ++ (writeByte ⟨x⟩ ++ (writeByte ⟨y⟩ ++
        (writeByte ⟨z⟩ ++ (writeByte ⟨yaw⟩ ++ writeByte ⟨pitch⟩)))))
  | updatePlayerCoordinate id x y z =>
      writeByte PacketTypeId.updatePlayerCoordinate ++ (writeByte id ++ (writeByte ⟨x⟩ ++ (writeByte ⟨y⟩ ++
        writeByte ⟨z⟩)))
  | updatePlayerOrientation id yaw pitch =>
      writeByte PacketTypeId.updatePlayerOrientation ++ (writeByte id ++ (writeByte ⟨yaw⟩ ++
        writeByte ⟨pitch⟩))

/-- How a client reads a record. -/
def read : Reader UInt8 PositionRecord := fun buf => do
  let (packetId, buf) ← readByte buf
  let (id, buf) ← readByte buf
  if packetId = PacketTypeId.setPlayerPosition then
    let (x, buf) ← readShort buf
    let (y, buf) ← readShort buf
    let (z, buf) ← readShort buf
    let (yaw, buf) ← readByte buf
    let (pitch, buf) ← readByte buf
    return (setPlayerPosition id ⟨x, y, z, yaw.toBitVec, pitch.toBitVec⟩, buf)
  else if packetId = PacketTypeId.updatePlayerPosition then
    let (x, buf) ← readByte buf
    let (y, buf) ← readByte buf
    let (z, buf) ← readByte buf
    let (yaw, buf) ← readByte buf
    let (pitch, buf) ← readByte buf
    return (updatePlayerPosition id x.toBitVec y.toBitVec z.toBitVec yaw.toBitVec pitch.toBitVec, buf)
  else if packetId = PacketTypeId.updatePlayerCoordinate then
    let (x, buf) ← readByte buf
    let (y, buf) ← readByte buf
    let (z, buf) ← readByte buf
    return (updatePlayerCoordinate id x.toBitVec y.toBitVec z.toBitVec, buf)
  else if packetId = PacketTypeId.updatePlayerOrientation then
    let (yaw, buf) ← readByte buf
    let (pitch, buf) ← readByte buf
    return (updatePlayerOrientation id yaw.toBitVec pitch.toBitVec, buf)
  else none

/-- A client reads the record that was written. -/
theorem read_serialize (r : PositionRecord) (rest : List UInt8) :
    read (r.serialize ++ rest) = some (r, rest) := by
  cases r with
  | setPlayerPosition id p =>
      simp [serialize, read, List.append_assoc]
  | updatePlayerPosition id x y z yaw pitch =>
      simp [serialize, read, List.append_assoc, PacketTypeId.updatePlayerPosition, PacketTypeId.setPlayerPosition]
  | updatePlayerCoordinate id x y z => rfl
  | updatePlayerOrientation id yaw pitch => rfl

theorem length_serialize_le (r : PositionRecord) :
    r.serialize.length ≤ PacketSetPlayerPosition.packetSize := by
  cases r <;> simp [serialize, PacketSetPlayerPosition.packetSize]

theorem serialize_ne_nil (r : PositionRecord) : r.serialize ≠ [] := by
  cases r <;> exact List.cons_ne_nil _ _

end PositionRecord

/-! ## The packet -/

/-- The turn of one player in the loop of `PacketSetPlayerPosition::serialize`. -/
def serializePlayer (player : Player) : List UInt8 :=
  ((positionRecord player).map PositionRecord.serialize).getD []

/-- `PacketSetPlayerPosition::serialize`: what it writes. -/
def PacketSetPlayerPosition.serialize (players : List Player) : List UInt8 :=
  players.flatMap serializePlayer

/-- `max_data_size`, what it allocates. -/
def PacketSetPlayerPosition.maxDataSize (players : List Player) : Nat :=
  players.length * PacketSetPlayerPosition.packetSize

/-- A client reads records until nothing is left. -/
def readRecords (buf : List UInt8) : Option (List PositionRecord) :=
  readAll PositionRecord.read buf.length buf

/-- What a client that holds `base` makes of the records of a player. -/
def replay (records : List PositionRecord) (base : PlayerPosition) : PlayerPosition :=
  records.foldl (fun base r => r.apply base) base

/-- What the records are for: they lead every player from the position last transferred to the latest
one.  In the stream the records of a player are found by its game id, if the id is its own. -/
structure DeltaCodec (players : List Player) : Prop where
  replayed : ∀ player ∈ players, (readRecords (serializePlayer player)).map
    (replay · player.lastTransferredPos) = some player.lastPosition
  stream : ∃ records, readRecords (PacketSetPlayerPosition.serialize players) = some records ∧
    ∀ player ∈ players, (players.map Player.gameId).count player.gameId = 1 →
      replay (records.filter fun r => r.gameId == player.gameId) player.lastTransferredPos =
        player.lastPosition
  length_le : (PacketSetPlayerPosition.serialize players).length ≤
    PacketSetPlayerPosition.maxDataSize players

theorem readRecords_flatMap (records : List PositionRecord) :
    readRecords (records.flatMap PositionRecord.serialize) = some records := by
  refine readAll_flatMap (fun r _ => r.read_serialize) (fun r _ => r.serialize_ne_nil) ?_
  induction records with
  | nil => exact le_refl _
  | cons r records ih =>
      have hr := List.length_pos_of_ne_nil r.serialize_ne_nil
      rw [List.flatMap_cons, List.length_append, List.length_cons]
      omega

theorem serializePlayer_eq (player : Player) :
    serializePlayer player = (positionRecord player).toList.flatMap PositionRecord.serialize := by
  unfold serializePlayer
  cases positionRecord player with
  | none => rfl
  | some r => exact (List.append_nil _).symm

theorem serialize_eq (players : List Player) : PacketSetPlayerPosition.serialize players =
    (players.filterMap positionRecord).flatMap PositionRecord.serialize := by
  induction players with
  | nil => rfl
  | cons player players ih =>
      rw [PacketSetPlayerPosition.serialize, List.flatMap_cons, ← PacketSetPlayerPosition.serialize, ih,
        serializePlayer_eq, List.filterMap_cons]
      cases positionRecord player with
      | none => rfl
      | some r => rw [Option.toList_some, List.flatMap_singleton, List.flatMap_cons]

/-- At most one record a player. -/
theorem length_serialize_le (players : List Player) :
    (PacketSetPlayerPosition.serialize players).length ≤ PacketSetPlayerPosition.maxDataSize players := by
  induction players with
  | nil => exact le_refl _
  | cons player players ih =>
      have hplayer : (serializePlayer player).length ≤ PacketSetPlayerPosition.packetSize := by
        unfold serializePlayer
        cases positionRecord player with
        | none => exact Nat.zero_le _
        | some r => exact r.length_serialize_le
      rw [PacketSetPlayerPosition.maxDataSize, List.length_cons, Nat.succ_mul,
        ← PacketSetPlayerPosition.maxDataSize, PacketSetPlayerPosition.serialize, List.flatMap_cons,
        List.length_append, ← PacketSetPlayerPosition.serialize]
      omega

/-- The replay of a player's own record. -/
theorem replay_toList (player : Player) (base : PlayerPosition) :
    replay (positionRecord player).toList base = movedPosition player base := by
  unfold movedPosition
  cases positionRecord player <;> rfl

/-- The records of a game id are those of its players. -/
theorem filter_records (players : List Player) (id : UInt8) :
    (players.filterMap positionRecord).filter (fun r => r.gameId == id) =
      (players.filter fun player => player.gameId == id).filterMap positionRecord := by
  induction players with
  | nil => rfl
  | cons player players ih =>
      rw [List.filterMap_cons, List.filter_cons]
      cases hrecord : positionRecord player with
      | none =>
          rw [ih]
          split_ifs
          · rw [List.filterMap_cons, hrecord]
          · rfl
      | some r =>
          rw [List.filter_cons, positionRecord_gameId hrecord, ih]
          split_ifs
          · rw [List.filterMap_cons, hrecord]
          · rfl

/-- The player whose game id is its own is the only one with it. -/
theorem filter_gameId_eq {players : List Player} {player : Player} (hmem : player ∈ players)
    (hone : (players.map Player.gameId).count player.gameId = 1) :
    (players.filter fun p => p.gameId == player.gameId) = [player] := by
  have hlength : (players.filter fun p => p.gameId == player.gameId).length = 1 := by
    rw [← List.countP_eq_length_filter, ← hone, List.count_eq_countP, List.countP_map]
    rfl
  obtain ⟨p, hp⟩ := List.length_eq_one_iff.mp hlength
  have hin : player ∈ players.filter fun p => p.gameId == player.gameId :=
    List.mem_filter.mpr ⟨hmem, beq_self_eq_true _⟩
  rw [hp] at hin ⊢
  rw [List.mem_singleton.mp hin]

/-- A relative record adds the low byte of the difference. -/
theorem movedPosition_z {player : Player} {base : PlayerPosition}
    (hfar : ¬ isFarMove (player.lastPosition - player.lastTransferredPos) = true)
    (hcoordinate : (player.lastPosition - player.lastTransferredPos).rawCoordinate ≠ 0) :
    (movedPosition player base).z =
      base.z + ((player.lastPosition - player.lastTransferredPos).z.setWidth 8).signExtend 16 := by
  simp only [movedPosition, positionRecord, if_neg hfar]
  split_ifs with hboth
  · rfl
  · rfl

/-- A move along `z` that is sent in one byte has to fit in it. -/
theorem movedPosition_lastTransferredPos_iff (player : Player) :
    movedPosition player player.lastTransferredPos = player.lastPosition ↔
      isFarMove (player.lastPosition - player.lastTransferredPos) = true ∨
        FitsByte (player.lastPosition - player.lastTransferredPos).z := by
  by_cases hfits : FitsByte (player.lastPosition - player.lastTransferredPos).z
  · have hmoved := (movedPosition_eq_iff player.lastTransferredPos fun _ => hfits).mpr
      (Or.inr (continuesFrom_lastTransferredPos player))
    exact iff_of_true hmoved (Or.inr hfits)
  · rw [or_iff_left hfits]
    constructor
    · intro hmoved
      by_contra hfar
      have hcoordinate : (player.lastPosition - player.lastTransferredPos).rawCoordinate ≠ 0 := by
        intro hzero
        obtain ⟨-, -, hz⟩ := (PlayerPosition.rawCoordinate_eq_zero_iff _).mp hzero
        rw [hz] at hfits
        exact hfits (by decide)
      refine hfits (fitsByte_of_signExtend_setWidth ?_)
      have hz := congrArg PlayerPosition.z hmoved
      rw [movedPosition_z hfar hcoordinate] at hz
      rw [PlayerPosition.sub_z] at hz ⊢
      generalize ((player.lastPosition.z - player.lastTransferredPos.z).setWidth 8).signExtend 16 = delta at *
      bv_omega
    · intro hfar
      simp only [movedPosition, positionRecord, if_pos hfar]
      rfl

/-- **The deltas** lead every player to its latest position exactly if each moves far along `x` or `y`, or
moves along `z` by what a signed byte holds. The comparison for `z` is missing in the source, a second one
for `y` stands in its place; a far move along `z` alone is sent as one byte, with its sign lost. -/
theorem deltaCodec_iff (players : List Player) : DeltaCodec players ↔ ∀ player ∈ players,
    isFarMove (player.lastPosition - player.lastTransferredPos) = true ∨
      FitsByte (player.lastPosition - player.lastTransferredPos).z := by
  have hown : ∀ player, (readRecords (serializePlayer player)).map (replay · player.lastTransferredPos) =
      some (movedPosition player player.lastTransferredPos) := by
    intro player
    rw [serializePlayer_eq, readRecords_flatMap, Option.map_some, replay_toList]
  constructor
  · intro h player hplayer
    rw [← movedPosition_lastTransferredPos_iff]
    exact Option.some.inj ((hown player).symm.trans (h.replayed player hplayer))
  · intro h
    refine ⟨fun player hplayer => ?_, ⟨_, serialize_eq players ▸ readRecords_flatMap _, ?_⟩,
      length_serialize_le players⟩
    · rw [hown, (movedPosition_lastTransferredPos_iff player).mpr (h player hplayer)]
    · intro player hplayer hone
      rw [filter_records, filter_gameId_eq hplayer hone, List.filterMap_cons, List.filterMap_nil]
      have hmoved := (movedPosition_lastTransferredPos_iff player).mpr (h player hplayer)
      rw [← replay_toList] at hmoved
      cases hrecord : positionRecord player with
      | none => rwa [hrecord] at hmoved
      | some r => rwa [hrecord] at hmoved

/-- A player that moved by 200 along `z` since its position was last transferred. -/
def farAlongZ : Player := (Player.new {} [97] .guest).setPosition { z := 200 }

/-- **A move along `z` goes the other way**: 200 is sent as the byte of -56. -/
theorem not_deltaCodec_farAlongZ : ¬ DeltaCodec [farAlongZ] := by
  intro h
  exact absurd (h.replayed farAlongZ List.mem_cons_self) (by decide +kernel)

end Mmocraft.Net
