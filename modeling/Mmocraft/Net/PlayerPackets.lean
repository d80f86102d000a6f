/-
# Mmocraft.Net.PlayerPackets -- spawn, despawn and position records

What `PacketSpawnPlayer`, `PacketDespawnPlayer` and `PacketSetPlayerPosition` serialize for a list of
players, one record a player, and what a client makes of them.  A position record is chosen by the
difference of the latest position and the last transferred one.
-/
import Mmocraft.Game.Player

namespace Mmocraft.Net

open Mmocraft.Lib Mmocraft.Game

/-! ## Records -/

/-- One record of `PacketSpawnPlayer`. -/
structure SpawnRecord where
  gameId : UInt8
  username : List UInt8
  position : PlayerPosition
  deriving DecidableEq, Repr

/-- One record of `PacketSetPlayerPosition`, by the packet id it starts with. -/
inductive PositionRecord where
  | setPlayerPosition (gameId : UInt8) (position : PlayerPosition)
  | updatePlayerPosition (gameId : UInt8) (x y z yaw pitch : BitVec 8)
  | updatePlayerCoordinate (gameId : UInt8) (x y z : BitVec 8)
  | updatePlayerOrientation (gameId : UInt8) (yaw pitch : BitVec 8)
  deriving DecidableEq, Repr

/-- The position `PacketSpawnPlayer::serialize` writes. -/
def spawnPacketPosition (player : Player) : PlayerPosition :=
  if player.lastPosition.raw ≠ 0 then player.lastPosition else player.spawnPosition

/-- The record of one player in `PacketSpawnPlayer::serialize`. -/
def spawnRecord (player : Player) : SpawnRecord :=
  { gameId := player.gameId, username := player.username, position := spawnPacketPosition player }

/-- A difference that takes the absolute branch.  The third comparison of the source repeats `y`. -/
def isFarMove (diff : PlayerPosition) : Bool :=
  diff.x.toInt.natAbs > 32 || diff.y.toInt.natAbs > 32 || diff.y.toInt.natAbs > 32

/-- The record of one player in `PacketSetPlayerPosition::serialize`, if any. -/
def positionRecord (player : Player) : Option PositionRecord :=
  let latestPos := player.lastPosition
  let diff := latestPos - player.lastTransferredPos
  if isFarMove diff then some (.setPlayerPosition player.gameId latestPos)
  else if diff.rawCoordinate ≠ 0 ∧ diff.rawOrientation ≠ 0 then
    some (.updatePlayerPosition player.gameId (diff.x.setWidth 8) (diff.y.setWidth 8)
      (diff.z.setWidth 8) latestPos.yaw latestPos.pitch)
  else if diff.rawCoordinate ≠ 0 then
    some (.updatePlayerCoordinate player.gameId (diff.x.setWidth 8) (diff.y.setWidth 8)
      (diff.z.setWidth 8))
  else if diff.rawOrientation ≠ 0 then
    some (.updatePlayerOrientation player.gameId latestPos.yaw latestPos.pitch)
  else none

/-! ## The client's view -/

/-- The positions a client holds, by game id. -/
abbrev ClientView := UInt8 → Option PlayerPosition

namespace PositionRecord

def gameId : PositionRecord → UInt8
  | setPlayerPosition id _ => id
  | updatePlayerPosition id _ _ _ _ _ => id
  | updatePlayerCoordinate id _ _ _ => id
  | updatePlayerOrientation id _ _ => id

/-- A client's reading of a record: absolute positions replace, deltas are signed bytes that add
modulo `2 ^ 16`, orientations replace. -/
def apply : PositionRecord → PlayerPosition → PlayerPosition
  | setPlayerPosition _ position, _ => position
  | updatePlayerPosition _ x y z yaw pitch, base =>
      { x := base.x + x.signExtend 16, y := base.y + y.signExtend 16, z := base.z + z.signExtend 16
        yaw := yaw, pitch := pitch }
  | updatePlayerCoordinate _ x y z, base =>
      { base with
        x := base.x + x.signExtend 16, y := base.y + y.signExtend 16, z := base.z + z.signExtend 16 }
  | updatePlayerOrientation _ yaw pitch, base => { base with yaw := yaw, pitch := pitch }

end PositionRecord

theorem positionRecord_gameId {player : Player} {r : PositionRecord}
    (hr : positionRecord player = some r) : r.gameId = player.gameId := by
  simp only [positionRecord] at hr
  split_ifs at hr <;> obtain rfl := Option.some.inj hr <;> rfl

/-- What a client that holds `base` for a player makes of the record of the player, if any. -/
def movedPosition (player : Player) (base : PlayerPosition) : PlayerPosition :=
  match positionRecord player with
  | none => base
  | some r => r.apply base

/-- The relative records of the player lead from `base` to its latest position: the coordinates are
those that were last transferred, and the orientation is, or is sent because it changed since. -/
def ContinuesFrom (player : Player) (base : PlayerPosition) : Prop :=
  (base.x = player.lastTransferredPos.x ∧ base.y = player.lastTransferredPos.y ∧
    base.z = player.lastTransferredPos.z) ∧
  ((base.yaw = player.lastTransferredPos.yaw ∧ base.pitch = player.lastTransferredPos.pitch) ∨
    (player.lastPosition - player.lastTransferredPos).rawOrientation ≠ 0)

instance (player : Player) (base : PlayerPosition) : Decidable (ContinuesFrom player base) := by
  unfold ContinuesFrom
  infer_instance

theorem continuesFrom_lastTransferredPos (player : Player) :
    ContinuesFrom player player.lastTransferredPos := ⟨⟨rfl, rfl, rfl⟩, Or.inl ⟨rfl, rfl⟩⟩

/-- No record is sent only where nothing changed. -/
theorem lastPosition_eq_of_none {player : Player} (hnone : positionRecord player = none) :
    player.lastPosition = player.lastTransferredPos := by
  simp only [positionRecord] at hnone
  split_ifs at hnone with _ _ hcoordinate horientation
  obtain ⟨hx, hy, hz⟩ :=
    (PlayerPosition.sub_rawCoordinate_eq_zero_iff _ _).mp (not_not.mp hcoordinate)
  obtain ⟨hyaw, hpitch⟩ :=
    (PlayerPosition.sub_rawOrientation_eq_zero_iff _ _).mp (not_not.mp horientation)
  exact PlayerPosition.ext hx hy hz hyaw hpitch

theorem fits_of_not_isFarMove {diff : PlayerPosition} (h : ¬ isFarMove diff = true) :
    FitsByte diff.x ∧ FitsByte diff.y := by
  simp only [isFarMove, Bool.or_eq_true, decide_eq_true_eq, not_or, Nat.not_lt] at h
  exact ⟨.of_natAbs h.1.1, .of_natAbs h.1.2⟩

/-- **The records** lead to the latest position of the player from everywhere if they are absolute,
and only from where the differences were taken if they are relative. -/
theorem movedPosition_eq_iff {player : Player} (base : PlayerPosition)
    (hz : isFarMove (player.lastPosition - player.lastTransferredPos) = false →
      FitsByte (player.lastPosition - player.lastTransferredPos).z) :
    movedPosition player base = player.lastPosition ↔
      isFarMove (player.lastPosition - player.lastTransferredPos) = true ∨
        ContinuesFrom player base := by
  simp only [movedPosition, positionRecord, ContinuesFrom]
  split_ifs with hfar hboth hcoordinate horientation
  · exact ⟨fun _ => Or.inl hfar, fun _ => rfl⟩
  all_goals
    rw [or_iff_right hfar, PlayerPosition.ext_iff]
    obtain ⟨hfitsX, hfitsY⟩ := fits_of_not_isFarMove hfar
    have hx := hfitsX.add_signExtend_eq_iff base.x
    have hy := hfitsY.add_signExtend_eq_iff base.y
    have hz := (hz (Bool.not_eq_true _ ▸ hfar)).add_signExtend_eq_iff base.z
  · -- coordinates and orientation
    simp [PositionRecord.apply, hx, hy, hz, hboth.2]
  · -- coordinates only: the orientation did not change
    have hsame := not_not.mp fun h => hboth ⟨hcoordinate, h⟩
    obtain ⟨hyaw, hpitch⟩ := (PlayerPosition.sub_rawOrientation_eq_zero_iff _ _).mp hsame
    simp [PositionRecord.apply, hx, hy, hz, hsame, hyaw, hpitch, and_assoc]
  · -- orientation only: the coordinates did not change
    obtain ⟨hlatestX, hlatestY, hlatestZ⟩ :=
      (PlayerPosition.sub_rawCoordinate_eq_zero_iff _ _).mp (not_not.mp hcoordinate)
    simp [PositionRecord.apply, horientation, hlatestX, hlatestY, hlatestZ]
  · -- nothing changed
    have hsame := not_not.mp horientation
    obtain ⟨hlatestX, hlatestY, hlatestZ⟩ :=
      (PlayerPosition.sub_rawCoordinate_eq_zero_iff _ _).mp (not_not.mp hcoordinate)
    obtain ⟨hyaw, hpitch⟩ := (PlayerPosition.sub_rawOrientation_eq_zero_iff _ _).mp hsame
    simp [hsame, hlatestX, hlatestY, hlatestZ, hyaw, hpitch, and_assoc]

end Mmocraft.Net
