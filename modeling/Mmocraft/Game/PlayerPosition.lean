/-
# Mmocraft.Game.PlayerPosition -- positions of players

The union `PlayerPosition` by its fields: three 16-bit coordinates in 1/32 block and two bytes of
orientation.  The 64-bit `raw` value and its two masked parts are functions of the fields.
-/
import Mathlib.Algebra.Group.Nat.Defs
import Mathlib.Data.List.Basic
import Mathlib.Tactic.Common

namespace Mmocraft.Game

/-- `PlayerPosition`; the default is the position whose `raw` is zero. -/
@[ext] structure PlayerPosition where
  x : BitVec 16 := 0
  y : BitVec 16 := 0
  z : BitVec 16 := 0
  yaw : BitVec 8 := 0
  pitch : BitVec 8 := 0
  deriving DecidableEq, Repr, Inhabited

namespace PlayerPosition

/-- `raw & coordinate_mask`. -/
def rawCoordinate (p : PlayerPosition) : Nat :=
  p.x.toNat + p.y.toNat * 2 ^ 16 + p.z.toNat * 2 ^ 32

/-- `raw & orientation_mask`. -/
def rawOrientation (p : PlayerPosition) : Nat := p.yaw.toNat * 2 ^ 48 + p.pitch.toNat * 2 ^ 56

def raw (p : PlayerPosition) : Nat := p.rawCoordinate + p.rawOrientation

/-- `set_raw_coordinate`: each `int` is cut to 16 bits. -/
def setRawCoordinate (p : PlayerPosition) (x y z : Int) : PlayerPosition :=
  { p with x := BitVec.ofInt 16 x, y := BitVec.ofInt 16 y, z := BitVec.ofInt 16 z }

/-- `set_raw_orientation`: each `unsigned` is cut to 8 bits. -/
def setRawOrientation (p : PlayerPosition) (yaw pitch : Nat) : PlayerPosition :=
  { p with yaw := BitVec.ofNat 8 yaw, pitch := BitVec.ofNat 8 pitch }

/-- `operator-`: every field on its own, modulo its width. -/
def sub (p q : PlayerPosition) : PlayerPosition :=
  { x := p.x - q.x, y := p.y - q.y, z := p.z - q.z, yaw := p.yaw - q.yaw, pitch := p.pitch - q.pitch }

instance : Sub PlayerPosition := ⟨sub⟩

@[simp] theorem sub_x (p q : PlayerPosition) : (p - q).x = p.x - q.x := rfl

@[simp] theorem sub_y (p q : PlayerPosition) : (p - q).y = p.y - q.y := rfl

@[simp] theorem sub_z (p q : PlayerPosition) : (p - q).z = p.z - q.z := rfl

@[simp] theorem sub_yaw (p q : PlayerPosition) : (p - q).yaw = p.yaw - q.yaw := rfl

@[simp] theorem sub_pitch (p q : PlayerPosition) : (p - q).pitch = p.pitch - q.pitch := rfl

theorem rawCoordinate_eq_zero_iff (p : PlayerPosition) :
    p.rawCoordinate = 0 ↔ p.x = 0 ∧ p.y = 0 ∧ p.z = 0 := by
  simp only [rawCoordinate, ← BitVec.toNat_inj]
  simp only [BitVec.ofNat_eq_ofNat, BitVec.toNat_ofNat, Nat.zero_mod]
  omega

theorem rawOrientation_eq_zero_iff (p : PlayerPosition) :
    p.rawOrientation = 0 ↔ p.yaw = 0 ∧ p.pitch = 0 := by
  simp only [rawOrientation, ← BitVec.toNat_inj]
  simp only [BitVec.ofNat_eq_ofNat, BitVec.toNat_ofNat, Nat.zero_mod]
  omega

/-- `a - b` vanishes only where `a` and `b` agree. -/
theorem sub_rawCoordinate_eq_zero_iff (p q : PlayerPosition) :
    (p - q).rawCoordinate = 0 ↔ p.x = q.x ∧ p.y = q.y ∧ p.z = q.z := by
  simp only [rawCoordinate_eq_zero_iff, sub_x, sub_y, sub_z]
  simp only [BitVec.ofNat_eq_ofNat, BitVec.sub_eq_iff_eq_add, BitVec.zero_add]

theorem sub_rawOrientation_eq_zero_iff (p q : PlayerPosition) :
    (p - q).rawOrientation = 0 ↔ p.yaw = q.yaw ∧ p.pitch = q.pitch := by
  simp only [rawOrientation_eq_zero_iff, sub_yaw, sub_pitch]
  simp only [BitVec.ofNat_eq_ofNat, BitVec.sub_eq_iff_eq_add, BitVec.zero_add]

end PlayerPosition

end Mmocraft.Game
