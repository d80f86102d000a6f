/-
# Mmocraft.Util.Math -- coordinates of three shorts

`util::Coordinate3D`: its constructor takes integers and keeps the low sixteen bits of each.
-/
import Mathlib.Tactic.Common

namespace Mmocraft.Util

/-- `util::Coordinate3D`, of three `short`s. -/
structure Coordinate3D where
  x : BitVec 16
  y : BitVec 16
  z : BitVec 16
  deriving DecidableEq, Repr

namespace Coordinate3D

/-- The constructor: each argument is converted to `Coordinate`. -/
def new (x y z : Int) : Coordinate3D :=
  { x := BitVec.ofInt 16 x, y := BitVec.ofInt 16 y, z := BitVec.ofInt 16 z }

end Coordinate3D

end Mmocraft.Util
