/-!
# Pattern rows

A row of eight pixels is kept as two planes of one bit each. The leftmost pixel is the top
bit of both planes.
-/

set_option autoImplicit false

namespace PictureUnit

structure PatternRow where
  low : UInt8
  high : UInt8
  deriving DecidableEq, Repr

namespace PatternRow

def empty : PatternRow := ⟨0, 0⟩

def plane (b : UInt8) (column : Nat) : Nat := (b.toNat.testBit (7 - column)).toNat

/-- Colour number of a column, from zero for transparent to three. -/
def color (r : PatternRow) (column : Nat) : Nat := plane r.low column + 2 * plane r.high column

theorem color_lt (r : PatternRow) (column : Nat) : r.color column < 4 := by
  have (b : Bool) : b.toNat < 2 := Bool.toNat_lt b
  have := this (r.low.toNat.testBit (7 - column))
  have := Bool.toNat_lt (r.high.toNat.testBit (7 - column))
  simp only [color, plane]
  omega

end PatternRow

/-- The address of the same row in the plane above. -/
def highPlane (address : Nat) : Nat := if address / 8 % 2 = 0 then address + 8 else address

end PictureUnit
