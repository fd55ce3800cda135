import PictureUnit.Clock
import PictureUnit.Pattern
import PictureUnit.Control

/-!
# Objects

An object is four bytes: its line, its tile, its attributes and its column. It is in range of
a line when the line lies among the object's rows. Tall objects choose the pattern table by
the lowest bit of their tile number and continue in the tile after it.
-/

set_option autoImplicit false

namespace PictureUnit

structure Object where
  y : UInt8
  tile : UInt8
  attributes : UInt8
  x : UInt8
  deriving DecidableEq, Repr

/-- Whether the object starting at `y` covers `line`. -/
def inRange (line height : Nat) (y : UInt8) : Bool := y.toNat ≤ line && line < y.toNat + height

/-- The line is one of the object's rows, counted from its top. -/
@[simp]
theorem inRange_iff {line height : Nat} {y : UInt8} :
    inRange line height y = true ↔ y.toNat ≤ line ∧ line - y.toNat < height := by
  rw [inRange, Bool.and_eq_true, decide_eq_true_eq, decide_eq_true_eq]
  omega

namespace Object

/-- What an unused slot holds after the memory was cleared. -/
def unused : Object := ⟨0xFF, 0xFF, 0xFF, 0xFF⟩

/-- The attribute bits that exist in object memory. -/
def storedAttributes : UInt8 := 0xE3

def palette (o : Object) : Nat := o.attributes.toNat % 4

def behind (o : Object) : Bool := o.attributes.toNat.testBit 5

def flippedAcross (o : Object) : Bool := o.attributes.toNat.testBit 6

def flippedDown (o : Object) : Bool := o.attributes.toNat.testBit 7

/-- The row of the pattern that `line` shows, counted from the top of the pattern. -/
def row (o : Object) (line : Line) (height : Nat) : Nat :=
  let row := (line.byte + 256 - o.y.toNat) % height
  if o.flippedDown then height - 1 - row else row

/-- The address of the row's low plane. -/
def lowAddress (o : Object) (line : Line) (c : Control) : Nat :=
  let row := o.row line c.objectHeight
  if c.objectHeight = 16 then
    Control.patternTable (o.tile.toNat.testBit 0) + (o.tile.toNat / 2 * 2 + row / 8) * 16 + row % 8
  else c.objectTable + o.tile.toNat * 16 + row % 8

end Object

end PictureUnit
