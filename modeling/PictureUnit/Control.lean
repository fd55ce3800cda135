/-!
# The control byte

It selects the nametable, the step of the data register, the pattern tables, the height of
objects, and whether vertical blank interrupts the processor.
-/

set_option autoImplicit false

namespace PictureUnit

structure Control where
  bits : UInt8
  deriving DecidableEq, Repr

namespace Control

def nametable (c : Control) : Nat := c.bits.toNat % 4

/-- What the data register adds to the address: one byte across or one row down. -/
def increment (c : Control) : Nat := if c.bits.toNat.testBit 2 then 32 else 1

def patternTable (second : Bool) : Nat := if second then 0x1000 else 0

def objectTable (c : Control) : Nat := patternTable (c.bits.toNat.testBit 3)

def backgroundTable (c : Control) : Nat := patternTable (c.bits.toNat.testBit 4)

def objectHeight (c : Control) : Nat := if c.bits.toNat.testBit 5 then 16 else 8

def interrupts (c : Control) : Bool := c.bits.toNat.testBit 7

theorem objectHeight_eq (c : Control) : c.objectHeight = 8 ∨ c.objectHeight = 16 := by
  unfold objectHeight
  split <;> simp

end Control

end PictureUnit
