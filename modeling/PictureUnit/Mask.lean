/-!
# The mask byte

It switches the two layers on and off, for the whole line and for its left eight columns,
reduces colours to greys, and emphasises colour channels.
-/

set_option autoImplicit false

namespace PictureUnit

/-- Which layers a column shows. -/
structure Visibility where
  background : Bool
  backgroundLeft : Bool
  objects : Bool
  objectsLeft : Bool
  deriving DecidableEq, Repr

namespace Visibility

def showsBackground (v : Visibility) (x : Nat) : Bool :=
  if x < 8 then v.backgroundLeft else v.background

def showsObjects (v : Visibility) (x : Nat) : Bool :=
  if x < 8 then v.objectsLeft else v.objects

end Visibility

structure Mask where
  bits : UInt8
  deriving DecidableEq, Repr

namespace Mask

def greys (m : Mask) : Bool := m.bits.toNat.testBit 0

def background (m : Mask) : Bool := m.bits.toNat.testBit 3

def objects (m : Mask) : Bool := m.bits.toNat.testBit 4

def rendering (m : Mask) : Bool := m.background || m.objects

/-- The colour bits that remain. -/
def coloring (m : Mask) : UInt8 := if m.greys then 0x30 else 0x3F

/-- The emphasis bits at their place above the colour. -/
def emphasis (m : Mask) : UInt16 := UInt16.ofNat (m.bits.toNat / 32 * 64)

/-- The left columns show a layer only if the rest of the line does. -/
def visibility (m : Mask) : Visibility where
  background := m.background
  backgroundLeft := m.background && m.bits.toNat.testBit 1
  objects := m.objects
  objectsLeft := m.objects && m.bits.toNat.testBit 2

/-- A column shows a layer if it is on, and its left part is on where the column lies there. -/
@[simp]
theorem showsBackground_iff (m : Mask) (x : Nat) : m.visibility.showsBackground x = true
    ↔ m.bits.toNat.testBit 3 = true ∧ (x < 8 → m.bits.toNat.testBit 1 = true) := by
  unfold Visibility.showsBackground visibility background
  dsimp only
  split
  · next left => simp [left]
  · next right => simp [right]

@[simp]
theorem showsObjects_iff (m : Mask) (x : Nat) : m.visibility.showsObjects x = true
    ↔ m.bits.toNat.testBit 4 = true ∧ (x < 8 → m.bits.toNat.testBit 2 = true) := by
  unfold Visibility.showsObjects visibility objects
  dsimp only
  split
  · next left => simp [left]
  · next right => simp [right]

end Mask

end PictureUnit
