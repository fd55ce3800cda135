import PictureUnit.Circuit

/-!
# Drawing a pixel

While the chip renders, a pixel is the background's or an object's, whichever is in front and
opaque. An opaque object pixel of the first object over an opaque background pixel is a hit,
except in the last column. While it does not render, the chip draws the backdrop, or the
palette entry that the current address points at.
-/

set_option autoImplicit false

namespace PictureUnit

/-- The palette entry shown where a background entry and an object pixel meet. -/
def blend (background : Nat) : Option ObjectPixel → Nat
  | none => background
  | some o => if o.behind ∧ background ≠ 0 then background else o.value

def touches (x background : Nat) : Option ObjectPixel → Bool
  | none => false
  | some o => o.zero && background != 0 && x != 255

namespace Circuit

variable {κ : Type}

/-- The background's palette entry at a column, zero where it is hidden or transparent. -/
def backgroundEntry (x : Nat) (c : Circuit κ) : Nat :=
  if c.visibility.showsBackground x then
    let entry := c.background.pixel x c.registers.scroll.fineX.val
    if entry % 4 = 0 then 0 else entry
  else 0

def objectPixel? (x : Nat) (c : Circuit κ) : Option ObjectPixel :=
  if c.visibility.showsObjects x then c.strips.pixel? x else none

def backdropEntry (c : Circuit κ) : Nat :=
  let address := c.registers.scroll.current.bus
  if paletteBase ≤ address then address % paletteSize else 0

def draw (x y entry : Nat) (c : Circuit κ) : Circuit κ :=
  { c with screen := c.screen.draw x y (c.palette.output entry) }

def drawRendered (x y : Nat) (c : Circuit κ) : Circuit κ :=
  let background := c.backgroundEntry x
  let object := c.objectPixel? x
  let c := c.draw x y (blend background object)
  if touches x background object then c.withStatus fun s => { s with zeroHit := true } else c

def drawPixel (x y : Nat) (c : Circuit κ) : Circuit κ :=
  if c.registers.mask.rendering then c.drawRendered x y else c.draw x y c.backdropEntry

end Circuit

end PictureUnit
