import PictureUnit.Circuit.Pixel
import PictureUnit.Circuit.Rendering

/-!
# One dot

The first dot of a line only tells the cartridge. The next dot of the pre-render line clears
the flags. A dot of a visible line draws its pixel before anything is fetched, so what is
fetched in a dot shows in a later one. The cartridge hears of the horizontal blank last.
-/

set_option autoImplicit false

namespace PictureUnit.Circuit

variable {κ : Type} [Cartridge κ]

def clearFlags (line : Line) (dot : Nat) (c : Circuit κ) : Circuit κ :=
  if line = .preRender ∧ dot = 1 then c.withStatus fun _ => .clear else c

/-- Columns follow the dots one later. -/
def drawDot (line : Line) (dot : Nat) (c : Circuit κ) : Circuit κ :=
  match line with
  | .preRender => c
  | .visible y => if dot ≤ screenWidth then c.drawPixel (dot - 1) y.val else c

/-- What happens in one dot of a line, at `cycle`. -/
def dot (line : Line) (dot cycle : Nat) (limit : SpriteLimit) (c : Circuit κ) : Circuit κ :=
  if dot = 0 then c.activeStart line
  else
    let c := (c.clearFlags line dot).drawDot line dot
    let c := if c.registers.mask.rendering then c.render line dot cycle limit else c
    if dot = objectFetchStart then c.blankStart line else c

end PictureUnit.Circuit
