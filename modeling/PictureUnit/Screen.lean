import PictureUnit.Overflow

/-!
# The screen

A frame is 240 lines of 256 colour indices, kept row after row. A column past the last one
reaches into the next row; only what lies outside the whole frame has no pixel. Places are looked up by
an index of sixty-four bits, so those too far away for one are refused.
-/

set_option autoImplicit false

namespace PictureUnit

abbrev screenWidth : Nat := 256

abbrev screenHeight : Nat := 240

abbrev screenSize : Nat := screenWidth * screenHeight

structure Screen where
  pixels : Vector UInt16 screenSize
  deriving DecidableEq

namespace Screen

def filled (color : UInt16) : Screen := ⟨Vector.replicate screenSize color⟩

def blank : Screen := filled 0

def pixel? (s : Screen) (x y : Nat) : Option UInt16 := s.pixels[y * screenWidth + x]?

def row? (s : Screen) (y : Nat) : Option (List UInt16) :=
  if y < screenHeight then
    some ((s.pixels.toArray.extract (y * screenWidth) ((y + 1) * screenWidth)).toList)
  else none

/-- The pixel of a place that has an index. -/
def pixelWithin (s : Screen) (x y : Nat) : Except Overflow (Option UInt16) := do
  let start ← productWithin largest64 y screenWidth
  let index ← sumWithin largest64 start x
  return s.pixels[index]?

/-- A row whose end has an index. -/
def rowWithin (s : Screen) (y : Nat) : Except Overflow (Option (List UInt16)) := do
  let _ ← productWithin largest64 (y + 1) screenWidth
  return s.row? y

def fill (color : UInt16) (_ : Screen) : Screen := filled color

def draw (s : Screen) (x y : Nat) (color : UInt16) : Screen :=
  ⟨s.pixels.setIfInBounds (y * screenWidth + x) color⟩

theorem pixelWithin_of_le (s : Screen) (x y : Nat) (h : y * screenWidth + x ≤ largest64) :
    s.pixelWithin x y = .ok (s.pixel? x y) := by
  rw [pixelWithin, productWithin_of_le (Nat.le_trans (Nat.le_add_right _ x) h)]
  change (do let index ← sumWithin largest64 (y * screenWidth) x; pure s.pixels[index]?) = _
  rw [sumWithin_of_le h]
  rfl

theorem rowWithin_of_le (s : Screen) (y : Nat) (h : (y + 1) * screenWidth ≤ largest64) :
    s.rowWithin y = .ok (s.row? y) := by
  rw [rowWithin, productWithin_of_le h]
  rfl

@[simp, grind =]
theorem pixel?_draw_same (s : Screen) (x y : Nat) (color : UInt16)
    (hx : x < screenWidth) (hy : y < screenHeight) :
    (s.draw x y color).pixel? x y = some color := by
  have : y * screenWidth + x < screenSize := by
    simp only [screenWidth, screenHeight, screenSize] at *
    omega
  simp [draw, pixel?, this]

@[simp, grind =]
theorem pixel?_draw_ne (s : Screen) (x y i j : Nat) (color : UInt16)
    (hx : x < screenWidth) (hi : i < screenWidth) (h : x ≠ i ∨ y ≠ j) :
    (s.draw x y color).pixel? i j = s.pixel? i j := by
  have : y * screenWidth + x ≠ j * screenWidth + i := by
    simp only [screenWidth] at *
    omega
  simp [draw, pixel?, this]

end Screen

end PictureUnit
