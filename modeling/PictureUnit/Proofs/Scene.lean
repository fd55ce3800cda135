import Mathlib.Logic.Function.Iterate
import PictureUnit.Circuit.Pixel
import PictureUnit.Machine

/-!
# The scene and its picture

A scene is what the picture of a frame depends on. Its background is one wide row of tiles for every
line, which goes round through the nametable beside it; the row is reached from the scroll position
by as many steps down. In front of it, or behind it, stand the first objects that the line may
show. Every pixel is the palette entry of what is in front and not transparent.
-/

set_option autoImplicit false

namespace PictureUnit

structure Scene where
  control : Control
  mask : Mask
  /-- The scroll position of the first pixel, and its column inside the tile. -/
  origin : Scroll.Address
  fineX : Fin 8
  objects : Block 256
  entries : Block paletteSize
  map : Option ColorMap
  banks : Banks
  limit : SpriteLimit

def Circuit.scene {κ : Type} (limit : SpriteLimit) (c : Circuit κ) : Scene where
  control := c.registers.control
  mask := c.registers.mask
  origin := c.registers.scroll.pending
  fineX := c.registers.scroll.fineX
  objects := c.objects
  entries := c.palette.entries
  map := c.palette.map
  banks := c.banks
  limit := limit

def Machine.scene {κ : Type} (m : Machine κ) : Scene := m.circuit.scene m.config.limit

namespace Scene

def name (s : Scene) (address : Nat) : UInt8 := s.banks.load (s.banks.nameCell address)

def pattern (s : Scene) (address : Nat) : UInt8 := s.banks.load (s.banks.patternCell address)

/-- The pattern row whose low plane is at an address. -/
def patternRow (s : Scene) (address : Nat) : PatternRow := ⟨s.pattern address, s.pattern (address + 8)⟩

/-- The scroll position at the left of a line. -/
def row (s : Scene) (y : Nat) : Scroll.Address := Scroll.Address.down^[y] s.origin

/-- How far right a column lies in the row, from the left of the left nametables. -/
def across (s : Scene) (x : Nat) : Nat :=
  (s.origin.tableX.val * 32 + s.origin.coarseX.val) * 8 + s.fineX.val + x

/-- The position of the tile that covers a pixel. -/
def tileOf (s : Scene) (x y : Nat) : Scroll.Address :=
  { s.row y with
    coarseX := Scroll.Address.coarse (s.across x / 8)
    tableX := Scroll.Address.table (s.across x / 256) }

/-- The address of a tile's row. -/
def tileRow (s : Scene) (tile : Scroll.Address) : Nat :=
  s.control.backgroundTable + (s.name tile.tileAddress).toNat * 16 + tile.fineY.val

def tilePalette (s : Scene) (tile : Scroll.Address) : Nat :=
  ((s.name tile.attributeAddress).toNat >>> tile.attributeShift) % 4

/-- Whether a bit of the mask byte is set, and another one for the left columns. -/
def shows (s : Scene) (bit left x : Nat) : Prop :=
  s.mask.bits.toNat.testBit bit = true ∧ (x < 8 → s.mask.bits.toNat.testBit left = true)

instance (s : Scene) (bit left x : Nat) : Decidable (s.shows bit left x) := by
  unfold shows
  infer_instance

/-- The background's palette entry, zero where it is hidden or transparent. -/
def background (s : Scene) (x y : Nat) : Nat :=
  let color := (s.patternRow (s.tileRow (s.tileOf x y))).color (s.across x % 8)
  if s.shows 3 1 x ∧ color ≠ 0 then s.tilePalette (s.tileOf x y) * 4 + color else 0

def object (s : Scene) (k : Nat) : Object := Strips.objectIn s.objects k

/-- The objects that a line shows; they are those in range of the line before. -/
def shown (s : Scene) : Nat → List Nat
  | 0 => []
  | y + 1 => ((List.range objectCount).filter fun k =>
      inRange y s.control.objectHeight (s.object k).y).take s.limit.perLine

/-- The address of a row of an object, counted from the top of its pattern. -/
def objectRow (s : Scene) (o : Object) (row : Nat) : Nat :=
  if s.control.objectHeight = 16 then
    Control.patternTable (o.tile.toNat.testBit 0) + (o.tile.toNat / 2 * 2 + row / 8) * 16 + row % 8
  else s.control.objectTable + o.tile.toNat * 16 + row

/-- The palette entry of an object that covers a pixel and is not transparent there, and whether it
stands behind the background. -/
def objectDot? (s : Scene) (x y k : Nat) : Option (Nat × Bool) :=
  let o := s.object k
  let down := y - 1 - o.y.toNat
  let row := if o.flippedDown then s.control.objectHeight - 1 - down else down
  let column := if o.flippedAcross then 7 - (x - o.x.toNat) else x - o.x.toNat
  let color := (s.patternRow (s.objectRow o row)).color column
  if o.x.toNat ≤ x ∧ x < o.x.toNat + 8 ∧ color ≠ 0 then
    some (16 + o.palette * 4 + color, o.behind)
  else none

/-- The first object that is not transparent at a pixel. -/
def front? (s : Scene) (x y : Nat) : Option (Nat × Bool) :=
  if s.shows 4 2 x then (s.shown y).findSome? (s.objectDot? x y) else none

/-- The palette entry of a pixel. -/
def entry (s : Scene) (x y : Nat) : Nat :=
  match s.front? x y with
  | none => s.background x y
  | some (value, behind) => if behind ∧ s.background x y ≠ 0 then s.background x y else value

/-- The colour that stands for a palette entry. -/
def color (s : Scene) (entry : Nat) : UInt16 :=
  let color := s.entries.load (Palette.fold entry)
  let color := (s.map.map fun map => map.load (color.toNat % 64)).getD color
  (color &&& s.mask.coloring).toUInt16 ||| s.mask.emphasis

end Scene

end PictureUnit
