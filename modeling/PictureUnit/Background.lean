import PictureUnit.Pattern

/-!
# The background pipeline

While one tile is fetched, two decoded tiles are kept. The tile fetched in one group of eight
dots is drawn two groups later, so the two kept tiles take turns: together they are sixteen
pixels, and a column reads the pixel at its number plus the fine scroll, modulo sixteen.
-/

set_option autoImplicit false

namespace PictureUnit

/-- A decoded tile row and its palette. -/
structure Tile where
  palette : Nat
  row : PatternRow
  deriving DecidableEq, Repr

def Tile.empty : Tile := ⟨0, .empty⟩

/-- The palette entry a column shows, before transparency counts. -/
def Tile.pixel (t : Tile) (column : Nat) : Nat := t.palette * 4 + t.row.color column

structure Background where
  name : UInt8
  palette : Nat
  row : PatternRow
  even : Tile
  odd : Tile
  deriving DecidableEq, Repr

namespace Background

def empty : Background := ⟨0, 0, .empty, .empty, .empty⟩

def latchName (name : UInt8) (b : Background) : Background := { b with name := name }

/-- Picks two bits of an attribute byte. -/
def latchAttribute (byte : UInt8) (shift : Nat) (b : Background) : Background :=
  { b with palette := (byte.toNat >>> shift) % 4 }

def latchLow (byte : UInt8) (b : Background) : Background :=
  { b with row := { b.row with low := byte } }

def latchHigh (byte : UInt8) (b : Background) : Background :=
  { b with row := { b.row with high := byte } }

/-- The address of the latched tile's low plane. -/
def lowAddress (table fineY : Nat) (b : Background) : Nat := table + b.name.toNat * 16 + fineY

/-- Keeps the latched tile in the half that the group ending at `dot` owns. -/
def keep (dot : Nat) (b : Background) : Background :=
  if dot / 8 % 2 = 1 then { b with even := ⟨b.palette, b.row⟩ }
  else { b with odd := ⟨b.palette, b.row⟩ }

def pixel (b : Background) (x fineX : Nat) : Nat :=
  let place := (x + fineX) % 16
  if place < 8 then b.even.pixel place else b.odd.pixel (place - 8)

end Background

end PictureUnit
