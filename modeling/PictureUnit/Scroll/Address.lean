import PictureUnit.Overflow
import PictureUnit.Text.Hex
import PictureUnit.Wrap

/-!
# Scroll addresses

A video memory address is also a scroll position: a tile column and row inside one of four
nametables laid out two by two, and a pixel row inside the tile. The fifteen bits of the raw
value are these fields from the lowest up. Stepping right or down crosses into the adjacent
nametable; a row past the visible thirty wraps where it is.
-/

set_option autoImplicit false

namespace PictureUnit.Scroll

structure Address where
  coarseX : Fin 32
  coarseY : Fin 32
  tableX : Fin 2
  tableY : Fin 2
  fineY : Fin 8
  deriving DecidableEq, Repr

namespace Address

def coarse (n : Nat) : Fin 32 := wrap 32 n

def table (n : Nat) : Fin 2 := wrap 2 n

def fine (n : Nat) : Fin 8 := wrap 8 n

def nametable (a : Address) : Nat := a.tableY.val * 2 + a.tableX.val

def raw (a : Address) : Nat :=
  a.fineY.val * 0x1000 + a.nametable * 0x400 + a.coarseY.val * 0x20 + a.coarseX.val

def ofRaw (n : Nat) : Address where
  coarseX := coarse n
  coarseY := coarse (n / 0x20)
  tableX := table (n / 0x400)
  tableY := table (n / 0x800)
  fineY := fine (n / 0x1000)

theorem nametable_lt (a : Address) : a.nametable < 4 := by
  unfold nametable
  omega

theorem raw_lt (a : Address) : a.raw < 0x8000 := by
  have := a.nametable_lt
  unfold raw
  omega

theorem raw_ofRaw (n : Nat) : (ofRaw n).raw = n % 0x8000 := by
  simp only [ofRaw, raw, nametable, coarse, table, fine, wrap]
  omega

theorem ofRaw_raw (a : Address) : ofRaw a.raw = a := by
  obtain ⟨cx, cy, tx, ty, fy⟩ := a
  simp only [ofRaw, raw, nametable, coarse, table, fine, wrap, Address.mk.injEq, Fin.ext_iff]
  omega

def withCoarseX (n : Nat) (a : Address) : Address := { a with coarseX := coarse n }

def withCoarseY (n : Nat) (a : Address) : Address := { a with coarseY := coarse n }

def withFineY (n : Nat) (a : Address) : Address := { a with fineY := fine n }

def withNametable (n : Nat) (a : Address) : Address :=
  { a with tableX := table n, tableY := table (n / 2) }

/-- The fourteen bits that reach the bus. -/
def bus (a : Address) : Nat := a.raw % 0x4000

/-- Where the name of the tile at this position is kept. -/
def tileAddress (a : Address) : Nat := 0x2000 + a.raw % 0x1000

/-- Where the palette choice of the tile's four by four group is kept. -/
def attributeAddress (a : Address) : Nat :=
  0x2000 + a.nametable * 0x400 + 0x3C0 + a.coarseY.val / 4 * 8 + a.coarseX.val / 4

/-- The lowest bit of the tile's two bits in its attribute byte. -/
def attributeShift (a : Address) : Nat := a.coarseY.val / 2 % 2 * 4 + a.coarseX.val / 2 % 2 * 2

/-- Adds to all fifteen bits; only bus accesses drop the fifteenth. -/
def advance (n : Nat) (a : Address) : Address := ofRaw (a.raw + n)

/-- Adds to all fifteen bits, if sixteen hold the sum. -/
def advanceWithin (n : Nat) (a : Address) : Except Overflow Address :=
  (sumWithin largest16 a.raw n).map ofRaw

/-- The next tile to the right, in the next nametable after the last column. -/
def right (a : Address) : Address :=
  { a with
    coarseX := coarse (a.coarseX.val + 1)
    tableX := if a.coarseX.val = 31 then table (a.tableX.val + 1) else a.tableX }

/-- The next pixel row, in the nametable below after row 29 but not after row 31. -/
def down (a : Address) : Address :=
  if a.fineY.val < 7 then a.withFineY (a.fineY.val + 1)
  else if a.coarseY.val = 29 then
    { (a.withFineY 0).withCoarseY 0 with tableY := table (a.tableY.val + 1) }
  else (a.withFineY 0).withCoarseY (a.coarseY.val + 1)

def takeHorizontal (source a : Address) : Address :=
  { a with coarseX := source.coarseX, tableX := source.tableX }

def takeVertical (source a : Address) : Address :=
  { a with coarseY := source.coarseY, tableY := source.tableY, fineY := source.fineY }

theorem bus_lt (a : Address) : a.bus < 0x4000 := Nat.mod_lt _ (by decide)

theorem raw_advance (n : Nat) (a : Address) : (a.advance n).raw = (a.raw + n) % 0x8000 :=
  raw_ofRaw _

theorem advanceWithin_eq_ok_iff {n : Nat} {a b : Address} :
    a.advanceWithin n = .ok b ↔ a.raw + n ≤ largest16 ∧ b = a.advance n := by
  unfold advanceWithin advance sumWithin
  by_cases h : a.raw + n ≤ largest16 <;> simp [h, Except.map, eq_comm]

theorem takeVertical_takeHorizontal (source a : Address) :
    takeVertical source (takeHorizontal source a) = source := rfl

def summary (a : Address) : String :=
  s!"raw={Text.word a.raw} fy={a.fineY.val} nt={a.nametable} cy={a.coarseY.val} cx={a.coarseX.val}"

def description (a : Address) : String :=
  "VramAddr \x7b raw: " ++ Text.word a.raw ++ s!", fine_y: {a.fineY.val}"
    ++ s!", nametable: {a.nametable}, coarse_y: {a.coarseY.val}, coarse_x: {a.coarseX.val} " ++ "\x7d"

end Address

end PictureUnit.Scroll
