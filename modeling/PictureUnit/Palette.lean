import PictureUnit.Block
import PictureUnit.Mask
import PictureUnit.Wrap

/-!
# The palette

Thirty-two entries of six bits. The four entries an object colour of zero would use are the
background entries below them. Beside the entries the palette keeps the index it draws for
each: the entry through the colour map, reduced to greys and joined with the emphasis bits.
-/

set_option autoImplicit false

namespace PictureUnit

abbrev paletteSize : Nat := 32

def paletteBase : Nat := 0x3F00

abbrev ColorMap := Block 64

structure Palette where
  entries : Block paletteSize
  drawn : Vector UInt16 paletteSize
  coloring : UInt8
  emphasis : UInt16
  map : Option ColorMap
  deriving DecidableEq

namespace Palette

/-- Entries 16, 20, 24 and 28 are entries 0, 4, 8 and 12. -/
def fold (i : Nat) : Nat :=
  let i := i % paletteSize
  if 16 ≤ i ∧ i % 4 = 0 then i - 16 else i

/-- The index drawn for entry `i`. -/
def resolve (p : Palette) (i : Nat) : UInt16 :=
  let entry := p.entries.load (fold i)
  let color := match p.map with
    | some map => map.load (entry.toNat % 64)
    | none => entry
  (color &&& p.coloring).toUInt16 ||| p.emphasis

def refresh (i : Nat) (p : Palette) : Palette :=
  { p with drawn := p.drawn.setIfInBounds i (p.resolve i) }

def refreshAll (p : Palette) : Palette :=
  { p with drawn := .ofFn fun i => p.resolve i.val }

def read (p : Palette) (address : Nat) : UInt8 := p.entries.load (fold address) &&& p.coloring

def write (address : Nat) (value : UInt8) (p : Palette) : Palette :=
  let i := fold address
  let p := refresh i { p with entries := p.entries.store i (value &&& 0x3F) }
  if i % 4 = 0 then p.refresh (i + 16) else p

def setMask (m : Mask) (p : Palette) : Palette :=
  if p.coloring = m.coloring ∧ p.emphasis = m.emphasis then p
  else refreshAll { p with coloring := m.coloring, emphasis := m.emphasis }

def setMap (map : Option ColorMap) (p : Palette) : Palette := refreshAll { p with map := map }

def load (bytes : Block paletteSize) (p : Palette) : Palette :=
  refreshAll { p with entries := bytes.map (· &&& 0x3F) }

def output (p : Palette) (i : Nat) : UInt16 := p.drawn.get (wrap paletteSize i)

/-- What the entries hold when the chip is switched on. -/
def powerUp : Block paletteSize :=
  #v[0x09, 0x01, 0x00, 0x01, 0x00, 0x02, 0x02, 0x0D, 0x08, 0x10, 0x08, 0x24, 0x00, 0x00, 0x04, 0x2C,
    0x09, 0x01, 0x34, 0x03, 0x00, 0x04, 0x00, 0x14, 0x08, 0x3A, 0x00, 0x02, 0x00, 0x20, 0x2C, 0x08]

def new : Palette :=
  load powerUp ⟨.filled paletteSize 0, Vector.replicate paletteSize 0, 0x3F, 0, none⟩

/-- Every drawn index is the one its entry stands for. -/
def Coherent (p : Palette) : Prop := ∀ i < paletteSize, p.drawn[i]? = some (p.resolve i)

theorem fold_lt (i : Nat) : fold i < paletteSize := by
  have : i % paletteSize < paletteSize := Nat.mod_lt _ (by decide)
  unfold fold
  simp only
  split <;> omega

theorem fold_fold (i : Nat) : fold (fold i) = fold i := by
  have := fold_lt i
  by_cases h : 16 ≤ i % 32 ∧ i % 32 % 4 = 0 <;> simp only [fold, h] <;> grind

theorem refreshAll_coherent (p : Palette) : p.refreshAll.Coherent := by
  intro i h
  simp [refreshAll, h, resolve]

theorem new_coherent : new.Coherent := refreshAll_coherent _

end Palette

end PictureUnit
