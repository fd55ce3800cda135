import PictureUnit.Scroll.Address

/-!
# The scroll latch

Two addresses share one write toggle. The scroll and address registers fill the pending address
in two halves, and the second half of an address write makes it current. The three lowest
bits of the first scroll write are kept aside as the pixel column inside a tile.
-/

set_option autoImplicit false

namespace PictureUnit.Scroll

structure Latch where
  current : Address
  pending : Address
  fineX : Fin 8
  second : Bool
  deriving DecidableEq, Repr

namespace Latch

def cleared : Latch := ⟨.ofRaw 0, .ofRaw 0, Address.fine 0, false⟩

def selectNametable (value : UInt8) (l : Latch) : Latch :=
  { l with pending := l.pending.withNametable value.toNat }

def writeScroll (value : UInt8) (l : Latch) : Latch :=
  if l.second then
    { l with
      pending := (l.pending.withCoarseY (value.toNat / 8)).withFineY value.toNat
      second := false }
  else
    { l with
      pending := l.pending.withCoarseX (value.toNat / 8)
      fineX := Address.fine value.toNat
      second := true }

/-- The first write sets six bits and clears the one above them. -/
def writeAddress (value : UInt8) (l : Latch) : Latch :=
  if l.second then
    let whole := Address.ofRaw (l.pending.raw / 0x100 * 0x100 + value.toNat)
    { l with pending := whole, current := whole, second := false }
  else
    { l with
      pending := .ofRaw (value.toNat % 0x40 * 0x100 + l.pending.raw % 0x100)
      second := true }

/-- The next write is the first of its pair again. -/
def rewind (l : Latch) : Latch := { l with second := false }

theorem writeAddress_current (value : UInt8) (l : Latch) (h : l.second = true) :
    (l.writeAddress value).current = (l.writeAddress value).pending := by
  simp [writeAddress, h]

theorem writeScroll_second (value : UInt8) (l : Latch) :
    (l.writeScroll value).second = !l.second := by
  cases h : l.second <;> simp [writeScroll, h]

theorem writeAddress_second (value : UInt8) (l : Latch) :
    (l.writeAddress value).second = !l.second := by
  cases h : l.second <;> simp [writeAddress, h]

end Latch

end PictureUnit.Scroll
