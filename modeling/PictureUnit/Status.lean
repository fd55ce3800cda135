/-!
# The status flags

Three flags fill the top of the status byte. The five bits below them are not stored; a read
takes them from whatever was last on the data lines.
-/

set_option autoImplicit false

namespace PictureUnit

structure Status where
  overflow : Bool
  zeroHit : Bool
  vblank : Bool
  deriving DecidableEq, Repr

namespace Status

def clear : Status := ⟨false, false, false⟩

def bits (s : Status) : UInt8 :=
  UInt8.ofNat (s.vblank.toNat * 0x80 + s.zeroHit.toNat * 0x40 + s.overflow.toNat * 0x20)

def ofBits (b : UInt8) : Status where
  overflow := b.toNat.testBit 5
  zeroHit := b.toNat.testBit 6
  vblank := b.toNat.testBit 7

/-- The flags over the low bits of `lines`. -/
def readOver (s : Status) (lines : UInt8) : UInt8 := s.bits ||| (lines &&& 0x1F)

theorem ofBits_bits (s : Status) : ofBits s.bits = s := by
  obtain ⟨_ | _, _ | _, _ | _⟩ := s <;> decide

end Status

end PictureUnit
