import PictureUnit.Block
import PictureUnit.Object

/-!
# Object strips

A strip is the row of one object on the line being drawn. While the object slots are fetched,
each used slot adds its strip to the list, in slot order. A column shows the first strip in
the list that is opaque there.
-/

set_option autoImplicit false

namespace PictureUnit

structure Strip where
  x : Nat
  palette : Nat
  row : PatternRow
  flipped : Bool
  behind : Bool
  zero : Bool
  deriving DecidableEq, Repr

namespace Strip

/-- The palette entry of a column of the strip, or zero where it is transparent. -/
def pixel (s : Strip) (column : Nat) : Nat :=
  let color := s.row.color (if s.flipped then 7 - column else column)
  if color = 0 then 0 else 16 + s.palette * 4 + color

def at? (s : Strip) (x : Nat) : Option Nat :=
  if s.x ≤ x ∧ x < s.x + 8 then
    let value := s.pixel (x - s.x)
    if value = 0 then none else some value
  else none

end Strip

/-- An opaque object pixel. -/
structure ObjectPixel where
  value : Nat
  behind : Bool
  zero : Bool
  deriving DecidableEq, Repr

/-- The strips of the line being drawn and the slot being fetched for the next. -/
structure Strips where
  list : List Strip
  pending : Nat
  zeroInRange : Bool
  object : Object
  low : UInt8
  deriving DecidableEq, Repr

namespace Strips

def empty : Strips := ⟨[], 0, false, .unused, 0⟩

/-- Drops the drawn line's strips and expects `pending` objects. -/
def prepare (pending : Nat) (zeroInRange : Bool) (s : Strips) : Strips :=
  { s with list := [], pending := pending, zeroInRange := zeroInRange }

def objectIn (memory : Block 256) (slot : Nat) : Object where
  y := memory.load (slot * 4)
  tile := memory.load (slot * 4 + 1)
  attributes := memory.load (slot * 4 + 2)
  x := memory.load (slot * 4 + 3)

/-- Latches the object in `slot`, or the unused one when fewer are pending. -/
def select (slot : Nat) (memory : Block 256) (s : Strips) : Strips :=
  { s with object := if slot < s.pending then objectIn memory slot else .unused }

def latchLow (byte : UInt8) (s : Strips) : Strips := { s with low := byte }

def strip (slot : Nat) (high : UInt8) (s : Strips) : Strip where
  x := s.object.x.toNat
  palette := s.object.palette
  row := ⟨s.low, high⟩
  flipped := s.object.flippedAcross
  behind := s.object.behind
  zero := slot == 0 && s.zeroInRange

/-- Adds the strip of a pending slot once its high plane has arrived. -/
def commit (slot : Nat) (high : UInt8) (s : Strips) : Strips :=
  if slot < s.pending ∧ s.list.length < objectCount then
    { s with list := s.list ++ [s.strip slot high] }
  else s

def pixelOf (x : Nat) (strip : Strip) : Option ObjectPixel :=
  (strip.at? x).map fun value => ⟨value, strip.behind, strip.zero⟩

def pixel? (s : Strips) (x : Nat) : Option ObjectPixel := s.list.findSome? (pixelOf x)

theorem commit_of_pending_le (slot : Nat) (high : UInt8) (s : Strips) (h : s.pending ≤ slot) :
    s.commit slot high = s := by
  simp [commit, show ¬ slot < s.pending by omega]

end Strips

end PictureUnit
