import PictureUnit.Text.Quoted

/-!
# Memories of a fixed size

A block holds exactly `size` bytes. It is read and written through indices that may lie
outside: such a read gives zero and such a write does nothing. A block is built from bytes,
or from integers that have to fit into bytes, only when their number is right, and never
from a text.
-/

set_option autoImplicit false

namespace PictureUnit

abbrev Block (size : Nat) := Vector UInt8 size

namespace Block

variable {size : Nat}

def filled (size : Nat) (value : UInt8) : Block size := Vector.replicate size value

def load (b : Block size) (i : Nat) : UInt8 := b[i]?.getD 0

def store (b : Block size) (i : Nat) (value : UInt8) : Block size := b.setIfInBounds i value

@[simp, grind =]
theorem load_filled (value : UInt8) (i : Nat) (h : i < size) :
    (filled size value).load i = value := by
  simp [filled, load, h]

@[simp, grind =]
theorem load_store_same (b : Block size) (i : Nat) (value : UInt8) (h : i < size) :
    (b.store i value).load i = value := by
  simp [load, store, h]

@[simp, grind =]
theorem load_store_ne (b : Block size) (i j : Nat) (value : UInt8) (h : i ≠ j) :
    (b.store i value).load j = b.load j := by
  simp [load, store, h]

/-- The block made of exactly these bytes. -/
def ofBytes? (bytes : List UInt8) : Option (Block size) :=
  if h : bytes.length = size then some ⟨bytes.toArray, by simp [h]⟩ else none

theorem ofBytes?_toList (b : Block size) : ofBytes? b.toList = some b := by
  simp [ofBytes?, Vector.toList]

theorem toList_of_ofBytes? {bytes : List UInt8} {b : Block size}
    (h : ofBytes? bytes = some b) : b.toList = bytes := by
  unfold ofBytes? at h
  split at h
  · cases h
    simp
  · cases h

theorem ofBytes?_isSome (bytes : List UInt8) :
    (ofBytes? bytes : Option (Block size)).isSome = decide (bytes.length = size) := by
  unfold ofBytes?
  split <;> simp [*]

/-- Why some input is no block of the expected size. -/
inductive Refusal where
  | length (found : Nat)
  | item (value : Int)
  | text (quoted : String)
  deriving DecidableEq, Repr

def Refusal.message (size : Nat) : Refusal → String
  | .length found => s!"invalid length {found}, expected {size} bytes"
  | .item value => s!"invalid value: integer `{value}`, expected u8"
  | .text quoted => s!"invalid type: string {quoted}, expected {size} bytes"

def ofBytes (bytes : List UInt8) : Except Refusal (Block size) :=
  match ofBytes? bytes with
  | some b => .ok b
  | none => .error (.length bytes.length)

def byte (value : Int) : Except Refusal UInt8 :=
  if 0 ≤ value ∧ value < 256 then .ok (UInt8.ofNat value.toNat) else .error (.item value)

/-- At most one item past the end is looked at, to tell that there are too many. -/
def ofItems (items : List Int) : Except Refusal (Block size) := do
  ofBytes (← (items.take (size + 1)).mapM byte)

/-- A text is refused with what it says. -/
def ofText (text : String) : Except Refusal (Block size) := .error (.text (Text.quote text))

end Block

end PictureUnit
