/-!
# The fetch schedule of a line

Every rendered line fetches in groups of eight dots: four reads, each put on the bus in one
dot and completed in the next. Tiles are fetched while the line is drawn and, for the line
below, at its end; in between the eight object slots are fetched. The last dots put tile
addresses out for nothing.
-/

set_option autoImplicit false

namespace PictureUnit

/-- The dots of a group. -/
inductive Phase where
  | openName
  | name
  | openAttributes
  | attributes
  | openLow
  | low
  | openHigh
  | high
  deriving DecidableEq, Repr

def Phase.ofIndex (i : Nat) : Phase :=
  match i % 8 with
  | 0 => .openName
  | 1 => .name
  | 2 => .openAttributes
  | 3 => .attributes
  | 4 => .openLow
  | 5 => .low
  | 6 => .openHigh
  | _ => .high

inductive Fetch where
  | idle
  | tile (phase : Phase)
  | object (slot : Nat) (phase : Phase)
  | openUnused
  | unused
  deriving DecidableEq, Repr

/-- The first and the last dot of the object fetches. -/
def objectFetchStart : Nat := 257

def objectFetchEnd : Nat := 320

def objectSlot (dot : Nat) : Nat := (dot - objectFetchStart) / 8

def Fetch.ofDot (dot : Nat) : Fetch :=
  if dot = 0 then .idle
  else if dot ≤ 256 then .tile (.ofIndex (dot - 1))
  else if dot ≤ 320 then .object (objectSlot dot) (.ofIndex (dot - 257))
  else if dot ≤ 336 then .tile (.ofIndex (dot - 321))
  else if dot % 2 = 1 then .openUnused
  else .unused

end PictureUnit
