import PictureUnit.Circuit
import PictureUnit.Fetch

/-!
# A rendered dot

While the chip renders, every dot searches object memory, fetches, and moves the current
address: one tile to the right after each tile, one row down at the end of the visible part,
back to the left edge when the object fetches begin, and to the top during the pre-render line.
Objects past the eighth are fetched together in the last dot of the object fetches.
-/

set_option autoImplicit false

namespace PictureUnit.Circuit

variable {κ : Type} [Cartridge κ]

def searchInputs (y : Nat) (limit : SpriteLimit) (c : Circuit κ) : Evaluation.Inputs :=
  ⟨c.objects, y, c.registers.control.objectHeight, limit⟩

/-- Takes over the result of some steps of the search. -/
def concludeSearch (result : Evaluation × Bool) (c : Circuit κ) : Circuit κ :=
  let c := { c with evaluation := result.1 }
  if result.2 then c.withStatus fun s => { s with overflow := true } else c

def searchStep (y : Nat) (limit : SpriteLimit) (c : Circuit κ) : Circuit κ :=
  let i := c.searchInputs y limit
  c.concludeSearch (c.evaluation.step i, c.evaluation.overflows i)

def searchToEnd (y : Nat) (limit : SpriteLimit) (c : Circuit κ) : Circuit κ :=
  c.concludeSearch (c.evaluation.finish (c.searchInputs y limit))

/-- The search for the objects of line `y + 1`, during the dots of line `y`. -/
def evaluate (y dot : Nat) (limit : SpriteLimit) (c : Circuit κ) : Circuit κ :=
  if 256 < dot then c
  else if dot ≤ 64 then { c with evaluation := c.evaluation.clearStep dot limit }
  else
    let c := if dot = 65 then
        { c with evaluation := c.evaluation.start c.registers.objectAddress }
      else c
    if dot % 2 = 1 then c.searchStep y limit
    else if dot = 256 ∧ limit = .unlimited then c.searchToEnd y limit
    else c

/-- Hands the result of the search to the object fetches; the pre-render line has none. -/
def prepareStrips (line : Line) (c : Circuit κ) : Circuit κ :=
  let strips := match line with
    | .preRender => c.strips.prepare 0 false
    | .visible _ => c.strips.prepare c.evaluation.found c.evaluation.zeroInRange
  { c with strips := strips, evaluation := c.evaluation.stop }

def fetchTile (phase : Phase) (dot cycle : Nat) (c : Circuit κ) : Circuit κ :=
  let current := c.registers.scroll.current
  match phase with
  | .openName => c.drive current.tileAddress cycle
  | .name =>
    let (byte, c) := c.readName c.bus
    { c with background := c.background.latchName byte }
  | .openAttributes => c.drive current.attributeAddress cycle
  | .attributes =>
    let (byte, c) := c.readName c.bus
    { c with background := c.background.latchAttribute byte current.attributeShift }
  | .openLow =>
    let table := c.registers.control.backgroundTable
    c.drive (c.background.lowAddress table current.fineY.val) cycle
  | .low =>
    let (byte, c) := c.readPattern c.bus
    { c with background := c.background.latchLow byte }
  | .openHigh => c.drive (highPlane c.bus) cycle
  | .high =>
    let (byte, c) := c.readPattern c.bus
    let c := { c with background := (c.background.latchHigh byte).keep dot }
    c.withCurrent fun a => if dot = 256 then a.right.down else a.right

/-- Fetches an object's row without using the bus. -/
def fetchExtra (line : Line) (c : Circuit κ) (slot : Nat) : Circuit κ :=
  let c := { c with strips := c.strips.select slot c.evaluation.secondary }
  let address := c.strips.object.lowAddress line c.registers.control
  let (low, c) := c.readPattern address
  let (high, c) := c.readPattern (highPlane address)
  { c with strips := (c.strips.latchLow low).commit slot high }

def fetchExtras (line : Line) (c : Circuit κ) : Circuit κ :=
  let first := SpriteLimit.hardware.perLine
  (List.range' first (c.strips.pending - first)).foldl (fetchExtra line) c

def fetchObject (line : Line) (slot : Nat) (phase : Phase) (cycle : Nat) (c : Circuit κ) :
    Circuit κ :=
  let tile := c.registers.scroll.current.tileAddress
  match phase with
  | .openName =>
    let c := { c with strips := c.strips.select slot c.evaluation.secondary }
    c.drive tile cycle
  | .openAttributes => c.drive tile cycle
  | .name | .attributes => (c.readName c.bus).2
  | .openLow => c.drive (c.strips.object.lowAddress line c.registers.control) cycle
  | .low =>
    let (byte, c) := c.readPattern c.bus
    { c with strips := c.strips.latchLow byte }
  | .openHigh => c.drive (highPlane c.bus) cycle
  | .high =>
    let (byte, c) := c.readPattern c.bus
    { c with strips := c.strips.commit slot byte }

/-- During the object fetches the object data register shows the slot being fetched. -/
def latchSlot (dot : Nat) (c : Circuit κ) : Circuit κ :=
  let place := objectSlot dot * 4 + min ((dot - objectFetchStart) % 8) 3
  { c with evaluation := { c.evaluation with latch := c.evaluation.secondary.load place } }

def fetch (line : Line) (dot cycle : Nat) (c : Circuit κ) : Circuit κ :=
  match Fetch.ofDot dot with
  | .idle => c
  | .tile phase => c.fetchTile phase dot cycle
  | .object slot phase =>
    let c := c.fetchObject line slot phase cycle
    let c := if dot = objectFetchEnd then c.fetchExtras line else c
    c.latchSlot dot
  | .openUnused => c.drive c.registers.scroll.current.tileAddress cycle
  | .unused => (c.readName c.bus).2

/-- Brings the current address back to the pending one, in two halves. -/
def rewindAddress (line : Line) (dot : Nat) (c : Circuit κ) : Circuit κ :=
  if dot = objectFetchStart then
    c.withScroll fun l => { l with current := .takeHorizontal l.pending l.current }
  else if line = .preRender ∧ 280 ≤ dot ∧ dot ≤ 304 then
    c.withScroll fun l => { l with current := .takeVertical l.pending l.current }
  else c

def clearObjectAddress (dot : Nat) (c : Circuit κ) : Circuit κ :=
  if objectFetchStart ≤ dot ∧ dot ≤ objectFetchEnd then
    c.withRegisters fun r => { r with objectAddress := 0 }
  else c

def render (line : Line) (dot cycle : Nat) (limit : SpriteLimit) (c : Circuit κ) : Circuit κ :=
  let c := match line with
    | .preRender => c
    | .visible y => c.evaluate y.val dot limit
  let c := if dot = objectFetchStart then c.prepareStrips line else c
  let c := c.fetch line dot cycle
  (c.rewindAddress line dot).clearObjectAddress dot

end PictureUnit.Circuit
