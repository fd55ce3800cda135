import PictureUnit.Block
import PictureUnit.Object

/-!
# Object evaluation

On every visible line the objects of the next line are searched for. The secondary memory is
cleared first. Then each step reads one byte of object memory, and copies the four bytes of an
object in range. Once as many objects were copied as a line may show, the search goes on only
to find one more; it then takes every byte for a line number and moves on to the next byte
along with the next object, so it walks the memory diagonally.
-/

set_option autoImplicit false

namespace PictureUnit

inductive Search where
  | resting
  | comparing
  | copyingTile
  | copyingAttributes
  | copyingX
  | scanning
  | skipping (remaining : Nat)
  | finished
  deriving DecidableEq, Repr

structure Evaluation where
  search : Search
  /-- The object looked at; the count of all objects once none is left. -/
  object : Nat
  /-- The byte of it looked at. -/
  byte : Nat
  found : Nat
  /-- No object was compared yet on this line. -/
  first : Bool
  zeroInRange : Bool
  /-- The byte last moved to or from object memory. -/
  latch : UInt8
  secondary : Block 256
  deriving DecidableEq

/-- What stays fixed during one step. -/
structure Evaluation.Inputs where
  memory : Block 256
  line : Nat
  height : Nat
  limit : SpriteLimit

namespace Evaluation

def resting : Evaluation := ⟨.resting, 0, 0, 0, false, false, 0, .filled 256 0xFF⟩

/-- Over two dots one byte of the secondary memory becomes `0xFF`. -/
def clearStep (dot : Nat) (limit : SpriteLimit) (e : Evaluation) : Evaluation :=
  if dot % 2 = 1 then { e with latch := 0xFF }
  else if dot = 64 ∧ limit = .unlimited then { e with secondary := .filled 256 0xFF }
  else { e with secondary := e.secondary.store (dot / 2 - 1) 0xFF }

/-- The search starts at the object that the object address points into. -/
def start (address : UInt8) (e : Evaluation) : Evaluation :=
  { e with
    search := .comparing
    object := address.toNat / 4
    byte := 0
    found := 0
    first := true
    zeroInRange := false }

/-- The result has been handed over. -/
def stop (e : Evaluation) : Evaluation := { e with search := .resting, found := 0 }

def address (e : Evaluation) : Nat := e.object % objectCount * 4 + e.byte

def current (i : Inputs) (e : Evaluation) : UInt8 := i.memory.load e.address

def hits (i : Inputs) (e : Evaluation) : Bool := inRange i.line i.height (e.current i)

def read (i : Inputs) (e : Evaluation) : Evaluation := { e with latch := e.current i }

def write (value : UInt8) (e : Evaluation) : Evaluation :=
  { e with secondary := e.secondary.store (e.found * 4 + e.byte) value }

/-- Goes on to the next object, unless there is none. -/
def advance (search : Search) (e : Evaluation) : Evaluation :=
  { e with
    object := e.object + 1
    search := if e.object + 1 < objectCount then search else .finished }

/-- Reads the current byte and copies it. -/
def copy (i : Inputs) (e : Evaluation) : Evaluation := (e.read i).write (e.current i)

def compare (i : Inputs) (e : Evaluation) : Evaluation :=
  let hit := e.hits i
  let e := { e.copy i with first := false, zeroInRange := e.zeroInRange || (e.first && hit) }
  if hit then { e with search := .copyingTile, byte := 1 } else e.advance .comparing

def complete (i : Inputs) (e : Evaluation) : Evaluation :=
  let e := { e.copy i with byte := 0, found := e.found + 1 }
  e.advance (if i.limit.perLine ≤ e.found then .scanning else .comparing)

def scan (i : Inputs) (e : Evaluation) : Evaluation :=
  if e.hits i then { e.read i with search := .skipping 3 }
  else advance .scanning { e.read i with byte := (e.byte + 1) % 4 }

def skip (remaining : Nat) (i : Inputs) (e : Evaluation) : Evaluation :=
  let e := if e.byte = 3 then { e with byte := 0, object := e.object + 1 }
    else { e with byte := e.byte + 1 }
  if 1 < remaining then { e.read i with search := .skipping (remaining - 1) }
  else { e.read i with search := .finished, byte := 0 }

def step (i : Inputs) (e : Evaluation) : Evaluation :=
  match e.search with
  | .resting => e
  | .comparing => e.compare i
  | .copyingTile => { e.copy i with search := .copyingAttributes, byte := 2 }
  | .copyingAttributes => { e.copy i with search := .copyingX, byte := 3 }
  | .copyingX => e.complete i
  | .scanning => e.scan i
  | .skipping remaining => e.skip remaining i
  | .finished =>
    let e := read i { e with byte := 0 }
    { e with object := (e.object + 1) % objectCount }

/-- Whether the next step finds an object too many. -/
def overflows (i : Inputs) (e : Evaluation) : Bool :=
  match e.search with
  | .comparing => e.hits i && SpriteLimit.hardware.perLine ≤ e.found
  | .scanning => e.hits i
  | _ => false

def isDone (e : Evaluation) : Bool := e.search == .resting || e.search == .finished

/-- At most `n` steps, and whether one of them found an object too many. -/
def steps (i : Inputs) : Nat → Evaluation → Evaluation × Bool
  | 0, e => (e, false)
  | n + 1, e =>
    if e.isDone then (e, false)
    else
      let (last, overflow) := steps i n (e.step i)
      (last, e.overflows i || overflow)

/-- Four steps for each object are enough to reach the end of the memory. -/
def finish (i : Inputs) (e : Evaluation) : Evaluation × Bool := e.steps i (objectCount * 4)

theorem steps_of_isDone (i : Inputs) (n : Nat) (e : Evaluation) (h : e.isDone = true) :
    e.steps i n = (e, false) := by
  cases n with
  | zero => rfl
  | succ n => simp [steps, h]

end Evaluation

end PictureUnit
