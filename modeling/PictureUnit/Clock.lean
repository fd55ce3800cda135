import PictureUnit.Region
import PictureUnit.Screen
import PictureUnit.Wrap

/-!
# The raster and its clock

A frame draws the pre-render line and 240 visible lines dot by dot, and then stays in the
blank until its end. The clock counts master cycles along with the position. It also holds the
cycles at which the open frame began, ends and raises vertical blank; a short frame lacks the
last dot of its pre-render line, which moves both later cycles one dot forward.
-/

set_option autoImplicit false

namespace PictureUnit

inductive Line where
  | preRender
  | visible (y : Fin screenHeight)
  deriving DecidableEq, Repr

namespace Line

def number : Line → Int
  | .preRender => -1
  | .visible y => y.val

/-- The line as eight bits, where the pre-render line is the last value. -/
def byte : Line → Nat
  | .preRender => 255
  | .visible y => y.val

def next : Line → Option Line
  | .preRender => some (.visible (wrap screenHeight 0))
  | .visible y => if h : y.val + 1 < screenHeight then some (.visible ⟨y.val + 1, h⟩) else none

end Line

inductive Position where
  | raster (line : Line) (dot : Nat)
  | blank
  deriving DecidableEq, Repr

namespace Position

def start : Position := .raster .preRender 0

def lastDot (short : Bool) : Line → Nat
  | .preRender => if short then dotsPerLine - 2 else dotsPerLine - 1
  | .visible _ => dotsPerLine - 1

/-- The dot after this one, on the next line after the last dot of a line. -/
def next (short : Bool) : Position → Position
  | .blank => .blank
  | .raster line dot =>
    if dot < lastDot short line then .raster line (dot + 1)
    else match line.next with
      | some line => .raster line 0
      | none => .blank

end Position

structure Clock where
  count : Nat
  position : Position
  frameStart : Nat
  frameEnd : Nat
  vblankAt : Nat
  short : Bool
  deriving DecidableEq, Repr

namespace Clock

/-- A clock that waits at `cycle` for a frame to be opened. -/
def parked (cycle : Nat) : Clock := ⟨cycle, .blank, cycle, cycle, cycle, false⟩

def betweenFrames (c : Clock) : Bool := c.position == .blank && c.frameEnd ≤ c.count

/-- Derives the later cycles of the frame from its start. -/
def layOut (t : Timing) (short : Bool) (c : Clock) : Clock :=
  { c with
    short := short
    frameEnd := c.frameStart + (t.dotsPerFrame - short.toNat) * t.dot
    vblankAt := c.frameStart + (t.vblankDots - short.toNat) * t.dot }

def openFrame (t : Timing) (short : Bool) (c : Clock) : Clock :=
  layOut t short { c with frameStart := c.count, position := .start }

def frameDots (t : Timing) (c : Clock) : Nat := (c.frameEnd - c.frameStart) / t.dot

def tick (t : Timing) (c : Clock) : Clock :=
  { c with count := c.count + t.dot, position := c.position.next c.short }

/-- Lets the blank pass up to `target`, which never turns the clock back. -/
def idleUntil (target : Nat) (c : Clock) : Clock := { c with count := max c.count target }

theorem layOut_count (t : Timing) (short : Bool) (c : Clock) :
    (c.layOut t short).count = c.count := rfl

theorem layOut_position (t : Timing) (short : Bool) (c : Clock) :
    (c.layOut t short).position = c.position := rfl

theorem tick_count (t : Timing) (c : Clock) : (c.tick t).count = c.count + t.dot := rfl

theorem betweenFrames_parked (cycle : Nat) : (parked cycle).betweenFrames = true := by
  simp [betweenFrames, parked]

end Clock

end PictureUnit
