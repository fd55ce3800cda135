/-!
# Regions and their frame geometry

A region fixes the length of a dot and of a processor cycle in master clocks, the number of
lines in a frame, the line whose first dot raises vertical blank, and whether odd frames are
one dot shorter. Every later cycle count is a multiple of these figures.
-/

set_option autoImplicit false

namespace PictureUnit

inductive Region where
  | ntsc
  | pal
  | dendy
  deriving DecidableEq, Repr, Inhabited

def Region.name : Region → String
  | .ntsc => "ntsc"
  | .pal => "pal"
  | .dendy => "dendy"

/-- Lengths in master clocks and the lines of one frame, pre-render line included. -/
structure Timing where
  dot : Nat
  cpuCycle : Nat
  lines : Nat
  vblankLine : Nat
  skipsOddDot : Bool
  deriving DecidableEq, Repr

def Region.timing : Region → Timing
  | .ntsc => ⟨4, 12, 262, 241, true⟩
  | .pal => ⟨5, 16, 312, 241, false⟩
  | .dendy => ⟨5, 15, 312, 291, false⟩

def dotsPerLine : Nat := 341

/-- Dots of a frame that drops none. -/
def Timing.dotsPerFrame (t : Timing) : Nat := t.lines * dotsPerLine

/-- Dots from the start of a frame that drops none to the end of the dot raising the blank. -/
def Timing.vblankDots (t : Timing) : Nat := (t.vblankLine + 1) * dotsPerLine + 1

theorem Region.dot_pos (r : Region) : 0 < r.timing.dot := by
  cases r <;> decide

theorem Region.dot_le_cpuCycle (r : Region) : r.timing.dot ≤ r.timing.cpuCycle := by
  cases r <;> decide

theorem Region.vblankDots_lt (r : Region) : r.timing.vblankDots < r.timing.dotsPerFrame := by
  cases r <;> decide

/-- How many objects one line may show. -/
inductive SpriteLimit where
  | hardware
  | unlimited
  deriving DecidableEq, Repr, Inhabited

def objectCount : Nat := 64

def SpriteLimit.perLine : SpriteLimit → Nat
  | .hardware => 8
  | .unlimited => objectCount

structure Config where
  region : Region
  limit : SpriteLimit
  deriving DecidableEq, Repr, Inhabited

def Config.timing (c : Config) : Timing := c.region.timing

end PictureUnit
