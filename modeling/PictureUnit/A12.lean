import PictureUnit.Overflow
import PictureUnit.Region

/-!
# Edges of address line A12

Scanline counters on cartridges count the rising edges of address line 12. The line toggles
quickly while objects are fetched, so a rise counts only after the line was low for longer
than a threshold. Low time is one when the line falls and grows with the cycles observed; a
cycle stamp that goes back adds nothing, and the sum stays within sixty-four bits.
-/

set_option autoImplicit false

namespace PictureUnit.A12

inductive Edge where
  | rise
  | fall
  deriving DecidableEq, Repr

/-- A low time of zero stands for a line that is high. -/
structure Watch where
  lastCycle : Nat
  lowTime : Nat
  threshold : Nat
  deriving DecidableEq, Repr

/-- Dots the line has to stay low before a rise counts. -/
def lowDots : Nat := 10

def Watch.new (threshold : Nat) : Watch := ⟨0, 0, threshold⟩

def Watch.ofTiming (t : Timing) : Watch := .new (lowDots * t.dot)

def Watch.reset (w : Watch) : Watch := .new w.threshold

def isHigh (address : Nat) : Bool := address / 0x1000 % 2 == 1

/-- Low time at `cycle`, before the address seen then is taken into account. -/
def Watch.lowTimeAt (w : Watch) (cycle : Nat) : Nat :=
  if w.lowTime = 0 then 0 else min (w.lowTime + (cycle - w.lastCycle)) largest64

def Watch.edge (w : Watch) (address cycle : Nat) : Option Edge :=
  if isHigh address then
    if w.threshold < w.lowTimeAt cycle then some .rise else none
  else
    if w.lowTimeAt cycle = 0 then some .fall else none

def Watch.observe (w : Watch) (address cycle : Nat) : Watch :=
  { w with
    lastCycle := cycle
    lowTime := if isHigh address then 0 else max 1 (w.lowTimeAt cycle) }

/-- The edges of a whole history, one entry an observation. -/
def Watch.edges (w : Watch) : List (Nat × Nat) → List (Option Edge)
  | [] => []
  | (address, cycle) :: rest => w.edge address cycle :: (w.observe address cycle).edges rest

theorem observe_lowTime_eq_zero (w : Watch) (address cycle : Nat) :
    (w.observe address cycle).lowTime = 0 ↔ isHigh address = true := by
  unfold Watch.observe
  split <;> simp_all

theorem edges_length (w : Watch) (history : List (Nat × Nat)) :
    (w.edges history).length = history.length := by
  induction history generalizing w with
  | nil => rfl
  | cons o rest ih => simp [Watch.edges, ih]

end PictureUnit.A12
