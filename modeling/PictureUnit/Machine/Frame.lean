import PictureUnit.Machine.Catchup

/-!
# Frames

The processor opens a frame where the last one ended and closes it when it has had all its
turns. The length of a frame is first predicted, and settled while its first line runs. Opening
a frame inside another one, closing one that is not open, and taking the screen inside a frame
are misuses.
-/

set_option autoImplicit false

namespace PictureUnit

inductive Misuse where
  | openedInFrame
  | closedOutside
  | swappedInFrame
  | loadedInFrame
  deriving DecidableEq, Repr

def Misuse.message : Misuse → String
  | .openedInFrame => "begin_frame called inside an open frame"
  | .closedOutside => "end_frame called without begin_frame"
  | .swappedInFrame => "output swapped mid-frame"
  | .loadedInFrame => "state loaded mid-frame"

namespace Machine

variable {κ : Type} [Cartridge κ]

/-- Lays the frame out as long as it looks now and requests the interrupt of its blank. -/
def openFrame (m : Machine κ) : Machine κ :=
  let m :=
    { m with
      clock := m.clock.openFrame m.timing m.dropsDot
      vblank := .armed
      inFrame := true }
  if m.circuit.registers.control.interrupts then m.requestInterrupt m.clock.vblankAt else m

def beginFrame (m : Machine κ) : Except Misuse (Machine κ) :=
  if !m.inFrame && m.clock.betweenFrames then .ok m.openFrame else .error .openedInFrame

omit [Cartridge κ] in
theorem eq_of_beginFrame {m n : Machine κ} (h : m.beginFrame = .ok n) : n = m.openFrame := by
  unfold beginFrame at h
  split at h <;> cases h
  rfl

/-- Adds a completed frame to the counts. -/
def closeFrame (m : Machine κ) : Machine κ :=
  { m with
    burst := Burst.ofNat (m.burst.val + m.clock.frameDots m.timing)
    oddFrame := !m.oddFrame
    frames := m.frames + 1
    warmingUp := false
    inFrame := false }

def endFrame (m : Machine κ) : Except Misuse (Machine κ) :=
  if m.inFrame then .ok (m.advanceTo m.clock.frameEnd).closeFrame else .error .closedOutside

theorem eq_of_endFrame {m n : Machine κ} (h : m.endFrame = .ok n) :
    m.inFrame = true ∧ n = (m.advanceTo m.clock.frameEnd).closeFrame := by
  unfold endFrame at h
  split at h <;> cases h
  exact ⟨‹_›, rfl⟩

/-- The finished screen, in exchange for another one. -/
def swapScreen (screen : Screen) (m : Machine κ) : Except Misuse (Screen × Machine κ) :=
  if m.inFrame then .error .swappedInFrame
  else .ok (m.circuit.screen, m.withCircuit fun c => { c with screen := screen })

omit [Cartridge κ] in
theorem eq_of_swapScreen {m n : Machine κ} {given taken : Screen}
    (h : m.swapScreen given = .ok (taken, n)) :
    taken = m.circuit.screen ∧ n = m.withCircuit fun c => { c with screen := given } := by
  unfold swapScreen at h
  split at h <;> cases h
  exact ⟨rfl, rfl⟩

def setColorMap (map : Option ColorMap) (m : Machine κ) : Machine κ :=
  m.withCircuit fun c => { c with palette := c.palette.setMap map }

end Machine

end PictureUnit
