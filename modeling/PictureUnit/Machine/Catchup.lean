import PictureUnit.Circuit.Dot
import PictureUnit.Machine

/-!
# Catching up

The machine runs late: before anything happens at a cycle, every dot that begins before that
cycle is executed. The blank after the last visible line is passed at once, because all that
happens in it is the vertical blank flag. Near the end of the pre-render line the length of the
frame is decided for good, and an interrupt already requested moves along.
-/

set_option autoImplicit false

namespace PictureUnit.Machine

variable {κ : Type}

/-- The dot of the pre-render line after which its length no longer changes. -/
def settlingDot : Nat := dotsPerLine - 2

def setLength (short : Bool) (m : Machine κ) : Machine κ :=
  { m with clock := m.clock.layOut m.timing short }

/-- Decides the length of the frame, and keeps a pending interrupt at the blank. -/
def settleLength (m : Machine κ) : Machine κ :=
  if m.dropsDot = m.clock.short then m
  else
    let settled := m.setLength m.dropsDot
    if m.vblank.interruptAt = some m.clock.vblankAt then
      settled.requestInterrupt settled.clock.vblankAt
    else settled

def settleAt (line : Line) (dot : Nat) (m : Machine κ) : Machine κ :=
  if line = .preRender ∧ dot = settlingDot then m.settleLength else m

@[simp]
theorem settleLength_count (m : Machine κ) : m.settleLength.clock.count = m.clock.count := by
  unfold settleLength
  split
  · rfl
  · dsimp only
    split <;> rfl

@[simp]
theorem settleLength_config (m : Machine κ) : m.settleLength.config = m.config := by
  unfold settleLength
  split
  · rfl
  · dsimp only
    split <;> rfl

def raiseVblank (m : Machine κ) : Machine κ :=
  let raised := { m with vblank := { m.vblank with raised := true } }
  if m.vblank.suppressed then raised
  else raised.withCircuit fun c => c.withStatus fun s => { s with vblank := true }

/-- Passes the blank up to `target`, but never past the end of the frame. -/
def passBlank (target : Nat) (m : Machine κ) : Machine κ :=
  let target := min target m.clock.frameEnd
  let m := if m.vblank.raised = false ∧ m.clock.vblankAt < target then m.raiseVblank else m
  { m with clock := m.clock.idleUntil target }

@[simp]
theorem settleLength_cycle (m : Machine κ) : m.settleLength.host.cycle = m.host.cycle := by
  unfold settleLength
  split
  · rfl
  · dsimp only
    split <;> rfl

@[simp]
theorem passBlank_host (target : Nat) (m : Machine κ) : (m.passBlank target).host = m.host := by
  unfold passBlank raiseVblank
  dsimp only
  split
  · split <;> rfl
  · rfl

@[simp]
theorem passBlank_config (target : Nat) (m : Machine κ) :
    (m.passBlank target).config = m.config := by
  unfold passBlank raiseVblank
  dsimp only
  split
  · split <;> rfl
  · rfl

variable [Cartridge κ]

def runDot (line : Line) (dot : Nat) (m : Machine κ) : Machine κ :=
  m.withCircuit fun c => c.dot line dot m.clock.count m.config.limit

def tick (m : Machine κ) : Machine κ := { m with clock := m.clock.tick m.timing }

/-- Executes the dot the clock stands on and moves on to the next. -/
def step (line : Line) (dot : Nat) (m : Machine κ) : Machine κ :=
  ((m.runDot line dot).settleAt line dot).tick

@[simp]
theorem step_count (line : Line) (dot : Nat) (m : Machine κ) :
    (m.step line dot).clock.count = m.clock.count + m.timing.dot := by
  unfold step settleAt
  split
  · simp [tick, Clock.tick, settleLength_count, settleLength_config, timing, runDot, withCircuit]
  · rfl

@[simp]
theorem step_config (line : Line) (dot : Nat) (m : Machine κ) :
    (m.step line dot).config = m.config := by
  unfold step settleAt
  split
  · exact settleLength_config _
  · rfl

@[simp]
theorem step_cycle (line : Line) (dot : Nat) (m : Machine κ) :
    (m.step line dot).host.cycle = m.host.cycle := by
  unfold step settleAt
  split
  · exact settleLength_cycle _
  · rfl

/-- Executes every dot that begins before `target`, up to the end of the frame. -/
def advanceTo (target : Nat) (m : Machine κ) : Machine κ :=
  if m.clock.count < target then
    match m.clock.position with
    | .blank => m.passBlank target
    | .raster line dot => advanceTo target (m.step line dot)
  else m
termination_by target - m.clock.count
decreasing_by
  have := step_count line dot m
  have := m.config.region.dot_pos
  simp only [timing, Config.timing] at *
  omega

theorem advanceTo_of_le (target : Nat) (m : Machine κ) (h : target ≤ m.clock.count) :
    m.advanceTo target = m := by
  rw [advanceTo, if_neg (by omega)]

/-- Catching up takes none of the processor's time. -/
@[simp]
theorem advanceTo_cycle (target : Nat) (m : Machine κ) :
    (m.advanceTo target).host.cycle = m.host.cycle := by
  fun_induction advanceTo target m with
  | case1 => rw [passBlank_host]
  | case2 m _ line dot _ ih => rw [ih, step_cycle]
  | case3 => rfl

@[simp]
theorem advanceTo_config (target : Nat) (m : Machine κ) :
    (m.advanceTo target).config = m.config := by
  fun_induction advanceTo target m with
  | case1 => rw [passBlank_config]
  | case2 m _ line dot _ ih => rw [ih, step_config]
  | case3 => rfl

end PictureUnit.Machine
