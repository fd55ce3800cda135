import PictureUnit.Proofs.Dots
import PictureUnit.Proofs.Pace

/-!
# The vertical blank flag

Of all the dots only the second one of the pre-render line touches the vertical blank flag, and it
clears it. The flag rises where the blank is passed, once in a frame, unless a status read has
suppressed it.
-/

set_option autoImplicit false

namespace PictureUnit

namespace Circuit

variable {κ : Type}

/-- Whether the vertical blank flag is set. -/
def flag (c : Circuit κ) : Bool := c.registers.status.vblank

theorem drawDot_flag (line : Line) (dot : Nat) (c : Circuit κ) :
    (c.drawDot line dot).flag = c.flag := by
  unfold drawDot drawPixel drawRendered
  split
  · rfl
  · split
    · dsimp only
      split
      · split <;> rfl
      · rfl
    · rfl

theorem concludeSearch_flag (result : Evaluation × Bool) (c : Circuit κ) :
    (c.concludeSearch result).flag = c.flag := by
  unfold concludeSearch
  dsimp only
  split <;> rfl

theorem evaluate_flag (y dot : Nat) (limit : SpriteLimit) (c : Circuit κ) :
    (c.evaluate y dot limit).flag = c.flag := by
  unfold evaluate searchStep searchToEnd
  split
  · rfl
  split
  · rfl
  dsimp only
  split
  · rw [concludeSearch_flag]
    split <;> rfl
  split
  · rw [concludeSearch_flag]
    split <;> rfl
  · split <;> rfl

theorem rewindAddress_status (line : Line) (dot : Nat) (c : Circuit κ) :
    (c.rewindAddress line dot).registers.status = c.registers.status := by
  unfold rewindAddress
  split
  · rfl
  · split <;> rfl

theorem clearObjectAddress_status (dot : Nat) (c : Circuit κ) :
    (c.clearObjectAddress dot).registers.status = c.registers.status := by
  unfold clearObjectAddress
  split <;> rfl

theorem latchSlot_status (dot : Nat) (c : Circuit κ) :
    (c.latchSlot dot).registers.status = c.registers.status := by
  simp only [latchSlot]

variable [Cartridge κ]

theorem readPattern_status (address : Nat) (c : Circuit κ) :
    (c.readPattern address).2.registers.status = c.registers.status := by
  unfold readPattern
  split <;> rfl

theorem readName_status (address : Nat) (c : Circuit κ) :
    (c.readName address).2.registers.status = c.registers.status := by
  unfold readName
  split <;> rfl

theorem readVideo_status (address : Nat) (c : Circuit κ) :
    (c.readVideo address).2.registers.status = c.registers.status := by
  unfold readVideo
  split
  · exact readPattern_status address c
  · exact readName_status address c

theorem writeVideo_status (address : Nat) (byte : UInt8) (c : Circuit κ) :
    (c.writeVideo address byte).registers.status = c.registers.status := by
  unfold writeVideo writePattern writeName
  split
  · split <;> rfl
  · split <;> rfl

theorem fetchTile_status (phase : Phase) (dot cycle : Nat) (c : Circuit κ) :
    (c.fetchTile phase dot cycle).registers.status = c.registers.status := by
  have name := readName_status c.bus c
  have pattern := readPattern_status c.bus c
  cases phase with
  | openName | openAttributes | openLow | openHigh => rfl
  | name | attributes => exact name
  | low | high => exact pattern

theorem fetchObject_status (line : Line) (slot : Nat) (phase : Phase) (cycle : Nat)
    (c : Circuit κ) :
    (c.fetchObject line slot phase cycle).registers.status = c.registers.status := by
  have name := readName_status c.bus c
  have pattern := readPattern_status c.bus c
  cases phase with
  | openName | openAttributes | openLow | openHigh => rfl
  | name | attributes => exact name
  | low | high => exact pattern

theorem fetchExtras_status (line : Line) (c : Circuit κ) :
    (c.fetchExtras line).registers.status = c.registers.status :=
  List.foldlRecOn (motive := fun e : Circuit κ => e.registers.status = c.registers.status) _ _ rfl
    fun _ kept _ _ => ((readPattern_status _ _).trans (readPattern_status _ _)).trans kept

theorem fetch_status (line : Line) (dot cycle : Nat) (c : Circuit κ) :
    (c.fetch line dot cycle).registers.status = c.registers.status := by
  unfold fetch
  split
  · rfl
  · exact fetchTile_status _ _ _ c
  · dsimp only
    rw [latchSlot_status]
    split
    · exact (fetchExtras_status _ _).trans (fetchObject_status _ _ _ _ c)
    · exact fetchObject_status _ _ _ _ c
  · rfl
  · exact readName_status _ c

/-- Only the search changes a flag while a dot is rendered. -/
theorem render_status (line : Line) (dot cycle : Nat) (limit : SpriteLimit) (c : Circuit κ) :
    (c.render line dot cycle limit).registers.status
      = (c.searching line dot limit).registers.status := by
  rw [render_eq, clearObjectAddress_status, rewindAddress_status, fetch_status]
  split <;> rfl

theorem render_flag (line : Line) (dot cycle : Nat) (limit : SpriteLimit) (c : Circuit κ) :
    (c.render line dot cycle limit).flag = c.flag := by
  have searched : (c.searching line dot limit).flag = c.flag := by
    cases line with
    | preRender => rfl
    | visible y => exact evaluate_flag _ _ _ c
  exact (congrArg Status.vblank (render_status line dot cycle limit c)).trans searched

/-- The second dot of the pre-render line clears the flag, and no other dot changes it. -/
theorem dot_flag (line : Line) (dot cycle : Nat) (limit : SpriteLimit) (c : Circuit κ) :
    (c.dot line dot cycle limit).flag = if line = .preRender ∧ dot = 1 then false else c.flag := by
  have drawn : ((c.clearFlags line dot).drawDot line dot).flag
      = if line = .preRender ∧ dot = 1 then false else c.flag := by
    rw [drawDot_flag, clearFlags]
    split <;> rfl
  have rendered (d : Circuit κ) :
      (if d.registers.mask.rendering then d.render line dot cycle limit else d).flag = d.flag := by
    split
    · exact render_flag _ _ _ _ d
    · rfl
  unfold Circuit.dot
  split
  · next first =>
    rw [if_neg fun h => by omega]
    rfl
  · dsimp only
    split
    · exact (rendered _).trans drawn
    · exact (rendered _).trans drawn

end Circuit

namespace Machine

variable {κ : Type}

theorem passBlank_suppressed (target : Nat) (m : Machine κ) :
    (m.passBlank target).vblank.suppressed = m.vblank.suppressed := by
  unfold passBlank raiseVblank
  dsimp only
  split
  · split <;> rfl
  · rfl

theorem passBlank_interruptAt (target : Nat) (m : Machine κ) :
    (m.passBlank target).vblank.interruptAt = m.vblank.interruptAt := by
  unfold passBlank raiseVblank
  dsimp only
  split
  · split <;> rfl
  · rfl

/-- A suppressed blank passes without the flag. -/
theorem passBlank_flag (target : Nat) (m : Machine κ) : (m.passBlank target).circuit.flag
    = (m.circuit.flag || (!m.vblank.suppressed && !m.vblank.raised
      && decide (m.clock.vblankAt < min target m.clock.frameEnd))) := by
  by_cases due : m.vblank.raised = false ∧ m.clock.vblankAt < min target m.clock.frameEnd
  · simp only [passBlank, if_pos due, raiseVblank]
    cases hs : m.vblank.suppressed with
    | true => simp
    | false => simp [due.1, due.2, withCircuit, Circuit.flag, Circuit.withStatus,
        Circuit.withRegisters]
  · have idle : (!m.vblank.suppressed && !m.vblank.raised
        && decide (m.clock.vblankAt < min target m.clock.frameEnd)) = false := by
      cases hr : m.vblank.raised with
      | true => simp
      | false =>
        have early : ¬ m.clock.vblankAt < min target m.clock.frameEnd := fun h => due ⟨hr, h⟩
        rw [decide_eq_false early, Bool.and_false]
    simp only [passBlank, if_neg due, idle, Bool.or_false]

theorem settleAt_suppressed (line : Line) (dot : Nat) (m : Machine κ) :
    (m.settleAt line dot).vblank.suppressed = m.vblank.suppressed := by
  unfold settleAt settleLength
  split
  · split
    · rfl
    · dsimp only
      split <;> rfl
  · rfl

variable [Cartridge κ]

theorem step_suppressed (line : Line) (dot : Nat) (m : Machine κ) :
    (m.step line dot).vblank.suppressed = m.vblank.suppressed := settleAt_suppressed line dot _

theorem step_flag (line : Line) (dot : Nat) (m : Machine κ) : (m.step line dot).circuit.flag
    = if line = .preRender ∧ dot = 1 then false else m.circuit.flag := by
  rw [step_circuit, Circuit.dot_flag]

end Machine

end PictureUnit
