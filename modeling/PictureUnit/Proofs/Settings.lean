import PictureUnit.Machine.Catchup

/-!
# What a dot leaves alone

A dot fetches, searches and draws, but it changes no setting: what the processor wrote to the
registers, to object memory and to the palette stays until the processor writes again. So the
length of a frame depends on the processor alone.
-/

set_option autoImplicit false

namespace PictureUnit

/-- What only the processor changes. -/
structure Settings where
  control : Control
  mask : Mask
  pending : Scroll.Address
  fineX : Fin 8
  second : Bool
  buffer : UInt8
  lines : UInt8
  objects : Block 256
  visibility : Visibility
  palette : Palette

namespace Circuit

variable {κ : Type}

def settings (c : Circuit κ) : Settings where
  control := c.registers.control
  mask := c.registers.mask
  pending := c.registers.scroll.pending
  fineX := c.registers.scroll.fineX
  second := c.registers.scroll.second
  buffer := c.registers.buffer
  lines := c.registers.lines
  objects := c.objects
  visibility := c.visibility
  palette := c.palette

theorem drawPixel_settings (x y : Nat) (c : Circuit κ) :
    (c.drawPixel x y).settings = c.settings := by
  unfold drawPixel drawRendered
  dsimp only
  split
  · split <;> rfl
  · rfl

theorem clearFlags_settings (line : Line) (dot : Nat) (c : Circuit κ) :
    (c.clearFlags line dot).settings = c.settings := by
  unfold clearFlags
  split <;> rfl

theorem drawDot_settings (line : Line) (dot : Nat) (c : Circuit κ) :
    (c.drawDot line dot).settings = c.settings := by
  unfold drawDot
  split
  · rfl
  · split
    · exact drawPixel_settings _ _ c
    · rfl

theorem latchSlot_settings (dot : Nat) (c : Circuit κ) :
    (c.latchSlot dot).settings = c.settings := by
  simp only [latchSlot, settings]

theorem concludeSearch_settings (result : Evaluation × Bool) (c : Circuit κ) :
    (c.concludeSearch result).settings = c.settings := by
  unfold concludeSearch
  dsimp only
  split <;> rfl

theorem rewindAddress_settings (line : Line) (dot : Nat) (c : Circuit κ) :
    (c.rewindAddress line dot).settings = c.settings := by
  unfold rewindAddress
  split
  · rfl
  · split <;> rfl

theorem clearObjectAddress_settings (dot : Nat) (c : Circuit κ) :
    (c.clearObjectAddress dot).settings = c.settings := by
  unfold clearObjectAddress
  split <;> rfl

theorem evaluate_settings (y dot : Nat) (limit : SpriteLimit) (c : Circuit κ) :
    (c.evaluate y dot limit).settings = c.settings := by
  unfold evaluate searchStep searchToEnd
  split
  · rfl
  split
  · rfl
  dsimp only
  split
  · rw [concludeSearch_settings]
    split <;> rfl
  split
  · rw [concludeSearch_settings]
    split <;> rfl
  · split <;> rfl

variable [Cartridge κ]

theorem readPattern_settings (address : Nat) (c : Circuit κ) :
    (c.readPattern address).2.settings = c.settings := by
  unfold readPattern
  split <;> rfl

theorem readName_settings (address : Nat) (c : Circuit κ) :
    (c.readName address).2.settings = c.settings := by
  unfold readName
  split <;> rfl

theorem fetchTile_settings (phase : Phase) (dot cycle : Nat) (c : Circuit κ) :
    (c.fetchTile phase dot cycle).settings = c.settings := by
  have name := readName_settings c.bus c
  have pattern := readPattern_settings c.bus c
  cases phase with
  | openName | openAttributes | openLow | openHigh => rfl
  | name | attributes => exact name
  | low | high => exact pattern

theorem fetchExtra_settings (line : Line) (c : Circuit κ) (slot : Nat) :
    (c.fetchExtra line slot).settings = c.settings := by
  unfold fetchExtra
  dsimp only
  exact (readPattern_settings _ _).trans (readPattern_settings _ _)

theorem foldl_fetchExtra_settings (line : Line) (slots : List Nat) (c : Circuit κ) :
    (slots.foldl (fetchExtra line) c).settings = c.settings := by
  induction slots generalizing c with
  | nil => rfl
  | cons slot rest ih => rw [List.foldl_cons, ih, fetchExtra_settings]

theorem fetchObject_settings (line : Line) (slot : Nat) (phase : Phase) (cycle : Nat)
    (c : Circuit κ) : (c.fetchObject line slot phase cycle).settings = c.settings := by
  have name := readName_settings c.bus c
  have pattern := readPattern_settings c.bus c
  cases phase with
  | openName | openAttributes | openLow | openHigh => rfl
  | name | attributes => exact name
  | low | high => exact pattern

theorem fetch_settings (line : Line) (dot cycle : Nat) (c : Circuit κ) :
    (c.fetch line dot cycle).settings = c.settings := by
  unfold fetch
  split
  · rfl
  · exact fetchTile_settings _ _ _ c
  · dsimp only
    rw [latchSlot_settings]
    split
    · exact (foldl_fetchExtra_settings _ _ _).trans (fetchObject_settings _ _ _ _ c)
    · exact fetchObject_settings _ _ _ _ c
  · rfl
  · exact readName_settings _ c

theorem render_settings (line : Line) (dot cycle : Nat) (limit : SpriteLimit) (c : Circuit κ) :
    (c.render line dot cycle limit).settings = c.settings := by
  unfold render
  rw [clearObjectAddress_settings, rewindAddress_settings, fetch_settings]
  cases line with
  | preRender =>
    dsimp only
    split <;> rfl
  | visible y =>
    dsimp only
    split
    · exact evaluate_settings _ _ _ c
    · exact evaluate_settings _ _ _ c

theorem dot_settings (line : Line) (dot cycle : Nat) (limit : SpriteLimit) (c : Circuit κ) :
    (c.dot line dot cycle limit).settings = c.settings := by
  have drawn : ((c.clearFlags line dot).drawDot line dot).settings = c.settings := by
    rw [drawDot_settings, clearFlags_settings]
  have rendered (d : Circuit κ) (h : d.settings = c.settings) :
      (if d.registers.mask.rendering then d.render line dot cycle limit else d).settings
        = c.settings := by
    split
    · rw [render_settings, h]
    · exact h
  unfold Circuit.dot
  split
  · rfl
  · dsimp only
    split
    · exact rendered _ drawn
    · exact rendered _ drawn

end Circuit

namespace Machine

variable {κ : Type}

theorem settleLength_circuit (m : Machine κ) : m.settleLength.circuit = m.circuit := by
  unfold settleLength
  split
  · rfl
  · dsimp only
    split <;> rfl

theorem settleAt_circuit (line : Line) (dot : Nat) (m : Machine κ) :
    (m.settleAt line dot).circuit = m.circuit := by
  unfold settleAt
  split
  · exact settleLength_circuit m
  · rfl

variable [Cartridge κ]

theorem step_circuit (line : Line) (dot : Nat) (m : Machine κ) :
    (m.step line dot).circuit = m.circuit.dot line dot m.clock.count m.config.limit :=
  settleAt_circuit line dot (m.runDot line dot)

@[simp]
theorem step_settings (line : Line) (dot : Nat) (m : Machine κ) :
    (m.step line dot).circuit.settings = m.circuit.settings := by
  rw [step_circuit, Circuit.dot_settings]

end Machine

end PictureUnit
