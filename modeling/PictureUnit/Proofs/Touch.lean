import PictureUnit.Proofs.Derived
import PictureUnit.Proofs.Twins

/-!
# What the processor touches

While nothing answers in the cartridge slot, an access reads and writes only what twin circuits have
in common. The rest, which is left over from the dots before, stays beside it.
-/

set_option autoImplicit false

namespace PictureUnit

/-- What is left of the dots before, or of the accesses, and may differ between twins. -/
structure Residue where
  evaluation : Evaluation
  strips : Strips
  background : Background
  bus : Nat
  screen : Screen
  status : Status
  lines : UInt8

namespace Circuit

variable {κ : Type}

def residue (c : Circuit κ) : Residue :=
  ⟨c.evaluation, c.strips, c.background, c.bus, c.screen, c.registers.status, c.registers.lines⟩

def withResidue (r : Residue) (c : Circuit κ) : Circuit κ :=
  { c with
    registers := { c.registers with status := r.status, lines := r.lines }
    evaluation := r.evaluation
    strips := r.strips
    background := r.background
    screen := r.screen
    bus := r.bus }

/-- Circuits on one level are the same but for the residue. -/
theorem eq_withResidue {c e : Circuit κ} (h : c.works.Level e.works) :
    e = c.withResidue e.residue := by
  obtain ⟨registers, objects, evaluation, strips, background, visibility, palette, banks, screen, bus,
    cartridge⟩ := c
  obtain ⟨⟨control, mask, status, objectAddress, ⟨current, pending, fineX, second⟩, buffer, lines⟩,
    objects', evaluation', strips', background', visibility', palette', banks', screen', bus',
    cartridge'⟩ := e
  have sameBanks : banks' = banks := h.banks
  have sameCartridge : cartridge' = cartridge := h.cartridge
  have sameAddress : objectAddress = registers.objectAddress := h.objectAddress
  have sameCurrent : current = registers.scroll.current := h.current
  have same := h.settings
  simp only [works, Circuit.settings, Settings.mk.injEq] at same
  clear h
  obtain ⟨rfl, rfl, rfl, rfl, rfl, rfl, -, rfl, rfl, rfl⟩ := same
  subst sameBanks sameCartridge sameAddress sameCurrent
  rfl

/-- The cell behind an address below the palette. -/
def videoCell (address : Nat) (c : Circuit κ) : Cell :=
  if address < patternSpace then c.banks.patternCell address else c.banks.nameCell address

/-- Buffers the byte that a data read is to return next. -/
def buffered (c : Circuit κ) : Circuit κ :=
  let address := c.registers.scroll.current.bus
  let source := if paletteBase ≤ address then address - 0x1000 else address
  c.withRegisters fun r => { r with buffer := c.banks.load (c.videoCell source) }

/-- Stores a byte at the current address. -/
def stored (byte : UInt8) (c : Circuit κ) : Circuit κ :=
  let address := c.registers.scroll.current.bus
  if paletteBase ≤ address then { c with palette := c.palette.write address byte }
  else { c with banks := c.banks.store byte (c.videoCell address) }

theorem stored_withResidue (byte : UInt8) (r : Residue) (c : Circuit κ) :
    (c.withResidue r).stored byte = (c.stored byte).withResidue r := by
  unfold stored
  rw [apply_ite (withResidue r)]
  rfl

variable [Cartridge κ] {c : Circuit κ}

theorem expose_idle (hi : Cartridge.Idle c.cartridge) (address cycle : Nat) :
    c.expose address cycle = c := by
  rw [expose, hi.observe]

theorem readVideo_idle (hi : Cartridge.Idle c.cartridge) (address : Nat) :
    c.readVideo address = (c.banks.load (c.videoCell address), c) := by
  rw [Circuit.readVideo, videoCell, readPattern_silent hi.toSilent, readName_silent hi.toSilent]
  split <;> rfl

theorem writeVideo_idle (hi : Cartridge.Idle c.cartridge) (address : Nat) (byte : UInt8) :
    c.writeVideo address byte = { c with banks := c.banks.store byte (c.videoCell address) } := by
  unfold Circuit.writeVideo videoCell writePattern writeName
  split
  · split
    · next cell => rw [cell, hi.writePattern, Banks.store]
    · rfl
  · split
    · next cell => rw [cell, hi.writeName, Banks.store]
    · rfl

end Circuit

namespace Machine

variable {κ : Type}

theorem readStatus_eq (cycle : Nat) (m : Machine κ) :
    (m.readStatus cycle).1 = m.circuit.registers.status.readOver m.circuit.registers.lines
      ∧ (m.readStatus cycle).2.circuit = m.circuit.withRegisters fun r =>
        { r with status := { r.status with vblank := false }, scroll := r.scroll.rewind } := by
  have raced : (if m.racesVblank cycle then m.suppressVblank else m).circuit = m.circuit := by
    split
    · exact suppressVblank_circuit m
    · rfl
  simp only [readStatus, withRegisters, withCircuit, raced, and_self]

theorem writeControl_circuit (byte : UInt8) (cycle : Nat) (m : Machine κ) :
    (m.writeControl byte cycle).circuit = m.circuit.withRegisters fun r =>
      { r with control := ⟨byte⟩, scroll := r.scroll.selectNametable byte } := by
  unfold writeControl
  dsimp only
  split
  · rfl
  · rw [switchInterrupt_circuit]
    rfl

variable [Cartridge κ] {m n : Machine κ}

theorem readVideo_idle (hi : Cartridge.Idle m.circuit.cartridge) (cycle : Nat) :
    m.readVideo cycle = (if paletteBase ≤ m.circuit.registers.scroll.current.bus then
        (m.circuit.registers.lines &&& 0xC0)
          ||| m.circuit.palette.read m.circuit.registers.scroll.current.bus
      else m.circuit.registers.buffer, { m with circuit := m.circuit.buffered }) := by
  simp only [readVideo, Circuit.expose_idle hi, Circuit.readVideo_idle hi]
  rfl

theorem writeVideo_idle (hi : Cartridge.Idle m.circuit.cartridge) (byte : UInt8) (cycle : Nat) :
    m.writeVideo byte cycle = m.withCircuit (Circuit.stored byte) := by
  simp only [writeVideo, withCircuit, Circuit.expose_idle hi, Circuit.writeVideo_idle hi]
  rfl

theorem writeAddress_idle (hi : Cartridge.Idle m.circuit.cartridge) (byte : UInt8) (cycle : Nat) :
    (m.writeAddress byte cycle).circuit = m.circuit.withScroll (·.writeAddress byte) := by
  have still : Cartridge.Idle (m.circuit.withScroll (·.writeAddress byte)).cartridge := hi
  simp only [writeAddress, withCircuit, Circuit.expose_idle still, ite_self]

theorem idle_of_level (h : m.circuit.works.Level n.circuit.works)
    (hi : Cartridge.Idle m.circuit.cartridge) : Cartridge.Idle n.circuit.cartridge := by
  rw [show n.circuit.cartridge = m.circuit.cartridge from h.cartridge]
  exact hi

/-- A read keeps twin machines on one level. -/
theorem readRegister_level (h : m.circuit.works.Level n.circuit.works)
    (hi : Cartridge.Idle m.circuit.cartridge) (hf : n.fetching = m.fetching) (register : Register)
    (cycle cycle' : Nat) : (m.readRegister register cycle).2.circuit.works.Level
      (n.readRegister register cycle').2.circuit.works := by
  have other := idle_of_level h hi
  have shape := Circuit.eq_withResidue h
  generalize n.circuit.residue = r at shape
  cases register with
  | status =>
    simp only [readRegister, (readStatus_eq _ _).2, shape]
    exact ⟨rfl, rfl, rfl, rfl, rfl⟩
  | data =>
    simp only [readRegister, readData, hf]
    split
    · simp only [advanceAddress, withCircuit, shape]
      exact ⟨rfl, rfl, rfl, rfl, rfl⟩
    · simp only [readVideo_idle hi, readVideo_idle other, advanceAddress, withCircuit, shape]
      exact ⟨rfl, rfl, rfl, rfl, rfl⟩
  | control | mask | objectAddress | objectData | scroll | address => exact h

theorem writeRegister_level (h : m.circuit.works.Level n.circuit.works)
    (hi : Cartridge.Idle m.circuit.cartridge) (hf : n.fetching = m.fetching) (register : Register)
    (byte : UInt8) (cycle cycle' : Nat) :
    (m.writeRegister register byte cycle).circuit.works.Level
      (n.writeRegister register byte cycle').circuit.works := by
  have other := idle_of_level h hi
  have shape := Circuit.eq_withResidue h
  generalize n.circuit.residue = r at shape
  cases register with
  | status => exact h
  | control =>
    simp only [writeRegister, writeControl_circuit, shape]
    exact ⟨rfl, rfl, rfl, rfl, rfl⟩
  | mask | objectAddress | scroll =>
    simp only [writeRegister, withRegisters, withCircuit, shape]
    exact ⟨rfl, rfl, rfl, rfl, rfl⟩
  | objectData =>
    simp only [writeRegister, writeObjectData, hf]
    split
    · simp only [withRegisters, withCircuit, shape]
      exact ⟨rfl, rfl, rfl, rfl, rfl⟩
    · simp only [withCircuit, shape]
      exact ⟨rfl, rfl, rfl, rfl, rfl⟩
  | address =>
    simp only [writeRegister, writeAddress_idle hi, writeAddress_idle other, shape]
    exact ⟨rfl, rfl, rfl, rfl, rfl⟩
  | data =>
    simp only [writeRegister, writeData, hf]
    split
    · simp only [advanceAddress, withCircuit, shape]
      exact ⟨rfl, rfl, rfl, rfl, rfl⟩
    · simp only [writeVideo_idle hi, writeVideo_idle other, advanceAddress, withCircuit, shape,
        Circuit.stored_withResidue]
      exact ⟨rfl, rfl, rfl, rfl, rfl⟩

theorem readRegister_status (hi : Cartridge.Idle m.circuit.cartridge) (register : Register)
    (cycle : Nat) : (m.readRegister register cycle).2.circuit.registers.status
      = { m.circuit.registers.status with
        vblank := if register = .status then false else m.circuit.registers.status.vblank } := by
  cases register with
  | status =>
    simp only [readRegister, (readStatus_eq _ _).2]
    rfl
  | data =>
    simp only [readRegister, readData, readVideo_idle hi]
    split <;> rfl
  | control | mask | objectAddress | objectData | scroll | address => rfl

theorem writeRegister_keeps (hi : Cartridge.Idle m.circuit.cartridge) (register : Register)
    (byte : UInt8) (cycle : Nat) : (m.writeRegister register byte cycle).circuit.registers.status
        = m.circuit.registers.status
      ∧ (m.writeRegister register byte cycle).circuit.registers.lines = m.circuit.registers.lines := by
  cases register with
  | control =>
    simp only [writeRegister, writeControl_circuit]
    exact ⟨rfl, rfl⟩
  | objectData =>
    simp only [writeRegister, writeObjectData]
    split <;> exact ⟨rfl, rfl⟩
  | address =>
    simp only [writeRegister, writeAddress_idle hi]
    exact ⟨rfl, rfl⟩
  | data =>
    simp only [writeRegister, writeData, writeVideo_idle hi, advanceAddress, withCircuit]
    split
    · exact ⟨rfl, rfl⟩
    · unfold Circuit.stored
      dsimp only
      split <;> exact ⟨rfl, rfl⟩
  | mask | objectAddress | scroll | status => exact ⟨rfl, rfl⟩

end Machine

end PictureUnit
