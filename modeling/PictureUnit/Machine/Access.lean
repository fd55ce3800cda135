import PictureUnit.Machine.Catchup
import PictureUnit.Register

/-!
# Register accesses

An access first catches up to the cycle it lands on. Every access leaves its byte on the data
lines. While the chip renders, the data registers reach no memory: they only move the address. A
status read just before the blank suppresses the flag and the interrupt of this frame, and an
interrupt switched on while the flag is set is requested at once.
-/

set_option autoImplicit false

namespace PictureUnit.Machine

variable {κ : Type} [Cartridge κ]

/-- On a line that is drawn, with rendering switched on. -/
def fetching (m : Machine κ) : Bool := m.rendering && m.clock.position != .blank

def searching (m : Machine κ) : Bool :=
  m.rendering && match m.clock.position with
    | .raster (.visible _) _ => true
    | _ => false

def withRegisters (f : Registers → Registers) (m : Machine κ) : Machine κ :=
  m.withCircuit fun c => c.withRegisters f

def setLines (byte : UInt8) (m : Machine κ) : Machine κ :=
  m.withRegisters fun r => { r with lines := byte }

/-- Whether a status read at `cycle` comes too close before the blank. -/
def racesVblank (cycle : Nat) (m : Machine κ) : Bool :=
  m.inFrame && !m.vblank.raised && m.clock.vblankAt < cycle + m.timing.dot

def suppressVblank (m : Machine κ) : Machine κ :=
  let m := { m with vblank := { m.vblank with suppressed := true } }
  if m.vblank.interruptAt = some m.clock.vblankAt then m.withdrawInterrupt else m

def readStatus (cycle : Nat) (m : Machine κ) : UInt8 × Machine κ :=
  let m := if m.racesVblank cycle then m.suppressVblank else m
  let r := m.circuit.registers
  (r.status.readOver r.lines, m.withRegisters fun r =>
    { r with status := { r.status with vblank := false }, scroll := r.scroll.rewind })

def readObjectData (m : Machine κ) : UInt8 :=
  if m.searching then m.circuit.evaluation.latch
  else m.circuit.objects.load m.circuit.registers.objectAddress.toNat

/-- Steps the current address as the control byte says. -/
def advanceAddress (m : Machine κ) : Machine κ :=
  m.withCircuit fun c => c.withCurrent fun a => a.advance c.registers.control.increment

/-- Returns the buffered byte and buffers the one at the current address. A palette entry is
returned directly; the buffer then takes the byte of the nametable beneath it. -/
def readVideo (cycle : Nat) (m : Machine κ) : UInt8 × Machine κ :=
  let address := m.circuit.registers.scroll.current.bus
  let buffered := m.circuit.registers.buffer
  let source := if paletteBase ≤ address then address - 0x1000 else address
  let (byte, c) := (m.circuit.expose address cycle).readVideo source
  let c := c.withRegisters fun r => { r with buffer := byte }
  let value := if paletteBase ≤ address then
      (c.registers.lines &&& 0xC0) ||| c.palette.read address
    else buffered
  (value, { m with circuit := c })

def readData (cycle : Nat) (m : Machine κ) : UInt8 × Machine κ :=
  if m.fetching then (m.circuit.registers.buffer, m.advanceAddress)
  else
    let (value, m) := m.readVideo cycle
    (value, m.advanceAddress)

def readRegister (register : Register) (cycle : Nat) (m : Machine κ) : UInt8 × Machine κ :=
  match register with
  | .status => m.readStatus cycle
  | .objectData => (m.readObjectData, m)
  | .data => m.readData cycle
  | .control | .mask | .objectAddress | .scroll | .address => (m.circuit.registers.lines, m)

/-- Reads the register behind a processor address. -/
def read (address : Nat) (m : Machine κ) : UInt8 × Machine κ :=
  let cycle := m.host.cycle
  let (value, m) := (m.advanceTo cycle).readRegister (.ofAddress address) cycle
  (value, m.setLines value)

/-- What a change of the interrupt switch asks of the processor. -/
def switchInterrupt (enabled : Bool) (cycle : Nat) (m : Machine κ) : Machine κ :=
  if enabled then
    if m.inFrame && !m.vblank.raised && !m.vblank.suppressed then
      m.requestInterrupt m.clock.vblankAt
    else if m.circuit.registers.status.vblank ∧ cycle < m.clock.frameEnd then
      m.requestInterrupt (cycle + m.timing.dot)
    else m
  else
    match m.vblank.interruptAt with
    | some requested => if cycle < requested then m.withdrawInterrupt else m
    | none => m

def writeControl (byte : UInt8) (cycle : Nat) (m : Machine κ) : Machine κ :=
  let before := m.circuit.registers.control.interrupts
  let m := m.withRegisters fun r =>
    { r with control := ⟨byte⟩, scroll := r.scroll.selectNametable byte }
  let enabled := m.circuit.registers.control.interrupts
  if enabled = before then m else m.switchInterrupt enabled cycle

/-- Rendering blocks the write and moves the address to the next object. -/
def writeObjectData (byte : UInt8) (m : Machine κ) : Machine κ :=
  let address := m.circuit.registers.objectAddress
  if m.fetching then m.withRegisters fun r => { r with objectAddress := address + 4 }
  else
    let stored := if address.toNat % 4 = 2 then byte &&& Object.storedAttributes else byte
    m.withCircuit fun c =>
      { c with
        objects := c.objects.store address.toNat stored
        registers := { c.registers with objectAddress := address + 1 } }

/-- The second write of a pair shows the cartridge the new address. -/
def writeAddress (byte : UInt8) (cycle : Nat) (m : Machine κ) : Machine κ :=
  let second := m.circuit.registers.scroll.second
  m.withCircuit fun c =>
    let c := c.withScroll (·.writeAddress byte)
    if second then c.expose c.registers.scroll.current.bus cycle else c

def writeVideo (byte : UInt8) (cycle : Nat) (m : Machine κ) : Machine κ :=
  let address := m.circuit.registers.scroll.current.bus
  m.withCircuit fun c =>
    let c := c.expose address cycle
    if paletteBase ≤ address then { c with palette := c.palette.write address byte }
    else c.writeVideo address byte

def writeData (byte : UInt8) (cycle : Nat) (m : Machine κ) : Machine κ :=
  (if m.fetching then m else m.writeVideo byte cycle).advanceAddress

def writeRegister (register : Register) (byte : UInt8) (cycle : Nat) (m : Machine κ) : Machine κ :=
  match register with
  | .control => m.writeControl byte cycle
  | .mask => m.withCircuit (·.setMask ⟨byte⟩)
  | .status => m
  | .objectAddress => m.withRegisters fun r => { r with objectAddress := byte }
  | .objectData => m.writeObjectData byte
  | .scroll => m.withCircuit fun c => c.withScroll (·.writeScroll byte)
  | .address => m.writeAddress byte cycle
  | .data => m.writeData byte cycle

/-- The cycle at which a write to the register lands. -/
def landing (register : Register) (m : Machine κ) : Nat :=
  m.host.cycle + register.writeDelay * m.timing.dot

/-- Writes to a register, which lands after the register's delay. -/
def writeInto (register : Register) (byte : UInt8) (m : Machine κ) : Machine κ :=
  let cycle := m.landing register
  let m := (m.advanceTo cycle).setLines byte
  if m.warmingUp && register.heldBackInWarmUp then m else m.writeRegister register byte cycle

end PictureUnit.Machine
