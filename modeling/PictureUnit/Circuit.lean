import PictureUnit.Background
import PictureUnit.Cartridge
import PictureUnit.Object.Evaluation
import PictureUnit.Object.Strip
import PictureUnit.Palette
import PictureUnit.Status
import PictureUnit.Scroll.Latch

/-!
# The circuit

The circuit is all that a dot or a register can touch: the registers, the memories, the two
pipelines, the screen, and the cartridge on the chip's bus. It knows nothing of frames or of
the processor. Cells behind a cartridge slot are read and written by the cartridge.
-/

set_option autoImplicit false

namespace PictureUnit

structure Registers where
  control : Control
  mask : Mask
  status : Status
  objectAddress : UInt8
  scroll : Scroll.Latch
  /-- The byte that the next data read returns. -/
  buffer : UInt8
  /-- The byte last seen on the data lines. -/
  lines : UInt8
  deriving DecidableEq, Repr

namespace Registers

def cleared : Registers := ⟨⟨0⟩, ⟨0⟩, .clear, 0, .cleared, 0, 0⟩

/-- Clears the set-up but keeps the current address, the flags and the object address. -/
def softReset (r : Registers) : Registers :=
  { cleared with
    status := r.status
    objectAddress := r.objectAddress
    scroll := { Scroll.Latch.cleared with current := r.scroll.current } }

end Registers

structure Circuit (κ : Type) where
  registers : Registers
  objects : Block 256
  evaluation : Evaluation
  strips : Strips
  background : Background
  visibility : Visibility
  palette : Palette
  banks : Banks
  screen : Screen
  /-- The address last driven by a fetch. -/
  bus : Nat
  cartridge : κ

namespace Circuit

variable {κ : Type} [Cartridge κ]

/-- Shows the cartridge an address without fetching from it. -/
def expose (address cycle : Nat) (c : Circuit κ) : Circuit κ :=
  { c with cartridge := Cartridge.observe address cycle c.cartridge }

/-- Puts the address of the next read on the bus. -/
def drive (address cycle : Nat) (c : Circuit κ) : Circuit κ :=
  expose address cycle { c with bus := address }

def readPattern (address : Nat) (c : Circuit κ) : UInt8 × Circuit κ :=
  match c.banks.patternCell address with
  | .cartridge =>
    let (byte, k) := Cartridge.readPattern (address % patternSpace) c.cartridge
    (byte, { c with cartridge := k })
  | cell => (c.banks.load cell, c)

def readName (address : Nat) (c : Circuit κ) : UInt8 × Circuit κ :=
  match c.banks.nameCell address with
  | .cartridge =>
    let (byte, k) := Cartridge.readName address c.cartridge
    (byte, { c with cartridge := k })
  | cell => (c.banks.load cell, c)

/-- Reads below the palette. -/
def readVideo (address : Nat) (c : Circuit κ) : UInt8 × Circuit κ :=
  if address < patternSpace then c.readPattern address else c.readName address

def writePattern (address : Nat) (byte : UInt8) (c : Circuit κ) : Circuit κ :=
  match c.banks.patternCell address with
  | .cartridge =>
    { c with cartridge := Cartridge.writePattern (address % patternSpace) byte c.cartridge }
  | cell => { c with banks := c.banks.store byte cell }

def writeName (address : Nat) (byte : UInt8) (c : Circuit κ) : Circuit κ :=
  match c.banks.nameCell address with
  | .cartridge => { c with cartridge := Cartridge.writeName address byte c.cartridge }
  | cell => { c with banks := c.banks.store byte cell }

/-- Writes below the palette. -/
def writeVideo (address : Nat) (byte : UInt8) (c : Circuit κ) : Circuit κ :=
  if address < patternSpace then c.writePattern address byte else c.writeName address byte

def activeStart (line : Line) (c : Circuit κ) : Circuit κ :=
  let (banks, k) := Cartridge.activeStart line c.registers.mask.rendering c.banks c.cartridge
  { c with banks := banks, cartridge := k }

def blankStart (line : Line) (c : Circuit κ) : Circuit κ :=
  let (banks, k) := Cartridge.blankStart line c.registers.mask.rendering c.banks c.cartridge
  { c with banks := banks, cartridge := k }

def withRegisters (f : Registers → Registers) (c : Circuit κ) : Circuit κ :=
  { c with registers := f c.registers }

def withStatus (f : Status → Status) (c : Circuit κ) : Circuit κ :=
  c.withRegisters fun r => { r with status := f r.status }

def withScroll (f : Scroll.Latch → Scroll.Latch) (c : Circuit κ) : Circuit κ :=
  c.withRegisters fun r => { r with scroll := f r.scroll }

/-- Moves the current address. -/
def withCurrent (f : Scroll.Address → Scroll.Address) (c : Circuit κ) : Circuit κ :=
  c.withScroll fun l => { l with current := f l.current }

def setMask (mask : Mask) (c : Circuit κ) : Circuit κ :=
  { c with
    registers := { c.registers with mask := mask }
    visibility := mask.visibility
    palette := c.palette.setMask mask }

end Circuit

end PictureUnit
