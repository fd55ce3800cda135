import PictureUnit.Circuit
import PictureUnit.Host

/-!
# The machine

A machine is the circuit with the chip's frame bookkeeping and the processor it serves. It is
always caught up to some master cycle, the count of its clock. The vertical blank latch knows
whether the blank of the open frame was reached, whether a status read suppressed it, and for
which cycle an interrupt is requested.
-/

set_option autoImplicit false

namespace PictureUnit

structure VblankLatch where
  raised : Bool
  suppressed : Bool
  interruptAt : Option Nat
  deriving DecidableEq, Repr

namespace VblankLatch

/-- Outside frames there is nothing left to raise. -/
def parked : VblankLatch := ⟨true, false, none⟩

/-- The start of a frame. -/
def armed : VblankLatch := ⟨false, false, none⟩

end VblankLatch

/-- The phase of the colour burst, which counts dots by threes. -/
abbrev Burst := Fin 3

def Burst.ofNat (n : Nat) : Burst := wrap 3 n

structure Machine (κ : Type) where
  config : Config
  clock : Clock
  vblank : VblankLatch
  circuit : Circuit κ
  /-- Frames completed. -/
  frames : Nat
  oddFrame : Bool
  burst : Burst
  /-- Set-up writes are dropped until a frame completes. -/
  warmingUp : Bool
  inFrame : Bool
  host : Host

inductive ResetKind where
  | cold
  | soft
  deriving DecidableEq, Repr

namespace Circuit

variable {κ : Type}

def new (banks : Banks) (cartridge : κ) : Circuit κ where
  registers := .cleared
  objects := .filled 256 0
  evaluation := .resting
  strips := .empty
  background := .empty
  visibility := Mask.visibility ⟨0⟩
  palette := .new
  banks := banks
  screen := .blank
  bus := 0
  cartridge := cartridge

/-- Empties the pipelines and derives what follows from the mask byte. -/
def restart (c : Circuit κ) : Circuit κ :=
  setMask c.registers.mask
    { c with
      evaluation := .resting
      strips := .empty
      background := .empty
      bus := 0 }

def coldReset (c : Circuit κ) : Circuit κ :=
  restart
    { c with
      registers := .cleared
      objects := .filled 256 0
      banks := { c.banks with internal := .filled internalSize 0 }
      palette := c.palette.load Palette.powerUp }

def softReset (c : Circuit κ) : Circuit κ := restart { c with registers := c.registers.softReset }

end Circuit

namespace Machine

variable {κ : Type}

def timing (m : Machine κ) : Timing := m.config.timing

def withCircuit (f : Circuit κ → Circuit κ) (m : Machine κ) : Machine κ :=
  { m with circuit := f m.circuit }

def withHost (f : Host → Host) (m : Machine κ) : Machine κ := { m with host := f m.host }

/-- Parks the clock where it stands and drops what the frame left behind. -/
def park (m : Machine κ) : Machine κ :=
  { m with clock := .parked m.clock.count, vblank := .parked, inFrame := false }

/-- A cold reset clears all memories but those of the cartridge; a soft one keeps them all. -/
def reset : ResetKind → Machine κ → Machine κ
  | .cold, m =>
    { m.park.withCircuit Circuit.coldReset with oddFrame := false, burst := Burst.ofNat 0, warmingUp := false }
  | .soft, m => { m.park.withCircuit Circuit.softReset with warmingUp := true }

/-- A machine just switched on. -/
def new (config : Config) (banks : Banks) (cartridge : κ) (host : Host) : Machine κ :=
  reset .cold
    { config := config
      clock := .parked 0
      vblank := .parked
      circuit := .new banks cartridge
      frames := 0
      oddFrame := false
      burst := Burst.ofNat 0
      warmingUp := false
      inFrame := false
      host := host }

/-- Asks for an interrupt in place of the one asked for before. -/
def requestInterrupt (cycle : Nat) (m : Machine κ) : Machine κ :=
  { m with
    vblank := { m.vblank with interruptAt := some cycle }
    host := m.host.interruptAt cycle }

def withdrawInterrupt (m : Machine κ) : Machine κ :=
  { m with
    vblank := { m.vblank with interruptAt := none }
    host := m.host.withdrawInterrupt }

def rendering (m : Machine κ) : Bool := m.circuit.registers.mask.rendering

/-- Whether the frame loses a dot, as far as the parity and the mask byte tell now. -/
def dropsDot (m : Machine κ) : Bool := m.timing.skipsOddDot && m.oddFrame && m.rendering

@[simp]
theorem new_warmingUp (config : Config) (banks : Banks) (cartridge : κ) (host : Host) :
    (new config banks cartridge host).warmingUp = false := rfl

end Machine

end PictureUnit
