import PictureUnit.Region

/-!
# The processor's side

The chip reads the processor's master clock and memory, stalls it during transfers, and asks
it for an interrupt at some cycle or takes that request back. Everything asked of the
processor is kept, latest first.
-/

set_option autoImplicit false

namespace PictureUnit

inductive Host.Event where
  | interruptAt (cycle : Nat)
  | interruptWithdrawn
  | stalled (cycles : Nat)
  | transferred (address cycle : Nat)
  deriving DecidableEq, Repr

structure Host where
  cycle : Nat
  memory : Nat → UInt8
  /-- Processor cycles lost to transfers so far. -/
  stalled : Nat
  events : List Host.Event

namespace Host

def new (memory : Nat → UInt8) : Host := ⟨0, memory, 0, []⟩

def interruptAt (cycle : Nat) (h : Host) : Host :=
  { h with events := .interruptAt cycle :: h.events }

def withdrawInterrupt (h : Host) : Host := { h with events := .interruptWithdrawn :: h.events }

/-- Stalls the processor, which moves its clock on. -/
def stall (t : Timing) (cycles : Nat) (h : Host) : Host :=
  { h with
    cycle := h.cycle + cycles * t.cpuCycle
    stalled := h.stalled + cycles
    events := .stalled cycles :: h.events }

def transfer (address : Nat) (h : Host) : UInt8 × Host :=
  (h.memory address, { h with events := .transferred address h.cycle :: h.events })

end Host

end PictureUnit
