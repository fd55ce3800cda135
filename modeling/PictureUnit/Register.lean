/-!
# The eight registers

The processor sees eight registers, repeated over a whole address range. Writes to four of them
set up the picture: they land one dot after the access, and are dropped while the chip is
still warming up after a reset.
-/

set_option autoImplicit false

namespace PictureUnit

inductive Register where
  | control
  | mask
  | status
  | objectAddress
  | objectData
  | scroll
  | address
  | data
  deriving DecidableEq, Repr

def Register.ofAddress (address : Nat) : Register :=
  match address % 8 with
  | 0 => .control
  | 1 => .mask
  | 2 => .status
  | 3 => .objectAddress
  | 4 => .objectData
  | 5 => .scroll
  | 6 => .address
  | _ => .data

def Register.index : Register → Nat
  | .control => 0
  | .mask => 1
  | .status => 2
  | .objectAddress => 3
  | .objectData => 4
  | .scroll => 5
  | .address => 6
  | .data => 7

def Register.location (r : Register) : Nat := 0x2000 + r.index

def Register.isSetup : Register → Bool
  | .control | .mask | .scroll | .address => true
  | .status | .objectAddress | .objectData | .data => false

/-- Dots between a write and the moment it lands. -/
def Register.writeDelay (r : Register) : Nat := if r.isSetup then 1 else 0

def Register.heldBackInWarmUp (r : Register) : Bool := r.isSetup

/-- The address that starts a transfer of a whole page into object memory. -/
def transferAddress : Nat := 0x4014

theorem ofAddress_location (r : Register) : Register.ofAddress r.location = r := by
  cases r <;> rfl

theorem Register.index_ofAddress (address : Nat) : (ofAddress address).index = address % 8 := by
  have small : address % 8 < 8 := Nat.mod_lt _ (by decide)
  unfold ofAddress
  generalize address % 8 = port at small
  revert port
  decide

theorem ofAddress_add_eight (address : Nat) :
    Register.ofAddress (address + 8) = Register.ofAddress address := by
  simp [Register.ofAddress]

end PictureUnit
