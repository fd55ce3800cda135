import PictureUnit.Machine.Transfer
import PictureUnit.Overflow

/-!
# The span of the master clock

Master cycles are counted in sixty-four bits. A write is done at a later cycle than its own: when
it has landed, or, for a page transfer, when the processor goes on. A write that is not done by
the last cycle of all is refused, and so is a wait past that cycle.
-/

set_option autoImplicit false

namespace PictureUnit

/-- Lets the processor go on for some cycles. -/
def Host.wait (cycles : Nat) (h : Host) : Except Overflow Host :=
  (sumWithin largest64 h.cycle cycles).map fun cycle => { h with cycle := cycle }

namespace Machine

variable {κ : Type}

def wait (cycles : Nat) (m : Machine κ) : Except Overflow (Machine κ) :=
  (m.host.wait cycles).map fun host => { m with host := host }

def writeEnd (address : Nat) (m : Machine κ) : Nat :=
  if address = transferAddress then m.transferEnd else m.landing (.ofAddress address)

variable [Cartridge κ]

def transferWithin (page : UInt8) (m : Machine κ) : Except Overflow (Machine κ) :=
  if m.transferEnd ≤ largest64 then .ok (m.transferPage page) else .error .sum

def writeWithin (address : Nat) (byte : UInt8) (m : Machine κ) : Except Overflow (Machine κ) :=
  if m.writeEnd address ≤ largest64 then .ok (m.write address byte) else .error .sum

theorem transferWithin_eq_ok_iff {page : UInt8} {m n : Machine κ} :
    m.transferWithin page = .ok n ↔ m.transferEnd ≤ largest64 ∧ n = m.transferPage page := by
  unfold transferWithin
  by_cases h : m.transferEnd ≤ largest64 <;> simp [h, eq_comm]

theorem writeWithin_eq_ok_iff {address : Nat} {byte : UInt8} {m n : Machine κ} :
    m.writeWithin address byte = .ok n ↔
      m.writeEnd address ≤ largest64 ∧ n = m.write address byte := by
  unfold writeWithin
  by_cases h : m.writeEnd address ≤ largest64 <;> simp [h, eq_comm]

end Machine

end PictureUnit
