import PictureUnit.Proofs.AddressLine
import PictureUnit.Proofs.Darkness
import PictureUnit.Proofs.Derived

/-!
# What the cartridge sees

The cartridge watches the address lines. A dot shows it the address of its fetch, if it is rendered; an
access shows it the current address when it reaches the video memory, and a new address when that is
complete. Nothing else shows it any address, so what it has seen grows by one address at a time.
-/

set_option autoImplicit false

namespace PictureUnit

variable {κ : Type} [Cartridge κ]

/-- Told of some places in the dark, a cartridge sees no address. -/
theorem Recorded.observed_hooks (rendering : Bool) (places : List (Line × Nat))
    (b : Banks × Recorded κ) : (places.foldl (Cartridge.hook rendering) b).2.observed = b.2.observed := by
  have silent (place : Line × Nat) :
      (Cartridge.Call.ofPlace rendering place).bind Cartridge.Call.observed? = none := by
    unfold Cartridge.Call.ofPlace
    split
    · rfl
    · split <;> rfl
  rw [observed, calls_hooks, List.filterMap_append, List.filterMap_reverse, List.filterMap_filterMap]
  simp only [silent, List.filterMap_none, List.reverse_nil, List.nil_append]
  rfl

namespace Circuit

omit [Cartridge κ] in
/-- The address that a dot puts out. -/
def shown? (line : Line) (dot : Nat) (c : Circuit κ) : Option Nat :=
  if c.registers.mask.rendering then c.works.driven? line (.ofDot dot) else none

/-- A dot shows the cartridge its address, with the cycle it begins at. -/
theorem dot_observed (line : Line) (dot cycle : Nat) (limit : SpriteLimit) (c : Circuit (Recorded κ)) :
    (c.dot line dot cycle limit).cartridge.observed
      = ((c.shown? line dot).map (·, cycle)).toList ++ c.cartridge.observed := by
  cases on : c.registers.mask.rendering with
  | true =>
    rw [shown?, if_pos on]
    exact (dot_drives on line dot cycle limit).observed
  | false =>
    rw [shown?, if_neg (ne_true_of_eq_false on), dot_dark on]
    exact Recorded.observed_hooks false [(line, dot)] (c.banks, c.cartridge)

theorem readVideo_observed (address : Nat) (c : Circuit (Recorded κ)) :
    (c.readVideo address).2.cartridge.observed = c.cartridge.observed := by
  unfold readVideo
  split
  · exact (readPattern_drives address 0 c).observed
  · exact (readName_drives address 0 c).observed

theorem writeVideo_observed (address : Nat) (byte : UInt8) (c : Circuit (Recorded κ)) :
    (c.writeVideo address byte).cartridge.observed = c.cartridge.observed := by
  unfold writeVideo
  split
  · unfold writePattern
    split <;> rfl
  · unfold writeName
    split <;> rfl

end Circuit

namespace Machine

/-- The address that an access to the video memory puts out. -/
def currentBus? (m : Machine κ) : Option Nat :=
  if m.fetching then none else some m.circuit.registers.scroll.current.bus

/-- The address that the reading of a register puts out. -/
def shownByRead? (register : Register) (m : Machine κ) : Option Nat :=
  if register = .data then m.currentBus? else none

/-- The address that a write to a register puts out, if it is not held back. -/
def shownByWrite? (register : Register) (byte : UInt8) (m : Machine κ) : Option Nat :=
  match register with
  | .data => m.currentBus?
  | .address =>
    let scroll := m.circuit.registers.scroll
    if scroll.second then some (scroll.writeAddress byte).current.bus else none
  | .control | .mask | .status | .objectAddress | .objectData | .scroll => none

theorem readVideo_shown (cycle : Nat) (m : Machine (Recorded κ)) :
    (m.readVideo cycle).2.circuit.cartridge.observed
      = (m.circuit.registers.scroll.current.bus, cycle) :: m.circuit.cartridge.observed := by
  unfold readVideo
  dsimp only
  exact Circuit.readVideo_observed _ _

theorem readData_shown (cycle : Nat) (m : Machine (Recorded κ)) :
    (m.readData cycle).2.circuit.cartridge.observed
      = (m.currentBus?.map (·, cycle)).toList ++ m.circuit.cartridge.observed := by
  unfold readData currentBus?
  split
  · rfl
  · exact readVideo_shown cycle m

theorem writeVideo_shown (byte : UInt8) (cycle : Nat) (m : Machine (Recorded κ)) :
    (m.writeVideo byte cycle).circuit.cartridge.observed
      = (m.circuit.registers.scroll.current.bus, cycle) :: m.circuit.cartridge.observed := by
  unfold writeVideo withCircuit
  dsimp only
  split
  · rfl
  · exact Circuit.writeVideo_observed _ _ _

theorem writeData_shown (byte : UInt8) (cycle : Nat) (m : Machine (Recorded κ)) :
    (m.writeData byte cycle).circuit.cartridge.observed
      = (m.currentBus?.map (·, cycle)).toList ++ m.circuit.cartridge.observed := by
  unfold writeData currentBus?
  split
  · rfl
  · exact writeVideo_shown byte cycle m

theorem writeAddress_shown (byte : UInt8) (cycle : Nat) (m : Machine (Recorded κ)) :
    (m.writeAddress byte cycle).circuit.cartridge.observed
      = ((m.shownByWrite? .address byte).map (·, cycle)).toList ++ m.circuit.cartridge.observed := by
  unfold writeAddress shownByWrite? withCircuit
  dsimp only
  split <;> rfl

/-- Reading a register shows the cartridge its address, if it has one. -/
theorem readRegister_observed (register : Register) (cycle : Nat) (m : Machine (Recorded κ)) :
    (m.readRegister register cycle).2.circuit.cartridge.observed
      = ((m.shownByRead? register).map (·, cycle)).toList ++ m.circuit.cartridge.observed := by
  cases register with
  | status =>
    unfold readRegister readStatus
    dsimp only
    split
    · exact congrArg (·.cartridge.observed) (suppressVblank_circuit m)
    · rfl
  | data => exact readData_shown cycle m
  | control | mask | objectAddress | objectData | scroll | address => rfl

/-- A write to a register shows the cartridge its address, if it has one. -/
theorem writeRegister_observed (register : Register) (byte : UInt8) (cycle : Nat)
    (m : Machine (Recorded κ)) : (m.writeRegister register byte cycle).circuit.cartridge.observed
      = ((m.shownByWrite? register byte).map (·, cycle)).toList ++ m.circuit.cartridge.observed := by
  cases register with
  | control =>
    unfold writeRegister writeControl
    dsimp only
    split
    · rfl
    · rw [switchInterrupt_circuit]
      rfl
  | objectData =>
    unfold writeRegister writeObjectData
    dsimp only
    split <;> rfl
  | address => exact writeAddress_shown byte cycle m
  | data => exact writeData_shown byte cycle m
  | mask | status | objectAddress | scroll => rfl

theorem put_observed (register : Register) (byte : UInt8) (cycle : Nat) (m : Machine (Recorded κ)) :
    (m.put register byte cycle).circuit.cartridge.observed
      = ((if m.warmingUp && register.heldBackInWarmUp then none
          else m.shownByWrite? register byte).map (·, cycle)).toList
        ++ m.circuit.cartridge.observed := by
  unfold put
  by_cases held : (m.warmingUp && register.heldBackInWarmUp) = true
  · rw [if_pos held]
    dsimp only
    rw [if_pos (by exact held)]
    rfl
  · rw [if_neg held]
    dsimp only
    rw [if_neg (by exact held)]
    exact writeRegister_observed register byte cycle (m.setLines byte)

theorem landByte_observed (byte : UInt8) (m : Machine (Recorded κ)) :
    (m.landByte byte).circuit.cartridge.observed = m.circuit.cartridge.observed :=
  writeRegister_observed .objectData byte 0 (m.setLines byte)

end Machine

end PictureUnit
