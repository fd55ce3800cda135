import PictureUnit.Machine.Transfer

/-!
# Nothing reads the screen

The chip draws on the screen it was given and never looks at it. So a machine with another screen
does the same, but for what is drawn over: every operation commutes with an exchange of the screen.
-/

set_option autoImplicit false

namespace PictureUnit

namespace Circuit

variable {κ : Type}

def withScreen (s : Screen) (c : Circuit κ) : Circuit κ := { c with screen := s }

theorem clearFlags_withScreen (s : Screen) (line : Line) (dot : Nat) (c : Circuit κ) :
    (c.withScreen s).clearFlags line dot = (c.clearFlags line dot).withScreen s := by
  unfold clearFlags
  rw [apply_ite (withScreen s)]
  rfl

theorem concludeSearch_withScreen (s : Screen) (result : Evaluation × Bool) (c : Circuit κ) :
    (c.withScreen s).concludeSearch result = (c.concludeSearch result).withScreen s := by
  unfold concludeSearch
  dsimp only
  rw [apply_ite (withScreen s)]
  rfl

theorem searchStep_withScreen (s : Screen) (y : Nat) (limit : SpriteLimit) (c : Circuit κ) :
    (c.withScreen s).searchStep y limit = (c.searchStep y limit).withScreen s :=
  concludeSearch_withScreen s _ c

theorem searchToEnd_withScreen (s : Screen) (y : Nat) (limit : SpriteLimit) (c : Circuit κ) :
    (c.withScreen s).searchToEnd y limit = (c.searchToEnd y limit).withScreen s :=
  concludeSearch_withScreen s _ c

theorem evaluate_withScreen (s : Screen) (y dot : Nat) (limit : SpriteLimit) (c : Circuit κ) :
    (c.withScreen s).evaluate y dot limit = (c.evaluate y dot limit).withScreen s := by
  let started (c : Circuit κ) : Circuit κ :=
    { c with evaluation := c.evaluation.start c.registers.objectAddress }
  have begun : (if dot = 65 then started (c.withScreen s) else c.withScreen s)
      = withScreen s (if dot = 65 then started c else c) := by
    rw [apply_ite (withScreen s)]
    rfl
  unfold evaluate
  split
  · rfl
  split
  · rfl
  · dsimp only
    split
    · exact (congrArg (searchStep y limit) begun).trans (searchStep_withScreen s y limit _)
    · split
      · exact (congrArg (searchToEnd y limit) begun).trans (searchToEnd_withScreen s y limit _)
      · exact begun

theorem latchSlot_withScreen (s : Screen) (dot : Nat) (c : Circuit κ) :
    (c.withScreen s).latchSlot dot = (c.latchSlot dot).withScreen s := rfl

theorem rewindAddress_withScreen (s : Screen) (line : Line) (dot : Nat) (c : Circuit κ) :
    (c.withScreen s).rewindAddress line dot = (c.rewindAddress line dot).withScreen s := by
  unfold rewindAddress
  split
  · rfl
  · rw [apply_ite (withScreen s)]
    rfl

theorem clearObjectAddress_withScreen (s : Screen) (dot : Nat) (c : Circuit κ) :
    (c.withScreen s).clearObjectAddress dot = (c.clearObjectAddress dot).withScreen s := by
  unfold clearObjectAddress
  rw [apply_ite (withScreen s)]
  rfl

variable [Cartridge κ]

theorem readPattern_withScreen (s : Screen) (address : Nat) (c : Circuit κ) :
    (c.withScreen s).readPattern address
      = ((c.readPattern address).1, (c.readPattern address).2.withScreen s) := by
  have banks : (c.withScreen s).banks = c.banks := rfl
  unfold readPattern
  rw [banks]
  cases c.banks.patternCell address <;> rfl

theorem readName_withScreen (s : Screen) (address : Nat) (c : Circuit κ) :
    (c.withScreen s).readName address
      = ((c.readName address).1, (c.readName address).2.withScreen s) := by
  have banks : (c.withScreen s).banks = c.banks := rfl
  unfold readName
  rw [banks]
  cases c.banks.nameCell address <;> rfl

theorem readVideo_withScreen (s : Screen) (address : Nat) (c : Circuit κ) :
    (c.withScreen s).readVideo address
      = ((c.readVideo address).1, (c.readVideo address).2.withScreen s) := by
  unfold readVideo
  split
  · exact readPattern_withScreen s address c
  · exact readName_withScreen s address c

theorem writeVideo_withScreen (s : Screen) (address : Nat) (byte : UInt8) (c : Circuit κ) :
    (c.withScreen s).writeVideo address byte = (c.writeVideo address byte).withScreen s := by
  have banks : (c.withScreen s).banks = c.banks := rfl
  unfold writeVideo
  split
  · unfold writePattern
    rw [banks]
    cases c.banks.patternCell address <;> rfl
  · unfold writeName
    rw [banks]
    cases c.banks.nameCell address <;> rfl

theorem fetchTile_withScreen (s : Screen) (phase : Phase) (dot cycle : Nat) (c : Circuit κ) :
    (c.withScreen s).fetchTile phase dot cycle = (c.fetchTile phase dot cycle).withScreen s := by
  have name := readName_withScreen s c.bus c
  have pattern := readPattern_withScreen s c.bus c
  change (c.withScreen s).readName (c.withScreen s).bus = _ at name
  change (c.withScreen s).readPattern (c.withScreen s).bus = _ at pattern
  cases phase with
  | openName | openAttributes | openLow | openHigh => rfl
  | name | attributes =>
    simp only [fetchTile, name]
    rfl
  | low | high =>
    simp only [fetchTile, pattern]
    rfl

theorem fetchObject_withScreen (s : Screen) (line : Line) (slot : Nat) (phase : Phase)
    (cycle : Nat) (c : Circuit κ) : (c.withScreen s).fetchObject line slot phase cycle
      = (c.fetchObject line slot phase cycle).withScreen s := by
  have name := readName_withScreen s c.bus c
  have pattern := readPattern_withScreen s c.bus c
  change (c.withScreen s).readName (c.withScreen s).bus = _ at name
  change (c.withScreen s).readPattern (c.withScreen s).bus = _ at pattern
  cases phase with
  | openName | openAttributes | openLow | openHigh => rfl
  | name | attributes => simp only [fetchObject, name]
  | low | high =>
    simp only [fetchObject, pattern]
    rfl

theorem fetchExtra_withScreen (s : Screen) (line : Line) (slot : Nat) (c : Circuit κ) :
    (c.withScreen s).fetchExtra line slot = (c.fetchExtra line slot).withScreen s := by
  let d : Circuit κ := { c with strips := c.strips.select slot c.evaluation.secondary }
  let address := d.strips.object.lowAddress line d.registers.control
  have low := readPattern_withScreen s address d
  have high := readPattern_withScreen s (highPlane address) (d.readPattern address).2
  have same : (c.withScreen s).fetchExtra line slot =
      let low := (d.withScreen s).readPattern address
      let high := low.2.readPattern (highPlane address)
      { high.2 with strips := (high.2.strips.latchLow low.1).commit slot high.1 } := rfl
  rw [same, low]
  dsimp only
  rw [high]
  rfl

theorem fetchExtras_withScreen (s : Screen) (line : Line) (c : Circuit κ) :
    (c.withScreen s).fetchExtras line = (c.fetchExtras line).withScreen s := by
  have fetched (slots : List Nat) (c : Circuit κ) :
      slots.foldl (fetchExtra line) (c.withScreen s)
        = (slots.foldl (fetchExtra line) c).withScreen s := by
    induction slots generalizing c with
    | nil => rfl
    | cons slot rest ih => rw [List.foldl_cons, fetchExtra_withScreen, ih, List.foldl_cons]
  exact fetched _ c

theorem fetch_withScreen (s : Screen) (line : Line) (dot cycle : Nat) (c : Circuit κ) :
    (c.withScreen s).fetch line dot cycle = (c.fetch line dot cycle).withScreen s := by
  unfold fetch
  split
  · rfl
  · exact fetchTile_withScreen s _ dot cycle c
  · next slot phase _ =>
    dsimp only
    rw [fetchObject_withScreen]
    split
    · rw [fetchExtras_withScreen, latchSlot_withScreen]
    · rfl
  · rfl
  · exact congrArg Prod.snd (readName_withScreen s c.bus c)

theorem render_withScreen (s : Screen) (line : Line) (dot cycle : Nat) (limit : SpriteLimit)
    (c : Circuit κ) :
    (c.withScreen s).render line dot cycle limit = (c.render line dot cycle limit).withScreen s := by
  have prepared (d : Circuit κ) :
      (if dot = objectFetchStart then (d.withScreen s).prepareStrips line else d.withScreen s)
        = withScreen s (if dot = objectFetchStart then d.prepareStrips line else d) := by
    rw [apply_ite (withScreen s)]
    rfl
  unfold render
  cases line with
  | preRender =>
    dsimp only
    rw [prepared, fetch_withScreen, rewindAddress_withScreen, clearObjectAddress_withScreen]
  | visible y =>
    dsimp only
    rw [evaluate_withScreen, prepared, fetch_withScreen, rewindAddress_withScreen,
      clearObjectAddress_withScreen]

end Circuit

namespace Machine

variable {κ : Type}

def withScreen (s : Screen) (m : Machine κ) : Machine κ := m.withCircuit (·.withScreen s)

theorem settleLength_withScreen (s : Screen) (m : Machine κ) :
    (m.withScreen s).settleLength = m.settleLength.withScreen s := by
  by_cases hs : m.dropsDot = m.clock.short
  · rw [settleLength, settleLength, if_pos hs, if_pos (by exact hs)]
  · rw [settleLength, settleLength, if_neg hs, if_neg (by exact hs)]
    rw [apply_ite (withScreen s)]
    rfl

theorem raiseVblank_withScreen (s : Screen) (m : Machine κ) :
    (m.withScreen s).raiseVblank = m.raiseVblank.withScreen s := by
  unfold raiseVblank
  rw [apply_ite (withScreen s)]
  rfl

theorem passBlank_withScreen (s : Screen) (target : Nat) (m : Machine κ) :
    (m.withScreen s).passBlank target = (m.passBlank target).withScreen s := by
  by_cases hr : m.vblank.raised = false ∧ m.clock.vblankAt < min target m.clock.frameEnd
  · simp only [passBlank, if_pos hr, raiseVblank_withScreen,
      if_pos (show (m.withScreen s).vblank.raised = false
        ∧ (m.withScreen s).clock.vblankAt < min target (m.withScreen s).clock.frameEnd from hr)]
    rfl
  · simp only [passBlank, if_neg hr,
      if_neg (show ¬ ((m.withScreen s).vblank.raised = false
        ∧ (m.withScreen s).clock.vblankAt < min target (m.withScreen s).clock.frameEnd) from hr)]
    rfl

theorem readStatus_withScreen (s : Screen) (cycle : Nat) (m : Machine κ) :
    (m.withScreen s).readStatus cycle
      = ((m.readStatus cycle).1, (m.readStatus cycle).2.withScreen s) := by
  have suppressed : (m.withScreen s).suppressVblank = m.suppressVblank.withScreen s := by
    unfold suppressVblank
    dsimp only
    rw [apply_ite (withScreen s)]
    rfl
  by_cases hr : m.racesVblank cycle = true
  · simp only [readStatus, if_pos hr, if_pos (show (m.withScreen s).racesVblank cycle = true from hr),
      suppressed]
    rfl
  · simp only [readStatus, if_neg hr, if_neg (show ¬ (m.withScreen s).racesVblank cycle = true from hr)]
    rfl

theorem switchInterrupt_withScreen (s : Screen) (enabled : Bool) (cycle : Nat) (m : Machine κ) :
    (m.withScreen s).switchInterrupt enabled cycle
      = (m.switchInterrupt enabled cycle).withScreen s := by
  unfold switchInterrupt
  split
  · rw [apply_ite (withScreen s), apply_ite (withScreen s)]
    rfl
  · have latch : (m.withScreen s).vblank = m.vblank := rfl
    rw [latch]
    cases m.vblank.interruptAt with
    | none => rfl
    | some requested =>
      dsimp only
      rw [apply_ite (withScreen s)]
      rfl

theorem writeControl_withScreen (s : Screen) (byte : UInt8) (cycle : Nat) (m : Machine κ) :
    (m.withScreen s).writeControl byte cycle = (m.writeControl byte cycle).withScreen s := by
  let selected := m.withCircuit fun c => c.withRegisters fun r =>
    { r with control := ⟨byte⟩, scroll := r.scroll.selectNametable byte }
  have switched := switchInterrupt_withScreen s (Control.interrupts ⟨byte⟩) cycle selected
  have same : (m.withScreen s).writeControl byte cycle
      = if Control.interrupts ⟨byte⟩ = m.circuit.registers.control.interrupts
        then selected.withScreen s
        else (selected.withScreen s).switchInterrupt (Control.interrupts ⟨byte⟩) cycle := rfl
  rw [same, switched, ← apply_ite (withScreen s)]
  rfl

theorem writeObjectData_withScreen (s : Screen) (byte : UInt8) (m : Machine κ) :
    (m.withScreen s).writeObjectData byte = (m.writeObjectData byte).withScreen s := by
  unfold writeObjectData
  dsimp only
  rw [apply_ite (withScreen s)]
  rfl

theorem copyByte_withScreen (s : Screen) (m : Machine κ) (address : Nat) :
    (m.withScreen s).copyByte address = (m.copyByte address).withScreen s :=
  writeObjectData_withScreen s (m.host.memory address)
    ((m.takeByte address).2.setLines (m.host.memory address))

theorem stall_withScreen (s : Screen) (cycles : Nat) (m : Machine κ) :
    (m.withScreen s).stall cycles = (m.stall cycles).withScreen s := rfl

theorem copyPage_withScreen (s : Screen) (page : UInt8) (m : Machine κ) :
    (m.withScreen s).copyPage page = (m.copyPage page).withScreen s := by
  have copied (addresses : List Nat) (m : Machine κ) :
      addresses.foldl copyByte (m.withScreen s) = (addresses.foldl copyByte m).withScreen s := by
    induction addresses generalizing m with
    | nil => rfl
    | cons address rest ih => rw [List.foldl_cons, copyByte_withScreen, ih, List.foldl_cons]
  unfold copyPage
  rw [copied, stall_withScreen]

variable [Cartridge κ]

theorem readVideo_withScreen (s : Screen) (cycle : Nat) (m : Machine κ) :
    (m.withScreen s).readVideo cycle
      = ((m.readVideo cycle).1, (m.readVideo cycle).2.withScreen s) := by
  let address := m.circuit.registers.scroll.current.bus
  let source := if paletteBase ≤ address then address - 0x1000 else address
  let exposed := m.circuit.expose address cycle
  have same : (m.withScreen s).readVideo cycle =
      let read := (exposed.withScreen s).readVideo source
      let c := read.2.withRegisters fun r => { r with buffer := read.1 }
      (if paletteBase ≤ address then (c.registers.lines &&& 0xC0) ||| c.palette.read address
        else m.circuit.registers.buffer, { m with circuit := c }) := rfl
  rw [same, Circuit.readVideo_withScreen]
  rfl

theorem readData_withScreen (s : Screen) (cycle : Nat) (m : Machine κ) :
    (m.withScreen s).readData cycle
      = ((m.readData cycle).1, (m.readData cycle).2.withScreen s) := by
  by_cases hf : m.fetching = true
  · simp only [readData, if_pos hf, if_pos (show (m.withScreen s).fetching = true from hf)]
    rfl
  · simp only [readData, if_neg hf, if_neg (show ¬ (m.withScreen s).fetching = true from hf),
      readVideo_withScreen]
    rfl

theorem readRegister_withScreen (s : Screen) (register : Register) (cycle : Nat) (m : Machine κ) :
    (m.withScreen s).readRegister register cycle
      = ((m.readRegister register cycle).1, (m.readRegister register cycle).2.withScreen s) := by
  cases register with
  | status => exact readStatus_withScreen s cycle m
  | data => exact readData_withScreen s cycle m
  | control | mask | objectAddress | objectData | scroll | address => rfl

theorem writeAddress_withScreen (s : Screen) (byte : UInt8) (cycle : Nat) (m : Machine κ) :
    (m.withScreen s).writeAddress byte cycle = (m.writeAddress byte cycle).withScreen s := by
  by_cases hs : m.circuit.registers.scroll.second = true
  · simp only [writeAddress, if_pos hs,
      if_pos (show (m.withScreen s).circuit.registers.scroll.second = true from hs)]
    rfl
  · simp only [writeAddress, if_neg hs,
      if_neg (show ¬ (m.withScreen s).circuit.registers.scroll.second = true from hs)]
    rfl

theorem writeVideo_withScreen (s : Screen) (byte : UInt8) (cycle : Nat) (m : Machine κ) :
    (m.withScreen s).writeVideo byte cycle = (m.writeVideo byte cycle).withScreen s := by
  let address := m.circuit.registers.scroll.current.bus
  let exposed := m.circuit.expose address cycle
  have same : (m.withScreen s).writeVideo byte cycle
      = m.withCircuit fun _ => if paletteBase ≤ address then
          { exposed with palette := exposed.palette.write address byte }.withScreen s
        else (exposed.withScreen s).writeVideo address byte := rfl
  rw [same, Circuit.writeVideo_withScreen, ← apply_ite (Circuit.withScreen s)]
  rfl

theorem writeData_withScreen (s : Screen) (byte : UInt8) (cycle : Nat) (m : Machine κ) :
    (m.withScreen s).writeData byte cycle = (m.writeData byte cycle).withScreen s := by
  have same : (m.withScreen s).writeData byte cycle
      = (if m.fetching then m.withScreen s
        else (m.withScreen s).writeVideo byte cycle).advanceAddress := rfl
  rw [same, writeVideo_withScreen, ← apply_ite (withScreen s)]
  rfl

theorem writeRegister_withScreen (s : Screen) (register : Register) (byte : UInt8) (cycle : Nat)
    (m : Machine κ) : (m.withScreen s).writeRegister register byte cycle
      = (m.writeRegister register byte cycle).withScreen s := by
  cases register with
  | control => exact writeControl_withScreen s byte cycle m
  | objectData => exact writeObjectData_withScreen s byte m
  | address => exact writeAddress_withScreen s byte cycle m
  | data => exact writeData_withScreen s byte cycle m
  | mask | status | objectAddress | scroll => rfl

end Machine

end PictureUnit
