import PictureUnit.Proofs.Handover
import PictureUnit.Proofs.Session

/-!
# Machines side by side

Two machines that differ in the limit of objects on a line, and in what the bus does not show, have the
same clock, ask the same of the processor, and under the same accesses call their cartridges alike. What
they read may differ, but nothing that a read returns goes back to the bus.
-/

set_option autoImplicit false

namespace PictureUnit

namespace Machine

variable {κ : Type}

/-- The same machine without the limit, and with something else hidden. -/
def concealing (u : Hidden κ) (m : Machine κ) : Machine κ :=
  { m with
    config := { m.config with limit := .unlimited }
    circuit := m.circuit.concealing u }

/-- Machines that differ only in the limit and in what is hidden, with related cartridges. -/
def Beside (Q : κ → κ → Prop) (m n : Machine κ) : Prop :=
  ∃ u, n = m.concealing u ∧ Q m.circuit.cartridge u.cartridge

variable {Q : κ → κ → Prop} {m n : Machine κ}

theorem Beside.circuit (h : m.Beside Q n) : m.circuit.Beside Q n.circuit := by
  obtain ⟨u, rfl, q⟩ := h
  exact ⟨u, rfl, q⟩

theorem Beside.clock (h : m.Beside Q n) : n.clock = m.clock := by
  obtain ⟨u, rfl, -⟩ := h
  rfl

theorem Beside.count (h : m.Beside Q n) : n.clock.count = m.clock.count := congrArg Clock.count h.clock

theorem Beside.lifted (h : m.Beside Q n) : n.config.limit = .unlimited := by
  obtain ⟨u, rfl, -⟩ := h
  rfl

theorem Beside.host (h : m.Beside Q n) : n.host = m.host := by
  obtain ⟨u, rfl, -⟩ := h
  rfl

theorem Beside.inFrame (h : m.Beside Q n) : n.inFrame = m.inFrame := by
  obtain ⟨u, rfl, -⟩ := h
  rfl

theorem Beside.rendering (h : m.Beside Q n) : n.rendering = m.rendering := h.circuit.rendering

/-- Related circuits may take the place of the old ones. -/
theorem Beside.withCircuit (h : m.Beside Q n) {R : κ → κ → Prop} {f g : Circuit κ → Circuit κ}
    (hc : (f m.circuit).Beside R (g n.circuit)) : (m.withCircuit f).Beside R (n.withCircuit g) := by
  obtain ⟨u, rfl, -⟩ := h
  obtain ⟨v, same, q⟩ := hc
  refine ⟨v, ?_, q⟩
  rw [Machine.withCircuit, same]
  rfl

theorem Beside.withHost (h : m.Beside Q n) (f : Host → Host) :
    (m.withHost f).Beside Q (n.withHost f) := by
  obtain ⟨u, rfl, q⟩ := h
  exact ⟨u, rfl, q⟩

theorem Beside.stall (h : m.Beside Q n) (cycles : Nat) : (m.stall cycles).Beside Q (n.stall cycles) := by
  obtain ⟨u, rfl, q⟩ := h
  exact ⟨u, rfl, q⟩

theorem Beside.takeByte (h : m.Beside Q n) (address : Nat) :
    (n.takeByte address).1 = (m.takeByte address).1
      ∧ (m.takeByte address).2.Beside Q (n.takeByte address).2 := by
  obtain ⟨u, rfl, q⟩ := h
  exact ⟨rfl, u, rfl, q⟩

theorem Beside.setLines (h : m.Beside Q n) (byte byte' : UInt8) :
    (m.setLines byte).Beside Q (n.setLines byte') := by
  obtain ⟨u, rfl, q⟩ := h
  exact ⟨{ u with lines := byte' }, rfl, q⟩

theorem Beside.fetching (h : m.Beside Q n) : n.fetching = m.fetching := by
  obtain ⟨u, rfl, -⟩ := h
  rfl

theorem Beside.readStatus (h : m.Beside Q n) (cycle : Nat) :
    (m.readStatus cycle).2.Beside Q (n.readStatus cycle).2 := by
  obtain ⟨u, rfl, q⟩ := h
  have suppressed : (m.concealing u).suppressVblank = m.suppressVblank.concealing u := by
    unfold suppressVblank
    dsimp only
    rw [apply_ite (concealing u)]
    rfl
  have read (p : Machine κ) (same : p.circuit.cartridge = m.circuit.cartridge) :
      (p.withRegisters fun r =>
        { r with status := { r.status with vblank := false }, scroll := r.scroll.rewind }).Beside Q
      ((p.concealing u).withRegisters fun r =>
        { r with status := { r.status with vblank := false }, scroll := r.scroll.rewind }) :=
    ⟨u, rfl, by exact same ▸ q⟩
  by_cases hr : m.racesVblank cycle = true
  · simp only [Machine.readStatus, if_pos hr,
      if_pos (show (m.concealing u).racesVblank cycle = true from hr), suppressed]
    exact read _ (congrArg _ (suppressVblank_circuit m))
  · simp only [Machine.readStatus, if_neg hr,
      if_neg (show ¬ (m.concealing u).racesVblank cycle = true from hr)]
    exact read _ rfl

theorem Beside.advanceAddress (h : m.Beside Q n) : m.advanceAddress.Beside Q n.advanceAddress := by
  obtain ⟨u, rfl, q⟩ := h
  exact ⟨u, rfl, q⟩

theorem Beside.writeObjectData (h : m.Beside Q n) (byte : UInt8) :
    (m.writeObjectData byte).Beside Q (n.writeObjectData byte) := by
  obtain ⟨u, rfl, q⟩ := h
  refine ⟨u, ?_, ?_⟩
  · unfold Machine.writeObjectData
    dsimp only
    rw [apply_ite (concealing u)]
    rfl
  · unfold Machine.writeObjectData
    dsimp only
    split <;> exact q

theorem Beside.switchInterrupt (h : m.Beside Q n) (enabled : Bool) (cycle : Nat) :
    (m.switchInterrupt enabled cycle).Beside Q (n.switchInterrupt enabled cycle) := by
  obtain ⟨u, rfl, q⟩ := h
  refine ⟨u, ?_, ?_⟩
  · unfold Machine.switchInterrupt
    split
    · rw [apply_ite (concealing u), apply_ite (concealing u)]
      rfl
    · have latch : (m.concealing u).vblank = m.vblank := rfl
      rw [latch]
      cases m.vblank.interruptAt with
      | none => rfl
      | some requested =>
        dsimp only
        rw [apply_ite (concealing u)]
        rfl
  · rw [switchInterrupt_circuit]
    exact q

theorem Beside.writeControl (h : m.Beside Q n) (byte : UInt8) (cycle : Nat) :
    (m.writeControl byte cycle).Beside Q (n.writeControl byte cycle) := by
  have before : n.circuit.registers.control = m.circuit.registers.control := h.circuit.front.2.2.1
  have selected : (m.withRegisters fun r =>
      { r with control := ⟨byte⟩, scroll := r.scroll.selectNametable byte }).Beside Q
      (n.withRegisters fun r =>
        { r with control := ⟨byte⟩, scroll := r.scroll.selectNametable byte }) := by
    obtain ⟨u, rfl, q⟩ := h
    exact ⟨u, rfl, q⟩
  have after := selected.circuit.front.2.2.1
  unfold Machine.writeControl
  dsimp only
  rw [before, after]
  split
  · exact selected
  · exact selected.switchInterrupt _ cycle

theorem Beside.settleLength (h : m.Beside Q n) : m.settleLength.Beside Q n.settleLength := by
  obtain ⟨u, rfl, q⟩ := h
  refine ⟨u, ?_, ?_⟩
  · by_cases hs : m.dropsDot = m.clock.short
    · rw [Machine.settleLength, Machine.settleLength, if_pos hs, if_pos (by exact hs)]
    · rw [Machine.settleLength, Machine.settleLength, if_neg hs, if_neg (by exact hs)]
      rw [apply_ite (concealing u)]
      rfl
  · rw [settleLength_circuit]
    exact q

theorem Beside.passBlank (h : m.Beside Q n) (target : Nat) :
    (m.passBlank target).Beside Q (n.passBlank target) := by
  obtain ⟨u, rfl, q⟩ := h
  have raised : (m.concealing u).raiseVblank = m.raiseVblank.concealing u := by
    unfold raiseVblank
    rw [apply_ite (concealing u)]
    rfl
  refine ⟨u, ?_, ?_⟩
  · by_cases hr : m.vblank.raised = false ∧ m.clock.vblankAt < min target m.clock.frameEnd
    · simp only [Machine.passBlank, if_pos hr, raised, if_pos (show (m.concealing u).vblank.raised = false
        ∧ (m.concealing u).clock.vblankAt < min target (m.concealing u).clock.frameEnd from hr)]
      rfl
    · simp only [Machine.passBlank, if_neg hr, if_neg (show ¬ ((m.concealing u).vblank.raised = false
        ∧ (m.concealing u).clock.vblankAt < min target (m.concealing u).clock.frameEnd) from hr)]
      rfl
  · rw [passBlank_cartridge]
    exact q

theorem Beside.openFrame (h : m.Beside Q n) : m.openFrame.Beside Q n.openFrame := by
  obtain ⟨u, rfl, q⟩ := h
  refine ⟨u, ?_, ?_⟩
  · unfold Machine.openFrame
    dsimp only
    rw [apply_ite (concealing u)]
    rfl
  · rw [openFrame_circuit]
    exact q

theorem Beside.closeFrame (h : m.Beside Q n) : m.closeFrame.Beside Q n.closeFrame := by
  obtain ⟨u, rfl, q⟩ := h
  exact ⟨u, rfl, q⟩

variable [Cartridge κ]

open Cartridge (Coupling)

theorem Beside.readVideo (co : Coupling Q) (h : m.Beside Q n) (cycle : Nat) :
    (m.readVideo cycle).2.Beside Q (n.readVideo cycle).2 := by
  have address := congrArg (·.current.bus) h.circuit.front.1
  have exposed := h.circuit.expose co m.circuit.registers.scroll.current.bus cycle
  obtain ⟨byte, read⟩ := exposed.readVideo co
    (if paletteBase ≤ m.circuit.registers.scroll.current.bus then
      m.circuit.registers.scroll.current.bus - 0x1000 else m.circuit.registers.scroll.current.bus)
  have buffered (b : UInt8) {c d : Circuit κ} (h : c.Beside Q d) :
      (c.withRegisters fun r => { r with buffer := b }).Beside Q
        (d.withRegisters fun r => { r with buffer := b }) := by
    obtain ⟨u, rfl, q⟩ := h
    exact ⟨u, rfl, q⟩
  unfold Machine.readVideo
  simp only [address, byte]
  exact h.withCircuit (f := fun _ => _) (g := fun _ => _) (buffered _ read)

theorem Beside.readRegister (co : Coupling Q) (h : m.Beside Q n) (register : Register) (cycle : Nat) :
    (m.readRegister register cycle).2.Beside Q (n.readRegister register cycle).2 := by
  cases register with
  | status => exact h.readStatus cycle
  | data =>
    unfold Machine.readRegister Machine.readData
    dsimp only
    rw [h.fetching]
    split
    · exact h.advanceAddress
    · exact (h.readVideo co cycle).advanceAddress
  | control | mask | objectAddress | objectData | scroll | address => exact h

theorem Beside.writeAddress (co : Coupling Q) (h : m.Beside Q n) (byte : UInt8) (cycle : Nat) :
    (m.writeAddress byte cycle).Beside Q (n.writeAddress byte cycle) := by
  have second := congrArg Scroll.Latch.second h.circuit.front.1
  have written := h.circuit.withScroll (·.writeAddress byte)
  have address := congrArg (·.current.bus) written.front.1
  unfold Machine.writeAddress
  refine h.withCircuit ?_
  simp only [second, address]
  split
  · exact written.expose co _ cycle
  · exact written

theorem Beside.writeVideo (co : Coupling Q) (h : m.Beside Q n) (byte : UInt8) (cycle : Nat) :
    (m.writeVideo byte cycle).Beside Q (n.writeVideo byte cycle) := by
  have address := congrArg (·.current.bus) h.circuit.front.1
  have exposed := h.circuit.expose co m.circuit.registers.scroll.current.bus cycle
  unfold Machine.writeVideo
  refine h.withCircuit ?_
  simp only [address]
  split
  · obtain ⟨u, same, q⟩ := exposed
    rw [same]
    exact ⟨u, rfl, q⟩
  · exact exposed.writeVideo co _ byte

theorem Beside.writeRegister (co : Coupling Q) (h : m.Beside Q n) (register : Register) (byte : UInt8)
    (cycle : Nat) :
    (m.writeRegister register byte cycle).Beside Q (n.writeRegister register byte cycle) := by
  cases register with
  | control => exact h.writeControl byte cycle
  | objectData => exact h.writeObjectData byte
  | address => exact h.writeAddress co byte cycle
  | data =>
    unfold Machine.writeRegister Machine.writeData
    dsimp only
    rw [h.fetching]
    split
    · exact h.advanceAddress
    · exact (h.writeVideo co byte cycle).advanceAddress
  | mask | objectAddress | scroll =>
    obtain ⟨u, rfl, q⟩ := h
    exact ⟨u, rfl, q⟩
  | status => exact h

/-- A dot keeps machines side by side if it keeps their circuits so. -/
theorem Beside.step (h : m.Beside Q n) {R : κ → κ → Prop} {line : Line} {dot : Nat}
    (passed : (m.circuit.dot line dot m.clock.count m.config.limit).Beside R
      (n.circuit.dot line dot n.clock.count n.config.limit)) :
    (m.step line dot).Beside R (n.step line dot) := by
  have run : (m.runDot line dot).Beside R (n.runDot line dot) := h.withCircuit passed
  have settled : ((m.runDot line dot).settleAt line dot).Beside R
      ((n.runDot line dot).settleAt line dot) := by
    unfold settleAt
    split
    · exact run.settleLength
    · exact run
  obtain ⟨u, same, q⟩ := settled
  refine ⟨u, ?_, q⟩
  rw [Machine.step, same]
  rfl

end Machine

end PictureUnit
