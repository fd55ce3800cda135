import PictureUnit.Machine.Transfer

/-!
# Between two dots

What the processor does to a register happens between two dots. It reaches the registers, the
memories and the cartridge, but neither the clock, nor the pipelines, nor the screen. The
cartridge is only shown addresses and asked for its own cells.
-/

set_option autoImplicit false

namespace PictureUnit

/-- One cartridge comes from another one by serving reads, writes and addresses. -/
inductive Cartridge.Served {κ : Type} [Cartridge κ] : κ → κ → Prop where
  | refl (k : κ) : Served k k
  | observe {k l : κ} (address cycle : Nat) (h : Served k l) :
      Served k (Cartridge.observe address cycle l)
  | readPattern {k l : κ} (address : Nat) (h : Served k l) :
      Served k (Cartridge.readPattern address l).2
  | writePattern {k l : κ} (address : Nat) (byte : UInt8) (h : Served k l) :
      Served k (Cartridge.writePattern address byte l)
  | readName {k l : κ} (address : Nat) (h : Served k l) :
      Served k (Cartridge.readName address l).2
  | writeName {k l : κ} (address : Nat) (byte : UInt8) (h : Served k l) :
      Served k (Cartridge.writeName address byte l)

theorem Cartridge.Served.trans {κ : Type} [Cartridge κ] {k l n : κ}
    (h : Served k l) (h' : Served l n) : Served k n := by
  induction h' with
  | refl => exact h
  | observe a c _ ih => exact .observe a c ih
  | readPattern a _ ih => exact .readPattern a ih
  | writePattern a b _ ih => exact .writePattern a b ih
  | readName a _ ih => exact .readName a ih
  | writeName a b _ ih => exact .writeName a b ih

/-- No dot passes from one circuit to the other. -/
structure Circuit.Still {κ : Type} [Cartridge κ] (c d : Circuit κ) : Prop where
  evaluation : d.evaluation = c.evaluation
  strips : d.strips = c.strips
  background : d.background = c.background
  bus : d.bus = c.bus
  screen : d.screen = c.screen
  served : Cartridge.Served c.cartridge d.cartridge

namespace Circuit

variable {κ : Type} [Cartridge κ]

theorem Still.refl (c : Circuit κ) : c.Still c := ⟨rfl, rfl, rfl, rfl, rfl, .refl _⟩

theorem Still.trans {c d e : Circuit κ} (h : c.Still d) (h' : d.Still e) : c.Still e where
  evaluation := h'.evaluation.trans h.evaluation
  strips := h'.strips.trans h.strips
  background := h'.background.trans h.background
  bus := h'.bus.trans h.bus
  screen := h'.screen.trans h.screen
  served := h.served.trans h'.served

theorem withRegisters_still (f : Registers → Registers) (c : Circuit κ) :
    c.Still (c.withRegisters f) := ⟨rfl, rfl, rfl, rfl, rfl, .refl _⟩

theorem withScroll_still (f : Scroll.Latch → Scroll.Latch) (c : Circuit κ) :
    c.Still (c.withScroll f) := withRegisters_still _ c

theorem withCurrent_still (f : Scroll.Address → Scroll.Address) (c : Circuit κ) :
    c.Still (c.withCurrent f) := withScroll_still _ c

theorem setMask_still (mask : Mask) (c : Circuit κ) : c.Still (c.setMask mask) :=
  ⟨rfl, rfl, rfl, rfl, rfl, .refl _⟩

theorem expose_still (address cycle : Nat) (c : Circuit κ) : c.Still (c.expose address cycle) :=
  ⟨rfl, rfl, rfl, rfl, rfl, .observe _ _ (.refl _)⟩

theorem readPattern_still (address : Nat) (c : Circuit κ) :
    c.Still (c.readPattern address).2 := by
  unfold readPattern
  split
  · exact ⟨rfl, rfl, rfl, rfl, rfl, .readPattern _ (.refl _)⟩
  · exact .refl c

theorem readName_still (address : Nat) (c : Circuit κ) : c.Still (c.readName address).2 := by
  unfold readName
  split
  · exact ⟨rfl, rfl, rfl, rfl, rfl, .readName _ (.refl _)⟩
  · exact .refl c

theorem readVideo_still (address : Nat) (c : Circuit κ) : c.Still (c.readVideo address).2 := by
  unfold readVideo
  split
  · exact readPattern_still address c
  · exact readName_still address c

theorem writePattern_still (address : Nat) (byte : UInt8) (c : Circuit κ) :
    c.Still (c.writePattern address byte) := by
  unfold writePattern
  split
  · exact ⟨rfl, rfl, rfl, rfl, rfl, .writePattern _ _ (.refl _)⟩
  · exact ⟨rfl, rfl, rfl, rfl, rfl, .refl _⟩

theorem writeName_still (address : Nat) (byte : UInt8) (c : Circuit κ) :
    c.Still (c.writeName address byte) := by
  unfold writeName
  split
  · exact ⟨rfl, rfl, rfl, rfl, rfl, .writeName _ _ (.refl _)⟩
  · exact ⟨rfl, rfl, rfl, rfl, rfl, .refl _⟩

theorem writeVideo_still (address : Nat) (byte : UInt8) (c : Circuit κ) :
    c.Still (c.writeVideo address byte) := by
  unfold writeVideo
  split
  · exact writePattern_still address byte c
  · exact writeName_still address byte c

end Circuit

/-- What only the opening and closing of frames, and resets, change. -/
structure Ledger where
  config : Config
  frames : Nat
  oddFrame : Bool
  burst : Burst
  warmingUp : Bool
  inFrame : Bool

def Machine.ledger {κ : Type} (m : Machine κ) : Ledger where
  config := m.config
  frames := m.frames
  oddFrame := m.oddFrame
  burst := m.burst
  warmingUp := m.warmingUp
  inFrame := m.inFrame

/-- No dot passes from one machine to the other. -/
structure Machine.Still {κ : Type} [Cartridge κ] (m n : Machine κ) : Prop where
  ledger : n.ledger = m.ledger
  clock : n.clock = m.clock
  raised : n.vblank.raised = m.vblank.raised
  circuit : m.circuit.Still n.circuit

namespace Machine

variable {κ : Type} [Cartridge κ]

theorem Still.refl (m : Machine κ) : m.Still m := ⟨rfl, rfl, rfl, .refl _⟩

theorem Still.trans {m n p : Machine κ} (h : m.Still n) (h' : n.Still p) : m.Still p where
  ledger := h'.ledger.trans h.ledger
  clock := h'.clock.trans h.clock
  raised := h'.raised.trans h.raised
  circuit := h.circuit.trans h'.circuit

theorem Still.timing {m n : Machine κ} (h : m.Still n) : n.timing = m.timing :=
  congrArg (fun l => l.config.timing) h.ledger

theorem withCircuit_still {f : Circuit κ → Circuit κ} {m : Machine κ}
    (h : m.circuit.Still (f m.circuit)) : m.Still (m.withCircuit f) :=
  ⟨rfl, rfl, rfl, h⟩

theorem withRegisters_still (f : Registers → Registers) (m : Machine κ) :
    m.Still (m.withRegisters f) := withCircuit_still (Circuit.withRegisters_still f m.circuit)

theorem withHost_still (f : Host → Host) (m : Machine κ) : m.Still (m.withHost f) :=
  ⟨rfl, rfl, rfl, .refl _⟩

theorem setLines_still (byte : UInt8) (m : Machine κ) : m.Still (m.setLines byte) :=
  withRegisters_still _ m

theorem requestInterrupt_still (cycle : Nat) (m : Machine κ) :
    m.Still (m.requestInterrupt cycle) := ⟨rfl, rfl, rfl, .refl _⟩

theorem withdrawInterrupt_still (m : Machine κ) : m.Still m.withdrawInterrupt :=
  ⟨rfl, rfl, rfl, .refl _⟩

theorem suppressVblank_still (m : Machine κ) : m.Still m.suppressVblank := by
  unfold suppressVblank
  dsimp only
  split <;> exact ⟨rfl, rfl, rfl, .refl _⟩

theorem readStatus_still (cycle : Nat) (m : Machine κ) : m.Still (m.readStatus cycle).2 := by
  unfold readStatus
  dsimp only
  split
  · exact (suppressVblank_still m).trans (withRegisters_still _ _)
  · exact withRegisters_still _ m

theorem advanceAddress_still (m : Machine κ) : m.Still m.advanceAddress :=
  withCircuit_still (Circuit.withCurrent_still _ m.circuit)

theorem readVideo_still (cycle : Nat) (m : Machine κ) : m.Still (m.readVideo cycle).2 := by
  refine ⟨rfl, rfl, rfl, ?_⟩
  unfold readVideo
  dsimp only
  have exposed := Circuit.expose_still m.circuit.registers.scroll.current.bus cycle m.circuit
  exact (exposed.trans (Circuit.readVideo_still _ _)).trans (Circuit.withRegisters_still _ _)

theorem readData_still (cycle : Nat) (m : Machine κ) : m.Still (m.readData cycle).2 := by
  unfold readData
  split
  · exact advanceAddress_still m
  · exact (readVideo_still cycle m).trans (advanceAddress_still _)

theorem readRegister_still (register : Register) (cycle : Nat) (m : Machine κ) :
    m.Still (m.readRegister register cycle).2 := by
  cases register with
  | status => exact readStatus_still cycle m
  | data => exact readData_still cycle m
  | control | mask | objectAddress | objectData | scroll | address => exact .refl m

theorem switchInterrupt_still (enabled : Bool) (cycle : Nat) (m : Machine κ) :
    m.Still (m.switchInterrupt enabled cycle) := by
  unfold switchInterrupt
  split
  · split
    · exact requestInterrupt_still _ m
    · split
      · exact requestInterrupt_still _ m
      · exact .refl m
  · split
    · split
      · exact withdrawInterrupt_still m
      · exact .refl m
    · exact .refl m

theorem writeControl_still (byte : UInt8) (cycle : Nat) (m : Machine κ) :
    m.Still (m.writeControl byte cycle) := by
  unfold writeControl
  dsimp only
  split
  · exact withRegisters_still _ m
  · exact (withRegisters_still _ m).trans (switchInterrupt_still _ cycle _)

theorem writeObjectData_still (byte : UInt8) (m : Machine κ) :
    m.Still (m.writeObjectData byte) := by
  unfold writeObjectData
  dsimp only
  split
  · exact withRegisters_still _ m
  · exact withCircuit_still ⟨rfl, rfl, rfl, rfl, rfl, .refl _⟩

theorem writeAddress_still (byte : UInt8) (cycle : Nat) (m : Machine κ) :
    m.Still (m.writeAddress byte cycle) := by
  unfold writeAddress
  refine withCircuit_still ?_
  dsimp only
  split
  · exact (Circuit.withScroll_still _ _).trans (Circuit.expose_still _ _ _)
  · exact Circuit.withScroll_still _ _

theorem writeVideo_still (byte : UInt8) (cycle : Nat) (m : Machine κ) :
    m.Still (m.writeVideo byte cycle) := by
  unfold writeVideo
  refine withCircuit_still ?_
  dsimp only
  split
  · exact ⟨rfl, rfl, rfl, rfl, rfl, .observe _ _ (.refl _)⟩
  · exact (Circuit.expose_still _ cycle _).trans (Circuit.writeVideo_still _ byte _)

theorem writeData_still (byte : UInt8) (cycle : Nat) (m : Machine κ) :
    m.Still (m.writeData byte cycle) := by
  unfold writeData
  split
  · exact advanceAddress_still m
  · exact (writeVideo_still byte cycle m).trans (advanceAddress_still _)

theorem writeRegister_still (register : Register) (byte : UInt8) (cycle : Nat) (m : Machine κ) :
    m.Still (m.writeRegister register byte cycle) := by
  cases register with
  | control => exact writeControl_still byte cycle m
  | mask => exact withCircuit_still (Circuit.setMask_still _ _)
  | status => exact .refl m
  | objectAddress => exact withRegisters_still _ m
  | objectData => exact writeObjectData_still byte m
  | scroll => exact withCircuit_still (Circuit.withScroll_still _ _)
  | address => exact writeAddress_still byte cycle m
  | data => exact writeData_still byte cycle m

theorem stall_still (cycles : Nat) (m : Machine κ) : m.Still (m.stall cycles) :=
  withHost_still _ m

theorem takeByte_still (address : Nat) (m : Machine κ) : m.Still (m.takeByte address).2 :=
  ⟨rfl, rfl, rfl, .refl _⟩

theorem landByte_still (byte : UInt8) (m : Machine κ) : m.Still (m.landByte byte) :=
  (setLines_still byte m).trans (writeObjectData_still byte _)

theorem copyByte_still (m : Machine κ) (address : Nat) : m.Still (m.copyByte address) :=
  (takeByte_still address m).trans (landByte_still _ _)

theorem copyPage_still (page : UInt8) (m : Machine κ) : m.Still (m.copyPage page) :=
  copyPage_keeps (fun n address h => h.trans (copyByte_still n address))
    (fun n cycles h => h.trans (stall_still cycles n)) (.refl m) page

end Machine

end PictureUnit
