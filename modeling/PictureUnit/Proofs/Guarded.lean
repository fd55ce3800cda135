import PictureUnit.Proofs.Alone
import PictureUnit.Proofs.Drafts
import PictureUnit.Proofs.Landed
import PictureUnit.Proofs.Latched

/-!
# Memory while the chip fetches

On the lines that are rendered the bus belongs to the fetches, so the data registers reach no memory and
a landing byte is lost: all they do is move their address. When every effect of a run falls on such a
line, the run leaves every byte of memory alone, whatever it changes about rendering at its end.
-/

set_option autoImplicit false

namespace PictureUnit

/-- The bytes behind the slots. -/
def Banks.memories (b : Banks) : Array UInt8 × Array UInt8 × Block internalSize :=
  (b.rom, b.ram, b.internal)

/-- The cartridge may aim the slots elsewhere, but it leaves the ram alone; it has no way to the rom and to the
chip's own memory. -/
structure Cartridge.Aims (κ : Type) [Cartridge κ] : Prop where
  activeStart (line : Line) (rendering : Bool) (banks : Banks) (k : κ) :
    (Cartridge.activeStart line rendering banks k).1.memories = banks.memories
  blankStart (line : Line) (rendering : Bool) (banks : Banks) (k : κ) :
    (Cartridge.blankStart line rendering banks k).1.memories = banks.memories

theorem Cartridge.Fixed.aims {κ : Type} [Cartridge κ] (fixed : Cartridge.Fixed κ) : Cartridge.Aims κ :=
  ⟨fun line rendering banks k => congrArg Banks.memories (fixed.activeStart line rendering banks k),
    fun line rendering banks k => congrArg Banks.memories (fixed.blankStart line rendering banks k)⟩

/-- All bytes of memory that the processor can reach through the chip. -/
structure Holdings where
  objects : Block 256
  entries : Block paletteSize
  rom : Array UInt8
  ram : Array UInt8
  internal : Block internalSize
  buffer : UInt8

namespace Circuit

variable {κ : Type} {c d : Circuit κ}

def holdings (c : Circuit κ) : Holdings where
  objects := c.objects
  entries := c.palette.entries
  rom := c.banks.rom
  ram := c.banks.ram
  internal := c.banks.internal
  buffer := c.registers.buffer

theorem holdings_eq (settings : d.settings = c.settings) (memories : d.banks.memories = c.banks.memories) :
    d.holdings = c.holdings := by
  obtain ⟨rom, ram, internal⟩ : d.banks.rom = c.banks.rom ∧ d.banks.ram = c.banks.ram
      ∧ d.banks.internal = c.banks.internal := by
    simpa only [Banks.memories, Prod.mk.injEq] using memories
  have objects := congrArg Settings.objects settings
  have entries := congrArg (·.palette.entries) settings
  have buffer := congrArg Settings.buffer settings
  simp only [Circuit.settings] at objects entries buffer
  rw [holdings, objects, entries, buffer, rom, ram, internal, holdings]

variable [Cartridge κ]

theorem dot_memories (aims : Cartridge.Aims κ) (line : Line) (dot cycle : Nat) (limit : SpriteLimit)
    (c : Circuit κ) : (c.dot line dot cycle limit).banks.memories = c.banks.memories := by
  have drawn : ((c.clearFlags line dot).drawDot line dot).banks = c.banks :=
    congrArg Works.banks (drawn_works line dot c)
  have rendered : (if ((c.clearFlags line dot).drawDot line dot).registers.mask.rendering then
      ((c.clearFlags line dot).drawDot line dot).render line dot cycle limit
      else (c.clearFlags line dot).drawDot line dot).banks = c.banks := by
    split
    · rw [render_banks, drawn]
    · exact drawn
  unfold Circuit.dot
  split
  · exact aims.activeStart line _ _ _
  · dsimp only
    split
    · exact (aims.blankStart line _ _ _).trans (congrArg Banks.memories rendered)
    · exact congrArg Banks.memories rendered

end Circuit

namespace Machine

variable {κ : Type} {m n : Machine κ}

/-- Only the data lines and the current address have changed, and this by one place or by one row. -/
structure Steps (byte : UInt8) (m n : Machine κ) : Prop where
  rest : n = m.withRegisters fun r =>
    { r with
      lines := byte
      scroll := { r.scroll with current := n.circuit.registers.scroll.current } }
  current : n.circuit.registers.scroll.current.raw = (m.circuit.registers.scroll.current.raw
    + if m.circuit.registers.control.bits.toNat.testBit 2 then 32 else 1) % 0x8000

theorem advanceAddress_steps (byte : UInt8) (m : Machine κ) :
    m.Steps byte ((m.setLines byte).advanceAddress) := by
  refine ⟨?_, ?_⟩
  · simp only [advanceAddress, setLines, withRegisters, withCircuit, Circuit.withCurrent, Circuit.withScroll,
      Circuit.withRegisters]
  have moved := Scroll.Address.raw_advance m.circuit.registers.control.increment
    m.circuit.registers.scroll.current
  rw [Control.increment] at moved
  exact moved

/-- A byte for object memory that is lost: the object address moves to the next object. -/
def skipObject (byte : UInt8) (m : Machine κ) : Machine κ :=
  m.withRegisters fun r => { r with lines := byte, objectAddress := r.objectAddress + 4 }

theorem landByte_lit (lit : m.fetching = true) (byte : UInt8) : m.landByte byte = m.skipObject byte := by
  have still : (m.setLines byte).fetching = true := lit
  rw [landByte, writeObjectData, if_pos still]
  rfl

variable [Cartridge κ]

theorem readData_lit (lit : m.fetching = true) (cycle : Nat) :
    m.readData cycle = (m.circuit.registers.buffer, m.advanceAddress) := by
  rw [readData, if_pos lit]

theorem writeData_lit (lit : m.fetching = true) (byte : UInt8) (cycle : Nat) :
    m.writeData byte cycle = m.advanceAddress := by
  rw [writeData, if_pos lit]

theorem readRegister_lit (lit : m.fetching = true) (register : Register) (cycle : Nat) :
    (m.readRegister register cycle).2.circuit.holdings = m.circuit.holdings := by
  have rewound_holdings (n : Machine κ) : (n.withRegisters fun r =>
      { r with status := { r.status with vblank := false }, scroll := r.scroll.rewind }).circuit.holdings
      = n.circuit.holdings := rfl
  cases register with
  | status =>
    unfold readRegister readStatus
    dsimp only
    split
    · exact (rewound_holdings _).trans (congrArg Circuit.holdings (suppressVblank_circuit m))
    · rfl
  | data => rw [readRegister, readData_lit lit]; rfl
  | objectData | control | mask | objectAddress | scroll | address => rfl

theorem writeRegister_lit (lit : m.fetching = true) (register : Register) (byte : UInt8) (cycle : Nat) :
    (m.writeRegister register byte cycle).circuit.holdings = m.circuit.holdings := by
  cases register with
  | control =>
    rw [writeRegister, writeControl_circuit]
    rfl
  | mask =>
    have entries : (m.circuit.setMask ⟨byte⟩).palette.entries = m.circuit.palette.entries :=
      (Palette.setMask_keeps ⟨byte⟩ m.circuit.palette).1
    change Circuit.holdings (m.circuit.setMask ⟨byte⟩) = _
    rw [Circuit.holdings, entries]
    rfl
  | objectData =>
    rw [writeRegister, writeObjectData, if_pos lit]
    rfl
  | address =>
    unfold writeRegister writeAddress withCircuit
    dsimp only
    split <;> rfl
  | data =>
    rw [writeRegister, writeData_lit lit]
    rfl
  | status | objectAddress | scroll => rfl

theorem step_memories (aims : Cartridge.Aims κ) (line : Line) (dot : Nat) (m : Machine κ) :
    (m.step line dot).circuit.banks.memories = m.circuit.banks.memories := by
  rw [step_circuit, Circuit.dot_memories aims]

theorem advanceTo_memories (aims : Cartridge.Aims κ) (target : Nat) (m : Machine κ) :
    (m.advanceTo target).circuit.banks.memories = m.circuit.banks.memories := by
  fun_induction advanceTo target m with
  | case1 m => exact congrArg (·.banks.memories) (passBlank_works target m)
  | case2 m _ line dot _ ih => rw [ih, step_memories aims]
  | case3 m => rfl

theorem advanceTo_holdings (aims : Cartridge.Aims κ) (target : Nat) (m : Machine κ) :
    (m.advanceTo target).circuit.holdings = m.circuit.holdings :=
  Circuit.holdings_eq (advanceTo_settings target m) (advanceTo_memories aims target m)

/-! Two machines can be told apart by much, but not by where they stand. -/

/-- The two machines stand on the same place, and go on to do so. -/
structure InStep (m n : Machine κ) : Prop where
  ledger : n.ledger = m.ledger
  clock : n.clock = m.clock
  rendering : n.rendering = m.rendering

omit [Cartridge κ] in
theorem InStep.refl (m : Machine κ) : m.InStep m := ⟨rfl, rfl, rfl⟩

omit [Cartridge κ] in
theorem InStep.trans {p : Machine κ} (h : m.InStep n) (h' : n.InStep p) : m.InStep p :=
  ⟨h'.ledger.trans h.ledger, h'.clock.trans h.clock, h'.rendering.trans h.rendering⟩

omit [Cartridge κ] in
theorem InStep.fetching (h : m.InStep n) : n.fetching = m.fetching := by
  rw [Machine.fetching, Machine.fetching, h.rendering, h.clock]

omit [Cartridge κ] in
theorem InStep.calm (h : m.InStep n) (calm : n.Calm) : m.Calm :=
  calm.imp h.rendering.symm.trans fun blank => h.clock ▸ blank

omit [Cartridge κ] in
theorem InStep.settleAt (h : m.InStep n) (line : Line) (dot : Nat) :
    (m.settleAt line dot).InStep (n.settleAt line dot) := by
  have settled (q : Machine κ) : (q.settleAt line dot).clock
      = if (line = .preRender ∧ dot = settlingDot) ∧ q.dropsDot ≠ q.clock.short
        then q.clock.layOut q.timing q.dropsDot else q.clock := by
    unfold Machine.settleAt settleLength
    by_cases here : line = .preRender ∧ dot = settlingDot
    · by_cases known : q.dropsDot = q.clock.short
      · rw [if_pos here, if_pos known, if_neg fun h => h.2 known]
      · rw [if_pos here, if_neg known, if_pos (And.intro here known)]
        split <;> rfl
    · rw [if_neg here, if_neg fun h => here h.1]
  have rendering (q : Machine κ) : (q.settleAt line dot).rendering = q.rendering := by
    rw [Machine.rendering, Machine.rendering, settleAt_circuit]
  have config : n.config = m.config := congrArg Ledger.config h.ledger
  have oddFrame : n.oddFrame = m.oddFrame := congrArg Ledger.oddFrame h.ledger
  have drops : n.dropsDot = m.dropsDot := by
    rw [dropsDot, dropsDot, timing, timing, config, oddFrame, h.rendering]
  refine ⟨?_, ?_, ?_⟩
  · rw [settleAt_ledger, settleAt_ledger, h.ledger]
  · rw [settled, settled, drops, h.clock, timing, timing, config]
  · rw [rendering, rendering, h.rendering]

omit [Cartridge κ] in
theorem InStep.tick (h : m.InStep n) : m.tick.InStep n.tick := by
  have config : n.config = m.config := congrArg Ledger.config h.ledger
  refine ⟨h.ledger, ?_, h.rendering⟩
  rw [Machine.tick, Machine.tick, timing, timing, config, h.clock]

theorem InStep.step (h : m.InStep n) (line : Line) (dot : Nat) :
    (m.step line dot).InStep (n.step line dot) := by
  have ran (q : Machine κ) : q.InStep (q.runDot line dot) :=
    ⟨rfl, rfl, rendering_of_settings (Circuit.dot_settings line dot q.clock.count q.config.limit q.circuit)⟩
  have back : (m.runDot line dot).InStep m := ⟨rfl, rfl, (ran m).rendering.symm⟩
  exact (((back.trans h).trans (ran n)).settleAt line dot).tick

theorem InStep.advanceTo (h : m.InStep n) (target : Nat) :
    (m.advanceTo target).InStep (n.advanceTo target) := by
  fun_induction Machine.advanceTo target m generalizing n with
  | case1 m late blank =>
    rw [advanceTo_blank target n (h.clock ▸ blank) (h.clock ▸ late)]
    refine ⟨?_, ?_, ?_⟩
    · rw [passBlank_ledger, passBlank_ledger, h.ledger]
    · rw [passBlank_clock, passBlank_clock, h.clock]
    · rw [rendering_of_settings (passBlank_settings target n),
        rendering_of_settings (passBlank_settings target m), h.rendering]
  | case2 m late line dot place ih =>
    rw [advanceTo_raster target n line dot (h.clock ▸ place) (h.clock ▸ late)]
    exact ih (h.step line dot)
  | case3 m caught =>
    rw [advanceTo_of_le target n (h.clock ▸ Nat.not_lt.mp caught)]
    exact h

/-- The cycles at which the bytes of a transfer land. -/
def byteLandings (m : Machine κ) : List Nat :=
  (List.range transferSize).map fun i => m.host.cycle + (m.alignment + 2 * (i + 1)) * m.timing.cpuCycle

/-- The cycles at which an access takes effect. -/
def landings (m : Machine κ) : Access → List Nat
  | .read _ => [m.host.cycle]
  | .write address _ =>
    if address = transferAddress then m.byteLandings else [m.landing (.ofAddress address)]
  | .transfer _ => m.byteLandings
  | .catchUp _ => []

/-- Whatever a turn does to the chip, it does while the chip fetches. -/
def Guarded (m : Machine κ) (t : Turn) : Prop :=
  ∀ cycle ∈ (m.meet t).landings t.access, ((m.meet t).advanceTo cycle).fetching = true

/-- A byte of a transfer that is lost. -/
def skipByte (m : Machine κ) (address : Nat) : Machine κ :=
  ((m.awaiting address).advanceTo (m.awaiting address).host.cycle).skipObject (m.host.memory address)

theorem moveByte_lit {address : Nat}
    (lit : ((m.awaiting address).advanceTo (m.awaiting address).host.cycle).fetching = true) :
    m.moveByte address = m.skipByte address := landByte_lit lit _

theorem skipByte_holdings (aims : Cartridge.Aims κ) (m : Machine κ) (address : Nat) :
    (m.skipByte address).circuit.holdings = m.circuit.holdings :=
  advanceTo_holdings aims _ (m.awaiting address)

/-- Bytes that all land while the chip fetches are all lost. -/
theorem moveBytes_lit (addresses : List Nat) {q : Machine κ}
    (abreast : (m.advanceTo q.host.cycle).InStep q)
    (lit : ∀ i < addresses.length,
      (m.advanceTo (q.host.cycle + 2 * (i + 1) * q.timing.cpuCycle)).fetching = true) :
    addresses.foldl moveByte q = addresses.foldl skipByte q := by
  induction addresses generalizing q with
  | nil => rfl
  | cons address rest ih =>
    have cycle : (q.awaiting address).host.cycle = q.host.cycle + 2 * q.timing.cpuCycle := by
      simp only [awaiting, stall, takeByte, withHost, Host.stall, Host.transfer, timing]
      omega
    have landing : (m.advanceTo (q.awaiting address).host.cycle).InStep
        ((q.awaiting address).advanceTo (q.awaiting address).host.cycle) := by
      have waiting : (m.advanceTo q.host.cycle).InStep (q.awaiting address) :=
        abreast.trans ⟨rfl, rfl, rfl⟩
      have later := waiting.advanceTo (q.awaiting address).host.cycle
      rwa [advanceTo_advanceTo _ _ m (by omega)] at later
    have first := lit 0 (Nat.zero_lt_succ _)
    rw [Nat.zero_add, Nat.mul_one, ← cycle, ← landing.fetching] at first
    have lost := moveByte_lit first
    have after : (q.skipByte address).host.cycle = (q.awaiting address).host.cycle := by
      rw [← lost, moveByte_cycle, cycle]
    have config : (q.skipByte address).config = q.config := by
      rw [← lost, moveByte_config]
    rw [List.foldl_cons, List.foldl_cons, lost]
    apply ih
    · rw [after]
      exact landing.trans ⟨rfl, rfl, rfl⟩
    · intro i hi
      have next := lit (i + 1) (Nat.succ_lt_succ hi)
      rw [timing] at next
      rw [after, cycle, timing, timing, config, Nat.add_assoc, ← Nat.add_mul]
      rwa [show 2 + 2 * (i + 1) = 2 * (i + 1 + 1) by omega]

/-- A transfer whose bytes all land while the chip fetches loses them all. -/
theorem transferPage_lit (lit : ∀ cycle ∈ m.byteLandings, (m.advanceTo cycle).fetching = true)
    (page : UInt8) : m.transferPage page = (pageAddresses page).foldl skipByte m.align := by
  have config : m.align.config = m.config := advanceTo_config _ _
  have cycle : m.align.host.cycle = m.host.cycle + m.alignment * m.timing.cpuCycle := advanceTo_cycle _ _
  have aligned : (m.advanceTo m.align.host.cycle).InStep m.align := by
    have waiting : m.InStep (m.stall m.alignment) := ⟨rfl, rfl, rfl⟩
    rw [cycle]
    exact waiting.advanceTo _
  have each : ∀ i < transferSize,
      (m.advanceTo (m.align.host.cycle + 2 * (i + 1) * m.align.timing.cpuCycle)).fetching = true := by
    intro i hi
    have landed := lit _ (List.mem_map.mpr ⟨i, List.mem_range.mpr hi, rfl⟩)
    rwa [Nat.add_mul, ← Nat.add_assoc, ← cycle, timing, ← config, ← timing] at landed
  have busy : ¬ m.align.quiet = true := by
    intro quiet
    have calm := (aligned.calm (calm_of_quiet quiet)).advanceTo
      (m.align.host.cycle + 2 * (0 + 1) * m.align.timing.cpuCycle)
    rw [advanceTo_advanceTo _ _ m (Nat.le_add_right _ _)] at calm
    exact ne_true_of_eq_false calm.fetching (each 0 (by decide))
  unfold transferPage
  dsimp only
  rw [if_neg fun h => busy (Bool.and_eq_true_iff.mp h).2]
  refine moveBytes_lit (pageAddresses page) aligned ?_
  rw [pageAddresses_length]
  exact each

theorem skipBytes_holdings (aims : Cartridge.Aims κ) (addresses : List Nat) (m : Machine κ) :
    (addresses.foldl skipByte m).circuit.holdings = m.circuit.holdings := by
  induction addresses generalizing m with
  | nil => rfl
  | cons address rest ih => rw [List.foldl_cons, ih, skipByte_holdings aims]

theorem transferPage_holdings (aims : Cartridge.Aims κ)
    (lit : ∀ cycle ∈ m.byteLandings, (m.advanceTo cycle).fetching = true) (page : UInt8) :
    (m.transferPage page).circuit.holdings = m.circuit.holdings := by
  rw [transferPage_lit lit, skipBytes_holdings aims]
  exact advanceTo_holdings aims _ (m.stall m.alignment)

theorem writeInto_holdings (aims : Cartridge.Aims κ) {register : Register}
    (lit : (m.advanceTo (m.landing register)).fetching = true) (byte : UInt8) :
    (m.writeInto register byte).circuit.holdings = m.circuit.holdings := by
  have caught := advanceTo_holdings aims (m.landing register) m
  rw [writeInto]
  split
  · exact caught
  · refine (writeRegister_lit ?_ _ _ _).trans caught
    exact lit

/-- A turn in the light keeps every byte of memory. -/
theorem turn_holdings (aims : Cartridge.Aims κ) {t : Turn} (guarded : m.Guarded t) :
    (m.turn t).2.circuit.holdings = m.circuit.holdings := by
  have met : (m.meet t).circuit.holdings = m.circuit.holdings := rfl
  unfold turn
  unfold Guarded at guarded
  rw [← met]
  generalize m.meet t = p at guarded
  cases h : t.access with
  | read address =>
    rw [h] at guarded
    have lit := guarded p.host.cycle (List.mem_singleton_self _)
    exact (readRegister_lit lit _ _).trans (advanceTo_holdings aims _ p)
  | write address byte =>
    rw [h, landings] at guarded
    rw [perform]
    dsimp only
    rw [write]
    split
    · next transfers =>
      rw [if_pos transfers] at guarded
      exact transferPage_holdings aims guarded byte
    · next plain =>
      rw [if_neg plain] at guarded
      exact writeInto_holdings aims (guarded _ (List.mem_singleton_self _)) byte
  | transfer page =>
    rw [h] at guarded
    exact transferPage_holdings aims guarded page
  | catchUp target => exact advanceTo_holdings aims target p

theorem afterTurns_holdings (aims : Cartridge.Aims κ) {ts : List Turn}
    (guarded : ∀ i t, ts[i]? = some t → (m.afterTurns (ts.take i)).Guarded t) :
    (m.afterTurns ts).circuit.holdings = m.circuit.holdings := by
  induction ts generalizing m with
  | nil => rfl
  | cons t rest ih =>
    rw [afterTurns_cons, ih fun i u found => guarded (i + 1) u found]
    exact turn_holdings aims (guarded 0 t rfl)

theorem read_data_guarded {address : Nat} (data : Register.ofAddress address = .data)
    (lit : (m.advanceTo m.host.cycle).fetching = true) :
    m.read address = (m.circuit.registers.buffer,
      ((m.advanceTo m.host.cycle).setLines m.circuit.registers.buffer).advanceAddress) := by
  have buffer : (m.advanceTo m.host.cycle).circuit.registers.buffer = m.circuit.registers.buffer :=
    congrArg Settings.buffer (advanceTo_settings m.host.cycle m)
  rw [read, data, readRegister, readData_lit lit, buffer]
  rfl

theorem writeInto_data_guarded (lit : (m.advanceTo m.host.cycle).fetching = true) (byte : UInt8) :
    m.writeInto .data byte = ((m.advanceTo m.host.cycle).setLines byte).advanceAddress := by
  have still : ((m.advanceTo m.host.cycle).setLines byte).fetching = true := lit
  rw [writeInto_other rfl, writeRegister, writeData_lit still]

theorem writeInto_objectData_guarded (lit : (m.advanceTo m.host.cycle).fetching = true) (byte : UInt8) :
    m.writeInto .objectData byte = (m.advanceTo m.host.cycle).skipObject byte := by
  rw [writeInto_other rfl, writeRegister]
  exact landByte_lit lit byte

/-- What an access that would reach memory does instead. -/
structure Spares (m : Machine κ) (t : Turn) : Prop where
  read (address : Nat) (access : t.access = .read address) (data : Register.ofAddress address = .data) :
    (m.turn t).1 = some m.circuit.registers.buffer
      ∧ ((m.meet t).advanceTo t.cycle).Steps m.circuit.registers.buffer (m.turn t).2
  write (address : Nat) (byte : UInt8) (access : t.access = .write address byte)
    (plain : address ≠ transferAddress) (data : Register.ofAddress address = .data) :
    ((m.meet t).advanceTo t.cycle).Steps byte (m.turn t).2
  store (address : Nat) (byte : UInt8) (access : t.access = .write address byte)
    (plain : address ≠ transferAddress) (data : Register.ofAddress address = .objectData) :
    (m.turn t).2 = ((m.meet t).advanceTo t.cycle).skipObject byte
  transfer (page : UInt8) (access : t.access = .transfer page ∨ t.access = .write transferAddress page) :
    (m.turn t).2 = (pageAddresses page).foldl skipByte (m.meet t).align

theorem Guarded.spares {t : Turn} (guarded : m.Guarded t) : m.Spares t := by
  have met : (m.meet t).circuit = m.circuit := rfl
  have now : t.cycle = (m.meet t).host.cycle := rfl
  unfold Guarded at guarded
  refine ⟨fun address access data => ?_, fun address byte access plain data => ?_,
    fun address byte access plain data => ?_, fun page access => ?_⟩
  · rw [access] at guarded
    have done := read_data_guarded data (guarded _ (List.mem_singleton_self _))
    rw [turn, access, perform, done, ← met, now]
    exact ⟨rfl, advanceAddress_steps _ _⟩
  · rw [access, landings, if_neg plain, data] at guarded
    have lit := guarded _ (List.mem_singleton_self _)
    rw [landing_other rfl] at lit
    rw [turn, access, perform, write, if_neg plain, data, now, writeInto_data_guarded lit]
    exact advanceAddress_steps _ _
  · rw [access, landings, if_neg plain, data] at guarded
    have lit := guarded _ (List.mem_singleton_self _)
    rw [landing_other rfl] at lit
    rw [turn, access, perform, write, if_neg plain, data, now, writeInto_objectData_guarded lit]
  · obtain access | access := access
    · rw [access] at guarded
      rw [turn, access, perform, transferPage_lit guarded]
    · rw [access, landings, if_pos rfl] at guarded
      rw [turn, access, perform, write, if_pos rfl, transferPage_lit guarded]

/-- No memory is touched by what happens while the chip fetches. A data read returns the byte that was
buffered, and a data access moves the current address by one place or by one row of names and does not
reach the cartridge. A byte for object memory, from the processor or from a transfer, moves the object
address by four. -/
theorem memory_guarded (aims : Cartridge.Aims κ) {ts : List Turn}
    (guarded : ∀ i t, ts[i]? = some t → (m.afterTurns (ts.take i)).Guarded t) :
    let last := (m.afterTurns ts).circuit
    (last.objects = m.circuit.objects
      ∧ last.palette.entries = m.circuit.palette.entries
      ∧ last.banks.internal = m.circuit.banks.internal
      ∧ last.banks.ram = m.circuit.banks.ram
      ∧ last.banks.rom = m.circuit.banks.rom
      ∧ last.registers.buffer = m.circuit.registers.buffer)
    ∧ ∀ i t, ts[i]? = some t → (m.afterTurns (ts.take i)).Spares t
      ∧ (m.afterTurns (ts.take i)).circuit.registers.buffer = m.circuit.registers.buffer := by
  have kept := afterTurns_holdings aims guarded
  refine ⟨⟨congrArg Holdings.objects kept, congrArg Holdings.entries kept, congrArg Holdings.internal kept,
    congrArg Holdings.ram kept, congrArg Holdings.rom kept, congrArg Holdings.buffer kept⟩, ?_⟩
  intro i t found
  refine ⟨(guarded i t found).spares, ?_⟩
  have front : ∀ j u, (ts.take i)[j]? = some u → (m.afterTurns ((ts.take i).take j)).Guarded u := by
    intro j u there
    have early : j < i := (List.length_take_le i ts).trans_lt' (List.getElem?_eq_some_iff.mp there).1
    rw [List.getElem?_take_of_lt early] at there
    rw [List.take_take, Nat.min_eq_left early.le]
    exact guarded j u there
  exact congrArg Holdings.buffer (afterTurns_holdings aims front)

/-- Before the last dot of the raster the chip still fetches. -/
theorem fetching_early (onTime : m.OnTime) (on : m.rendering = true) {k target : Nat}
    (inside : k + 1 < rasterDots) (begun : m.clock.count ≤ m.clock.frameStart + k * m.timing.dot)
    (early : target ≤ m.clock.frameStart + k * m.timing.dot) :
    (m.advanceTo target).fetching = true := by
  have later := advanceTo_count onTime inside begun
  have reached := advanceTo_onTime (m.clock.frameStart + k * m.timing.dot) onTime
  have drawn : (m.advanceTo target).clock.position ≠ .blank := by
    intro blank
    have still := advanceTo_position_of_blank blank (m.clock.frameStart + k * m.timing.dot)
    rw [advanceTo_advanceTo _ _ m early] at still
    have passed := (reached.paced.count_bounds still).1
    rw [later, advanceTo_frameStart _ onTime, advanceTo_timing] at passed
    have short := Bool.toNat_le (m.advanceTo (m.clock.frameStart + k * m.timing.dot)).clock.short
    have less := Nat.mul_lt_mul_of_pos_right (show k < rasterDots
      - (m.advanceTo (m.clock.frameStart + k * m.timing.dot)).clock.short.toNat by omega)
      m.config.region.dot_pos
    simp only [timing, Config.timing] at *
    omega
  rw [fetching, advanceTo_rendering, on, Bool.true_and]
  exact bne_iff_ne.mpr drawn

/-- A look at the data register and a transfer during the first lines of a rendered frame. -/
theorem memory_guarded_firstLines : ∃ (m : Machine (Option Unit)) (look move : Turn),
    look.access = .read 0x2007 ∧ move.access = .transfer 2
      ∧ m.Guarded look ∧ (m.turn look).2.Guarded move
      ∧ (m.turn look).1 = some m.circuit.registers.buffer
      ∧ ((m.turn look).2.turn move).2.circuit.objects = m.circuit.objects := by
  obtain ⟨m, onTime, on, count, frameStart, timing⟩ : ∃ m : Machine (Option Unit), m.OnTime
      ∧ m.rendering = true ∧ m.clock.count = 0 ∧ m.clock.frameStart = 0
      ∧ m.timing = Region.ntsc.timing := by
    let off : Machine (Option Unit) := .new ⟨.ntsc, .hardware⟩ .new none (.new fun _ => 0)
    refine ⟨(off.withCircuit (·.setMask ⟨8⟩)).openFrame, openFrame_onTime _, ?_, ?_, ?_, ?_⟩
    · rw [openFrame_rendering]
      decide
    · rw [openFrame_count]
      rfl
    · rw [openFrame_frameStart]
      rfl
    · exact openFrame_timing _
  have dot : m.timing.dot = 4 := congrArg Timing.dot timing
  have cpuCycle : m.timing.cpuCycle = 12 := congrArg Timing.cpuCycle timing
  obtain ⟨look, hlook⟩ : ∃ t : Turn, t = ⟨1000, fun _ => 0, .read 0x2007⟩ := ⟨_, rfl⟩
  obtain ⟨move, hmove⟩ : ∃ t : Turn, t = ⟨2000, fun _ => 7, .transfer 2⟩ := ⟨_, rfl⟩
  have lit : ∀ cycle ≤ 40000, ((m.meet look).advanceTo cycle).fetching = true := by
    intro cycle early
    have met : (m.meet look).OnTime := (withHost_still _ m).onTime onTime
    have room : m.clock.frameStart + 10000 * m.timing.dot = 40000 := by rw [frameStart, dot]
    refine fetching_early met on (k := 10000) (by decide) ?_ (early.trans_eq room.symm)
    exact (count.trans_le (Nat.zero_le _)).trans_eq room.symm
  have looked : m.Guarded look := by
    intro cycle lands
    rw [hlook] at lands
    rw [List.mem_singleton.mp lands]
    exact lit 1000 (by decide)
  have moved : (m.turn look).2.Guarded move := by
    intro cycle lands
    have steps := (looked.spares.read 0x2007 (by rw [hlook]) rfl).2
    have abreast : ((m.meet look).advanceTo look.cycle).InStep ((m.turn look).2.meet move) := by
      rw [steps.rest]
      exact ⟨rfl, rfl, rfl⟩
    have slow : ((m.turn look).2.meet move).timing.cpuCycle = 12 := by
      have config : ((m.turn look).2.meet move).config = m.config :=
        (congrArg Ledger.config abreast.ledger).trans (advanceTo_config _ _)
      rw [Machine.timing, config, ← Machine.timing, timing]
      rfl
    have late : 1000 ≤ cycle ∧ cycle ≤ 40000 := by
      rw [hmove] at lands slow
      obtain ⟨i, hi, rfl⟩ := List.mem_map.mp lands
      have wait : ((m.turn look).2.meet ⟨2000, fun _ => 7, .transfer 2⟩).alignment ≤ 2 := by
        unfold alignment
        split <;> decide
      have few : i < 256 := List.mem_range.mp hi
      have begun : ((m.turn look).2.meet ⟨2000, fun _ => 7, .transfer 2⟩).host.cycle = 2000 := rfl
      rw [slow, begun]
      omega
    rw [(abreast.advanceTo cycle).fetching, hlook, advanceTo_advanceTo _ _ _ late.1, ← hlook]
    exact lit cycle late.2
  have guarded : ∀ i t, [look, move][i]? = some t → (m.afterTurns ([look, move].take i)).Guarded t := by
    intro i t found
    obtain _ | _ | i := i
    · cases found
      exact looked
    · cases found
      exact moved
    · cases found
  obtain ⟨⟨objects, -⟩, each⟩ := memory_guarded fixed_none.aims guarded
  exact ⟨m, look, move, by rw [hlook], by rw [hmove], looked, moved,
    ((each 0 look rfl).1.read 0x2007 (by rw [hlook]) rfl).1, objects⟩

end Machine

end PictureUnit
