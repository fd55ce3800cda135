import PictureUnit.Proofs.Resting

/-!
# Copying a page at once

Without rendering no dot reads object memory, and the blank has no dots at all. So bytes may land before
the dots they should wait for: a page copied at once leaves what its bytes leave when they move one by
one, as soon as the chip has caught up with the processor.
-/

set_option autoImplicit false

namespace PictureUnit

namespace Host

/-- The chip asks for an interrupt or takes the request back. -/
def Event.isRequest : Event → Bool
  | .interruptAt _ | .interruptWithdrawn => true
  | .stalled _ | .transferred _ _ => false

def Event.address? : Event → Option Nat
  | .transferred address _ => some address
  | .interruptAt _ | .interruptWithdrawn | .stalled _ => none

def requests (h : Host) : List Event := h.events.filter Event.isRequest

/-- The addresses that transfers read. -/
def addresses (h : Host) : List Nat := h.events.filterMap Event.address?

def ask (asked : List Event) (h : Host) : Host := { h with events := asked ++ h.events }

theorem ask_ask (late early : List Event) (h : Host) :
    (h.ask early).ask late = h.ask (late ++ early) := by
  simp only [ask, List.append_assoc]

theorem ask_requests {asked : List Event} (h : ∀ e ∈ asked, e.isRequest = true) (host : Host) :
    (host.ask asked).requests = asked ++ host.requests := by
  rw [requests, requests, ask, List.filter_append, List.filter_eq_self.mpr h]

theorem ask_addresses {asked : List Event} (h : ∀ e ∈ asked, e.isRequest = true) (host : Host) :
    (host.ask asked).addresses = host.addresses := by
  have none_read : asked.filterMap Event.address? = [] := by
    rw [List.filterMap_eq_nil_iff]
    intro e he
    have request := h e he
    cases e <;> first | rfl | cases request
  rw [addresses, addresses, ask, List.filterMap_append, none_read, List.nil_append]

end Host

namespace Circuit

variable {κ : Type}

/-- A byte lands in object memory while nothing is fetched. -/
def stow (byte : UInt8) (c : Circuit κ) : Circuit κ :=
  let address := c.registers.objectAddress
  let stored := if address.toNat % 4 = 2 then byte &&& Object.storedAttributes else byte
  { c with
    objects := c.objects.store address.toNat stored
    registers := { c.registers with lines := byte, objectAddress := address + 1 } }

theorem drawDot_stow {c : Circuit κ} (off : c.registers.mask.rendering = false) (byte : UInt8)
    (line : Line) (dot : Nat) : (c.stow byte).drawDot line dot = (c.drawDot line dot).stow byte := by
  cases line with
  | preRender => rfl
  | visible y =>
    have off' : (c.stow byte).registers.mask.rendering = false := off
    simp only [drawDot, drawPixel, off, off', Bool.false_eq_true, if_false]
    split <;> rfl

variable [Cartridge κ]

/-- A dot without rendering and a landing byte do not notice one another. -/
theorem dot_stow {c : Circuit κ} (off : c.registers.mask.rendering = false) (byte : UInt8) (line : Line)
    (dot cycle : Nat) (limit : SpriteLimit) :
    (c.stow byte).dot line dot cycle limit = (c.dot line dot cycle limit).stow byte := by
  have cleared_off : (c.clearFlags line dot).registers.mask.rendering = false := by
    rw [show (c.clearFlags line dot).registers.mask = c.registers.mask from
      congrArg Settings.mask (clearFlags_settings line dot c), off]
  have drawn_off : ((c.clearFlags line dot).drawDot line dot).registers.mask.rendering = false := by
    rw [show ((c.clearFlags line dot).drawDot line dot).registers.mask
        = (c.clearFlags line dot).registers.mask from
      congrArg Settings.mask (drawDot_settings line dot _), cleared_off]
  have clears : (c.stow byte).clearFlags line dot = (c.clearFlags line dot).stow byte := by
    simp only [clearFlags]
    split <;> rfl
  unfold Circuit.dot
  by_cases first : dot = 0
  · rw [if_pos first, if_pos first]
    rfl
  rw [if_neg first, if_neg first]
  dsimp only
  rw [clears, drawDot_stow cleared_off]
  generalize (c.clearFlags line dot).drawDot line dot = d at drawn_off
  rw [if_neg (ne_true_of_eq_false drawn_off), if_neg (show ¬ (d.stow byte).registers.mask.rendering = true
    from ne_true_of_eq_false drawn_off)]
  split <;> rfl

end Circuit

namespace Machine

variable {κ : Type} {m n : Machine κ}

/-- Nothing is fetched. -/
def Calm (m : Machine κ) : Prop := m.rendering = false ∨ m.clock.position = .blank

theorem Calm.fetching (h : m.Calm) : m.fetching = false := by
  unfold Machine.fetching
  obtain off | blank := h
  · simp [off]
  · simp [blank]

theorem calm_of_quiet (h : m.quiet = true) : m.Calm := by
  simp only [quiet, Bool.or_eq_true, Bool.not_eq_true', Bool.and_eq_true, beq_iff_eq] at h
  exact h.imp id And.left

theorem Calm.landByte_eq (h : m.Calm) (byte : UInt8) :
    m.landByte byte = m.withCircuit (·.stow byte) := by
  have settled : ¬ (m.setLines byte).fetching = true := by
    rw [show (m.setLines byte).fetching = m.fetching from rfl, h.fetching]
    decide
  rw [landByte, writeObjectData]
  dsimp only
  rw [if_neg settled]
  rfl

theorem Calm.landByte (h : m.Calm) (byte : UInt8) : (m.landByte byte).Calm := by
  rw [h.landByte_eq]
  exact h

theorem Calm.copyByte (h : m.Calm) (address : Nat) : (m.copyByte address).Calm := by
  have taken : (m.takeByte address).2.Calm := h
  exact taken.landByte _

/-- What `f` makes of the machine is the same chip for every processor, of which it asks the same. -/
def Asks (f : Machine κ → Machine κ) (m : Machine κ) (asked : List Host.Event) : Prop :=
  (∀ e ∈ asked, e.isRequest = true) ∧
    ∀ h : Host, f (m.withHost fun _ => h) = (f m).withHost fun _ => h.ask asked

theorem Asks.host {f : Machine κ → Machine κ} {asked : List Host.Event} (h : Asks f m asked) :
    (f m).host = m.host.ask asked :=
  congrArg Machine.host (h.2 m.host)

theorem settleLength_asks (m : Machine κ) : ∃ asked, Asks settleLength m asked := by
  by_cases settled : m.dropsDot = m.clock.short
  · refine ⟨[], by simp, fun h => ?_⟩
    rw [settleLength, settleLength, if_pos settled, if_pos (by exact settled)]
    rfl
  by_cases pending : m.vblank.interruptAt = some m.clock.vblankAt
  · refine ⟨[.interruptAt (m.setLength m.dropsDot).clock.vblankAt], by simp [Host.Event.isRequest],
      fun h => ?_⟩
    rw [settleLength, settleLength, if_neg settled, if_neg (by exact settled)]
    dsimp only
    rw [if_pos pending, if_pos (by exact pending)]
    rfl
  · refine ⟨[], by simp, fun h => ?_⟩
    rw [settleLength, settleLength, if_neg settled, if_neg (by exact settled)]
    dsimp only
    rw [if_neg pending, if_neg (by exact pending)]
    rfl

theorem raiseVblank_withHost (f : Host → Host) (m : Machine κ) :
    (m.withHost f).raiseVblank = m.raiseVblank.withHost f := by
  cases hs : m.vblank.suppressed <;> simp [raiseVblank, withHost, withCircuit, hs]

theorem passBlank_asks (target : Nat) (m : Machine κ) : Asks (passBlank target) m [] := by
  refine ⟨by simp, fun h => ?_⟩
  by_cases reached : m.vblank.raised = false ∧ m.clock.vblankAt < min target m.clock.frameEnd
  · rw [passBlank, passBlank, if_pos reached, if_pos (by exact reached), raiseVblank_withHost]
    rfl
  · rw [passBlank, passBlank, if_neg reached, if_neg (by exact reached)]
    rfl

theorem settleLength_stow (byte : UInt8) (m : Machine κ) :
    (m.withCircuit (·.stow byte)).settleLength = m.settleLength.withCircuit (·.stow byte) := by
  by_cases settled : m.dropsDot = m.clock.short
  · rw [settleLength, settleLength, if_pos settled, if_pos (by exact settled)]
  by_cases pending : m.vblank.interruptAt = some m.clock.vblankAt
  all_goals
    rw [settleLength, settleLength, if_neg settled, if_neg (by exact settled)]
    dsimp only
  · rw [if_pos pending, if_pos (by exact pending)]
    rfl
  · rw [if_neg pending, if_neg (by exact pending)]
    rfl

theorem raiseVblank_stow (byte : UInt8) (m : Machine κ) :
    (m.withCircuit (·.stow byte)).raiseVblank = m.raiseVblank.withCircuit (·.stow byte) := by
  cases hs : m.vblank.suppressed
  all_goals
    simp only [raiseVblank, withCircuit, hs]
    rfl

theorem passBlank_stow (byte : UInt8) (target : Nat) (m : Machine κ) :
    (m.withCircuit (·.stow byte)).passBlank target
      = (m.passBlank target).withCircuit (·.stow byte) := by
  by_cases reached : m.vblank.raised = false ∧ m.clock.vblankAt < min target m.clock.frameEnd
  · rw [passBlank, passBlank, if_pos reached, if_pos (by exact reached), raiseVblank_stow]
    rfl
  · rw [passBlank, passBlank, if_neg reached, if_neg (by exact reached)]
    rfl

variable [Cartridge κ]

theorem step_asks (line : Line) (dot : Nat) (m : Machine κ) :
    ∃ asked, Asks (step line dot) m asked := by
  by_cases settling : line = .preRender ∧ dot = settlingDot
  · obtain ⟨asked, requests, same⟩ := settleLength_asks (m.runDot line dot)
    refine ⟨asked, requests, fun h => ?_⟩
    simp only [step, settleAt, if_pos settling]
    rw [show (m.withHost fun _ => h).runDot line dot = (m.runDot line dot).withHost fun _ => h from rfl,
      same]
    rfl
  · refine ⟨[], by simp, fun h => ?_⟩
    simp only [step, settleAt, if_neg settling]
    rfl

/-- Catching up does not look at the processor. -/
theorem advanceTo_asks (target : Nat) (m : Machine κ) :
    ∃ asked, Asks (advanceTo target) m asked := by
  fun_induction advanceTo target m with
  | case1 m late blank =>
    obtain ⟨requests, same⟩ := passBlank_asks target m
    refine ⟨[], requests, fun h => ?_⟩
    rw [advanceTo_blank target (m.withHost fun _ => h) blank late, advanceTo_blank target m blank late,
      same]
  | case2 m late line dot place ih =>
    obtain ⟨early, before, stepped⟩ := step_asks line dot m
    obtain ⟨asked, after, caught⟩ := ih
    refine ⟨asked ++ early, fun e he => (List.mem_append.mp he).elim (after e) (before e), fun h => ?_⟩
    rw [advanceTo_raster target (m.withHost fun _ => h) line dot place late, stepped, caught, Host.ask_ask,
      ← advanceTo_raster target m line dot place late]
  | case3 m caught =>
    refine ⟨[], by simp, fun h => ?_⟩
    rw [advanceTo_of_le target (m.withHost fun _ => h) (Nat.not_lt.mp caught),
      advanceTo_of_le target m (Nat.not_lt.mp caught)]
    rfl

theorem Calm.step (off : m.rendering = false) (line : Line) (dot : Nat) : (m.step line dot).Calm := by
  left
  rw [step_rendering, off]

theorem step_stow (off : m.rendering = false) (byte : UInt8) (line : Line) (dot : Nat) :
    (m.withCircuit (·.stow byte)).step line dot = (m.step line dot).withCircuit (·.stow byte) := by
  have ran : (m.withCircuit (·.stow byte)).runDot line dot
      = (m.runDot line dot).withCircuit (·.stow byte) :=
    congrArg (fun c => { m with circuit := c }) (Circuit.dot_stow off byte line dot _ _)
  rw [step, step, ran, settleAt, settleAt]
  split
  · rw [settleLength_stow]
    rfl
  · rfl

/-- A byte may land before the chip catches up. -/
theorem Calm.advanceTo_landByte (h : m.Calm) (byte : UInt8) (target : Nat) :
    (m.landByte byte).advanceTo target = (m.advanceTo target).landByte byte := by
  fun_induction Machine.advanceTo target m with
  | case1 m late blank =>
    have after : (m.passBlank target).Calm := .inr ((passBlank_position target m).trans blank)
    rw [h.landByte_eq, after.landByte_eq, ← passBlank_stow]
    exact advanceTo_blank target _ blank late
  | case2 m late line dot place ih =>
    have off : m.rendering = false := by
      obtain off | blank := h
      · exact off
      · rw [place] at blank
        cases blank
    have stepped := Calm.step off line dot
    rw [← ih stepped, h.landByte_eq, stepped.landByte_eq, ← step_stow off]
    exact advanceTo_raster target _ line dot place late
  | case3 m caught =>
    rw [h.landByte_eq]
    exact advanceTo_of_le target _ (Nat.not_lt.mp caught)

/-- The machine `n` moved `bytes` bytes one by one while `m` copied them at once: caught up, `m` is
the same chip, and both processors were asked the same. -/
structure Moved (bytes : Nat) (m n : Machine κ) : Prop where
  chip : n = (m.advanceTo n.host.cycle).withHost fun _ => n.host
  cycle : n.host.cycle = m.host.cycle + 2 * bytes * m.timing.cpuCycle
  memory : n.host.memory = m.host.memory
  stalled : n.host.stalled = m.host.stalled + 2 * bytes
  addresses : n.host.addresses = m.host.addresses
  requests : n.host.requests = (m.advanceTo n.host.cycle).host.requests

theorem Moved.start (caughtUp : m.advanceTo m.host.cycle = m) : Moved 0 m m where
  chip := by
    rw [caughtUp]
    rfl
  cycle := by simp
  memory := rfl
  stalled := rfl
  addresses := rfl
  requests := by rw [caughtUp]

/-- The processor's side of one byte: a cycle to read it and one to write it. -/
theorem Moved.wait {bytes : Nat} (h : Moved bytes m n) (address : Nat) :
    let waited := ((n.stall 1).takeByte address).2.stall 1
    Moved (bytes + 1) (m.takeByte address).2 (waited.advanceTo waited.host.cycle) := by
  intro waited
  have timing : n.timing = m.timing := by
    rw [h.chip]
    exact advanceTo_timing _ m
  have later : waited.host.cycle = n.host.cycle + 2 * m.timing.cpuCycle := by
    rw [← timing]
    simp only [waited, stall, takeByte, withHost, Host.stall, Host.transfer, Machine.timing]
    omega
  obtain ⟨early, early_requests, caughtEarly⟩ := advanceTo_asks waited.host.cycle m
  obtain ⟨late, late_requests, caughtLate⟩ :=
    advanceTo_asks waited.host.cycle (m.advanceTo n.host.cycle)
  -- Waiting pauses at the cycle where `n` stands.
  have paused : (m.advanceTo n.host.cycle).advanceTo waited.host.cycle = m.advanceTo waited.host.cycle :=
    advanceTo_advanceTo _ _ m (by omega)
  have copied : ((m.takeByte address).2).advanceTo waited.host.cycle
      = (m.advanceTo waited.host.cycle).withHost fun _ => (m.takeByte address).2.host.ask early :=
    caughtEarly _
  have moved : waited.advanceTo waited.host.cycle
      = (m.advanceTo waited.host.cycle).withHost fun _ => waited.host.ask late := by
    rw [← paused, ← caughtLate]
    exact congrArg (fun u => (u.withHost fun _ => waited.host).advanceTo waited.host.cycle) h.chip
  have asked : late ++ n.host.requests = early ++ m.host.requests := by
    have own := Asks.host ⟨early_requests, caughtEarly⟩
    have other := Asks.host ⟨late_requests, caughtLate⟩
    rw [paused, own] at other
    have same := congrArg Host.requests other
    rw [Host.ask_requests early_requests, Host.ask_requests late_requests, ← h.requests] at same
    exact same.symm
  rw [moved]
  have standing : ((m.advanceTo waited.host.cycle).withHost fun _ => waited.host.ask late).host.cycle
      = waited.host.cycle := rfl
  constructor
  · rw [standing, copied]
    rfl
  · rw [standing, later, h.cycle]
    simp only [takeByte, Host.transfer, Machine.timing, Nat.mul_add, Nat.add_mul]
    omega
  · exact h.memory
  · show n.host.stalled + 1 + 1 = m.host.stalled + 2 * (bytes + 1)
    rw [h.stalled]
    omega
  · show (waited.host.ask late).addresses = (m.takeByte address).2.host.addresses
    rw [Host.ask_addresses late_requests]
    exact congrArg (address :: ·) h.addresses
  · rw [standing, copied]
    show (waited.host.ask late).requests = ((m.takeByte address).2.host.ask early).requests
    rw [Host.ask_requests late_requests, Host.ask_requests early_requests]
    exact asked

theorem Moved.landByte {bytes : Nat} (h : Moved bytes m n) (calm : m.Calm) (byte : UInt8) :
    Moved bytes (m.landByte byte) (n.landByte byte) := by
  have caughtUp := calm.advanceTo_landByte byte n.host.cycle
  constructor
  · rw [landByte_host, caughtUp, ← landByte_withHost, ← h.chip]
  · simp only [landByte_host, Machine.timing, landByte_config]
    exact h.cycle
  · simp only [landByte_host]
    exact h.memory
  · simp only [landByte_host]
    exact h.stalled
  · simp only [landByte_host]
    exact h.addresses
  · rw [landByte_host, caughtUp, landByte_host]
    exact h.requests

theorem Moved.byte {bytes : Nat} (h : Moved bytes m n) (calm : m.Calm) (address : Nat) :
    Moved (bytes + 1) (m.copyByte address) (n.moveByte address) := by
  have waited := h.wait address
  have landed := waited.landByte (show (m.takeByte address).2.Calm from calm) (n.host.memory address)
  rw [h.memory] at landed
  unfold copyByte moveByte
  dsimp only
  rw [show ((n.stall 1).takeByte address).1 = m.host.memory address from congrFun h.memory address]
  exact landed

theorem Moved.foldl {bytes : Nat} (h : Moved bytes m n) (calm : m.Calm) (addresses : List Nat) :
    Moved (bytes + addresses.length) (addresses.foldl copyByte m) (addresses.foldl moveByte n) := by
  induction addresses generalizing bytes m n with
  | nil => exact h
  | cons address rest ih =>
    have next := ih (h.byte calm address) (calm.copyByte address)
    rw [List.length_cons, ← Nat.add_assoc, Nat.add_right_comm]
    exact next

/-- When the processor is through with the copied bytes and the chip has caught up, nothing tells
whether they moved one by one. -/
theorem Moved.caughtUp {bytes : Nat} (h : Moved bytes m n) :
    let waited := m.stall (2 * bytes)
    let caughtUp := waited.advanceTo waited.host.cycle
    caughtUp = n.withHost (fun _ => caughtUp.host)
      ∧ caughtUp.host.cycle = n.host.cycle
      ∧ caughtUp.host.memory = n.host.memory
      ∧ caughtUp.host.stalled = n.host.stalled
      ∧ caughtUp.host.addresses = n.host.addresses
      ∧ caughtUp.host.requests = n.host.requests := by
  intro waited caughtUp
  obtain ⟨asked, requests, same⟩ := advanceTo_asks n.host.cycle m
  have own : (m.advanceTo n.host.cycle).host = m.host.ask asked := Asks.host ⟨requests, same⟩
  have cycle : waited.host.cycle = n.host.cycle := h.cycle.symm
  have ends : caughtUp = (m.advanceTo n.host.cycle).withHost fun _ => waited.host.ask asked := by
    rw [← same, ← cycle]
    rfl
  have host : caughtUp.host = waited.host.ask asked := congrArg Machine.host ends
  rw [host]
  refine ⟨?_, cycle, h.memory.symm, h.stalled.symm, ?_, ?_⟩
  · rw [h.chip]
    exact ends
  · rw [Host.ask_addresses requests]
    exact h.addresses.symm
  · rw [Host.ask_requests requests, h.requests, own, Host.ask_requests requests]
    rfl

/-- A page copied at once leaves the chip, once it has caught up, as the bytes of the page leave it that
move one by one, and the processor at the same cycle, with as many of its cycles taken, the same
addresses read and the same interrupts asked for. -/
theorem transferPage_bytewise (page : UInt8) (m : Machine κ) (plain : page.toNat < plainPages)
    (quiet : m.align.quiet = true) :
    let copied := m.transferPage page
    let caughtUp := copied.advanceTo copied.host.cycle
    let moved := m.align.movePage page
    caughtUp = moved.withHost (fun _ => caughtUp.host)
      ∧ caughtUp.host.cycle = moved.host.cycle
      ∧ caughtUp.host.memory = moved.host.memory
      ∧ caughtUp.host.stalled = moved.host.stalled
      ∧ caughtUp.host.addresses = moved.host.addresses
      ∧ caughtUp.host.requests = moved.host.requests := by
  have aligned : m.align.advanceTo m.align.host.cycle = m.align := by
    unfold align
    dsimp only
    rw [advanceTo_cycle]
    exact advanceTo_advanceTo _ _ _ le_rfl
  have moves := (Moved.start aligned).foldl (calm_of_quiet quiet) (pageAddresses page)
  rw [pageAddresses_length, Nat.zero_add] at moves
  have copied : m.transferPage page = m.align.copyPage page := by
    unfold transferPage
    dsimp only
    rw [if_pos (by simp [plain, quiet])]
  rw [copied]
  exact moves.caughtUp

theorem transferPage_bytewise_darkFrame :
    let dark : Machine (Recorded Unit) := Machine.new ⟨.ntsc, .hardware⟩ .new ⟨(), []⟩ (.new fun _ => 0)
    let m := dark.openFrame
    let caughtUp := (m.transferPage 2).advanceTo (m.transferPage 2).host.cycle
    let moved := m.align.movePage 2
    (2 : UInt8).toNat < plainPages ∧ m.align.quiet = true
      ∧ caughtUp = moved.withHost (fun _ => caughtUp.host)
      ∧ caughtUp.host.addresses = moved.host.addresses := by
  intro dark m caughtUp moved
  have quiet : m.align.quiet = true := by
    have opened : m.rendering = dark.rendering := by
      rw [Machine.rendering, Machine.rendering, openFrame_circuit]
    have off : m.align.rendering = false :=
      (advanceTo_rendering _ (m.stall m.alignment)).trans (opened.trans (by decide))
    rw [Machine.quiet, off]
    rfl
  obtain ⟨chip, -, -, -, addresses, -⟩ := transferPage_bytewise 2 m (by decide) quiet
  exact ⟨by decide, quiet, chip, addresses⟩

end Machine

end PictureUnit
