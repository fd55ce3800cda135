import PictureUnit.Proofs.Closing
import PictureUnit.Proofs.Interrupt
import PictureUnit.Proofs.Touch
import PictureUnit.Proofs.Visit

/-!
# Machines in lockstep

Two twin machines whose clocks stand on the same place of their frames stay twins: they execute the same
dots, and an access at the same time after the start of the frame does the same to both. What a read
returns agrees in the bits that come from nothing that was left.
-/

set_option autoImplicit false

namespace PictureUnit

/-- What was left shows no more after an access, unless the part that changed can differ too. -/
theorem Works.Alike.of_eq {κ : Type} {limit : SpriteLimit} {t : Trust} {p : Position}
    {v w v' w' : Works κ} (h : Alike limit t p v w) (level : v'.Level w') (lines : UInt8)
    (hv : v'.evaluation = v.evaluation ∧ v'.strips = v.strips
      ∧ v'.pipe.background = v.pipe.background ∧ v'.pipe.bus = v.pipe.bus)
    (hw : w'.evaluation = w.evaluation ∧ w'.strips = w.strips
      ∧ w'.pipe.background = w.pipe.background ∧ w'.pipe.bus = w.pipe.bus) :
    Alike limit { t with lines := lines } p v' w' := by
  obtain ⟨ve, vs, vb, vu⟩ := hv
  obtain ⟨we, ws, wb, wu⟩ := hw
  have piped (d : Nat) (same : w.pipe.filled d = v.pipe.filled d) :
      w'.pipe.filled d = v'.pipe.filled d := by
    have background := congrArg Pipe.background same
    have bus := congrArg Pipe.bus same
    simp only [Pipe.filled] at background bus ⊢
    rw [wb, vb, wu, vu, level.current, bus, background]
  refine ⟨level, ?_, ?_, ?_, ?_, ?_, ?_, ?_⟩
  · rw [ve, we]
    exact h.bounded
  · rw [ve, we]
    exact h.latch
  · rw [ve, we]
    exact h.walk
  · rw [ve, we]
    exact h.search
  · rw [ve, we]
    exact h.clearing
  · rw [vs, ws]
    intro trusted
    obtain ⟨strips, pipe, pending⟩ := h.pixels trusted
    have all := piped 337 (congrArg (Pipe.filled 337) pipe)
    rw [Pipe.filled_of_le (by decide), Pipe.filled_of_le (by decide)] at all
    exact ⟨strips, all, pending⟩
  · rw [vs, ws]
    intro line d here late early recent fetched
    obtain ⟨strips, pipe, pending⟩ := h.fetching line d here late early recent fetched
    exact ⟨strips, piped d pipe, pending⟩

namespace Circuit

variable {κ : Type} [Cartridge κ] {limit : SpriteLimit} {t : Trust} {p : Position}
  {c e c' e' : Circuit κ}

/-- An access keeps twins that it leaves on one level. Of the flags it changes the blank's alone. -/
theorem Alike.touch (h : Alike limit t p c e) (hc : c.Still c') (he : e.Still e')
    (level : c'.works.Level e'.works) (f : Bool → Bool)
    (status : c'.registers.status = { c.registers.status with vblank := f c.flag })
    (other : e'.registers.status = { e.registers.status with vblank := f e.flag }) {mask : UInt8}
    (lines : Agree mask c'.registers.lines e'.registers.lines) :
    Alike limit { t with lines := mask } p c' e' where
  works := h.works.of_eq level mask
    ⟨hc.evaluation, hc.strips, hc.background, hc.bus⟩
    ⟨he.evaluation, he.strips, he.background, he.bus⟩
  vblank := by
    rw [flag, flag, status, other]
    exact congrArg f h.vblank
  overflow trusted := by
    rw [status, other]
    exact h.overflow trusted
  hit trusted := by
    rw [status, other]
    exact h.hit trusted
  lines := lines
  idle := by
    rw [h.idle.served hc.served]
    exact h.idle

end Circuit

namespace Machine

variable {κ : Type} [Cartridge κ]

/-- Two machines that stand on the same place and have twin circuits. -/
structure Alike (t : Trust) (m n : Machine κ) : Prop where
  config : n.config = m.config
  position : n.clock.position = m.clock.position
  raised : n.vblank.raised = m.vblank.raised
  oddFrame : n.oddFrame = m.oddFrame
  burst : n.burst = m.burst
  warmingUp : n.warmingUp = m.warmingUp
  inFrame : n.inFrame = m.inFrame
  circuit : m.circuit.Alike m.config.limit t m.clock.position n.circuit

/-- Two machines whose frames run alike. -/
structure Abreast (m n : Machine κ) : Prop where
  first : m.OnTime
  second : n.OnTime
  short : n.clock.short = m.clock.short
  count : n.clock.count + m.clock.frameStart = m.clock.count + n.clock.frameStart
  suppressed : n.vblank.suppressed = m.vblank.suppressed

variable {t : Trust} {m n : Machine κ}

theorem Alike.timing (h : m.Alike t n) : n.timing = m.timing := congrArg Config.timing h.config

theorem Alike.rendering (h : m.Alike t n) : n.rendering = m.rendering := h.circuit.rendering

theorem Alike.idle (h : m.Alike t n) : Cartridge.Idle n.circuit.cartridge :=
  idle_of_level h.circuit.works.level h.circuit.idle

theorem Alike.dropsDot (h : m.Alike t n) : n.dropsDot = m.dropsDot := by
  rw [Machine.dropsDot, Machine.dropsDot, h.timing, h.oddFrame, h.rendering]

theorem Alike.fetching (h : m.Alike t n) : n.fetching = m.fetching := by
  rw [Machine.fetching, Machine.fetching, h.rendering, h.position]

theorem Alike.searching (h : m.Alike t n) : n.searching = m.searching := by
  rw [Machine.searching, Machine.searching, h.rendering, h.position]

omit [Cartridge κ] in
/-- Machines that run abreast end their frames abreast. -/
theorem Abreast.ends (h : m.Abreast n) (ht : n.timing = m.timing) :
    n.clock.frameEnd + m.clock.frameStart = m.clock.frameEnd + n.clock.frameStart
      ∧ n.clock.vblankAt + m.clock.frameStart = m.clock.vblankAt + n.clock.frameStart := by
  rw [h.first.paced.frameEnd_eq, h.first.paced.vblankAt_eq, h.second.paced.frameEnd_eq,
    h.second.paced.vblankAt_eq, ht, h.short]
  omega

theorem Alike.shortAfter (h : m.Alike t n) (ha : m.Abreast n) (line : Line) (d : Nat) :
    n.shortAfter line d = m.shortAfter line d := by
  rw [Machine.shortAfter, Machine.shortAfter, h.dropsDot, ha.short]

/-- What is not on the clock or in the circuit stays alike by itself. -/
theorem Alike.next (h : m.Alike t n) {m' n' : Machine κ} {t' : Trust} (hm : m'.ledger = m.ledger)
    (hn : n'.ledger = n.ledger) (position : n'.clock.position = m'.clock.position)
    (raised : n'.vblank.raised = m'.vblank.raised)
    (circuit : m'.circuit.Alike m.config.limit t' m'.clock.position n'.circuit) : m'.Alike t' n' := by
  have config : m'.config = m.config := congrArg Ledger.config hm
  refine ⟨(congrArg Ledger.config hn).trans (h.config.trans config.symm), position, raised,
    (congrArg Ledger.oddFrame hn).trans (h.oddFrame.trans (congrArg Ledger.oddFrame hm).symm),
    (congrArg Ledger.burst hn).trans (h.burst.trans (congrArg Ledger.burst hm).symm),
    (congrArg Ledger.warmingUp hn).trans (h.warmingUp.trans (congrArg Ledger.warmingUp hm).symm),
    (congrArg Ledger.inFrame hn).trans (h.inFrame.trans (congrArg Ledger.inFrame hm).symm), ?_⟩
  rw [config]
  exact circuit

/-- The same dot keeps machines alike. -/
theorem Alike.step (h : m.Alike t n) (ha : m.Abreast n) {line : Line} {d : Nat}
    (hp : m.clock.position = .raster line d) :
    (m.step line d).Alike (t.dot line d m.rendering) (n.step line d)
      ∧ (m.step line d).Abreast (n.step line d) := by
  have other := h.position.trans hp
  have short := h.shortAfter ha line d
  have position := step_position ha.first.paced hp
  have circuit := h.circuit
  rw [hp] at circuit
  constructor
  · apply h.next (step_ledger line d m) (step_ledger line d n)
    · rw [position, step_position ha.second.paced other, short]
    · rw [step_raised, step_raised, h.raised]
    · rw [step_circuit, step_circuit, position, h.config]
      exact circuit.dot (next_follows _ _ _) _ _
  · refine ⟨step_onTime ha.first hp, step_onTime ha.second other, ?_, ?_, ?_⟩
    · rw [step_short line d ha.first.paced, step_short line d ha.second.paced, short]
    · have count := ha.count
      rw [step_count, step_count, step_frameStart line d ha.first.paced,
        step_frameStart line d ha.second.paced, h.timing]
      omega
    · rw [step_suppressed, step_suppressed, ha.suppressed]

omit [Cartridge κ] in
theorem passBlank_circuit (target : Nat) (m : Machine κ) : (m.passBlank target).circuit
    = if m.vblank.raised = false ∧ m.clock.vblankAt < min target m.clock.frameEnd
          ∧ m.vblank.suppressed = false then
        m.circuit.withStatus fun s => { s with vblank := true }
      else m.circuit := by
  by_cases due : m.vblank.raised = false ∧ m.clock.vblankAt < min target m.clock.frameEnd
  · cases hs : m.vblank.suppressed with
    | true => simp [passBlank, due, raiseVblank, hs]
    | false => simp [passBlank, due, raiseVblank, hs, withCircuit]
  · rw [if_neg fun h => due ⟨h.1, h.2.1⟩]
    simp only [passBlank, if_neg due]

omit [Cartridge κ] in
theorem passBlank_works (target : Nat) (m : Machine κ) :
    (m.passBlank target).circuit.works = m.circuit.works := by
  rw [passBlank_circuit]
  split <;> rfl

/-- The blank passes alike. -/
theorem Alike.passBlank (h : m.Alike t n) (ha : m.Abreast n) (hp : m.clock.position = .blank)
    {target target' : Nat} (ht : target' + m.clock.frameStart = target + n.clock.frameStart) :
    (m.passBlank target).Alike t (n.passBlank target')
      ∧ (m.passBlank target).Abreast (n.passBlank target') := by
  have other := h.position.trans hp
  obtain ⟨ends, blanks⟩ := ha.ends h.timing
  have count := ha.count
  have due : (n.clock.vblankAt < min target' n.clock.frameEnd)
      ↔ (m.clock.vblankAt < min target m.clock.frameEnd) := by omega
  constructor
  · apply h.next (passBlank_ledger target m) (passBlank_ledger target' n)
    · rw [passBlank_position, passBlank_position, h.position]
    · rw [passBlank_raised, passBlank_raised, h.raised, decide_eq_decide.mpr due]
    · rw [passBlank_circuit, passBlank_circuit, passBlank_position, h.raised, ha.suppressed]
      simp only [due]
      split
      · have level : (m.circuit.withStatus fun s => { s with vblank := true }).works.Level
            (n.circuit.withStatus fun s => { s with vblank := true }).works :=
          h.circuit.works.level
        exact h.circuit.touch (Circuit.withRegisters_still _ _) (Circuit.withRegisters_still _ _)
          level (fun _ => true) rfl rfl h.circuit.lines
      · exact h.circuit
  · refine ⟨passBlank_onTime target ha.first hp, passBlank_onTime target' ha.second other, ?_, ?_, ?_⟩
    · rw [passBlank_clock, passBlank_clock]
      exact ha.short
    · rw [passBlank_clock, passBlank_clock]
      simp only [Clock.idleUntil]
      omega
    · rw [passBlank_suppressed, passBlank_suppressed, ha.suppressed]

/-- How far a machine has renewed what was left when it has caught up to `target`. -/
def trustUpTo (target : Nat) (m : Machine κ) (t : Trust) : Trust :=
  if m.clock.count < target then
    match m.clock.position with
    | .blank => t
    | .raster line d => trustUpTo target (m.step line d) (t.dot line d m.rendering)
  else t
termination_by target - m.clock.count
decreasing_by
  have := step_count line d m
  have := m.config.region.dot_pos
  simp only [Machine.timing, Config.timing] at *
  omega

/-- Machines that catch up to the same time of their frames stay alike. -/
theorem Alike.advanceTo (h : m.Alike t n) (ha : m.Abreast n) {target target' : Nat}
    (ht : target' + m.clock.frameStart = target + n.clock.frameStart) :
    (m.advanceTo target).Alike (m.trustUpTo target t) (n.advanceTo target')
      ∧ (m.advanceTo target).Abreast (n.advanceTo target') := by
  -- Over the dots of the first machine: the second one is as far into its frame, so it does the same.
  fun_induction trustUpTo target m t generalizing n with
  | case1 m t hc hp =>
    have count := ha.count
    rw [advanceTo_blank target m hp hc, advanceTo_blank target' n (h.position.trans hp) (by omega)]
    exact h.passBlank ha hp ht
  | case2 m t hc line d hp ih =>
    have count := ha.count
    rw [advanceTo_raster target m line d hp hc,
      advanceTo_raster target' n line d (h.position.trans hp) (by omega)]
    obtain ⟨alike, abreast⟩ := h.step ha hp
    apply ih alike abreast
    rw [step_frameStart line d ha.first.paced, step_frameStart line d ha.second.paced]
    exact ht
  | case3 m t hc =>
    have count := ha.count
    rw [advanceTo_of_le target m (by omega), advanceTo_of_le target' n (by omega)]
    exact ⟨h, ha⟩

/-- The bits of a register's value that come from nothing that was left. -/
def trustedBits (register : Register) (t : Trust) (m : Machine κ) : UInt8 :=
  match register with
  | .status => t.flagBits ||| (t.lines &&& 0x1F)
  | .objectData => if m.searching && !t.latch then 0 else 0xFF
  | .data =>
    if !m.fetching && decide (paletteBase ≤ m.circuit.registers.scroll.current.bus) then
      0x3F ||| (t.lines &&& 0xC0)
    else 0xFF
  | .control | .mask | .objectAddress | .scroll | .address => t.lines

omit [Cartridge κ] in
/-- A register is trusted in all bits when the flags, the lines and what the search has latched are. -/
theorem trustedBits_eq {register : Register} (flags : t.flags = true) (lines : t.lines = 0xFF)
    (latched : register = .objectData → m.searching = true → t.latch = true) :
    trustedBits register t m = 0xFF := by
  unfold trustedBits
  split
  · rw [t.flagBits_eq flags, lines]
    decide
  · split
    · next left =>
      rw [Bool.and_eq_true, Bool.not_eq_true'] at left
      rw [latched rfl left.1] at left
      cases left.2
    · rfl
  · rw [lines]
    split
    · decide
    · rfl
  all_goals exact lines

/-- What a read returns agrees in the trusted bits. -/
theorem Alike.readRegister_agree (h : m.Alike t n) (register : Register) (cycle cycle' : Nat) :
    Agree (trustedBits register t m) (m.readRegister register cycle).1
      (n.readRegister register cycle').1 := by
  have own := h.circuit.idle
  have other := h.idle
  have lines := h.circuit.lines
  cases register with
  | status =>
    simp only [Machine.readRegister, (readStatus_eq _ _).1, trustedBits, Status.readOver]
    exact agree_over t.flagBits_apart (bits_agree h.circuit.vblank h.circuit.overflow h.circuit.hit)
      lines
  | objectData =>
    have address : n.circuit.registers.objectAddress = m.circuit.registers.objectAddress :=
      h.circuit.works.level.objectAddress
    simp only [Machine.readRegister, Machine.readObjectData, trustedBits, h.searching]
    cases m.searching with
    | false =>
      rw [if_neg Bool.false_ne_true, if_neg Bool.false_ne_true, h.circuit.objects, address]
      exact .refl _ _
    | true =>
      rw [if_pos rfl, if_pos rfl, Bool.true_and]
      cases known : t.latch with
      | true =>
        have latch : n.circuit.evaluation.latch = m.circuit.evaluation.latch :=
          h.circuit.works.latch known
        rw [latch]
        exact .refl _ _
      | false => exact agree_none _ _
  | data =>
    simp only [Machine.readRegister, Machine.readData, trustedBits, h.fetching]
    cases m.fetching with
    | true =>
      rw [if_pos rfl, if_pos rfl, h.circuit.buffer]
      exact .refl _ _
    | false =>
      simp only [Machine.readVideo_idle own, Machine.readVideo_idle other, h.circuit.current,
        h.circuit.buffer, h.circuit.palette]
      by_cases colors : paletteBase ≤ m.circuit.registers.scroll.current.bus
      · simp only [colors, if_true, decide_true, Bool.not_false, Bool.and_true]
        rw [UInt8.or_comm (_ &&& _), UInt8.or_comm (_ &&& _)]
        exact agree_over (by decide) (.refl _ _) lines
      · simp only [colors, if_false, decide_false, Bool.and_false]
        exact .refl _ _
  | control | mask | objectAddress | scroll | address => exact lines

/-- A read leaves machines alike, once its value is on the lines. -/
theorem Alike.look (h : m.Alike t n) (register : Register) (cycle cycle' : Nat) :
    ((m.readRegister register cycle).2.setLines (m.readRegister register cycle).1).Alike
      { t with lines := trustedBits register t m }
      ((n.readRegister register cycle').2.setLines (n.readRegister register cycle').1) := by
  have own := h.circuit.idle
  have other := h.idle
  have first := (readRegister_still register cycle m).trans
    (setLines_still (m.readRegister register cycle).1 _)
  have second := (readRegister_still register cycle' n).trans
    (setLines_still (n.readRegister register cycle').1 _)
  have read := readRegister_level h.circuit.works.level own h.fetching register cycle cycle'
  have level : ((m.readRegister register cycle).2.setLines
      (m.readRegister register cycle).1).circuit.works.Level
        ((n.readRegister register cycle').2.setLines
          (n.readRegister register cycle').1).circuit.works := by
    have settings := read.settings
    refine ⟨?_, read.banks, read.cartridge, read.objectAddress, read.current⟩
    exact congrArg
      (fun s : Settings => { s with lines := (n.readRegister register cycle').1 }) settings
  apply h.next first.ledger second.ledger
  · rw [first.clock, second.clock, h.position]
  · rw [first.raised, second.raised, h.raised]
  · rw [first.clock]
    exact h.circuit.touch first.circuit second.circuit level
      (fun vblank => if register = .status then false else vblank)
      (readRegister_status own register cycle) (readRegister_status other register cycle')
      (h.readRegister_agree register cycle cycle')

theorem Alike.setLines (h : m.Alike t n) (byte : UInt8) :
    (m.setLines byte).Alike { t with lines := 0xFF } (n.setLines byte) := by
  have level : (m.setLines byte).circuit.works.Level (n.setLines byte).circuit.works := by
    have settings := h.circuit.works.level.settings
    refine ⟨?_, h.circuit.works.level.banks, h.circuit.works.level.cartridge,
      h.circuit.works.level.objectAddress, h.circuit.works.level.current⟩
    exact congrArg (fun s : Settings => { s with lines := byte }) settings
  refine h.next rfl rfl h.position h.raised ?_
  exact h.circuit.touch (setLines_still byte m).circuit (setLines_still byte n).circuit level id rfl
    rfl (.refl _ _)

/-- A write leaves machines alike. -/
theorem Alike.writeRegister (h : m.Alike t n) (register : Register) (byte : UInt8)
    (cycle cycle' : Nat) :
    (m.writeRegister register byte cycle).Alike t (n.writeRegister register byte cycle') := by
  have own := h.circuit.idle
  have other := h.idle
  have first := writeRegister_still register byte cycle m
  have second := writeRegister_still register byte cycle' n
  have level := writeRegister_level h.circuit.works.level own h.fetching register byte cycle cycle'
  apply h.next first.ledger second.ledger
  · rw [first.clock, second.clock, h.position]
  · rw [first.raised, second.raised, h.raised]
  · obtain ⟨status, lines⟩ := writeRegister_keeps own register byte cycle
    obtain ⟨status', lines'⟩ := writeRegister_keeps other register byte cycle'
    rw [first.clock]
    refine h.circuit.touch first.circuit second.circuit level id status status' ?_
    rw [lines, lines']
    exact h.circuit.lines

theorem Alike.put (h : m.Alike t n) (register : Register) (byte : UInt8) (cycle cycle' : Nat) :
    (m.put register byte cycle).Alike { t with lines := 0xFF } (n.put register byte cycle') := by
  have latched := h.setLines byte
  unfold Machine.put
  dsimp only
  rw [latched.warmingUp]
  split
  · exact latched
  · exact latched.writeRegister register byte cycle cycle'

theorem Alike.meet (h : m.Alike t n) (v v' : Turn) : (m.meet v).Alike t (n.meet v') :=
  h.next rfl rfl h.position h.raised h.circuit

/-- The trusted bits of what a visit returns where it lands. -/
def trustedOf (v : Visit) (t : Trust) (m : Machine κ) : List UInt8 :=
  match v.byte with
  | none => [trustedBits v.register t m]
  | some _ => []

/-- A visit leaves its byte on the lines. -/
def trustAfter (v : Visit) (t : Trust) (m : Machine κ) : Trust :=
  { t with lines := match v.byte with
    | none => trustedBits v.register t m
    | some _ => 0xFF }

omit [Cartridge κ] in
/-- A visit whose register is trusted in all bits. -/
theorem trust_of_read {v : Visit} (known : v.byte = none → trustedBits v.register t m = 0xFF) :
    trustAfter v t m = { t with lines := 0xFF } ∧ ∀ mask ∈ trustedOf v t m, mask = 0xFF := by
  unfold trustAfter trustedOf
  cases read : v.byte with
  | none => simp [known read]
  | some byte => simp

/-- The same access leaves machines alike, and what they read agrees. -/
theorem Alike.land (h : m.Alike t n) {v v' : Visit} (address : v'.address = v.address)
    (byte : v'.byte = v.byte) : (m.land v).2.Alike (trustAfter v t m) (n.land v').2
      ∧ Agrees (trustedOf v t m) (m.land v).1.toList (n.land v').1.toList := by
  have met := h.meet v.turn v'.turn
  have register : v'.register = v.register := congrArg Register.ofAddress address
  have known : trustedBits v.register t (m.meet v.turn) = trustedBits v.register t m := rfl
  unfold Machine.land trustedOf trustAfter
  rw [byte, register]
  cases v.byte with
  | none =>
    have looked := met.look v.register v.cycle v'.cycle
    have agree := met.readRegister_agree v.register v.cycle v'.cycle
    rw [known] at looked agree
    exact ⟨looked, agree, trivial⟩
  | some written => exact ⟨met.put v.register written _ _, trivial⟩

theorem land_suppressed (v : Visit) (m : Machine κ) : (m.land v).2.vblank.suppressed
    = (m.vblank.suppressed
      || (v.byte.isNone && (v.register == .status) && m.racesVblank v.cycle)) := by
  unfold Machine.land
  cases v.byte with
  | none =>
    have raced : (m.meet v.turn).racesVblank v.cycle = m.racesVblank v.cycle := rfl
    change ((m.meet v.turn).readRegister v.register v.cycle).2.vblank.suppressed = _
    by_cases look : v.register = .status
    · rw [look, beq_self_eq_true, ← raced]
      exact readStatus_suppressed v.cycle (m.meet v.turn)
    · rw [beq_false_of_ne look, Bool.and_false, Bool.false_and, Bool.or_false]
      exact congrArg VblankLatch.suppressed
        (readRegister_aside look v.cycle (m.meet v.turn)).vblank
  | some byte =>
    rw [Option.isNone_some, Bool.false_and, Bool.false_and, Bool.or_false]
    unfold Machine.put
    dsimp only
    split
    · rfl
    · exact writeRegister_suppressed _ _ _ _

theorem Alike.racesVblank (h : m.Alike t n) (ha : m.Abreast n) {cycle cycle' : Nat}
    (hc : cycle' + m.clock.frameStart = cycle + n.clock.frameStart) :
    n.racesVblank cycle' = m.racesVblank cycle := by
  obtain ⟨-, blanks⟩ := ha.ends h.timing
  have close : n.clock.vblankAt < cycle' + n.timing.dot ↔ m.clock.vblankAt < cycle + m.timing.dot := by
    rw [h.timing]
    omega
  rw [Machine.racesVblank, Machine.racesVblank, h.inFrame, h.raised, decide_eq_decide.mpr close]

/-- The same access at the same time leaves frames that run alike. -/
theorem Abreast.land (ha : m.Abreast n) (h : m.Alike t n) {v v' : Visit}
    (address : v'.address = v.address) (byte : v'.byte = v.byte)
    (hc : v'.cycle + m.clock.frameStart = v.cycle + n.clock.frameStart) :
    (m.land v).2.Abreast (n.land v').2 := by
  have first := land_still v m
  have second := land_still v' n
  refine ⟨first.onTime ha.first, second.onTime ha.second, ?_, ?_, ?_⟩
  · rw [first.clock, second.clock, ha.short]
  · rw [first.clock, second.clock, ha.count]
  · have register : v'.register = v.register := congrArg Register.ofAddress address
    rw [land_suppressed, land_suppressed, ha.suppressed, byte, register, h.racesVblank ha hc]

/-- A visit at the same time of the frame leaves machines alike. -/
theorem Alike.visit (h : m.Alike t n) (ha : m.Abreast n) (v v' : Visit)
    (address : v'.address = v.address) (byte : v'.byte = v.byte)
    (hc : v'.cycle + m.clock.frameStart = v.cycle + n.clock.frameStart) :
    let now := m.advanceTo (v.landing m.timing)
    let trust := m.trustUpTo (v.landing m.timing) t
    (m.turn v.turn).2.Alike (trustAfter v trust now) (n.turn v'.turn).2
      ∧ (m.turn v.turn).2.Abreast (n.turn v'.turn).2
      ∧ Agrees (trustedOf v trust now) (m.turn v.turn).1.toList (n.turn v'.turn).1.toList := by
  have register : v'.register = v.register := congrArg Register.ofAddress address
  have lands : v'.landing n.timing + m.clock.frameStart
      = v.landing m.timing + n.clock.frameStart := by
    rw [Visit.landing, Visit.landing, byte, register, h.timing]
    split
    · exact hc
    · omega
  obtain ⟨alike, abreast⟩ := h.advanceTo ha lands
  have kept : (n.advanceTo (v'.landing n.timing)).clock.frameStart = n.clock.frameStart :=
    advanceTo_frameStart _ ha.second
  have own : (m.advanceTo (v.landing m.timing)).clock.frameStart = m.clock.frameStart :=
    advanceTo_frameStart _ ha.first
  obtain ⟨landed, agree⟩ := alike.land address byte
  rw [turn_visit, turn_visit]
  exact ⟨landed, abreast.land alike address byte (by rw [kept, own]; exact hc), agree⟩

end Machine

end PictureUnit
