import PictureUnit.Proofs.Derived
import PictureUnit.Proofs.Eager
import PictureUnit.Proofs.RoundTrip
import PictureUnit.Proofs.VblankFlag

/-!
# The interrupt of the blank

The vertical blank latch notes which interrupt the processor was asked for. In every state of a
session the processor knows of it. In an open frame it is, until the blank, what the control byte
and the status reads of the frame make it: the interrupt of this very blank, or none.
-/

set_option autoImplicit false

namespace PictureUnit

/-- The interrupt that is asked for after some events, latest first. -/
def Host.standing : List Host.Event → Option Nat
  | [] => none
  | .interruptAt cycle :: _ => some cycle
  | .interruptWithdrawn :: _ => none
  | .stalled _ :: rest => standing rest
  | .transferred _ _ :: rest => standing rest

namespace Machine

variable {κ : Type}

/-- The interrupt that an open frame owes to the processor before its blank. -/
def owed (m : Machine κ) : Option Nat :=
  if m.circuit.registers.control.interrupts = true ∧ m.vblank.suppressed = false then
    some m.clock.vblankAt
  else none

/-- The processor knows of the interrupt that the latch has noted. -/
def Told (m : Machine κ) : Prop :=
  ∀ cycle, m.vblank.interruptAt = some cycle → Host.standing m.host.events = some cycle

/-- The latch of an open frame. -/
structure Minded (m : Machine κ) : Prop where
  quiet : m.vblank.suppressed = true → m.circuit.flag = false ∧ m.vblank.interruptAt = none
  near : m.vblank.raised = false →
    m.vblank.interruptAt = none ∨ m.vblank.interruptAt = some m.clock.vblankAt
  owes : m.clock.count < m.clock.vblankAt → m.vblank.interruptAt = m.owed

/-- What an operation leaves alone that has nothing to do with the blank. -/
structure Aside (m n : Machine κ) : Prop where
  vblank : n.vblank = m.vblank
  clock : n.clock = m.clock
  flag : n.circuit.flag = m.circuit.flag
  interrupts : n.circuit.registers.control.interrupts = m.circuit.registers.control.interrupts
  standing : Host.standing n.host.events = Host.standing m.host.events

theorem Aside.refl (m : Machine κ) : m.Aside m := ⟨rfl, rfl, rfl, rfl, rfl⟩

theorem Aside.trans {m n p : Machine κ} (h : m.Aside n) (h' : n.Aside p) : m.Aside p where
  vblank := h'.vblank.trans h.vblank
  clock := h'.clock.trans h.clock
  flag := h'.flag.trans h.flag
  interrupts := h'.interrupts.trans h.interrupts
  standing := h'.standing.trans h.standing

theorem Aside.told {m n : Machine κ} (h : m.Aside n) (hm : m.Told) : n.Told := by
  intro cycle noted
  rw [h.standing]
  exact hm cycle (h.vblank ▸ noted)

theorem Aside.owed {m n : Machine κ} (h : m.Aside n) : n.owed = m.owed := by
  rw [Machine.owed, h.interrupts, h.vblank, h.clock, Machine.owed]

theorem Aside.minded {m n : Machine κ} (h : m.Aside n) (hm : m.Minded) : n.Minded where
  quiet := by
    rw [h.vblank, h.flag]
    exact hm.quiet
  near := by
    rw [h.vblank, h.clock]
    exact hm.near
  owes := by
    rw [h.vblank, h.clock, h.owed]
    exact hm.owes

theorem setLines_aside (byte : UInt8) (m : Machine κ) : m.Aside (m.setLines byte) :=
  ⟨rfl, rfl, rfl, rfl, rfl⟩

theorem meet_aside (t : Turn) (m : Machine κ) : m.Aside (m.meet t) := ⟨rfl, rfl, rfl, rfl, rfl⟩

theorem stall_aside (cycles : Nat) (m : Machine κ) : m.Aside (m.stall cycles) :=
  ⟨rfl, rfl, rfl, rfl, rfl⟩

theorem takeByte_aside (address : Nat) (m : Machine κ) : m.Aside (m.takeByte address).2 :=
  ⟨rfl, rfl, rfl, rfl, rfl⟩

theorem advanceAddress_aside (m : Machine κ) : m.Aside m.advanceAddress :=
  ⟨rfl, rfl, rfl, rfl, rfl⟩

theorem writeObjectData_aside (byte : UInt8) (m : Machine κ) :
    m.Aside (m.writeObjectData byte) := by
  unfold writeObjectData
  dsimp only
  split <;> exact ⟨rfl, rfl, rfl, rfl, rfl⟩

theorem landByte_aside (byte : UInt8) (m : Machine κ) : m.Aside (m.landByte byte) :=
  (setLines_aside byte m).trans (writeObjectData_aside byte _)

theorem copyPage_aside (page : UInt8) (m : Machine κ) : m.Aside (m.copyPage page) :=
  copyPage_keeps
    (fun n address h => (h.trans (takeByte_aside address n)).trans (landByte_aside _ _))
    (fun n cycles h => h.trans (stall_aside cycles n)) (.refl m) page

theorem requestInterrupt_told (cycle : Nat) (m : Machine κ) : (m.requestInterrupt cycle).Told := by
  intro noted h
  exact h

theorem withdrawInterrupt_told (m : Machine κ) : m.withdrawInterrupt.Told := by
  intro noted h
  cases h

theorem told_of_none {m : Machine κ} (h : m.vblank.interruptAt = none) : m.Told := by
  intro noted hn
  rw [h] at hn
  cases hn

/-- What keeps the noted interrupt and what the processor was told keeps the two in step. -/
theorem Told.of_eq {m n : Machine κ} (h : m.Told)
    (noted : n.vblank.interruptAt = m.vblank.interruptAt)
    (host : n.host = m.host) : n.Told := by
  intro cycle hn
  rw [host]
  exact h cycle (noted ▸ hn)

theorem settleAt_told {m : Machine κ} (h : m.Told) (line : Line) (dot : Nat) :
    (m.settleAt line dot).Told := by
  unfold settleAt settleLength
  split
  · split
    · exact h
    · dsimp only
      split
      · exact requestInterrupt_told _ _
      · exact h.of_eq rfl rfl
  · exact h

theorem suppressVblank_told {m : Machine κ} (h : m.Told) : m.suppressVblank.Told := by
  unfold suppressVblank
  dsimp only
  split
  · exact withdrawInterrupt_told _
  · exact h.of_eq rfl rfl

theorem readStatus_told {m : Machine κ} (h : m.Told) (cycle : Nat) : (m.readStatus cycle).2.Told := by
  unfold readStatus
  dsimp only
  split
  · exact (suppressVblank_told h).of_eq rfl rfl
  · exact h.of_eq rfl rfl

theorem switchInterrupt_told {m : Machine κ} (h : m.Told) (enabled : Bool) (cycle : Nat) :
    (m.switchInterrupt enabled cycle).Told := by
  unfold switchInterrupt
  split
  · split
    · exact requestInterrupt_told _ _
    · split
      · exact requestInterrupt_told _ _
      · exact h
  · split
    · split
      · exact withdrawInterrupt_told _
      · exact h
    · exact h

theorem writeControl_told {m : Machine κ} (h : m.Told) (byte : UInt8) (cycle : Nat) :
    (m.writeControl byte cycle).Told := by
  have written := h.of_eq (n := m.withRegisters fun r =>
    { r with control := ⟨byte⟩, scroll := r.scroll.selectNametable byte }) rfl rfl
  unfold writeControl
  dsimp only
  split
  · exact written
  · exact switchInterrupt_told written _ _

theorem openFrame_told (m : Machine κ) : m.openFrame.Told := by
  unfold openFrame
  dsimp only
  split
  · exact requestInterrupt_told _ _
  · exact told_of_none rfl

theorem openFrame_minded (m : Machine κ) : m.openFrame.Minded := by
  have owes : m.openFrame.vblank.interruptAt = m.openFrame.owed := by
    unfold openFrame
    dsimp only
    split
    · next on => exact (if_pos ⟨on, rfl⟩).symm
    · next off => exact (if_neg fun h => off h.1).symm
  refine ⟨fun h => ?_, fun _ => ?_, fun _ => owes⟩
  · rw [openFrame_suppressed] at h
    cases h
  · rw [owes, owed]
    split
    · exact .inr rfl
    · exact .inl rfl

theorem passBlank_minded (target : Nat) {m : Machine κ} (h : m.Minded) :
    (m.passBlank target).Minded := by
  have clock := passBlank_clock target m
  have owed : (m.passBlank target).owed = m.owed := by
    have control : (m.passBlank target).circuit.registers.control = m.circuit.registers.control :=
      congrArg (·.control) (passBlank_settings target m)
    rw [Machine.owed, control, passBlank_suppressed, clock]
    rfl
  refine ⟨fun hs => ?_, fun hr => ?_, fun early => ?_⟩
  · rw [passBlank_suppressed] at hs
    rw [passBlank_flag, passBlank_interruptAt, (h.quiet hs).1, hs]
    exact ⟨rfl, (h.quiet hs).2⟩
  · rw [passBlank_raised, Bool.or_eq_false_iff] at hr
    rw [passBlank_interruptAt, clock]
    exact h.near hr.1
  · rw [clock] at early
    simp only [Clock.idleUntil] at early
    rw [passBlank_interruptAt, owed]
    exact h.owes (by omega)

/-- A noted interrupt of the blank moves along when the length is settled. -/
theorem settleAt_interruptAt (line : Line) (dot : Nat) {m : Machine κ}
    (h : m.vblank.interruptAt = none ∨ m.vblank.interruptAt = some m.clock.vblankAt) :
    (m.settleAt line dot).vblank.interruptAt
      = m.vblank.interruptAt.map fun _ => (m.settleAt line dot).clock.vblankAt := by
  have kept : m.vblank.interruptAt = m.vblank.interruptAt.map fun _ => m.clock.vblankAt := by
    rcases h with h | h <;> rw [h] <;> rfl
  unfold settleAt settleLength
  split
  · split
    · exact kept
    · dsimp only
      split
      · next noted =>
        rw [noted]
        rfl
      · next other =>
        have none : m.vblank.interruptAt = none := h.resolve_right other
        rw [none]
        exact none
  · exact kept

theorem readStatus_minded {m : Machine κ} (h : m.Minded) (cycle : Nat) :
    (m.readStatus cycle).2.Minded := by
  by_cases raced : m.racesVblank cycle = true
  · -- The latch holds this blank's interrupt or none, so a race leaves none.
    have low : m.vblank.raised = false := by
      simp only [racesVblank, Bool.and_eq_true, Bool.not_eq_true'] at raced
      exact raced.1.2
    have dropped : m.suppressVblank.vblank.interruptAt = none := by
      unfold suppressVblank
      dsimp only
      split
      · rfl
      · next other => exact (h.near low).resolve_right other
    have suppressed : m.suppressVblank.vblank.suppressed = true := by
      unfold suppressVblank
      dsimp only
      split <;> rfl
    have read : (m.readStatus cycle).2.vblank = m.suppressVblank.vblank := by
      rw [readStatus, if_pos raced]
      rfl
    refine ⟨fun _ => ⟨rfl, ?_⟩, fun _ => .inl ?_, fun _ => ?_⟩
    · rw [read, dropped]
    · rw [read, dropped]
    · rw [Machine.owed, read, dropped, suppressed, if_neg fun h => by cases h.2]
  · rw [readStatus, if_neg raced]
    exact ⟨fun hs => ⟨rfl, (h.quiet hs).2⟩, h.near, h.owes⟩

theorem switchInterrupt_minded {m : Machine κ} (ht : m.OnTime) (hf : m.inFrame = true)
    {cycle : Nat} (hc : m.Settled cycle) {enabled : Bool}
    (quiet : m.vblank.suppressed = true → m.circuit.flag = false ∧ m.vblank.interruptAt = none)
    (near : m.vblank.raised = false →
      m.vblank.interruptAt = none ∨ m.vblank.interruptAt = some m.clock.vblankAt)
    (he : m.circuit.registers.control.interrupts = enabled) :
    (m.switchInterrupt enabled cycle).Minded := by
  have hv := Clock.vblankAt_lt_frameEnd m.config.region m.clock ht.paced
  cases enabled with
  | true =>
    rw [switchInterrupt, if_pos rfl]
    split
    · next fresh =>
      simp only [Bool.and_eq_true, Bool.not_eq_true'] at fresh
      refine ⟨fun hs => ?_, fun _ => .inr rfl, fun _ => (if_pos ⟨he, fresh.2⟩).symm⟩
      rw [show m.vblank.suppressed = true from hs] at fresh
      cases fresh.2
    · next stale =>
      have past : m.vblank.suppressed = false → m.vblank.raised = true := by
        intro hs
        simpa [hf, hs] using stale
      split
      · next late =>
        have hs : m.vblank.suppressed = false := by
          cases hs : m.vblank.suppressed with
          | false => rfl
          | true =>
            have clear := (quiet hs).1
            rw [Circuit.flag, late.1] at clear
            cases clear
        have raised := past hs
        refine ⟨fun h => ?_, fun h => ?_, fun early => ?_⟩
        · rw [show m.vblank.suppressed = true from h] at hs
          cases hs
        · rw [show m.vblank.raised = false from h] at raised
          cases raised
        · have late := ht.raised_iff.mp raised
          exact absurd (show m.clock.count < m.clock.vblankAt from early) (by omega)
      · refine ⟨quiet, near, fun early => ?_⟩
        cases hs : m.vblank.suppressed with
        | false =>
          have late := ht.raised_iff.mp (past hs)
          omega
        | true => rw [(quiet hs).2, owed, hs, if_neg fun h => by cases h.2]
  | false =>
    have off : m.owed = none := by
      rw [owed, he]
      exact if_neg fun h => by cases h.1
    rw [switchInterrupt, if_neg Bool.false_ne_true]
    cases noted : m.vblank.interruptAt with
    | none =>
      refine ⟨fun hs => ?_, fun hr => ?_, fun _ => ?_⟩
      · exact quiet hs
      · exact near hr
      · rw [noted, off]
    | some requested =>
      dsimp only
      split
      · refine ⟨fun hs => ⟨(quiet hs).1, rfl⟩, fun _ => .inl rfl, fun _ => ?_⟩
        have same : m.withdrawInterrupt.owed = m.owed := rfl
        rw [same, off]
        rfl
      · next passed =>
        refine ⟨quiet, near, fun early => ?_⟩
        -- Before the blank only its own interrupt is noted, which is later than the write.
        have low := raised_false_of_lt ht early
        have own : requested = m.clock.vblankAt := by
          rcases near low with h | h
          · rw [noted] at h
            cases h
          · rw [noted] at h
            exact Option.some.inj h
        rcases hc with h | h <;> omega

/-- What holds of the interrupt between any two things that the processor does. -/
structure Kept (m : Machine κ) : Prop where
  told : m.Told
  minded : m.inFrame = true → m.OnTime ∧ m.Minded

theorem kept_of_parked {m : Machine κ} (h : m.vblank.interruptAt = none) (hf : m.inFrame = false) :
    m.Kept := by
  refine ⟨told_of_none h, fun open_ => ?_⟩
  rw [hf] at open_
  cases open_

theorem openFrame_kept (m : Machine κ) : m.openFrame.Kept :=
  ⟨openFrame_told m, fun _ => ⟨openFrame_onTime m, openFrame_minded m⟩⟩

theorem Kept.withCircuit {m : Machine κ} (h : m.Kept) {f : Circuit κ → Circuit κ}
    (hf : (f m.circuit).registers = m.circuit.registers) : (m.withCircuit f).Kept := by
  have aside : m.Aside (m.withCircuit f) := by
    refine ⟨rfl, rfl, ?_, ?_, rfl⟩
    · exact congrArg (·.status.vblank) hf
    · exact congrArg (·.control.interrupts) hf
  refine ⟨aside.told h.told, fun open_ => ?_⟩
  obtain ⟨onTime, minded⟩ := h.minded open_
  exact ⟨onTime.of_eq rfl rfl rfl, aside.minded minded⟩

theorem applyChunks_vblank (chunks : List Snapshot.Chunk) (m : Machine κ) :
    (m.applyChunks chunks).1.vblank = m.vblank :=
  applyChunks_keeps (P := fun n => n.vblank = m.vblank) (fun _ s h => by cases s <;> exact h)
    chunks rfl

theorem switchInterrupt_suppressed (enabled : Bool) (cycle : Nat) (m : Machine κ) :
    (m.switchInterrupt enabled cycle).vblank.suppressed = m.vblank.suppressed := by
  unfold switchInterrupt
  split
  · split
    · rfl
    · split <;> rfl
  · split
    · split <;> rfl
    · rfl

theorem readStatus_suppressed (cycle : Nat) (m : Machine κ) :
    (m.readStatus cycle).2.vblank.suppressed = (m.vblank.suppressed || m.racesVblank cycle) := by
  unfold readStatus
  dsimp only
  split
  · next raced =>
    rw [raced, Bool.or_true]
    change m.suppressVblank.vblank.suppressed = true
    unfold suppressVblank
    dsimp only
    split <;> rfl
  · next calm =>
    rw [Bool.not_eq_true] at calm
    rw [calm, Bool.or_false]
    rfl

variable [Cartridge κ]

theorem step_told {m : Machine κ} (h : m.Told) (line : Line) (dot : Nat) :
    (m.step line dot).Told := by
  have run : (m.runDot line dot).Told := h.of_eq rfl rfl
  exact (settleAt_told run line dot).of_eq rfl rfl

/-- A dot moves a noted interrupt along with the blank. -/
theorem step_interruptAt {m : Machine κ} (h : m.Minded) (ht : m.OnTime) {line : Line} {dot : Nat}
    (hp : m.clock.position = .raster line dot) : (m.step line dot).vblank.interruptAt
      = m.vblank.interruptAt.map fun _ => (m.step line dot).clock.vblankAt :=
  settleAt_interruptAt line dot (m := m.runDot line dot) (h.near (raised_false_of_raster ht hp))

/-- A dot on the raster leaves what the frame owes noted. -/
theorem step_minded {m : Machine κ} (h : m.Minded) (ht : m.OnTime) {line : Line} {dot : Nat}
    (hp : m.clock.position = .raster line dot) : (m.step line dot).Minded := by
  have moved := step_interruptAt h ht hp
  have control : (m.step line dot).circuit.registers.control = m.circuit.registers.control :=
    congrArg (·.control) (step_settings line dot m)
  have owed : (m.step line dot).owed
      = m.owed.map fun _ => (m.step line dot).clock.vblankAt := by
    rw [Machine.owed, Machine.owed, control, step_suppressed]
    split <;> rfl
  refine ⟨fun hs => ?_, fun _ => ?_, fun _ => ?_⟩
  · rw [step_suppressed] at hs
    rw [moved, (h.quiet hs).2, step_flag, (h.quiet hs).1, ite_self]
    exact ⟨rfl, rfl⟩
  · rw [moved]
    rcases h.near (raised_false_of_raster ht hp) with none | noted
    · exact .inl (by rw [none]; rfl)
    · exact .inr (by rw [noted]; rfl)
  · rw [moved, owed, h.owes (count_lt_vblankAt ht.paced hp)]

theorem advanceTo_told {m : Machine κ} (h : m.Told) (target : Nat) : (m.advanceTo target).Told := by
  fun_induction advanceTo target m with
  | case1 => exact h.of_eq (passBlank_interruptAt _ _) (passBlank_host _ _)
  | case2 m _ line dot _ ih => exact ih (step_told h line dot)
  | case3 => exact h

theorem advanceTo_minded {m : Machine κ} (h : m.Minded) (ht : m.OnTime) (target : Nat) :
    (m.advanceTo target).Minded := by
  fun_induction advanceTo target m with
  | case1 => exact passBlank_minded _ h
  | case2 m _ line dot hp ih => exact ih (step_minded h ht hp) (step_onTime ht hp)
  | case3 => exact h

theorem writeControl_minded {m : Machine κ} (h : m.Minded) (ht : m.OnTime)
    (hf : m.inFrame = true) (byte : UInt8) {cycle : Nat} (hc : m.Settled cycle) :
    (m.writeControl byte cycle).Minded := by
  let written := m.withRegisters fun r =>
    { r with control := ⟨byte⟩, scroll := r.scroll.selectNametable byte }
  have still : m.Still written := withRegisters_still _ m
  have same : m.writeControl byte cycle
      = if written.circuit.registers.control.interrupts = m.circuit.registers.control.interrupts
        then written else written.switchInterrupt written.circuit.registers.control.interrupts cycle :=
    rfl
  rw [same]
  split
  · next unchanged => exact Aside.minded (m := m) ⟨rfl, rfl, rfl, unchanged, rfl⟩ h
  · exact switchInterrupt_minded (still.onTime ht) hf (still.settled hc) h.quiet h.near rfl

theorem readData_aside (cycle : Nat) (m : Machine κ) : m.Aside (m.readData cycle).2 := by
  unfold readData
  split
  · exact advanceAddress_aside m
  · unfold readVideo
    dsimp only
    let address := m.circuit.registers.scroll.current.bus
    have flag := congrArg Status.vblank (Circuit.readVideo_status
      (if paletteBase ≤ address then address - 0x1000 else address) (m.circuit.expose address cycle))
    have settings := Circuit.readVideo_settings
      (if paletteBase ≤ address then address - 0x1000 else address) (m.circuit.expose address cycle)
    exact ⟨rfl, rfl, flag, congrArg (·.control.interrupts) settings, rfl⟩

theorem writeVideo_aside (byte : UInt8) (cycle : Nat) (m : Machine κ) :
    m.Aside (m.writeVideo byte cycle) := by
  unfold writeVideo withCircuit
  dsimp only
  split
  · exact ⟨rfl, rfl, rfl, rfl, rfl⟩
  · let address := m.circuit.registers.scroll.current.bus
    have flag := congrArg Status.vblank
      (Circuit.writeVideo_status address byte (m.circuit.expose address cycle))
    have settings := Circuit.writeVideo_settings address byte (m.circuit.expose address cycle)
    exact ⟨rfl, rfl, flag, congrArg (·.control.interrupts) settings, rfl⟩

/-- Of all registers only the control byte is of any concern to the interrupt when it is written. -/
theorem writeRegister_aside {register : Register} (hr : register ≠ .control) (byte : UInt8)
    (cycle : Nat) (m : Machine κ) : m.Aside (m.writeRegister register byte cycle) := by
  cases register with
  | control => exact absurd rfl hr
  | status => exact .refl m
  | objectData => exact writeObjectData_aside byte m
  | mask | objectAddress | scroll => exact ⟨rfl, rfl, rfl, rfl, rfl⟩
  | address =>
    change m.Aside (m.writeAddress byte cycle)
    unfold writeAddress withCircuit
    dsimp only
    split <;> exact ⟨rfl, rfl, rfl, rfl, rfl⟩
  | data =>
    change m.Aside (m.writeData byte cycle)
    unfold writeData
    split
    · exact advanceAddress_aside m
    · exact (writeVideo_aside byte cycle m).trans (advanceAddress_aside _)

/-- And only the status when it is read. -/
theorem readRegister_aside {register : Register} (hr : register ≠ .status) (cycle : Nat)
    (m : Machine κ) : m.Aside (m.readRegister register cycle).2 := by
  cases register with
  | status => exact absurd rfl hr
  | data => exact readData_aside cycle m
  | control | mask | objectAddress | objectData | scroll | address => exact .refl m

theorem Still.inFrame {m n : Machine κ} (h : m.Still n) : n.inFrame = m.inFrame :=
  congrArg Ledger.inFrame h.ledger

theorem Aside.kept {m n : Machine κ} (h : m.Aside n) (still : m.Still n) (hm : m.Kept) : n.Kept := by
  refine ⟨h.told hm.told, fun hf => ?_⟩
  obtain ⟨onTime, minded⟩ := hm.minded (still.inFrame.symm.trans hf)
  exact ⟨still.onTime onTime, h.minded minded⟩

theorem Kept.advanceTo {m : Machine κ} (h : m.Kept) (target : Nat) : (m.advanceTo target).Kept := by
  refine ⟨advanceTo_told h.told target, fun hf => ?_⟩
  obtain ⟨onTime, minded⟩ := h.minded (advanceTo_inFrame target m ▸ hf)
  exact ⟨advanceTo_onTime target onTime, advanceTo_minded minded onTime target⟩

theorem Kept.setLines {m : Machine κ} (h : m.Kept) (byte : UInt8) : (m.setLines byte).Kept :=
  (setLines_aside byte m).kept (setLines_still byte m) h

theorem Kept.readRegister {m : Machine κ} (h : m.Kept) (register : Register) (cycle : Nat) :
    (m.readRegister register cycle).2.Kept := by
  by_cases hr : register = .status
  · subst hr
    refine ⟨readStatus_told h.told cycle, fun hf => ?_⟩
    have still := readStatus_still cycle m
    obtain ⟨onTime, minded⟩ := h.minded (still.inFrame.symm.trans hf)
    exact ⟨still.onTime onTime, readStatus_minded minded cycle⟩
  · exact (readRegister_aside hr cycle m).kept (readRegister_still register cycle m) h

theorem Kept.writeRegister {m : Machine κ} (h : m.Kept) (register : Register) (byte : UInt8)
    {cycle : Nat} (hc : m.Settled cycle) : (m.writeRegister register byte cycle).Kept := by
  by_cases hr : register = .control
  · subst hr
    refine ⟨writeControl_told h.told byte cycle, fun hf => ?_⟩
    have still := writeControl_still byte cycle m
    have hf : m.inFrame = true := still.inFrame.symm.trans hf
    obtain ⟨onTime, minded⟩ := h.minded hf
    exact ⟨still.onTime onTime, writeControl_minded minded onTime hf byte hc⟩
  · exact (writeRegister_aside hr byte cycle m).kept (writeRegister_still register byte cycle m) h

theorem Kept.writeInto {m : Machine κ} (h : m.Kept) (register : Register) (byte : UInt8) :
    (m.writeInto register byte).Kept := by
  have latched := (h.advanceTo (m.landing register)).setLines byte
  have settled := (setLines_still byte _).settled (advanceTo_settled (m.landing register) m)
  rw [writeInto_eq, put]
  split
  · exact latched
  · exact latched.writeRegister register byte settled

theorem Kept.landByte {m : Machine κ} (h : m.Kept) (byte : UInt8) : (m.landByte byte).Kept :=
  (landByte_aside byte m).kept (landByte_still byte m) h

theorem Kept.moveByte {m : Machine κ} (h : m.Kept) (address : Nat) : (m.moveByte address).Kept := by
  have taken := ((stall_aside 1 m).trans (takeByte_aside address _)).trans (stall_aside 1 _)
  have still := ((stall_still 1 m).trans (takeByte_still address _)).trans (stall_still 1 _)
  exact ((taken.kept still h).advanceTo _).landByte _

theorem Kept.transferPage {m : Machine κ} (h : m.Kept) (page : UInt8) :
    (m.transferPage page).Kept := by
  have aligned : m.align.Kept :=
    ((stall_aside m.alignment m).kept (stall_still m.alignment m) h).advanceTo _
  exact transferPage_keeps aligned
    (fun n hn => (copyPage_aside page n).kept (copyPage_still page n) hn)
    fun _ address hn => hn.moveByte address

theorem Kept.turn {m : Machine κ} (h : m.Kept) (t : Turn) : (m.turn t).2.Kept := by
  have met : (m.meet t).Kept := (meet_aside t m).kept (meet_still t m) h
  exact turn_keeps met (fun _ target hn => hn.advanceTo target)
    (fun _ register cycle hn => hn.readRegister register cycle) (fun _ byte hn => hn.setLines byte)
    (fun _ register byte hn => hn.writeInto register byte) fun _ page hn => hn.transferPage page

theorem Moves.kept {m n : Machine κ} (step : m.Moves n) (h : m.Kept) : n.Kept := by
  cases step with
  | turn t => exact h.turn t
  | opened ho =>
    rw [eq_of_beginFrame ho]
    exact openFrame_kept m
  | closed hc =>
    obtain ⟨-, rfl⟩ := eq_of_endFrame hc
    refine ⟨(advanceTo_told h.told _).of_eq rfl rfl, fun hf => ?_⟩
    cases hf
  | reset kind => cases kind <;> exact kept_of_parked rfl rfl
  | loaded hl =>
    obtain ⟨chunks, -, rfl⟩ := load_eq_restore hl
    have parked := applyChunks_vblank chunks (m.reset .cold)
    exact kept_of_parked (congrArg VblankLatch.interruptAt parked) (load_inFrame hl)
  | swapped hs =>
    obtain ⟨-, rfl⟩ := eq_of_swapScreen hs
    exact h.withCircuit rfl
  | mapped | banked | inserted => exact h.withCircuit rfl

theorem Reachable.kept {m : Machine κ} (h : m.Reachable) : m.Kept := by
  induction h with
  | new config banks cartridge host => exact kept_of_parked rfl rfl
  | move _ step ih => exact step.kept ih

/-- Whether a turn reads the status too close before the blank. -/
def races (t : Turn) (m : Machine κ) : Bool :=
  match t.access with
  | .read address =>
    Register.ofAddress address == .status && (m.advanceTo t.cycle).racesVblank t.cycle
  | .write _ _ | .transfer _ | .catchUp _ => false

theorem advanceTo_suppressed (target : Nat) (m : Machine κ) :
    (m.advanceTo target).vblank.suppressed = m.vblank.suppressed := by
  fun_induction advanceTo target m with
  | case1 => exact passBlank_suppressed _ _
  | case2 m _ line dot _ ih => exact ih.trans (step_suppressed line dot m)
  | case3 => rfl

theorem writeRegister_suppressed (register : Register) (byte : UInt8) (cycle : Nat)
    (m : Machine κ) :
    (m.writeRegister register byte cycle).vblank.suppressed = m.vblank.suppressed := by
  by_cases hr : register = .control
  · subst hr
    change (m.writeControl byte cycle).vblank.suppressed = _
    unfold writeControl
    dsimp only
    split
    · rfl
    · exact switchInterrupt_suppressed _ _ _
  · exact congrArg VblankLatch.suppressed (writeRegister_aside hr byte cycle m).vblank

theorem transferPage_suppressed (page : UInt8) (m : Machine κ) :
    (m.transferPage page).vblank.suppressed = m.vblank.suppressed := by
  have landed (byte : UInt8) (m : Machine κ) :
      (m.landByte byte).vblank.suppressed = m.vblank.suppressed :=
    congrArg VblankLatch.suppressed (landByte_aside byte m).vblank
  have aligned : m.align.vblank.suppressed = m.vblank.suppressed := advanceTo_suppressed _ _
  refine transferPage_keeps (P := fun n => n.vblank.suppressed = m.vblank.suppressed) aligned
    (fun n hn => ?_) fun n address hn => ?_
  · exact (congrArg VblankLatch.suppressed (copyPage_aside page n).vblank).trans hn
  · exact ((landed _ _).trans (advanceTo_suppressed _ _)).trans hn

/-- Only a status read that comes too close before the blank suppresses it. -/
theorem turn_suppressed (t : Turn) (m : Machine κ) :
    (m.turn t).2.vblank.suppressed = (m.vblank.suppressed || m.races t) := by
  have wrote (register : Register) (byte : UInt8) (m : Machine κ) :
      (m.writeInto register byte).vblank.suppressed = m.vblank.suppressed := by
    rw [writeInto_eq, put]
    split
    · exact advanceTo_suppressed _ m
    · exact (writeRegister_suppressed _ _ _ _).trans (advanceTo_suppressed _ m)
  obtain ⟨cycle, memory, access⟩ := t
  cases access with
  | read address =>
    let met := (m.meet ⟨cycle, memory, .read address⟩).advanceTo cycle
    have caught : met = (m.advanceTo cycle).meet ⟨cycle, memory, .read address⟩ :=
      advanceTo_meet _ _ m
    have kept : met.vblank.suppressed = m.vblank.suppressed := by
      rw [caught]
      exact advanceTo_suppressed cycle m
    have raced : met.racesVblank cycle = (m.advanceTo cycle).racesVblank cycle := by
      rw [caught]
      rfl
    change (met.readRegister (.ofAddress address) cycle).2.vblank.suppressed = _
    simp only [races]
    by_cases hr : Register.ofAddress address = .status
    · rw [hr, beq_self_eq_true, Bool.true_and, ← raced, ← kept]
      exact readStatus_suppressed cycle met
    · rw [beq_false_of_ne hr, Bool.false_and, Bool.or_false, ← kept]
      exact congrArg VblankLatch.suppressed (readRegister_aside hr cycle met).vblank
  | write address byte =>
    simp only [races, Bool.or_false]
    change ((m.meet ⟨cycle, memory, .write address byte⟩).write address byte).vblank.suppressed = _
    unfold write
    split
    · exact transferPage_suppressed _ _
    · exact wrote _ _ _
  | transfer page =>
    simp only [races, Bool.or_false]
    exact transferPage_suppressed _ _
  | catchUp target =>
    simp only [races, Bool.or_false]
    exact advanceTo_suppressed _ _

/-- The latch agrees with the control byte and with the processor, through the settling of the
length as well, and nothing but a status read too close before the blank suppresses it. -/
theorem interrupt_agrees {m : Machine κ} (hm : m.Reachable) :
    (m.inFrame = true → m.clock.count < m.clock.vblankAt → m.vblank.interruptAt
      = if m.circuit.registers.control.interrupts = true ∧ m.vblank.suppressed = false then
          some m.clock.vblankAt
        else none)
    ∧ (∀ cycle, m.vblank.interruptAt = some cycle → Host.standing m.host.events = some cycle)
    ∧ (m.inFrame = true → ∀ line dot, m.clock.position = .raster line dot →
      ∀ cycle, m.vblank.interruptAt = some cycle →
        (m.step line dot).vblank.interruptAt = some (m.step line dot).clock.vblankAt
          ∧ Host.standing (m.step line dot).host.events = some (m.step line dot).clock.vblankAt)
    ∧ (∀ o, m.beginFrame = .ok o → o.vblank.suppressed = false)
    ∧ ∀ t, (m.turn t).2.vblank.suppressed = (m.vblank.suppressed || m.races t) := by
  have kept := hm.kept
  refine ⟨fun hf early => (kept.minded hf).2.owes early, kept.told, ?_, ?_, fun t => turn_suppressed t m⟩
  · intro hf line dot hp cycle noted
    obtain ⟨onTime, minded⟩ := kept.minded hf
    have moved := step_interruptAt minded onTime hp
    rw [noted] at moved
    exact ⟨moved, step_told kept.told line dot _ moved⟩
  · intro o ho
    rw [eq_of_beginFrame ho]
    exact openFrame_suppressed m

/-- Registers with the interrupt switched on. -/
def armedSections : List Snapshot.Section :=
  [.registers { Registers.cleared with control := ⟨0x80⟩ }]

/-- A new machine that has loaded them. -/
def armedMachine : Machine Unit :=
  ((armedSections.foldl apply ((Machine.new ⟨.ntsc, .hardware⟩ .new () (.new fun _ => 0)).reset
    .cold)).withCircuit fun c => c.setMask c.registers.mask)

theorem armedMachine_reachable : armedMachine.Reachable := by
  have loaded := load_join (m := Machine.new ⟨.ntsc, .hardware⟩ .new () (.new fun _ => 0)) rfl
    armedSections
  exact (Reachable.new ⟨.ntsc, .hardware⟩ .new () (.new fun _ => 0)).move (.loaded loaded)

/-- A frame that opens with the interrupt switched on owes the interrupt of its blank, and the
processor knows. -/
theorem interrupt_agrees_armed :
    ∃ m : Machine Unit, m.Reachable ∧ m.inFrame = true
      ∧ m.vblank.interruptAt = some m.clock.vblankAt
      ∧ Host.standing m.host.events = some m.clock.vblankAt := by
  have begun : armedMachine.beginFrame = .ok armedMachine.openFrame := rfl
  have opened := armedMachine_reachable.move (.opened begun)
  obtain ⟨owes, told, -⟩ := interrupt_agrees opened
  have noted := owes rfl (by decide)
  rw [if_pos ⟨by decide, rfl⟩] at noted
  exact ⟨_, opened, rfl, noted, told _ noted⟩

end Machine

end PictureUnit
