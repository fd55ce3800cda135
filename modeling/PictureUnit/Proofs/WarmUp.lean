import PictureUnit.Proofs.Darkness
import PictureUnit.Proofs.Drafts

/-!
# Warming up

From a soft reset until a frame has been completed, the chip takes no set-up. Nothing is rendered, no
interrupt is asked for, and the current address moves only as the data register is used. Further soft
resets and frames that a reset cuts short do not end the time; the end of the first whole frame does.
-/

set_option autoImplicit false

namespace PictureUnit

/-- How often an access uses the data register. -/
def Access.dataUses : Access → Nat
  | .read address => if Register.ofAddress address = .data then 1 else 0
  | .write address _ =>
    if address ≠ transferAddress ∧ Register.ofAddress address = .data then 1 else 0
  | .transfer _ | .catchUp _ => 0

namespace Deed

variable {κ : Type}

def dataUses : Deed κ → Nat
  | .act (.turn t) => t.access.dataUses
  | .act .opening | .act .closing | .reset _ | .load _ | .swap _ | .recolor _ | .bank _ | .insert _ => 0

/-- Anything but a cold reset and a load. -/
def Mild : Deed κ → Prop
  | .reset .cold | .load _ => False
  | .act _ | .reset .soft | .swap _ | .recolor _ | .bank _ | .insert _ => True

end Deed

namespace Machine

variable {κ : Type} {m n p : Machine κ} {j k : Nat}

/-- No set-up is there, and no interrupt is asked for. -/
structure Unset (m : Machine κ) : Prop where
  warmingUp : m.warmingUp = true
  control : m.circuit.registers.control = ⟨0⟩
  mask : m.circuit.registers.mask = ⟨0⟩
  draft : m.draft = .clear
  interruptAt : m.vblank.interruptAt = none

theorem Unset.dark (h : m.Unset) : m.rendering = false := by
  rw [rendering, h.mask]
  decide

theorem Unset.fetching (h : m.Unset) : m.fetching = false := by
  rw [Machine.fetching, h.dark, Bool.false_and]

/-- The machine has asked for no interrupt, and its current address has moved on by so many places. -/
structure Drifts (k : Nat) (m n : Machine κ) : Prop where
  unasked : ∃ said, n.host.events = said ++ m.host.events ∧ ∀ cycle, .interruptAt cycle ∉ said
  current : n.circuit.registers.scroll.current.raw
    = (m.circuit.registers.scroll.current.raw + k) % 0x8000

theorem drifts_zero (said : List Host.Event) (events : n.host.events = said ++ m.host.events)
    (unasked : ∀ cycle, .interruptAt cycle ∉ said)
    (current : n.circuit.registers.scroll.current = m.circuit.registers.scroll.current) : m.Drifts 0 n := by
  refine ⟨⟨said, events, unasked⟩, ?_⟩
  rw [current, Nat.add_zero, Nat.mod_eq_of_lt (Scroll.Address.raw_lt _)]

theorem Drifts.refl (m : Machine κ) : m.Drifts 0 m :=
  drifts_zero [] rfl (fun _ => List.not_mem_nil) rfl

theorem Drifts.trans (h : m.Drifts j n) (h' : n.Drifts k p) : m.Drifts (j + k) p := by
  obtain ⟨early, first, quiet⟩ := h.unasked
  obtain ⟨late, second, still⟩ := h'.unasked
  refine ⟨⟨late ++ early, by rw [second, first, List.append_assoc], fun cycle asked => ?_⟩, ?_⟩
  · exact (List.mem_append.mp asked).elim (still cycle) (quiet cycle)
  · rw [h'.current, h.current, Nat.mod_add_mod, Nat.add_assoc]

/-- What an operation does in the time without a set-up. -/
def Endures (k : Nat) (m n : Machine κ) : Prop := m.Unset → n.Unset ∧ m.Drifts k n

theorem Endures.refl (m : Machine κ) : m.Endures 0 m := fun h => ⟨h, .refl m⟩

theorem Endures.trans (h : m.Endures j n) (h' : n.Endures k p) : m.Endures (j + k) p := by
  intro unset
  obtain ⟨there, first⟩ := h unset
  obtain ⟨last, second⟩ := h' there
  exact ⟨last, first.trans second⟩

theorem withHost_endures {f : Host → Host} (said : List Host.Event)
    (events : (f m.host).events = said ++ m.host.events) (unasked : ∀ cycle, .interruptAt cycle ∉ said) :
    m.Endures 0 (m.withHost f) :=
  fun h => ⟨⟨h.warmingUp, h.control, h.mask, h.draft, h.interruptAt⟩, drifts_zero said events unasked rfl⟩

theorem stall_endures (cycles : Nat) (m : Machine κ) : m.Endures 0 (m.stall cycles) :=
  withHost_endures [.stalled cycles] rfl (by simp)

theorem takeByte_endures (address : Nat) (m : Machine κ) : m.Endures 0 (m.takeByte address).2 :=
  withHost_endures (f := fun h => (h.transfer address).2) [.transferred address m.host.cycle] rfl
    (by simp)

theorem endures_of_eq (warmingUp : n.warmingUp = m.warmingUp)
    (interruptAt : n.vblank.interruptAt = m.vblank.interruptAt) (host : n.host = m.host)
    (control : n.circuit.registers.control = m.circuit.registers.control)
    (mask : n.circuit.registers.mask = m.circuit.registers.mask)
    (scroll : n.circuit.registers.scroll = m.circuit.registers.scroll) : m.Endures 0 n := by
  intro h
  have draft : n.draft = m.draft :=
    congrArg (fun l : Scroll.Latch => Draft.mk l.pending.raw l.fineX.val l.second) scroll
  exact ⟨⟨warmingUp.trans h.warmingUp, control.trans h.control, mask.trans h.mask, draft.trans h.draft,
      interruptAt.trans h.interruptAt⟩,
    drifts_zero [] (congrArg Host.events host) (fun _ => List.not_mem_nil)
      (congrArg Scroll.Latch.current scroll)⟩

theorem setLines_endures (byte : UInt8) (m : Machine κ) : m.Endures 0 (m.setLines byte) :=
  endures_of_eq rfl rfl rfl rfl rfl rfl

theorem writeObjectData_endures (byte : UInt8) (m : Machine κ) : m.Endures 0 (m.writeObjectData byte) := by
  unfold writeObjectData
  dsimp only
  split <;> exact endures_of_eq rfl rfl rfl rfl rfl rfl

theorem landByte_endures (byte : UInt8) (m : Machine κ) : m.Endures 0 (m.landByte byte) :=
  (setLines_endures byte m).trans (writeObjectData_endures byte _)

theorem copyPage_endures (page : UInt8) (m : Machine κ) : m.Endures 0 (m.copyPage page) :=
  copyPage_keeps (P := m.Endures 0)
    (fun n address h => h.trans ((takeByte_endures address n).trans (landByte_endures _ _)))
    (fun n cycles h => h.trans (stall_endures cycles n)) (.refl m) page

/-- Without a set-up the data register steps one byte across. -/
theorem advanceAddress_endures (m : Machine κ) : m.Endures 1 m.advanceAddress := by
  intro h
  refine ⟨⟨h.warmingUp, h.control, h.mask, h.draft, h.interruptAt⟩,
    ⟨[], rfl, fun _ => List.not_mem_nil⟩, ?_⟩
  have one : m.circuit.registers.control.increment = 1 := by
    rw [h.control]
    decide
  have moved := Scroll.Address.raw_advance m.circuit.registers.control.increment
    m.circuit.registers.scroll.current
  rw [one] at moved
  rw [← moved, ← one]
  rfl

theorem softReset_unset (m : Machine κ) : (m.reset .soft).Unset := by
  refine ⟨rfl, rfl, rfl, ?_, rfl⟩
  have scroll : (m.reset .soft).circuit.registers.scroll
      = { Scroll.Latch.cleared with current := m.circuit.registers.scroll.current } := rfl
  simp only [draft, Settings.draft, Circuit.settings, scroll]
  rfl

theorem softReset_endures (m : Machine κ) : m.Endures 0 (m.reset .soft) :=
  fun _ => ⟨softReset_unset m, drifts_zero [] rfl (fun _ => List.not_mem_nil) rfl⟩

/-- No interrupt is asked for when a frame is opened with interrupts off. -/
theorem openFrame_endures (m : Machine κ) : m.Endures 0 m.openFrame := by
  intro h
  have off : ¬ m.circuit.registers.control.interrupts = true := by
    rw [h.control]
    decide
  have opened : m.Endures 0 { m with
      clock := m.clock.openFrame m.timing m.dropsDot, vblank := .armed, inFrame := true } :=
    endures_of_eq rfl h.interruptAt.symm rfl rfl rfl rfl
  unfold openFrame
  dsimp only
  rw [if_neg off]
  exact opened h

theorem withCircuit_endures {f : Circuit κ → Circuit κ}
    (registers : (f m.circuit).registers = m.circuit.registers) : m.Endures 0 (m.withCircuit f) :=
  endures_of_eq rfl rfl rfl (congrArg Registers.control registers) (congrArg Registers.mask registers)
    (congrArg Registers.scroll registers)

/-- A status read takes back no request where there is none, and the toggle is off already. -/
theorem readStatus_endures (cycle : Nat) (m : Machine κ) : m.Endures 0 (m.readStatus cycle).2 := by
  intro h
  have nothing : ¬ m.vblank.interruptAt = some m.clock.vblankAt := by
    rw [h.interruptAt]
    exact fun asked => by cases asked
  have suppressed : m.Endures 0 m.suppressVblank := by
    unfold suppressVblank
    dsimp only
    rw [if_neg nothing]
    exact endures_of_eq rfl rfl rfl rfl rfl rfl
  have raced : m.Endures 0 (if m.racesVblank cycle then m.suppressVblank else m) := by
    split
    · exact suppressed
    · exact .refl m
  obtain ⟨unset, -⟩ := raced h
  unfold readStatus
  dsimp only
  generalize (if m.racesVblank cycle then m.suppressVblank else m) = n at raced unset
  have second : n.circuit.registers.scroll.second = false := congrArg Draft.second unset.draft
  have rewound : n.circuit.registers.scroll.rewind = n.circuit.registers.scroll := by
    rw [Scroll.Latch.rewind, ← second]
  have looked : n.Endures 0 (n.withRegisters fun r =>
      { r with status := { r.status with vblank := false }, scroll := r.scroll.rewind }) :=
    endures_of_eq rfl rfl rfl rfl rfl rewound
  exact (raced.trans looked) h

variable [Cartridge κ]

theorem advanceTo_endures (target : Nat) (m : Machine κ) : m.Endures 0 (m.advanceTo target) := by
  intro h
  have tracks := advanceTo_tracks h.dark target
  have settings := advanceTo_settings target m
  have none_due : ¬ (m.clock.short ≠ (m.advanceTo target).clock.short
      ∧ m.vblank.interruptAt = some m.clock.vblankAt) := fun due => by
    rw [h.interruptAt] at due
    cases due.2
  refine ⟨⟨?_, ?_, ?_, ?_, ?_⟩, drifts_zero [] ?_ (fun _ => List.not_mem_nil) ?_⟩
  · exact (advanceTo_warmingUp target m).trans h.warmingUp
  · exact (congrArg Settings.control settings).trans h.control
  · exact (congrArg Settings.mask settings).trans h.mask
  · exact (advanceTo_draft target m).trans h.draft
  · rw [tracks.interruptAt, if_neg none_due, h.interruptAt]
  · rw [tracks.host, if_neg none_due]
    rfl
  · rw [advanceTo_circuit h.dark]
    rfl

theorem readData_endures (cycle : Nat) (m : Machine κ) : m.Endures 1 (m.readData cycle).2 := by
  have video : m.Endures 0 (m.readVideo cycle).2 := by
    have registers (address : Nat) (c : Circuit κ) : (c.readVideo address).2.registers = c.registers := by
      unfold Circuit.readVideo Circuit.readPattern Circuit.readName
      split <;> split <;> rfl
    have kept := registers (if paletteBase ≤ m.circuit.registers.scroll.current.bus
      then m.circuit.registers.scroll.current.bus - 0x1000 else m.circuit.registers.scroll.current.bus)
      (m.circuit.expose m.circuit.registers.scroll.current.bus cycle)
    have control := congrArg Registers.control kept
    have mask := congrArg Registers.mask kept
    have scroll := congrArg Registers.scroll kept
    exact endures_of_eq rfl rfl rfl control mask scroll
  intro h
  rw [readData, h.fetching]
  exact video.trans (advanceAddress_endures _) h

theorem writeData_endures (byte : UInt8) (cycle : Nat) (m : Machine κ) :
    m.Endures 1 (m.writeData byte cycle) := by
  have video : m.Endures 0 (m.writeVideo byte cycle) := by
    have registers (address : Nat) (c : Circuit κ) :
        (c.writeVideo address byte).registers = c.registers := by
      unfold Circuit.writeVideo Circuit.writePattern Circuit.writeName
      split <;> split <;> rfl
    have kept := registers m.circuit.registers.scroll.current.bus
      (m.circuit.expose m.circuit.registers.scroll.current.bus cycle)
    unfold writeVideo withCircuit
    dsimp only
    split
    · exact endures_of_eq rfl rfl rfl rfl rfl rfl
    · exact endures_of_eq rfl rfl rfl (congrArg Registers.control kept) (congrArg Registers.mask kept)
        (congrArg Registers.scroll kept)
  intro h
  rw [writeData, h.fetching]
  exact video.trans (advanceAddress_endures _) h

theorem readRegister_endures (register : Register) (cycle : Nat) (m : Machine κ) :
    m.Endures (if register = .data then 1 else 0) (m.readRegister register cycle).2 := by
  cases register with
  | status => exact readStatus_endures cycle m
  | data => exact readData_endures cycle m
  | objectData | control | mask | objectAddress | scroll | address => exact .refl m

/-- A write to the set-up does nothing but catch up and drive the lines. -/
theorem Unset.writeInto_setup (h : m.Unset) {register : Register} (setup : register.isSetup = true)
    (byte : UInt8) :
    m.writeInto register byte = (m.advanceTo (m.landing register)).setLines byte := by
  have waiting : ((m.advanceTo (m.landing register)).setLines byte).warmingUp = true :=
    (advanceTo_warmingUp _ m).trans h.warmingUp
  rw [writeInto_eq, put, waiting, Register.heldBackInWarmUp, setup, Bool.and_self, if_pos rfl]

theorem writeInto_endures (register : Register) (byte : UInt8) (m : Machine κ) :
    m.Endures (if register = .data then 1 else 0) (m.writeInto register byte) := by
  have caught (target : Nat) : m.Endures 0 ((m.advanceTo target).setLines byte) :=
    (advanceTo_endures target m).trans (setLines_endures byte _)
  intro h
  cases register with
  | control | mask | scroll | address =>
    rw [h.writeInto_setup rfl]
    exact caught _ h
  | status =>
    rw [writeInto_other rfl]
    exact caught _ h
  | objectAddress =>
    rw [writeInto_other rfl]
    have written (n : Machine κ) : n.Endures 0 (n.writeRegister .objectAddress byte m.host.cycle) :=
      endures_of_eq rfl rfl rfl rfl rfl rfl
    exact (caught _).trans (written _) h
  | objectData =>
    rw [writeInto_other rfl]
    exact (caught _).trans (writeObjectData_endures byte _) h
  | data =>
    rw [writeInto_other rfl]
    exact (caught _).trans (writeData_endures byte _ _) h

theorem transferPage_endures (page : UInt8) (m : Machine κ) : m.Endures 0 (m.transferPage page) := by
  refine transferPage_keeps (P := m.Endures 0) ?_ (fun n h => h.trans (copyPage_endures page n)) ?_
  · exact (stall_endures m.alignment m).trans (advanceTo_endures _ _)
  · intro n address h
    have waits : n.Endures 0 (n.awaiting address) :=
      ((stall_endures 1 n).trans (takeByte_endures address _)).trans (stall_endures 1 _)
    exact h.trans ((waits.trans (advanceTo_endures _ _)).trans (landByte_endures _ _))

theorem turn_endures (t : Turn) (m : Machine κ) : m.Endures t.access.dataUses (m.turn t).2 := by
  have met : m.Endures 0 (m.meet t) :=
    withHost_endures [] rfl fun _ => List.not_mem_nil
  have performed : (m.meet t).Endures t.access.dataUses (m.turn t).2 := by
    unfold turn
    generalize m.meet t = p
    cases t.access with
    | read address =>
      have looked := (advanceTo_endures p.host.cycle p).trans
        (readRegister_endures (.ofAddress address) p.host.cycle _)
      rw [Nat.zero_add] at looked
      exact looked.trans (setLines_endures _ _)
    | write address byte =>
      rw [perform, write, Access.dataUses]
      by_cases transfers : address = transferAddress
      · rw [if_pos transfers, if_neg fun plain => plain.1 transfers]
        exact transferPage_endures byte p
      · have written := writeInto_endures (.ofAddress address) byte p
        rw [if_neg transfers]
        simpa only [transfers, ne_eq, not_false_eq_true, true_and] using written
    | transfer page => exact transferPage_endures page p
    | catchUp target => exact advanceTo_endures target p
  have all := met.trans performed
  rwa [Nat.zero_add] at all

/-- Only the end of a frame ends the time. -/
theorem deed_endures {d : Deed κ} (mild : d.Mild) (unfinished : d = .act .closing → m.inFrame = false) :
    m.Endures d.dataUses (m.deed d) := by
  cases d with
  | act a =>
    cases a with
    | opening =>
      obtain same | opened := m.act_opening
      · rw [deed, same]
        exact .refl m
      · rw [deed, opened]
        exact openFrame_endures m
    | closing =>
      rw [deed, act, endFrame, if_neg (ne_true_of_eq_false (unfinished rfl))]
      exact .refl m
    | turn t => exact turn_endures t m
  | reset kind =>
    cases kind with
    | cold => exact mild.elim
    | soft => exact softReset_endures m
  | load => exact mild.elim
  | swap given =>
    obtain same | taken := m.deed_swap given
    · rw [same]
      exact .refl m
    · rw [taken]
      exact withCircuit_endures rfl
  | recolor map => exact withCircuit_endures (f := fun c => { c with palette := c.palette.setMap map }) rfl
  | bank change => exact withCircuit_endures (f := fun c => { c with banks := change c.banks }) rfl
  | insert cartridge => exact withCircuit_endures (f := fun c => { c with cartridge := cartridge }) rfl

/-- No frame is completed by these deeds. -/
def Unfinished (ds : List (Deed κ)) (m : Machine κ) : Prop :=
  ∀ i, ds[i]? = some (.act .closing) → (m.afterDeeds (ds.take i)).inFrame = false

theorem afterDeeds_endures {ds : List (Deed κ)} (mild : ∀ d ∈ ds, d.Mild) (unfinished : m.Unfinished ds) :
    m.Endures (ds.map Deed.dataUses).sum (m.afterDeeds ds) := by
  induction ds generalizing m with
  | nil => exact .refl m
  | cons d rest ih =>
    rw [List.forall_mem_cons] at mild
    rw [List.map_cons, List.sum_cons]
    refine (deed_endures mild.1 fun closing => unfinished 0 (congrArg some closing)).trans ?_
    exact ih mild.2 fun i found => unfinished (i + 1) found

/-- A write to the set-up after the time is over does what the register is for. -/
theorem turn_setup_warm (warm : m.warmingUp = false) {t : Turn} {address : Nat} {byte : UInt8}
    (access : t.access = .write address byte) (plain : address ≠ transferAddress) :
    let register := Register.ofAddress address
    let p := m.meet t
    let caught := (p.advanceTo (p.landing register)).setLines byte
    m.turn t = (none, caught.writeRegister register byte (p.landing register)) := by
  have ready : (m.meet t).warmingUp = false := warm
  intro register p caught
  rw [turn, access, perform, write, if_neg plain, writeInto_of_warm ready]

/-- From a soft reset until the end of the first whole frame no set-up is taken. -/
theorem warmUp_window (m : Machine κ) {ds : List (Deed κ)} (mild : ∀ d ∈ ds, d.Mild)
    (unfinished : (m.reset .soft).Unfinished ds) :
    let start := m.reset .soft
    let n := start.afterDeeds ds
    (start.circuit.registers.scroll.current = m.circuit.registers.scroll.current
      ∧ start.circuit.registers.status = m.circuit.registers.status
      ∧ start.circuit.registers.objectAddress = m.circuit.registers.objectAddress
      ∧ start.circuit.objects = m.circuit.objects
      ∧ start.circuit.palette.entries = m.circuit.palette.entries
      ∧ start.circuit.banks = m.circuit.banks
      ∧ start.host = m.host)
    ∧ (n.circuit.registers.control = ⟨0⟩ ∧ n.circuit.registers.mask = ⟨0⟩ ∧ n.draft = ⟨0, 0, false⟩
      ∧ (∃ said, n.host.events = said ++ m.host.events ∧ ∀ cycle, .interruptAt cycle ∉ said)
      ∧ n.circuit.registers.scroll.current.raw
        = (m.circuit.registers.scroll.current.raw + (ds.map Deed.dataUses).sum) % 0x8000)
    ∧ (∀ t address byte, t.access = .write address byte → address ≠ transferAddress →
      (Register.ofAddress address).isSetup = true →
      let p := n.meet t
      n.turn t = (none, (p.advanceTo (p.landing (.ofAddress address))).setLines byte))
    ∧ (n.inFrame = true →
      let q := n.deed (.act .closing)
      (∃ said, q.host.events = said ++ n.host.events ∧ ∀ cycle, .interruptAt cycle ∉ said)
      ∧ q.circuit.registers.scroll.current.raw = n.circuit.registers.scroll.current.raw
      ∧ ∀ es : List (Deed κ), (∀ d ∈ es, d.Lasting) →
        let r := q.afterDeeds es
        ∀ t address byte, t.access = .write address byte → address ≠ transferAddress →
          let register := Register.ofAddress address
          let p := r.meet t
          let caught := (p.advanceTo (p.landing register)).setLines byte
          r.turn t = (none, caught.writeRegister register byte (p.landing register))
            ∧ (r.turn t).2.draft = r.draft.after (Stroke.ofWrite byte register)
            ∧ (register = .control → (r.turn t).2.circuit.registers.control = ⟨byte⟩)
            ∧ (register = .mask → (r.turn t).2.circuit.registers.mask = ⟨byte⟩)) := by
  intro start n
  obtain ⟨unset, drifts⟩ := afterDeeds_endures mild unfinished (softReset_unset m)
  have kept : start.circuit.palette.entries = m.circuit.palette.entries :=
    (Palette.setMask_keeps ⟨0⟩ m.circuit.palette).1
  refine ⟨⟨rfl, rfl, rfl, rfl, kept, rfl, rfl⟩,
    ⟨unset.control, unset.mask, unset.draft, drifts.unasked, drifts.current⟩, ?_, ?_⟩
  · intro t address byte access plain setup p
    have waiting : p.Unset := ((withHost_endures [] rfl fun _ => List.not_mem_nil) unset).1
    rw [turn, access, perform, write, if_neg plain, waiting.writeInto_setup setup]
  · intro open_ q
    have closed : q = (n.advanceTo n.clock.frameEnd).closeFrame := by
      change n.act .closing = _
      rw [act, endFrame, if_pos open_]
      rfl
    obtain ⟨-, last⟩ := advanceTo_endures n.clock.frameEnd n unset
    have ready : q.warmingUp = false := by
      rw [closed]
      rfl
    refine ⟨?_, ?_, fun es lasting => ?_⟩
    · rw [closed]
      exact last.unasked
    · rw [closed]
      refine last.current.trans ?_
      rw [Nat.add_zero, Nat.mod_eq_of_lt (Scroll.Address.raw_lt _)]
    · intro r t address byte access plain register p caught
      have warm : r.warmingUp = false := (afterDeeds_draft ready lasting).1
      have done := turn_setup_warm warm access plain
      have drawn := turn_draft warm t
      rw [access, Access.stroke?, if_neg plain] at drawn
      refine ⟨done, drawn, fun control => ?_, fun mask => ?_⟩
      · rw [done]
        change (caught.writeRegister register byte _).circuit.registers.control = _
        rw [control, writeRegister, writeControl_circuit]
        rfl
      · rw [done]
        change (caught.writeRegister register byte _).circuit.registers.mask = _
        rw [mask]
        rfl

/-- A chip that has just been reset takes the opening of a frame. -/
theorem softReset_opening (m : Machine κ) :
    ((m.reset .soft).deed (.act .opening)).inFrame = true := by
  have stopped : ((m.reset .soft).inFrame, (m.reset .soft).clock) = (false, .parked m.clock.count) := rfl
  rw [Prod.mk.injEq] at stopped
  rw [deed, act, beginFrame, stopped.1, stopped.2, Clock.betweenFrames_parked, if_pos (by decide)]
  exact openFrame_inFrame _

/-- A reset in the middle of a frame, another one in the middle of the next, and a whole frame after it. -/
theorem warmUp_window_twoResets : ∃ (m : Machine (Option Unit)) (ds : List (Deed (Option Unit))) (t : Turn),
    m.inFrame = true ∧ (∀ d ∈ ds, d.Mild) ∧ (m.reset .soft).Unfinished ds
      ∧ (ds.map Deed.dataUses).sum = 1 ∧ t.access = .write 0x2000 0x80
      ∧ (((m.reset .soft).afterDeeds ds).turn t).2.circuit.registers.control = ⟨0⟩
      ∧ (((m.reset .soft).afterDeeds (ds ++ [.act .closing])).turn t).2.circuit.registers.control
        = ⟨0x80⟩ := by
  obtain ⟨m, running⟩ : ∃ m : Machine (Option Unit), m.inFrame = true :=
    ⟨(Machine.new ⟨.ntsc, .hardware⟩ .new none (.new fun _ => 0)).openFrame, openFrame_inFrame _⟩
  obtain ⟨look, hlook⟩ : ∃ t : Turn, t.access = .read 0x2007 := ⟨⟨60, fun _ => 0, .read 0x2007⟩, rfl⟩
  obtain ⟨switch, access⟩ : ∃ t : Turn, t.access = .write 0x2000 0x80 :=
    ⟨⟨900, fun _ => 0, .write 0x2000 0x80⟩, rfl⟩
  have mild : ∀ d ∈ [Deed.act .opening, .act (.turn look), .reset .soft, .act .opening],
      (d : Deed (Option Unit)).Mild := by
    simp [Deed.Mild]
  have unfinished : (m.reset .soft).Unfinished
      [.act .opening, .act (.turn look), .reset .soft, .act .opening] := by
    intro i found
    have inside := List.mem_of_getElem? found
    simp at inside
  have uses : (([.act .opening, .act (.turn look), .reset .soft, .act .opening] :
      List (Deed (Option Unit))).map Deed.dataUses).sum = 1 := by
    simp only [List.map_cons, List.map_nil, Deed.dataUses, hlook]
    decide
  have inside : ((m.reset .soft).afterDeeds
      [.act .opening, .act (.turn look), .reset .soft, .act .opening]).inFrame = true :=
    softReset_opening (((m.reset .soft).deed (.act .opening)).deed (.act (.turn look)))
  obtain ⟨-, ⟨control, -⟩, held, whole⟩ := warmUp_window m mild unfinished
  obtain ⟨-, -, again⟩ := whole inside
  obtain ⟨-, -, switched, -⟩ := again [] (List.forall_mem_nil _) switch 0x2000 0x80 access (by decide)
  refine ⟨m, _, switch, running, mild, unfinished, uses, access, ?_, ?_⟩
  · rw [held switch 0x2000 0x80 access (by decide) (by decide)]
    exact (congrArg Settings.control (advanceTo_settings _ _)).trans control
  · rw [afterDeeds_append]
    exact switched rfl

end Machine

end PictureUnit
