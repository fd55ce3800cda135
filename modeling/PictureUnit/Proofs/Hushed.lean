import PictureUnit.Proofs.Interrupt

/-!
# A suppressed blank

When a status read has suppressed the blank of a frame, neither the flag nor an interrupt is left of
it. Nothing that the processor does in the frame brings them back, and nothing asks the processor
for an interrupt any more.
-/

set_option autoImplicit false

namespace PictureUnit.Machine

variable {κ : Type}

/-- A blank that was suppressed: neither the flag nor an interrupt is left of it. -/
structure Hushed (m : Machine κ) : Prop where
  suppressed : m.vblank.suppressed = true
  flag : m.circuit.flag = false
  interruptAt : m.vblank.interruptAt = none

/-- An operation that leaves a suppressed blank alone, and tells the processor nothing about it. -/
def Hushes (m n : Machine κ) : Prop :=
  m.Hushed → n.Hushed ∧ Host.standing n.host.events = Host.standing m.host.events

theorem Hushes.trans {m n p : Machine κ} (h : m.Hushes n) (h' : n.Hushes p) : m.Hushes p := by
  intro hushed
  obtain ⟨there, same⟩ := h hushed
  obtain ⟨still, equal⟩ := h' there
  exact ⟨still, equal.trans same⟩

theorem Aside.hushes {m n : Machine κ} (h : m.Aside n) : m.Hushes n := by
  intro hushed
  refine ⟨⟨?_, h.flag.trans hushed.flag, ?_⟩, h.standing⟩
  · rw [h.vblank]
    exact hushed.suppressed
  · rw [h.vblank]
    exact hushed.interruptAt

theorem passBlank_hushes (target : Nat) (m : Machine κ) : m.Hushes (m.passBlank target) := by
  intro hushed
  refine ⟨⟨?_, ?_, ?_⟩, by rw [passBlank_host]⟩
  · exact (passBlank_suppressed target m).trans hushed.suppressed
  · rw [passBlank_flag, hushed.flag, hushed.suppressed]
    rfl
  · exact (passBlank_interruptAt target m).trans hushed.interruptAt

theorem settleAt_host {m : Machine κ} (h : m.vblank.interruptAt = none) (line : Line) (dot : Nat) :
    (m.settleAt line dot).host = m.host := by
  unfold settleAt settleLength
  split
  · split
    · rfl
    · dsimp only
      split
      · next noted =>
        rw [h] at noted
        cases noted
      · rfl
  · rfl

theorem readStatus_hushes (cycle : Nat) (m : Machine κ) : m.Hushes (m.readStatus cycle).2 := by
  intro hushed
  have kept : m.suppressVblank = m := by
    have none : ¬ m.vblank.interruptAt = some m.clock.vblankAt := by
      rw [hushed.interruptAt]
      exact fun h => (by cases h)
    have already := hushed.suppressed
    unfold suppressVblank
    dsimp only
    rw [if_neg none]
    obtain ⟨_, _, ⟨_, _, _⟩, _, _, _, _, _, _, _⟩ := m
    cases already
    rfl
  unfold readStatus
  rw [kept, ite_self]
  exact ⟨⟨hushed.suppressed, rfl, hushed.interruptAt⟩, rfl⟩

theorem switchInterrupt_of_hushed {m : Machine κ} (h : m.Hushed) (enabled : Bool) (cycle : Nat) :
    m.switchInterrupt enabled cycle = m := by
  have flag : m.circuit.registers.status.vblank = false := h.flag
  unfold switchInterrupt
  rw [h.suppressed, flag, h.interruptAt]
  simp

theorem writeControl_hushes (byte : UInt8) (cycle : Nat) (m : Machine κ) :
    m.Hushes (m.writeControl byte cycle) := by
  intro hushed
  have written : (m.withRegisters fun r =>
      { r with control := ⟨byte⟩, scroll := r.scroll.selectNametable byte }).Hushed :=
    ⟨hushed.suppressed, hushed.flag, hushed.interruptAt⟩
  unfold writeControl
  dsimp only
  rw [switchInterrupt_of_hushed written, ite_self]
  exact ⟨written, rfl⟩

variable [Cartridge κ]

theorem step_hushes (line : Line) (dot : Nat) (m : Machine κ) : m.Hushes (m.step line dot) := by
  intro hushed
  have moved := settleAt_interruptAt line dot (m := m.runDot line dot) (.inl hushed.interruptAt)
  have host := settleAt_host (m := m.runDot line dot) hushed.interruptAt line dot
  refine ⟨⟨?_, ?_, ?_⟩, congrArg (Host.standing ·.events) host⟩
  · exact (step_suppressed line dot m).trans hushed.suppressed
  · rw [step_flag, hushed.flag, ite_self]
  · refine moved.trans ?_
    rw [show (m.runDot line dot).vblank.interruptAt = none from hushed.interruptAt]
    rfl

theorem advanceTo_hushes (target : Nat) (m : Machine κ) : m.Hushes (m.advanceTo target) := by
  fun_induction advanceTo target m with
  | case1 => exact passBlank_hushes _ _
  | case2 m _ line dot _ ih => exact (step_hushes line dot m).trans ih
  | case3 => exact fun hushed => ⟨hushed, rfl⟩

theorem readRegister_hushes (register : Register) (cycle : Nat) (m : Machine κ) :
    m.Hushes (m.readRegister register cycle).2 := by
  by_cases hr : register = .status
  · subst hr
    exact readStatus_hushes cycle m
  · exact (readRegister_aside hr cycle m).hushes

theorem writeRegister_hushes (register : Register) (byte : UInt8) (cycle : Nat) (m : Machine κ) :
    m.Hushes (m.writeRegister register byte cycle) := by
  by_cases hr : register = .control
  · subst hr
    exact writeControl_hushes byte cycle m
  · exact (writeRegister_aside hr byte cycle m).hushes

theorem writeInto_hushes (register : Register) (byte : UInt8) (m : Machine κ) :
    m.Hushes (m.writeInto register byte) := by
  have latched := (advanceTo_hushes (m.landing register) m).trans (setLines_aside byte _).hushes
  rw [writeInto_eq, put]
  split
  · exact latched
  · exact latched.trans (writeRegister_hushes _ _ _ _)

theorem transferPage_hushes (page : UInt8) (m : Machine κ) : m.Hushes (m.transferPage page) := by
  have moved (address : Nat) (m : Machine κ) : m.Hushes (m.moveByte address) := by
    have taken := ((stall_aside 1 m).trans (takeByte_aside address _)).trans (stall_aside 1 _)
    exact (taken.hushes.trans (advanceTo_hushes _ _)).trans (landByte_aside _ _).hushes
  have aligned : m.Hushes m.align := (stall_aside _ m).hushes.trans (advanceTo_hushes _ _)
  exact transferPage_keeps aligned (fun n h => h.trans (copyPage_aside page n).hushes)
    fun n address h => h.trans (moved address n)

theorem turn_hushes (t : Turn) (m : Machine κ) : m.Hushes (m.turn t).2 :=
  turn_keeps (meet_aside t m).hushes (fun n target h => h.trans (advanceTo_hushes target n))
    (fun n register cycle h => h.trans (readRegister_hushes register cycle n))
    (fun n byte h => h.trans (setLines_aside byte n).hushes)
    (fun n register byte h => h.trans (writeInto_hushes register byte n))
    fun n page h => h.trans (transferPage_hushes page n)

/-- Whatever the processor does, a suppressed blank stays so. -/
theorem afterTurns_hushes (ts : List Turn) (m : Machine κ) : m.Hushes (m.afterTurns ts) := by
  induction ts generalizing m with
  | nil => exact fun hushed => ⟨hushed, rfl⟩
  | cons t rest ih => exact (turn_hushes t m).trans (ih _)

end PictureUnit.Machine
