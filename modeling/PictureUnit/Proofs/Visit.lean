import PictureUnit.Proofs.Session

/-!
# Visits to the registers

A visit is one access to a register. Catching up neither reads nor writes what the processor
brings to it, so a visit is the catch-up to the cycle it lands on, and then the access itself.
-/

set_option autoImplicit false

namespace PictureUnit

/-- One access to a register, and the state of the processor by then. -/
structure Visit where
  cycle : Nat
  memory : Nat → UInt8
  address : Nat
  /-- The byte written, unless the register is read. -/
  byte : Option UInt8
  decoded : 0x2000 ≤ address ∧ address ≤ 0x3FFF

namespace Visit

def register (v : Visit) : Register := .ofAddress v.address

theorem register_index (v : Visit) : v.register.index = v.address % 8 := Register.index_ofAddress v.address

def turn (v : Visit) : Turn :=
  ⟨v.cycle, v.memory, match v.byte with
    | none => .read v.address
    | some byte => .write v.address byte⟩

/-- The cycle on which the visit lands. -/
def landing (t : Timing) (v : Visit) : Nat :=
  match v.byte with
  | none => v.cycle
  | some _ => v.cycle + v.register.writeDelay * t.dot

theorem cycle_le_landing (t : Timing) (v : Visit) : v.cycle ≤ v.landing t := by
  unfold landing
  split
  · exact le_refl _
  · exact Nat.le_add_right _ _

theorem landing_le (t : Timing) (v : Visit) : v.landing t ≤ v.cycle + t.dot := by
  have delay : v.register.writeDelay ≤ 1 := by
    unfold Register.writeDelay
    split <;> decide
  unfold landing
  split
  · exact Nat.le_add_right _ _
  · have := Nat.mul_le_mul_right t.dot delay
    omega

/-- Visits a processor cycle apart land in order. -/
theorem landing_le_landing (r : Region) {v w : Visit}
    (h : v.cycle + r.timing.cpuCycle ≤ w.cycle) : v.landing r.timing ≤ w.landing r.timing :=
  calc
    v.landing r.timing ≤ v.cycle + r.timing.dot := v.landing_le r.timing
    _ ≤ v.cycle + r.timing.cpuCycle := Nat.add_le_add_left r.dot_le_cpuCycle _
    _ ≤ w.cycle := h
    _ ≤ w.landing r.timing := w.cycle_le_landing r.timing

end Visit

namespace Machine

variable {κ : Type}

theorem settleLength_meet (t : Turn) (m : Machine κ) :
    (m.meet t).settleLength = m.settleLength.meet t := by
  by_cases hs : m.dropsDot = m.clock.short
  · rw [settleLength, settleLength, if_pos hs, if_pos (by exact hs)]
  · rw [settleLength, settleLength, if_neg hs, if_neg (by exact hs)]
    by_cases hv : m.vblank.interruptAt = some m.clock.vblankAt
    · simp only [if_pos hv, if_pos (show (m.meet t).vblank.interruptAt
        = some (m.meet t).clock.vblankAt from hv)]
      rfl
    · simp only [if_neg hv, if_neg (show ¬ (m.meet t).vblank.interruptAt
        = some (m.meet t).clock.vblankAt from hv)]
      rfl

theorem raiseVblank_meet (t : Turn) (m : Machine κ) :
    (m.meet t).raiseVblank = m.raiseVblank.meet t := by
  cases hs : m.vblank.suppressed <;> simp [raiseVblank, meet, withHost, withCircuit, hs]

theorem passBlank_meet (t : Turn) (target : Nat) (m : Machine κ) :
    (m.meet t).passBlank target = (m.passBlank target).meet t := by
  by_cases hr : m.vblank.raised = false ∧ m.clock.vblankAt < min target m.clock.frameEnd
  · simp only [passBlank, if_pos hr, raiseVblank_meet, if_pos (show (m.meet t).vblank.raised = false
      ∧ (m.meet t).clock.vblankAt < min target (m.meet t).clock.frameEnd from hr)]
    rfl
  · simp only [passBlank, if_neg hr, if_neg (show ¬ ((m.meet t).vblank.raised = false
      ∧ (m.meet t).clock.vblankAt < min target (m.meet t).clock.frameEnd) from hr)]
    rfl

variable [Cartridge κ]

theorem step_meet (t : Turn) (line : Line) (dot : Nat) (m : Machine κ) :
    (m.meet t).step line dot = (m.step line dot).meet t := by
  simp only [step, settleAt]
  split
  · have hs := settleLength_meet t (m.runDot line dot)
    change ((m.runDot line dot).meet t).settleLength.tick = _
    rw [hs]
    rfl
  · rfl

/-- What the processor brings makes no difference to catching up. -/
theorem advanceTo_meet (t : Turn) (target : Nat) (m : Machine κ) :
    (m.meet t).advanceTo target = (m.advanceTo target).meet t := by
  fun_induction advanceTo target m with
  | case1 m hc hp => rw [advanceTo_blank target (m.meet t) hp hc, passBlank_meet]
  | case2 m hc line dot hp ih => rw [advanceTo_raster target (m.meet t) line dot hp hc, step_meet, ih]
  | case3 m hc => rw [advanceTo_of_le target (m.meet t) (Nat.not_lt.mp hc)]

/-- The access itself, without the catch-up. -/
def land (v : Visit) (m : Machine κ) : Option UInt8 × Machine κ :=
  let m := m.meet v.turn
  match v.byte with
  | none =>
    let (value, m) := m.readRegister v.register v.cycle
    (some value, m.setLines value)
  | some byte => (none, m.put v.register byte (v.landing m.timing))

theorem land_still (v : Visit) (m : Machine κ) : m.Still (m.land v).2 := by
  have met := meet_still v.turn m
  unfold land
  dsimp only
  split
  · exact met.trans ((readRegister_still _ _ _).trans (setLines_still _ _))
  · exact met.trans (put_still _ _ _ _)

/-- A visit catches up to its landing and then lands. -/
theorem turn_visit (v : Visit) (m : Machine κ) :
    m.turn v.turn = (m.advanceTo (v.landing m.timing)).land v := by
  have met := advanceTo_meet v.turn (v.landing m.timing) m
  have kept := advanceTo_timing (v.landing m.timing) m
  cases hb : v.byte with
  | none =>
    have turned : v.turn = ⟨v.cycle, v.memory, .read v.address⟩ := by rw [Visit.turn, hb]
    have lands : v.landing m.timing = v.cycle := by rw [Visit.landing, hb]
    rw [land, ← met, lands, hb, turned]
    rfl
  | some byte =>
    have turned : v.turn = ⟨v.cycle, v.memory, .write v.address byte⟩ := by rw [Visit.turn, hb]
    have lands : v.landing m.timing = (m.meet v.turn).landing v.register := by
      rw [Visit.landing, hb, turned]
      rfl
    have outside : v.address ≠ transferAddress := by
      have := v.decoded
      simp only [transferAddress]
      omega
    have timed : ((m.meet v.turn).advanceTo (v.landing m.timing)).timing = m.timing := by
      rw [met]
      exact kept
    rw [land, ← met, hb]
    dsimp only
    rw [timed, turn, lands, turned, ← writeInto_eq]
    simp only [perform, write, if_neg outside]
    rfl

end Machine

end PictureUnit
