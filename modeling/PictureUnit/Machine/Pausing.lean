import PictureUnit.Machine.Catchup

/-!
# Pausing while catching up

Catching up to a cycle may pause at any earlier one: the machine that paused ends in the same
state. So extra calls at cycles before the next access change nothing.
-/

set_option autoImplicit false

namespace PictureUnit.Machine

variable {κ : Type}

theorem raiseVblank_clock (m : Machine κ) : m.raiseVblank.clock = m.clock := by
  unfold raiseVblank
  dsimp only
  split <;> rfl

theorem raiseVblank_raised (m : Machine κ) : m.raiseVblank.vblank.raised = true := by
  unfold raiseVblank
  dsimp only
  split <;> rfl

theorem raiseVblank_withClock (clock : Clock) (m : Machine κ) :
    raiseVblank { m with clock := clock } = { m.raiseVblank with clock := clock } := by
  unfold raiseVblank
  dsimp only
  split <;> rfl

theorem passBlank_of_raised (target : Nat) (m : Machine κ) (h : m.vblank.raised = true) :
    m.passBlank target =
      { m with clock := m.clock.idleUntil (min target m.clock.frameEnd) } := by
  simp [passBlank, h]

theorem passBlank_of_le (target : Nat) (m : Machine κ)
    (h : min target m.clock.frameEnd ≤ m.clock.vblankAt) :
    m.passBlank target =
      { m with clock := m.clock.idleUntil (min target m.clock.frameEnd) } := by
  simp [passBlank, Nat.not_lt.mpr h]

theorem passBlank_of_lt (target : Nat) (m : Machine κ) (hr : m.vblank.raised = false)
    (h : m.clock.vblankAt < min target m.clock.frameEnd) :
    m.passBlank target = (m.raiseVblank).passBlank target := by
  rw [passBlank_of_raised _ _ (raiseVblank_raised m)]
  simp only [passBlank, hr, h, and_self, if_true, raiseVblank_clock]

theorem passBlank_passBlank (a b : Nat) (m : Machine κ) (h : a ≤ b) :
    (m.passBlank a).passBlank b = m.passBlank b := by
  have idle (m : Machine κ) (hr : m.vblank.raised = true) :
      (m.passBlank a).passBlank b = m.passBlank b := by
    rw [passBlank_of_raised a m hr, passBlank_of_raised b m hr, passBlank_of_raised _ _ (by exact hr)]
    simp only [Clock.idleUntil]
    congr 2
    omega
  by_cases hr : m.vblank.raised = true
  · exact idle m hr
  · have hr : m.vblank.raised = false := by simpa using hr
    by_cases ha : m.clock.vblankAt < min a m.clock.frameEnd
    · rw [passBlank_of_lt a m hr ha, passBlank_of_lt b m hr (by omega)]
      exact idle _ (raiseVblank_raised m)
    · rw [passBlank_of_le a m (by omega)]
      by_cases hb : m.clock.vblankAt < min b m.clock.frameEnd
      · rw [passBlank_of_lt b m hr hb, passBlank_of_lt b _ (by exact hr) (by exact hb),
          passBlank_of_raised _ _ (raiseVblank_raised _), passBlank_of_raised _ _ (raiseVblank_raised _),
          raiseVblank_withClock]
        simp only [raiseVblank_clock, Clock.idleUntil]
        congr 2
        omega
      · rw [passBlank_of_le b m (by omega), passBlank_of_le b _ (by simp only [Clock.idleUntil]; omega)]
        simp only [Clock.idleUntil]
        congr 2
        omega

theorem passBlank_position (target : Nat) (m : Machine κ) :
    (m.passBlank target).clock.position = m.clock.position := by
  simp only [passBlank, Clock.idleUntil]
  split
  · rw [raiseVblank_clock]
  · rfl

theorem passBlank_count (target : Nat) (m : Machine κ) :
    (m.passBlank target).clock.count = max m.clock.count (min target m.clock.frameEnd) := by
  simp only [passBlank, Clock.idleUntil]
  split
  · rw [raiseVblank_clock]
  · rfl

variable [Cartridge κ]

theorem advanceTo_blank (target : Nat) (m : Machine κ) (h : m.clock.position = .blank)
    (hc : m.clock.count < target) : m.advanceTo target = m.passBlank target := by
  rw [advanceTo, if_pos hc, h]

theorem advanceTo_raster (target : Nat) (m : Machine κ) (line : Line) (dot : Nat)
    (h : m.clock.position = .raster line dot) (hc : m.clock.count < target) :
    m.advanceTo target = (m.step line dot).advanceTo target := by
  rw [advanceTo, if_pos hc, h]

/-- Catching up to `a` on the way to `b` makes no difference. -/
theorem advanceTo_advanceTo (a b : Nat) (m : Machine κ) (h : a ≤ b) :
    (m.advanceTo a).advanceTo b = m.advanceTo b := by
  fun_induction advanceTo a m with
  | case1 m hc hp =>
    rw [advanceTo_blank b m hp (by omega)]
    by_cases hb : (m.passBlank a).clock.count < b
    · rw [advanceTo_blank b _ (by rw [passBlank_position, hp]) hb, passBlank_passBlank a b m h]
    · rw [advanceTo_of_le b _ (by omega), show a = b by
        rw [passBlank_count] at hb
        omega]
  | case2 m hc line dot hp ih => rw [ih, advanceTo_raster b m line dot hp (by omega)]
  | case3 m hc => rfl

end PictureUnit.Machine
