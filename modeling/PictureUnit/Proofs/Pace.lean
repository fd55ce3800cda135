import PictureUnit.Machine.Frame
import PictureUnit.Machine.Pausing
import PictureUnit.Proofs.Raster
import PictureUnit.Proofs.Settings
import PictureUnit.Proofs.Standing

/-!
# The pace of the clock

Inside an open frame the position of the raster and the count of master cycles determine each
other, and the frame's end and its blank lie where the present length of the frame puts them.
Every dot, the settling of the length and the passing of the blank keep this, and the blank has
been raised exactly when the count is past its cycle.
-/

set_option autoImplicit false

namespace PictureUnit

/-- Dots of the lines that are drawn, the pre-render line included. -/
def rasterDots : Nat := 241 * dotsPerLine

theorem Region.rasterDots_lt (r : Region) : rasterDots + 1 < r.timing.vblankDots := by
  cases r <;> decide

/-- The blank begins before the last dot of the frame. -/
theorem Region.vblankDots_lt_pred (r : Region) :
    r.timing.vblankDots < r.timing.dotsPerFrame - 1 := by
  cases r <;> decide

namespace Clock

/-- Dots that the frame has lost before it reaches a line. -/
def dropped (c : Clock) : Line → Nat
  | .preRender => 0
  | .visible _ => c.short.toNat

/-- Dots of the frame before a place. -/
def dotsBefore (c : Clock) (line : Line) (dot : Nat) : Nat :=
  line.index * dotsPerLine + dot - c.dropped line

/-- The count belongs to the position. -/
def InPlace (t : Timing) (c : Clock) : Prop :=
  match c.position with
  | .raster line dot =>
    dot ≤ Position.lastDot c.short line ∧ c.count = c.frameStart + c.dotsBefore line dot * t.dot
  | .blank =>
    c.frameStart + (rasterDots - c.short.toNat) * t.dot ≤ c.count ∧ c.count ≤ c.frameEnd

/-- The clock of an open frame. -/
structure Paced (t : Timing) (c : Clock) : Prop where
  frameEnd_eq : c.frameEnd = c.frameStart + (t.dotsPerFrame - c.short.toNat) * t.dot
  vblankAt_eq : c.vblankAt = c.frameStart + (t.vblankDots - c.short.toNat) * t.dot
  inPlace : c.InPlace t

theorem Paced.layOut_short {t : Timing} {c : Clock} (h : c.Paced t) : c.layOut t c.short = c := by
  obtain ⟨count, position, start, finish, vblank, short⟩ := c
  have hf := h.frameEnd_eq
  have hv := h.vblankAt_eq
  dsimp only at hf hv
  rw [hf, hv]
  rfl

theorem Paced.dot_le {t : Timing} {c : Clock} {line : Line} {dot : Nat} (h : c.Paced t)
    (hp : c.position = .raster line dot) : dot ≤ Position.lastDot c.short line := by
  have := h.inPlace
  simp only [InPlace, hp] at this
  exact this.1

theorem Paced.count_eq {t : Timing} {c : Clock} {line : Line} {dot : Nat} (h : c.Paced t)
    (hp : c.position = .raster line dot) :
    c.count = c.frameStart + c.dotsBefore line dot * t.dot := by
  have := h.inPlace
  simp only [InPlace, hp] at this
  exact this.2

theorem Paced.count_bounds {t : Timing} {c : Clock} (h : c.Paced t) (hp : c.position = .blank) :
    c.frameStart + (rasterDots - c.short.toNat) * t.dot ≤ c.count ∧ c.count ≤ c.frameEnd := by
  have := h.inPlace
  simpa only [InPlace, hp] using this

theorem lastDot_lt (short : Bool) (line : Line) : Position.lastDot short line < dotsPerLine := by
  cases line <;> cases short <;> simp [Position.lastDot, dotsPerLine]

/-- The line below begins one dot after the last dot of a line. -/
theorem dotsBefore_below {c : Clock} {line below : Line} (h : line.next = some below) :
    c.dotsBefore below 0 = c.dotsBefore line (Position.lastDot c.short line) + 1 := by
  have hi := index_of_next h
  cases line with
  | preRender =>
    cases h
    cases hs : c.short <;>
      simp [dotsBefore, dropped, hs, Position.lastDot, dotsPerLine, Line.index, wrap]
  | visible y =>
    cases below with
    | preRender => simp [Line.index] at hi
    | visible z =>
      have : c.short.toNat ≤ 1 := by cases c.short <;> decide
      simp only [Line.index] at hi
      simp only [dotsBefore, dropped, Position.lastDot, dotsPerLine, Line.index]
      omega

theorem dotsBefore_last {c : Clock} {line : Line} (h : line.next = none) :
    c.dotsBefore line (Position.lastDot c.short line) + 1 = rasterDots - c.short.toNat := by
  have hi := index_of_next_none h
  cases line with
  | preRender => cases h
  | visible y =>
    have : c.short.toNat ≤ 1 := by cases c.short <;> decide
    simp only [dotsBefore, dropped, hi, Position.lastDot, dotsPerLine, rasterDots]
    omega

theorem dotsBefore_succ {c : Clock} {line : Line} {dot : Nat} :
    c.dotsBefore line (dot + 1) = c.dotsBefore line dot + 1 := by
  have : c.dropped line ≤ line.index * dotsPerLine := by
    cases line with
    | preRender => simp [dropped]
    | visible y =>
      have : c.short.toNat ≤ 1 := by cases c.short <;> decide
      simp only [dropped, Line.index, dotsPerLine]
      omega
  simp only [dotsBefore]
  omega

theorem dotsBefore_lt {c : Clock} {line : Line} {dot : Nat}
    (h : dot ≤ Position.lastDot c.short line) :
    c.dotsBefore line dot + 1 ≤ rasterDots - c.short.toNat := by
  have hi := index_lt line
  have hs : c.short.toNat ≤ 1 := by cases c.short <;> decide
  cases line with
  | preRender =>
    have := lastDot_lt c.short .preRender
    simp only [dotsBefore, dropped, rasterDots, dotsPerLine, Line.index] at *
    omega
  | visible y =>
    simp only [dotsBefore, dropped, rasterDots, dotsPerLine, Position.lastDot] at *
    omega

/-- A dot of the raster is over by the end of the raster. -/
theorem Paced.count_add_dot_le {t : Timing} {c : Clock} {line : Line} {dot : Nat}
    (h : c.Paced t) (hp : c.position = .raster line dot) :
    c.count + t.dot ≤ c.frameStart + (rasterDots - c.short.toNat) * t.dot := by
  have := Nat.mul_le_mul_right t.dot (dotsBefore_lt (h.dot_le hp))
  rw [Nat.add_mul, Nat.one_mul] at this
  rw [h.count_eq hp]
  omega

/-- The raster ends before the frame does. -/
theorem rasterEnd_le_frameEnd (r : Region) (c : Clock) (h : c.Paced r.timing) :
    c.frameStart + (rasterDots - c.short.toNat) * r.timing.dot ≤ c.frameEnd := by
  have := r.rasterDots_lt
  have := r.vblankDots_lt
  rw [h.frameEnd_eq]
  apply Nat.add_le_add_left
  apply Nat.mul_le_mul_right
  omega

/-- The end of the raster comes before the blank. -/
theorem rasterEnd_lt_vblankAt (r : Region) (c : Clock) (h : c.Paced r.timing) :
    c.frameStart + (rasterDots - c.short.toNat) * r.timing.dot < c.vblankAt := by
  have hd := r.rasterDots_lt
  have hs : c.short.toNat ≤ 1 := by cases c.short <;> decide
  rw [h.vblankAt_eq]
  apply Nat.add_lt_add_left
  apply Nat.mul_lt_mul_of_pos_right _ r.dot_pos
  simp only [rasterDots, dotsPerLine] at *
  omega

theorem vblankAt_lt_frameEnd (r : Region) (c : Clock) (h : c.Paced r.timing) :
    c.vblankAt < c.frameEnd := by
  have hd := r.vblankDots_lt
  have hb := r.rasterDots_lt
  have hs : c.short.toNat ≤ 1 := by cases c.short <;> decide
  rw [h.vblankAt_eq, h.frameEnd_eq]
  apply Nat.add_lt_add_left
  apply Nat.mul_lt_mul_of_pos_right _ r.dot_pos
  omega

theorem openFrame_paced (t : Timing) (short : Bool) (c : Clock) :
    (c.openFrame t short).Paced t where
  frameEnd_eq := rfl
  vblankAt_eq := rfl
  inPlace := by
    refine ⟨Nat.zero_le _, ?_⟩
    simp [openFrame, layOut, dotsBefore, dropped, Line.index]

/-- Until the settling dot the pre-render line may still get either length. -/
theorem Paced.layOut {t : Timing} {c : Clock} {dot : Nat} (h : c.Paced t)
    (hp : c.position = .raster .preRender dot) (hd : dot ≤ dotsPerLine - 2) (short : Bool) :
    (c.layOut t short).Paced t where
  frameEnd_eq := rfl
  vblankAt_eq := rfl
  inPlace := by
    have := h.count_eq hp
    simp only [InPlace, layOut_position, hp]
    refine ⟨?_, this⟩
    cases short <;> simp only [Position.lastDot, Clock.layOut, Bool.false_eq_true, if_false, if_true]
    · omega
    · exact hd

/-- The dot that leads into the blank is the last one of the raster. -/
theorem Paced.tick_count_of_blank {t : Timing} {c : Clock} {line : Line} {dot : Nat}
    (h : c.Paced t) (hp : c.position = .raster line dot) (hb : (c.tick t).position = .blank) :
    (c.tick t).count = c.frameStart + (rasterDots - c.short.toNat) * t.dot := by
  have hd := h.dot_le hp
  have hn : (Position.raster line dot).next c.short = .blank := by rw [← hb, ← hp]; rfl
  by_cases hl : dot < Position.lastDot c.short line
  · simp [Position.next, hl] at hn
  · obtain rfl : dot = Position.lastDot c.short line := by omega
    cases hlast : line.next with
    | some below => simp [Position.next, hlast] at hn
    | none =>
      rw [tick_count, h.count_eq hp, ← dotsBefore_last hlast, Nat.add_mul, Nat.one_mul,
        Nat.add_assoc]

theorem Paced.tick {r : Region} {c : Clock} {line : Line} {dot : Nat} (h : c.Paced r.timing)
    (hp : c.position = .raster line dot) : (c.tick r.timing).Paced r.timing where
  frameEnd_eq := h.frameEnd_eq
  vblankAt_eq := h.vblankAt_eq
  inPlace := by
    have hc := h.count_eq hp
    have hd := h.dot_le hp
    have next : (c.tick r.timing).count
        = c.frameStart + (c.dotsBefore line dot + 1) * r.timing.dot := by
      rw [tick_count, hc, Nat.add_mul, Nat.one_mul, Nat.add_assoc]
    by_cases hl : dot < Position.lastDot c.short line
    · have hn : (c.tick r.timing).position = .raster line (dot + 1) := by
        simp [Clock.tick, hp, Position.next, hl]
      simp only [InPlace, hn]
      exact ⟨hl, next.trans (by rw [← dotsBefore_succ]; rfl)⟩
    · obtain rfl : dot = Position.lastDot c.short line := by omega
      cases hb : line.next with
      | some below =>
        have hn : (c.tick r.timing).position = .raster below 0 := by
          simp [Clock.tick, hp, Position.next, hb]
        simp only [InPlace, hn]
        exact ⟨Nat.zero_le _, next.trans (by rw [← dotsBefore_below hb]; rfl)⟩
      | none =>
        have hn : (c.tick r.timing).position = .blank := by
          simp [Clock.tick, hp, Position.next, hb]
        have last := h.tick_count_of_blank hp hn
        simp only [InPlace, hn]
        exact ⟨last.ge, last.le.trans (rasterEnd_le_frameEnd r c h)⟩

end Clock

namespace Position

/-- Whether the length of the frame is still to be settled. -/
def unsettled : Position → Bool
  | .raster .preRender dot => dot ≤ Machine.settlingDot
  | _ => false

theorem next_unsettled (short : Bool) (line : Line) (dot : Nat) :
    ((raster line dot).next short).unsettled
      = decide (line = .preRender ∧ dot < Machine.settlingDot) := by
  cases line with
  | preRender =>
    by_cases h : dot < lastDot short .preRender
    · rw [next, if_pos h, unsettled, decide_eq_decide]
      exact ⟨fun early => ⟨rfl, early⟩, fun early => early.2⟩
    · have : ¬ dot < Machine.settlingDot := by
        cases short <;> simp [lastDot, Machine.settlingDot, dotsPerLine] at * <;> omega
      simp [next, h, unsettled, Line.next, this]
  | visible y =>
    by_cases h : dot < lastDot short (.visible y)
    · simp [next, h, unsettled]
    · by_cases hy : y.val + 1 < screenHeight
      · simp [next, h, unsettled, Line.next, hy]
      · simp [next, h, unsettled, Line.next, hy]

end Position

namespace Machine

variable {κ : Type}

/-- Whether the frame is short once a dot is done. -/
def shortAfter (line : Line) (dot : Nat) (m : Machine κ) : Bool :=
  if line = .preRender ∧ dot = settlingDot then m.dropsDot else m.clock.short

theorem settleLength_clock {m : Machine κ} (h : m.clock.Paced m.timing) :
    m.settleLength.clock = m.clock.layOut m.timing m.dropsDot := by
  unfold settleLength
  split
  · next he => rw [he, h.layOut_short]
  · dsimp only
    split <;> rfl

theorem settleAt_clock {m : Machine κ} (line : Line) (dot : Nat) (h : m.clock.Paced m.timing) :
    (m.settleAt line dot).clock = m.clock.layOut m.timing (m.shortAfter line dot) := by
  unfold settleAt shortAfter
  split
  · exact settleLength_clock h
  · exact h.layOut_short.symm

theorem settleAt_raised (line : Line) (dot : Nat) (m : Machine κ) :
    (m.settleAt line dot).vblank.raised = m.vblank.raised := by
  unfold settleAt settleLength
  split
  · split
    · rfl
    · dsimp only
      split <;> rfl
  · rfl

@[simp]
theorem settleAt_ledger (line : Line) (dot : Nat) (m : Machine κ) :
    (m.settleAt line dot).ledger = m.ledger := by
  unfold settleAt settleLength
  split
  · split
    · rfl
    · dsimp only
      split <;> rfl
  · rfl

@[simp]
theorem passBlank_ledger (target : Nat) (m : Machine κ) :
    (m.passBlank target).ledger = m.ledger := by
  unfold passBlank raiseVblank
  dsimp only
  split
  · split <;> rfl
  · rfl

@[simp]
theorem passBlank_inFrame (target : Nat) (m : Machine κ) :
    (m.passBlank target).inFrame = m.inFrame := congrArg Ledger.inFrame (passBlank_ledger target m)

@[simp]
theorem passBlank_warmingUp (target : Nat) (m : Machine κ) :
    (m.passBlank target).warmingUp = m.warmingUp := congrArg Ledger.warmingUp (passBlank_ledger target m)

theorem rendering_of_settings {m n : Machine κ}
    (h : n.circuit.settings = m.circuit.settings) : n.rendering = m.rendering :=
  congrArg (fun s => s.mask.rendering) h

theorem raiseVblank_settings (m : Machine κ) :
    m.raiseVblank.circuit.settings = m.circuit.settings := by
  unfold raiseVblank
  dsimp only
  split <;> rfl

theorem passBlank_clock (target : Nat) (m : Machine κ) :
    (m.passBlank target).clock = m.clock.idleUntil (min target m.clock.frameEnd) := by
  simp only [passBlank]
  split
  · rw [raiseVblank_clock]
  · rfl

theorem passBlank_cartridge (target : Nat) (m : Machine κ) :
    (m.passBlank target).circuit.cartridge = m.circuit.cartridge := by
  unfold passBlank raiseVblank
  dsimp only
  split
  · split <;> rfl
  · rfl

theorem passBlank_raised (target : Nat) (m : Machine κ) :
    (m.passBlank target).vblank.raised
      = (m.vblank.raised || decide (m.clock.vblankAt < min target m.clock.frameEnd)) := by
  by_cases hr : m.vblank.raised = true
  · simp [passBlank, hr]
  · by_cases hv : m.clock.vblankAt < min target m.clock.frameEnd
    · simp only [passBlank, hr, hv, and_self, if_true, decide_true, Bool.or_true]
      exact raiseVblank_raised m
    · simp [passBlank, hr, hv]

/-- Nothing is left of the blank to pass. -/
theorem passBlank_of_passed {target : Nat} {m : Machine κ}
    (hc : min target m.clock.frameEnd ≤ m.clock.count)
    (hr : m.vblank.raised = false → min target m.clock.frameEnd ≤ m.clock.vblankAt) :
    m.passBlank target = m := by
  have nothing : ¬ (m.vblank.raised = false ∧ m.clock.vblankAt < min target m.clock.frameEnd) :=
    fun h => Nat.not_lt.mpr (hr h.1) h.2
  simp only [passBlank, if_neg nothing, Clock.idleUntil, Nat.max_eq_left hc]

/-- An open frame in which nothing is late or early. -/
structure OnTime (m : Machine κ) : Prop where
  paced : m.clock.Paced m.timing
  raised_iff : m.vblank.raised = true ↔ m.clock.vblankAt < m.clock.count

theorem OnTime.of_eq {m n : Machine κ} (h : m.OnTime) (hc : n.clock = m.clock)
    (ht : n.timing = m.timing) (hr : n.vblank.raised = m.vblank.raised) : n.OnTime := by
  constructor
  · rw [hc, ht]
    exact h.paced
  · rw [hc, hr]
    exact h.raised_iff

theorem openFrame_clock (m : Machine κ) :
    m.openFrame.clock = m.clock.openFrame m.timing m.dropsDot := by
  unfold openFrame
  dsimp only
  split <;> rfl

@[simp]
theorem openFrame_raised (m : Machine κ) : m.openFrame.vblank.raised = false := by
  unfold openFrame
  dsimp only
  split <;> rfl

@[simp]
theorem openFrame_suppressed (m : Machine κ) : m.openFrame.vblank.suppressed = false := by
  unfold openFrame
  dsimp only
  split <;> rfl

@[simp]
theorem openFrame_ledger (m : Machine κ) :
    m.openFrame.ledger = { m.ledger with inFrame := true } := by
  unfold openFrame
  dsimp only
  split <;> rfl

@[simp]
theorem openFrame_config (m : Machine κ) : m.openFrame.config = m.config :=
  congrArg Ledger.config (openFrame_ledger m)

@[simp]
theorem openFrame_timing (m : Machine κ) : m.openFrame.timing = m.timing :=
  congrArg Config.timing (openFrame_config m)

@[simp]
theorem openFrame_oddFrame (m : Machine κ) : m.openFrame.oddFrame = m.oddFrame :=
  congrArg Ledger.oddFrame (openFrame_ledger m)

@[simp]
theorem openFrame_burst (m : Machine κ) : m.openFrame.burst = m.burst :=
  congrArg Ledger.burst (openFrame_ledger m)

@[simp]
theorem openFrame_warmingUp (m : Machine κ) : m.openFrame.warmingUp = m.warmingUp :=
  congrArg Ledger.warmingUp (openFrame_ledger m)

@[simp]
theorem openFrame_inFrame (m : Machine κ) : m.openFrame.inFrame = true :=
  congrArg Ledger.inFrame (openFrame_ledger m)

@[simp]
theorem openFrame_position (m : Machine κ) : m.openFrame.clock.position = .start := by
  rw [openFrame_clock]
  rfl

@[simp]
theorem openFrame_count (m : Machine κ) : m.openFrame.clock.count = m.clock.count := by
  rw [openFrame_clock]
  rfl

@[simp]
theorem openFrame_frameStart (m : Machine κ) : m.openFrame.clock.frameStart = m.clock.count := by
  rw [openFrame_clock]
  rfl

@[simp]
theorem openFrame_short (m : Machine κ) : m.openFrame.clock.short = m.dropsDot := by
  rw [openFrame_clock]
  rfl

theorem openFrame_onTime (m : Machine κ) : m.openFrame.OnTime := by
  constructor
  · rw [openFrame_clock, openFrame_timing]
    exact Clock.openFrame_paced _ _ _
  · rw [openFrame_raised, openFrame_clock]
    simp [Clock.openFrame, Clock.layOut]

theorem passBlank_onTime (target : Nat) {m : Machine κ} (h : m.OnTime)
    (hp : m.clock.position = .blank) : (m.passBlank target).OnTime := by
  have hb := h.paced.count_bounds hp
  constructor
  · rw [timing, passBlank_config, passBlank_clock]
    refine ⟨h.paced.frameEnd_eq, h.paced.vblankAt_eq, ?_⟩
    simp only [Clock.InPlace, Clock.idleUntil, hp]
    exact ⟨hb.1.trans (Nat.le_max_left _ _), by omega⟩
  · rw [passBlank_clock, passBlank_raised]
    simp only [Clock.idleUntil, Bool.or_eq_true, decide_eq_true_eq, h.raised_iff]
    omega

/-- A dot leaves the clock laid out for some length. -/
theorem shortAfter_paced {m : Machine κ} {line : Line} {dot : Nat} (h : m.clock.Paced m.timing)
    (hp : m.clock.position = .raster line dot) :
    (m.clock.layOut m.timing (m.shortAfter line dot)).Paced m.timing := by
  unfold shortAfter
  split
  · next hs =>
    rw [hs.1] at hp
    exact h.layOut hp (by rw [hs.2]; exact le_refl _) _
  · rw [h.layOut_short]
    exact h

theorem count_lt_vblankAt {m : Machine κ} {line : Line} {dot : Nat} (h : m.clock.Paced m.timing)
    (hp : m.clock.position = .raster line dot) : m.clock.count < m.clock.vblankAt := by
  have hc := h.count_add_dot_le hp
  have hv := Clock.rasterEnd_lt_vblankAt m.config.region m.clock h
  have hd : 0 < m.timing.dot := m.config.region.dot_pos
  simp only [timing, Config.timing] at *
  omega

theorem raised_false_of_lt {m : Machine κ} (h : m.OnTime) (early : m.clock.count < m.clock.vblankAt) :
    m.vblank.raised = false := by
  rw [Bool.eq_false_iff, ne_eq, h.raised_iff]
  omega

theorem raised_false_of_raster {m : Machine κ} (h : m.OnTime) {line : Line} {dot : Nat}
    (hp : m.clock.position = .raster line dot) : m.vblank.raised = false :=
  raised_false_of_lt h (count_lt_vblankAt h.paced hp)

/-- The length the frame will have if the processor leaves it alone. -/
def settledShort (m : Machine κ) : Bool :=
  if m.clock.position.unsettled then m.dropsDot else m.clock.short

/-- The cycle at which the raster will be drawn. -/
def rasterEnd (m : Machine κ) : Nat :=
  m.clock.frameStart + (rasterDots - m.settledShort.toNat) * m.timing.dot

/-- The clock might as well be laid out for the settled length now. -/
theorem settledShort_paced {m : Machine κ} (h : m.clock.Paced m.timing) :
    (m.clock.layOut m.timing m.settledShort).Paced m.timing := by
  unfold settledShort
  split
  · next hu =>
    cases hp : m.clock.position with
    | blank => simp [hp, Position.unsettled] at hu
    | raster line dot =>
      cases line with
      | visible y => simp [hp, Position.unsettled] at hu
      | preRender =>
        simp only [hp, Position.unsettled, decide_eq_true_eq] at hu
        exact h.layOut hp hu _
  · rw [h.layOut_short]
    exact h

theorem count_lt_rasterEnd {m : Machine κ} {line : Line} {dot : Nat} (h : m.clock.Paced m.timing)
    (hp : m.clock.position = .raster line dot) : m.clock.count < m.rasterEnd := by
  have hc := (settledShort_paced h).count_add_dot_le hp
  have hd : 0 < m.timing.dot := m.config.region.dot_pos
  simp only [Clock.layOut, rasterEnd] at *
  omega

theorem settledShort_of_blank {m : Machine κ} (h : m.clock.position = .blank) :
    m.settledShort = m.clock.short := by
  simp [settledShort, h, Position.unsettled]

variable [Cartridge κ]

theorem Still.onTime {m n : Machine κ} (h : m.Still n) (hm : m.OnTime) : n.OnTime :=
  hm.of_eq h.clock h.timing h.raised

@[simp]
theorem step_timing (line : Line) (dot : Nat) (m : Machine κ) :
    (m.step line dot).timing = m.timing := congrArg Config.timing (step_config line dot m)

theorem step_clock {m : Machine κ} (line : Line) (dot : Nat) (h : m.clock.Paced m.timing) :
    (m.step line dot).clock
      = (m.clock.layOut m.timing (m.shortAfter line dot)).tick m.timing := by
  have drops : (m.runDot line dot).dropsDot = m.dropsDot := by
    have := rendering_of_settings (n := m.runDot line dot)
      (Circuit.dot_settings line dot m.clock.count m.config.limit m.circuit)
    simp only [dropsDot, this]
    rfl
  have settled := settleAt_clock line dot (show (m.runDot line dot).clock.Paced _ from h)
  have hs : (m.runDot line dot).shortAfter line dot = m.shortAfter line dot := by
    simp only [shortAfter, drops]
    rfl
  have ht : ((m.runDot line dot).settleAt line dot).timing = m.timing := step_timing line dot m
  rw [hs] at settled
  simp only [step, Machine.tick, ht, settled]
  rfl

@[simp]
theorem step_raised (line : Line) (dot : Nat) (m : Machine κ) :
    (m.step line dot).vblank.raised = m.vblank.raised := settleAt_raised line dot _

@[simp]
theorem step_ledger (line : Line) (dot : Nat) (m : Machine κ) :
    (m.step line dot).ledger = m.ledger := settleAt_ledger line dot _

@[simp]
theorem step_inFrame (line : Line) (dot : Nat) (m : Machine κ) :
    (m.step line dot).inFrame = m.inFrame := congrArg Ledger.inFrame (step_ledger line dot m)

@[simp]
theorem step_oddFrame (line : Line) (dot : Nat) (m : Machine κ) :
    (m.step line dot).oddFrame = m.oddFrame := congrArg Ledger.oddFrame (step_ledger line dot m)

@[simp]
theorem step_warmingUp (line : Line) (dot : Nat) (m : Machine κ) :
    (m.step line dot).warmingUp = m.warmingUp := congrArg Ledger.warmingUp (step_ledger line dot m)

@[simp]
theorem step_rendering (line : Line) (dot : Nat) (m : Machine κ) :
    (m.step line dot).rendering = m.rendering := rendering_of_settings (step_settings line dot m)

@[simp]
theorem step_dropsDot (line : Line) (dot : Nat) (m : Machine κ) :
    (m.step line dot).dropsDot = m.dropsDot := by
  simp [dropsDot]

theorem step_paced {m : Machine κ} {line : Line} {dot : Nat} (h : m.clock.Paced m.timing)
    (hp : m.clock.position = .raster line dot) :
    (m.step line dot).clock.Paced (m.step line dot).timing := by
  rw [step_clock line dot h, step_timing]
  exact (shortAfter_paced h hp).tick hp

theorem step_onTime {m : Machine κ} {line : Line} {dot : Nat} (h : m.OnTime)
    (hp : m.clock.position = .raster line dot) : (m.step line dot).OnTime := by
  refine ⟨step_paced h.paced hp, ?_⟩
  have laid := shortAfter_paced h.paced hp
  have hc := laid.count_add_dot_le hp
  have hv := Clock.rasterEnd_lt_vblankAt m.config.region _ laid
  rw [step_raised, step_clock line dot h.paced, raised_false_of_raster h hp]
  simp only [Clock.tick, Bool.false_eq_true, false_iff, Nat.not_lt]
  simp only [timing, Config.timing, Clock.layOut_count] at *
  omega

theorem step_frameStart {m : Machine κ} (line : Line) (dot : Nat)
    (h : m.clock.Paced m.timing) : (m.step line dot).clock.frameStart = m.clock.frameStart := by
  rw [step_clock line dot h]
  rfl

theorem step_short {m : Machine κ} (line : Line) (dot : Nat) (h : m.clock.Paced m.timing) :
    (m.step line dot).clock.short = m.shortAfter line dot := by
  rw [step_clock line dot h]
  rfl

theorem step_position {m : Machine κ} {line : Line} {dot : Nat} (h : m.clock.Paced m.timing)
    (hp : m.clock.position = .raster line dot) :
    (m.step line dot).clock.position = (Position.raster line dot).next (m.shortAfter line dot) := by
  rw [step_clock line dot h, ← hp]
  rfl

/-- Dots do not change how the length will be settled. -/
theorem step_settledShort {m : Machine κ} {line : Line} {dot : Nat} (h : m.clock.Paced m.timing)
    (hp : m.clock.position = .raster line dot) :
    (m.step line dot).settledShort = m.settledShort := by
  simp only [settledShort, step_position h hp, Position.next_unsettled, step_dropsDot, hp,
    step_short line dot h, shortAfter, decide_eq_true_eq]
  cases line with
  | visible y => simp [Position.unsettled]
  | preRender =>
    simp only [Position.unsettled, true_and, decide_eq_true_eq]
    by_cases hd : dot < settlingDot
    · simp [hd, hd.le]
    · by_cases he : dot = settlingDot
      · simp [he]
      · simp [hd, he, show ¬ dot ≤ settlingDot by omega]

theorem step_rasterEnd {m : Machine κ} {line : Line} {dot : Nat} (h : m.clock.Paced m.timing)
    (hp : m.clock.position = .raster line dot) : (m.step line dot).rasterEnd = m.rasterEnd := by
  simp only [rasterEnd, step_frameStart line dot h, step_settledShort h hp, step_timing]

/-- The last dot of the raster leads into the blank at the raster's end. -/
theorem step_count_of_blank {m : Machine κ} {line : Line} {dot : Nat}
    (h : m.clock.Paced m.timing) (hp : m.clock.position = .raster line dot)
    (hb : (m.step line dot).clock.position = .blank) :
    (m.step line dot).clock.count = m.rasterEnd := by
  rw [← step_rasterEnd h hp, rasterEnd, settledShort_of_blank hb, step_short line dot h,
    step_frameStart line dot h, step_timing]
  rw [step_clock line dot h] at hb ⊢
  exact (shortAfter_paced h hp).tick_count_of_blank hp hb

/-- The raster is over exactly at its end. -/
theorem advanceTo_rasterEnd {m : Machine κ} {line : Line} {dot : Nat} (h : m.OnTime)
    (hp : m.clock.position = .raster line dot) :
    (m.advanceTo m.rasterEnd).clock.position = .blank
      ∧ (m.advanceTo m.rasterEnd).clock.count = m.rasterEnd := by
  have hb : m.clock.position = .blank → m.clock.count = m.rasterEnd := by simp [hp]
  clear hp
  generalize he : m.rasterEnd = e at hb ⊢
  fun_induction advanceTo e m with
  | case1 m hc hp => exact absurd (hb hp) hc.ne
  | case2 m hc line dot hp ih =>
    have hr := (step_rasterEnd h.paced hp).trans he
    exact ih (step_onTime h hp) hr fun hb => (step_count_of_blank h.paced hp hb).trans he
  | case3 m hc =>
    cases hp : m.clock.position with
    | blank => exact ⟨rfl, hb hp⟩
    | raster line dot => exact absurd (he ▸ count_lt_rasterEnd h.paced hp) hc

@[simp]
theorem advanceTo_timing (target : Nat) (m : Machine κ) :
    (m.advanceTo target).timing = m.timing := congrArg Config.timing (advanceTo_config target m)

@[simp]
theorem advanceTo_ledger (target : Nat) (m : Machine κ) : (m.advanceTo target).ledger = m.ledger := by
  fun_induction advanceTo target m with
  | case1 => exact passBlank_ledger target _
  | case2 _ _ line dot _ ih => rw [ih, step_ledger]
  | case3 => rfl

@[simp]
theorem advanceTo_inFrame (target : Nat) (m : Machine κ) :
    (m.advanceTo target).inFrame = m.inFrame := congrArg Ledger.inFrame (advanceTo_ledger target m)

@[simp]
theorem advanceTo_oddFrame (target : Nat) (m : Machine κ) :
    (m.advanceTo target).oddFrame = m.oddFrame := congrArg Ledger.oddFrame (advanceTo_ledger target m)

@[simp]
theorem advanceTo_warmingUp (target : Nat) (m : Machine κ) :
    (m.advanceTo target).warmingUp = m.warmingUp := congrArg Ledger.warmingUp (advanceTo_ledger target m)

theorem advanceTo_onTime (target : Nat) {m : Machine κ} (h : m.OnTime) :
    (m.advanceTo target).OnTime := by
  fun_induction advanceTo target m with
  | case1 m hc hp => exact passBlank_onTime target h hp
  | case2 m hc line dot hp ih => exact ih (step_onTime h hp)
  | case3 m hc => exact h

end Machine

end PictureUnit
