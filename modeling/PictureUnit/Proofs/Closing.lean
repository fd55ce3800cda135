import PictureUnit.Proofs.Session

/-!
# Where a frame ends

A frame is closed by catching up to its end as it is known then. If the processor leaves the
settling of the length to that last catch-up, the end may still move. A frame that gets shorter is
left at its new end. A frame that gets longer is left one dot before it, and no frame can be opened
from there.
-/

set_option autoImplicit false

namespace PictureUnit.Machine

variable {κ : Type}

/-- Laid out short, but bound to be settled long: rendering was switched off in between. -/
def Stretches (m : Machine κ) : Prop :=
  m.clock.position.unsettled = true ∧ m.clock.short = true ∧ m.dropsDot = false

theorem settledShort_of_stretches {m : Machine κ} (h : m.Stretches) :
    m.clock.short = true ∧ m.settledShort = false :=
  ⟨h.2.1, by rw [settledShort, if_pos h.1, h.2.2]⟩

theorem toNat_settledShort_le {m : Machine κ} (h : ¬ m.Stretches) :
    m.clock.short.toNat ≤ m.settledShort.toNat := by
  unfold settledShort
  split
  · next hu =>
    cases hs : m.clock.short with
    | false => simp
    | true =>
      cases hd : m.dropsDot with
      | false => exact absurd ⟨hu, hs, hd⟩ h
      | true => simp
  · exact le_refl _

/-- The end of the frame as it will be settled. -/
def settledEnd (m : Machine κ) : Nat :=
  m.clock.frameStart + (m.timing.dotsPerFrame - m.settledShort.toNat) * m.timing.dot

theorem rasterEnd_le_frameEnd {m : Machine κ} (h : m.clock.Paced m.timing) :
    m.rasterEnd ≤ m.clock.frameEnd := by
  have hv : m.timing.vblankDots < m.timing.dotsPerFrame := m.config.region.vblankDots_lt
  have hr : rasterDots + 1 < m.timing.vblankDots := m.config.region.rasterDots_lt
  have hs : m.clock.short.toNat ≤ 1 := by cases m.clock.short <;> decide
  rw [rasterEnd, h.frameEnd_eq]
  apply Nat.add_le_add_left
  apply Nat.mul_le_mul_right
  omega

theorem count_le_frameEnd {m : Machine κ} (h : m.clock.Paced m.timing) :
    m.clock.count ≤ m.clock.frameEnd := by
  cases hp : m.clock.position with
  | blank => exact (h.count_bounds hp).2
  | raster line dot => exact (count_lt_rasterEnd h hp).le.trans (rasterEnd_le_frameEnd h)

theorem settledEnd_le_iff {m : Machine κ} (h : m.clock.Paced m.timing) :
    m.settledEnd ≤ m.clock.frameEnd ↔ ¬ m.Stretches := by
  have hd : 0 < m.timing.dot := m.config.region.dot_pos
  have hv : m.timing.vblankDots < m.timing.dotsPerFrame := m.config.region.vblankDots_lt
  rw [settledEnd, h.frameEnd_eq, Nat.add_le_add_iff_left, Nat.mul_le_mul_right_iff hd]
  constructor
  · intro hle hs
    obtain ⟨short, long⟩ := settledShort_of_stretches hs
    rw [short, long] at hle
    simp only [Bool.toNat_true, Bool.toNat_false] at hle
    omega
  · intro hs
    exact Nat.sub_le_sub_left (toNat_settledShort_le hs) _

/-- A frame that stretches grows by one dot. -/
theorem settledEnd_of_stretches {m : Machine κ} (h : m.clock.Paced m.timing)
    (hs : m.Stretches) : m.clock.frameEnd + m.timing.dot = m.settledEnd := by
  have hv : m.timing.vblankDots < m.timing.dotsPerFrame := m.config.region.vblankDots_lt
  obtain ⟨short, long⟩ := settledShort_of_stretches hs
  have dots : m.timing.dotsPerFrame - 1 + 1 = m.timing.dotsPerFrame := by omega
  rw [settledEnd, h.frameEnd_eq, short, long]
  simp only [Bool.toNat_true, Bool.toNat_false, Nat.sub_zero]
  rw [Nat.add_assoc, ← Nat.succ_mul, Nat.succ_eq_add_one, dots]

theorem settledEnd_eq {m n : Machine κ} (h : n.clock.Paced n.timing)
    (hb : n.clock.position = .blank) (hs : n.settledShort = m.settledShort)
    (hf : n.clock.frameStart = m.clock.frameStart) (ht : n.timing = m.timing) :
    n.clock.frameEnd = m.settledEnd := by
  rw [h.frameEnd_eq, hf, ht, settledEnd, ← hs, settledShort_of_blank hb]

/-- Sections of an odd frame with the background switched on. -/
def oddSections : List Snapshot.Section :=
  [.registers { Registers.cleared with mask := ⟨8⟩ }, .parity true (Burst.ofNat 0)]

/-- A machine that has loaded them. -/
def oddMachine : Machine Unit :=
  ((Machine.new ⟨.ntsc, .hardware⟩ .new () (.new fun _ => 0)).restore
    (oddSections.map Snapshot.Section.chunk)).1

theorem restore_oddSections (m : Machine κ) :
    m.restore (oddSections.map Snapshot.Section.chunk)
      = ((oddSections.foldl Machine.apply (m.reset .cold)).withCircuit
          fun c => c.setMask c.registers.mask, []) := by
  have registers : (Snapshot.Section.registers { Registers.cleared with mask := ⟨8⟩ }).chunk.understand
      = .ok (.registers { Registers.cleared with mask := ⟨8⟩ }) := by decide +kernel
  have parity : (Snapshot.Section.parity true (Burst.ofNat 0)).chunk.understand
      = .ok (.parity true (Burst.ofNat 0)) := by decide +kernel
  simp only [restore, oddSections, List.map_cons, List.map_nil, applyChunks, registers, parity,
    List.foldl_cons, List.foldl_nil]

variable [Cartridge κ]

theorem advanceTo_settledShort (target : Nat) {m : Machine κ} (h : m.OnTime) :
    (m.advanceTo target).settledShort = m.settledShort := by
  fun_induction advanceTo target m with
  | case1 m hc hp =>
    have hb : (m.passBlank target).clock.position = .blank := by rw [passBlank_position, hp]
    rw [settledShort_of_blank hp, settledShort_of_blank hb, passBlank_clock]
    rfl
  | case2 m hc line dot hp ih => rw [ih (step_onTime h hp), step_settledShort h.paced hp]
  | case3 m hc => rfl

theorem advanceTo_frameStart (target : Nat) {m : Machine κ} (h : m.OnTime) :
    (m.advanceTo target).clock.frameStart = m.clock.frameStart := by
  obtain ⟨ds, l, hp⟩ := advanceTo_passes target m
  exact hp.frameStart h

/-- In the blank, only the cycle asked for and the frame's end limit the count. -/
theorem advanceTo_of_blank (target : Nat) {m : Machine κ} (h : m.OnTime)
    (hb : m.clock.position = .blank) (hle : m.clock.count ≤ target) :
    (m.advanceTo target).clock.position = .blank
      ∧ (m.advanceTo target).clock.count = min target m.clock.frameEnd := by
  have hc := (h.paced.count_bounds hb).2
  by_cases hlt : m.clock.count < target
  · rw [advanceTo_blank _ m hb hlt, passBlank_position, passBlank_count]
    exact ⟨hb, by omega⟩
  · rw [advanceTo_of_le _ m (by omega)]
    exact ⟨hb, by omega⟩

/-- Every catch-up past the raster goes through a machine that has just come to the blank. -/
theorem exists_blank_of_rasterEnd_le {m : Machine κ} (h : m.OnTime) {target : Nat}
    (hr : m.rasterEnd ≤ target) (hc : m.clock.count ≤ target) :
    ∃ n : Machine κ, n.OnTime ∧ n.clock.position = .blank ∧ n.clock.count ≤ target
      ∧ n.clock.frameEnd = m.settledEnd ∧ n.advanceTo target = m.advanceTo target := by
  cases hp : m.clock.position with
  | blank => exact ⟨m, h, hp, hc, settledEnd_eq h.paced hp rfl rfl rfl, rfl⟩
  | raster line dot =>
    obtain ⟨hb, he⟩ := advanceTo_rasterEnd h hp
    have hn := advanceTo_onTime m.rasterEnd h
    refine ⟨_, hn, hb, he.le.trans hr, ?_, advanceTo_advanceTo _ _ m hr⟩
    exact settledEnd_eq hn.paced hb (advanceTo_settledShort _ h) (advanceTo_frameStart _ h)
      (advanceTo_timing _ m)

/-- Catching up to the end as known now comes to the nearer one of the two ends. -/
theorem advanceTo_frameEnd {m : Machine κ} (h : m.OnTime) :
    (m.advanceTo m.clock.frameEnd).clock.position = .blank
      ∧ (m.advanceTo m.clock.frameEnd).clock.frameEnd = m.settledEnd
      ∧ (m.advanceTo m.clock.frameEnd).clock.count = min m.clock.frameEnd m.settledEnd := by
  obtain ⟨n, hn, hb, hc, he, hadv⟩ :=
    exists_blank_of_rasterEnd_le h (rasterEnd_le_frameEnd h.paced) (count_le_frameEnd h.paced)
  obtain ⟨hblank, hcount⟩ := advanceTo_of_blank m.clock.frameEnd hn hb hc
  rw [hadv] at hblank hcount
  have hend := advanceTo_onTime m.clock.frameEnd h
  refine ⟨hblank, ?_, by rw [hcount, he]⟩
  exact settledEnd_eq hend.paced hblank (advanceTo_settledShort _ h) (advanceTo_frameStart _ h)
    (advanceTo_timing _ m)

/-- A frame is closed past the cycle that raises its blank. -/
theorem advanceTo_frameEnd_raised {m : Machine κ} (h : m.OnTime) :
    (m.advanceTo m.clock.frameEnd).vblank.raised = true := by
  have reached := advanceTo_onTime m.clock.frameEnd h
  obtain ⟨-, ending, count⟩ := advanceTo_frameEnd h
  rw [reached.raised_iff, count]
  -- Even a frame that stretches is closed at most one dot early, which is past the blank.
  have last := Clock.vblankAt_lt_frameEnd m.config.region _ (by
    have paced := reached.paced
    rwa [advanceTo_timing] at paced)
  have started := advanceTo_frameStart m.clock.frameEnd h
  have present := h.paced.frameEnd_eq
  have laid := reached.paced.vblankAt_eq
  have room : m.timing.vblankDots < m.timing.dotsPerFrame - 1 := m.config.region.vblankDots_lt_pred
  have short : m.clock.short.toNat ≤ 1 := by cases m.clock.short <;> decide
  have near : m.timing.vblankDots < m.timing.dotsPerFrame - m.clock.short.toNat := by omega
  have dot : 0 < m.timing.dot := m.config.region.dot_pos
  have first := Nat.mul_lt_mul_of_pos_right near dot
  have second := Nat.mul_le_mul_right m.timing.dot (Nat.sub_le m.timing.vblankDots
    (m.advanceTo m.clock.frameEnd).clock.short.toNat)
  rw [started, advanceTo_timing] at laid
  rw [ending] at last
  omega

/-- Closing a frame leaves the clock at the frame's end, and the next frame opens there, exactly
unless the frame stretches while it is closed. -/
theorem endFrame_tiles {m : Machine κ} (hm : m.Reachable) (hf : m.inFrame = true) :
    ∃ n, m.endFrame = .ok n
      ∧ (n.clock.count = n.clock.frameEnd ↔ ¬ m.Stretches)
      ∧ (¬ m.Stretches → ∃ o, n.beginFrame = .ok o ∧ o.clock.frameStart = n.clock.frameEnd)
      ∧ (m.Stretches → n.clock.count + n.timing.dot = n.clock.frameEnd
        ∧ n.beginFrame = .error .openedInFrame) := by
  have h := hm.onTime hf
  obtain ⟨hb, he, hc⟩ := advanceTo_frameEnd h
  -- The catch-up aims at the end as laid out; the frame ends where the length gets settled.
  have hle := settledEnd_le_iff h.paced
  have hd : 0 < m.timing.dot := m.config.region.dot_pos
  generalize hn : m.advanceTo m.clock.frameEnd = n at hb he hc
  have ht : n.timing = m.timing := by rw [← hn, advanceTo_timing]
  have between : n.closeFrame.clock.betweenFrames = decide (m.settledEnd ≤ n.clock.count) := by
    simp [closeFrame, Clock.betweenFrames, hb, he]
  refine ⟨n.closeFrame, by simp [endFrame, hf, hn], ?_, ?_, ?_⟩
  · change n.clock.count = n.clock.frameEnd ↔ _
    rw [← hle, hc, he]
    omega
  · intro hs
    have hopen : n.closeFrame.beginFrame = .ok n.closeFrame.openFrame := by
      rw [beginFrame, between, hc, Nat.min_eq_right (hle.mpr hs)]
      simp [closeFrame]
    refine ⟨_, hopen, ?_⟩
    rw [openFrame_frameStart]
    change n.clock.count = n.clock.frameEnd
    rw [hc, he, Nat.min_eq_right (hle.mpr hs)]
  · intro hs
    have grows := settledEnd_of_stretches h.paced hs
    constructor
    · change n.clock.count + n.timing.dot = n.clock.frameEnd
      rw [ht, hc, he]
      omega
    · rw [beginFrame, between, hc]
      simp [show ¬ m.settledEnd ≤ m.clock.frameEnd by omega]

/-- Switches rendering off. -/
def switchOff (cycle : Nat) : Turn := ⟨cycle, fun _ => 0, .write 0x2001 0⟩

/-- A short frame stretches if rendering is switched off with its first dot. -/
theorem switchOff_stretches {m : Machine κ} (h : m.OnTime) (hp : m.clock.position = .start)
    (hs : m.clock.short = true) (hw : m.warmingUp = false) :
    (m.turn (switchOff m.clock.count)).2.Stretches := by
  generalize hn : m.meet (switchOff m.clock.count) = n
  have still : m.Still n := hn ▸ meet_still _ m
  have hpn : n.clock.position = .raster .preRender 0 := by rw [still.clock, hp]; rfl
  have paced := (still.onTime h).paced
  have landing : n.landing .mask = (n.step .preRender 0).clock.count := by
    rw [step_count, still.clock, still.timing, ← hn]
    simp [Machine.landing, Register.writeDelay, Register.isSetup, meet, withHost, switchOff, timing]
  have later : n.clock.count < (n.step .preRender 0).clock.count := by
    rw [step_count]
    exact Nat.lt_add_of_pos_right n.config.region.dot_pos
  have warm : (n.step .preRender 0).warmingUp = false :=
    (step_warmingUp _ _ n).trans ((congrArg Ledger.warmingUp still.ledger).trans hw)
  have written : (m.turn (switchOff m.clock.count)).2
      = ((n.step .preRender 0).setLines 0).withCircuit (·.setMask ⟨0⟩) := by
    change (m.meet (switchOff m.clock.count)).writeInto .mask 0 = _
    rw [hn, writeInto, landing, advanceTo_raster _ n _ _ hpn later, advanceTo_of_le _ _ (le_refl _)]
    simp only [setLines, withRegisters, withCircuit, warm]
    rfl
  rw [written]
  refine ⟨?_, ?_, ?_⟩
  · change (n.step .preRender 0).clock.position.unsettled = true
    rw [step_position paced hpn, Position.next_unsettled]
    decide
  · change (n.step .preRender 0).clock.short = true
    rw [step_short .preRender 0 paced, shortAfter, still.clock, hs]
    simp [settlingDot, dotsPerLine]
  · simp [dropsDot, rendering, withCircuit, Circuit.setMask, Mask.rendering, Mask.background,
      Mask.objects]

theorem oddMachine_reachable : oddMachine.Reachable := by
  have parsed : Snapshot.parse (Snapshot.join (oddSections.map Snapshot.Section.chunk))
      = .ok (oddSections.map Snapshot.Section.chunk) := by cbv
  have loaded : (Machine.new ⟨.ntsc, .hardware⟩ .new () (.new fun _ => 0)).load
      (Snapshot.join (oddSections.map Snapshot.Section.chunk)) = .ok (.ok (oddMachine, [])) := by
    rw [load, parsed]
    simp only [Except.map, oddMachine, restore_oddSections]
    rfl
  exact (Reachable.new ⟨.ntsc, .hardware⟩ .new () (.new fun _ => 0)).move (.loaded loaded)

/-- An odd frame opened short by rendering, which is then switched off at once. -/
theorem endFrame_tiles_switchedOff :
    ∃ m n : Machine Unit, m.Reachable ∧ m.inFrame = true ∧ m.Stretches ∧ m.endFrame = .ok n
      ∧ n.clock.count ≠ n.clock.frameEnd ∧ n.beginFrame = .error .openedInFrame := by
  have begun : oddMachine.beginFrame = .ok oddMachine.openFrame := by
    simp only [oddMachine, restore_oddSections]
    rfl
  have short : oddMachine.openFrame.clock.short = true := by
    simp only [oddMachine, restore_oddSections]
    rfl
  have warm : oddMachine.openFrame.warmingUp = false := by
    simp only [oddMachine, restore_oddSections]
    rfl
  have inFrame : oddMachine.openFrame.inFrame = true := by
    simp only [oddMachine, restore_oddSections]
    rfl
  have opened := oddMachine_reachable.move (.opened begun)
  have start : oddMachine.openFrame.clock.position = .start := openFrame_position oddMachine
  have stretches := switchOff_stretches (opened.onTime inFrame) start short warm
  have reached := opened.turn (switchOff oddMachine.openFrame.clock.count)
  obtain ⟨ds, l, drawn⟩ :=
    turn_draws (switchOff oddMachine.openFrame.clock.count) oddMachine.openFrame
  have still := (congrArg Ledger.inFrame drawn.passes.ledger).trans inFrame
  obtain ⟨n, hn, hc, -, hs⟩ := endFrame_tiles reached still
  exact ⟨_, n, reached, still, stretches, hn, fun h => hc.mp h stretches, (hs stretches).2⟩
end PictureUnit.Machine
