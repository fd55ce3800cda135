import PictureUnit.Proofs.WarmUp

/-!
# Requests beyond the end of a frame

An interrupt that is switched on while the flag is set is requested one dot after the write. If the write
lands in the last dot of a frame, the request is for a cycle of the next one, and the opening of that frame,
which requests the interrupt of its own blank, takes its place before its time. This is the only way a
request of the session can stand beyond the cycle at which a frame is opened.
-/

set_option autoImplicit false

namespace PictureUnit.Machine

variable {κ : Type} {m n p : Machine κ} {late : Nat → Nat → Prop} {cycle : Nat}

/-- Switched on, reset or loaded, and no frame opened since. -/
structure Parked (m : Machine κ) : Prop where
  clock : m.clock = .parked m.clock.count
  vblank : m.vblank = .parked
  closed : m.inFrame = false

theorem reset_parked (kind : ResetKind) (m : Machine κ) : (m.reset kind).Parked := by
  cases kind <;> exact ⟨rfl, rfl, rfl⟩

theorem new_parked (config : Config) (banks : Banks) (cartridge : κ) (host : Host) :
    (Machine.new config banks cartridge host).Parked := reset_parked .cold _

theorem restore_parked (chunks : List Snapshot.Chunk) (m : Machine κ) : (m.restore chunks).1.Parked := by
  have applied : ((m.reset .cold).applyChunks chunks).1.Parked :=
    applyChunks_keeps (fun _ s h => by cases s <;> exact ⟨h.clock, h.vblank, h.closed⟩) chunks
      (reset_parked .cold m)
  exact ⟨applied.clock, applied.vblank, applied.closed⟩

/-- Between frames a machine waits, and not past the end of the last one. -/
def Waits (m : Machine κ) : Prop :=
  m.inFrame = false → m.Waiting ∧ m.clock.count ≤ m.clock.frameEnd

theorem Parked.waits (h : m.Parked) : m.Waits := by
  intro _
  refine ⟨⟨?_, ?_⟩, ?_⟩
  · rw [h.clock]
    rfl
  · rw [h.vblank]
    rfl
  · rw [h.clock]
    exact le_refl _

/-- On the raster no request is for a cycle after the blank begins at the latest, and in the blank none is for
one after the end of the frame, late ones apart. -/
def InTime (late : Nat → Nat → Prop) (cycle : Nat) (m : Machine κ) : Prop :=
  match m.clock.position with
  | .raster _ _ => cycle ≤ m.clock.frameStart + m.timing.vblankDots * m.timing.dot
  | .blank => cycle ≤ m.clock.frameEnd ∨ late m.clock.frameEnd cycle

theorem InTime.of_eq (h : m.InTime late cycle) (clock : n.clock = m.clock) (timing : n.timing = m.timing) :
    n.InTime late cycle := by
  rw [InTime, clock, timing]
  exact h

theorem inTime_of_blank (hp : m.clock.position = .blank) :
    m.InTime late cycle ↔ cycle ≤ m.clock.frameEnd ∨ late m.clock.frameEnd cycle := by
  rw [InTime, hp]

/-- In an open frame the blank begins in time. -/
theorem OnTime.inTime (h : m.OnTime)
    (hc : cycle ≤ m.clock.frameStart + m.timing.vblankDots * m.timing.dot) : m.InTime late cycle := by
  cases hp : m.clock.position with
  | raster line dot =>
    rw [InTime, hp]
    exact hc
  | blank =>
    have room : m.timing.vblankDots < m.timing.dotsPerFrame - 1 := m.config.region.vblankDots_lt_pred
    have short : m.clock.short.toNat ≤ 1 := by cases m.clock.short <;> decide
    have fits : m.timing.vblankDots ≤ m.timing.dotsPerFrame - m.clock.short.toNat := by omega
    have last := Nat.mul_le_mul_right m.timing.dot fits
    rw [inTime_of_blank hp, h.paced.frameEnd_eq]
    omega

theorem OnTime.vblankAt_inTime (h : m.OnTime) : m.InTime late m.clock.vblankAt := by
  apply h.inTime
  rw [h.paced.vblankAt_eq]
  exact Nat.add_le_add_left (Nat.mul_le_mul_right _ (Nat.sub_le _ _)) _

/-- What holds of the requests between any two things that the processor does, since the machine was `p`. -/
structure Punctual (p : Machine κ) (late : Nat → Nat → Prop) (m : Machine κ) : Prop where
  config : m.config = p.config
  kept : m.Kept
  waits : m.Waits
  asked : ∀ cycle, Host.standing m.host.events = some cycle →
    Host.standing p.host.events = some cycle ∨ m.InTime late cycle

theorem Parked.punctual (h : p.Parked) : p.Punctual late p where
  config := rfl
  kept := kept_of_parked (congrArg VblankLatch.interruptAt h.vblank) h.closed
  waits := h.waits
  asked := fun _ standing => .inl standing

theorem Punctual.onTime (h : p.Punctual late m) (hp : m.clock.position ≠ .blank) : m.OnTime := by
  cases hf : m.inFrame with
  | true => exact (h.kept.minded hf).1
  | false => exact absurd (h.waits hf).1.blank hp

/-- Once the blank has been raised, the raster is over. -/
theorem blank_of_raised (h : m.clock.position ≠ .blank → m.OnTime) (raised : m.vblank.raised = true) :
    m.clock.position = .blank := by
  cases hp : m.clock.position with
  | blank => rfl
  | raster line dot =>
    rw [raised_false_of_raster (h (by simp [hp])) hp] at raised
    cases raised

/-- If the flag is set and the blank of no frame is ahead, it has been raised. -/
theorem Punctual.raised_of_flag (h : p.Punctual late m)
    (stale : (m.inFrame && !m.vblank.raised && !m.vblank.suppressed) = false)
    (flag : m.circuit.flag = true) : m.vblank.raised = true := by
  cases hf : m.inFrame with
  | false => exact (h.waits hf).1.raised
  | true =>
    by_contra low
    have suppressed : m.vblank.suppressed = true := by
      simpa [hf, Bool.eq_false_of_not_eq_true low] using stale
    rw [((h.kept.minded hf).2.quiet suppressed).1] at flag
    cases flag

/-- What has nothing to do with the blank leaves the requests alone. -/
theorem Punctual.of_aside (h : p.Punctual late m) (aside : m.Aside n) (kept : n.Kept)
    (config : n.config = m.config) (inFrame : n.inFrame = m.inFrame) : p.Punctual late n := by
  have timing : n.timing = m.timing := congrArg Config.timing config
  refine ⟨config.trans h.config, kept, fun hf => ?_, fun cycle standing => ?_⟩
  · obtain ⟨waiting, ended⟩ := h.waits (inFrame.symm.trans hf)
    refine ⟨waiting.of_eq aside.clock (congrArg VblankLatch.raised aside.vblank), ?_⟩
    rw [aside.clock]
    exact ended
  · rw [aside.standing] at standing
    exact (h.asked cycle standing).imp_right (·.of_eq aside.clock timing)

/-- The switch leaves the standing request alone, takes it back, or asks for the interrupt of the blank
ahead or for one at once. -/
theorem switchInterrupt_standing (enabled : Bool) (cycle : Nat) (m : Machine κ) :
    let standing := Host.standing (m.switchInterrupt enabled cycle).host.events
    standing = Host.standing m.host.events ∨ standing = none
      ∨ (m.inFrame = true ∧ standing = some m.clock.vblankAt)
      ∨ (enabled = true ∧ (m.inFrame && !m.vblank.raised && !m.vblank.suppressed) = false
        ∧ m.circuit.flag = true ∧ cycle < m.clock.frameEnd
        ∧ standing = some (cycle + m.timing.dot)) := by
  unfold switchInterrupt
  split
  · next on =>
    split
    · next fresh =>
      simp only [Bool.and_eq_true] at fresh
      exact .inr (.inr (.inl ⟨fresh.1.1, rfl⟩))
    · next stale =>
      split
      · next set => exact .inr (.inr (.inr ⟨on, Bool.eq_false_of_not_eq_true stale, set.1, set.2, rfl⟩))
      · exact .inl rfl
  · split
    · split
      · exact .inr (.inl rfl)
      · exact .inl rfl
    · exact .inl rfl

theorem settleAt_standing (line : Line) (dot : Nat) (m : Machine κ) :
    Host.standing (m.settleAt line dot).host.events = Host.standing m.host.events
      ∨ Host.standing (m.settleAt line dot).host.events = some (m.settleAt line dot).clock.vblankAt := by
  unfold settleAt settleLength
  split
  · split
    · exact .inl rfl
    · dsimp only
      split
      · exact .inr rfl
      · exact .inl rfl
  · exact .inl rfl

/-- A status read takes a request back, or leaves it. -/
theorem readStatus_standing (cycle : Nat) (m : Machine κ) :
    Host.standing (m.readStatus cycle).2.host.events = Host.standing m.host.events
      ∨ Host.standing (m.readStatus cycle).2.host.events = none := by
  unfold readStatus suppressVblank
  dsimp only
  split
  · split
    · exact .inr rfl
    · exact .inl rfl
  · exact .inl rfl

theorem openFrame_events (m : Machine κ) : m.openFrame.host.events
    = if m.circuit.registers.control.interrupts then
        .interruptAt m.openFrame.clock.vblankAt :: m.host.events
      else m.host.events := by
  unfold openFrame
  dsimp only
  split <;> rfl

/-- A frame is opened where the last one has ended. -/
theorem blank_of_beginFrame (begun : m.beginFrame = .ok n) :
    m.inFrame = false ∧ m.clock.position = .blank ∧ m.clock.frameEnd ≤ m.clock.count := by
  unfold beginFrame at begun
  split at begun
  · next between =>
    simp only [Clock.betweenFrames, Bool.and_eq_true, Bool.not_eq_true', beq_iff_eq,
      decide_eq_true_eq] at between
    exact between
  · cases begun

/-- A request that stands beyond the cycle at which a frame is opened is a late one. -/
theorem Punctual.opening (h : p.Punctual late m) (begun : m.beginFrame = .ok n)
    (standing : Host.standing m.host.events = some cycle) :
    Host.standing p.host.events = some cycle ∨ cycle ≤ n.clock.frameStart
      ∨ late n.clock.frameStart cycle := by
  obtain ⟨closed, blank, ended⟩ := blank_of_beginFrame begun
  obtain rfl := eq_of_beginFrame begun
  have start : m.openFrame.clock.frameStart = m.clock.frameEnd := by
    rw [openFrame_frameStart]
    exact Nat.le_antisymm (h.waits closed).2 ended
  rw [start]
  exact (h.asked cycle standing).imp_right (inTime_of_blank blank).mp

theorem Punctual.openFrame (h : p.Punctual late m)
    (near : ∀ finish due, late finish due → due < finish + p.timing.dot) (begun : m.beginFrame = .ok n) :
    p.Punctual late n := by
  obtain rfl := eq_of_beginFrame begun
  have config : m.openFrame.config = p.config := (openFrame_config m).trans h.config
  have timing : m.openFrame.timing = p.timing := congrArg Config.timing config
  have onTime := openFrame_onTime m
  refine ⟨config, openFrame_kept m, fun hf => ?_, fun cycle standing => ?_⟩
  · rw [openFrame_inFrame] at hf
    cases hf
  · rw [openFrame_events] at standing
    split at standing
    · cases standing
      exact .inr onTime.vblankAt_inTime
    · -- The blank of the frame is more than a dot ahead.
      have ahead : p.timing.dot ≤ p.timing.vblankDots * p.timing.dot :=
        Nat.le_mul_of_pos_left _ (Nat.succ_pos _)
      refine (h.opening begun standing).imp_right fun asked => onTime.inTime ?_
      rw [timing]
      obtain passed | overdue := asked
      · omega
      · have := near _ _ overdue
        omega

variable [Cartridge κ]

/-- Every state of a session comes from where the machine was parked last. -/
theorem Reachable.exists_parked (h : m.Reachable) : ∃ (p : Machine κ) (ds : List (Deed κ)), p.Parked
    ∧ (∀ d ∈ ds, d.Lasting) ∧ m = p.afterDeeds ds := by
  induction h with
  | new config banks cartridge host => exact ⟨_, [], new_parked _ _ _ _, List.forall_mem_nil _, rfl⟩
  | @move m _ _ step ih =>
    obtain ⟨p, ds, parked, lasting, rfl⟩ := ih
    obtain ⟨d, rfl⟩ := step.exists_deed
    have onward (h : d.Lasting) : ∃ (q : Machine κ) (es : List (Deed κ)), q.Parked
        ∧ (∀ e ∈ es, e.Lasting) ∧ (p.afterDeeds ds).deed d = q.afterDeeds es := by
      refine ⟨p, ds ++ [d], parked, fun e inside => ?_, (afterDeeds_append ds [d] p).symm⟩
      obtain before | last := List.mem_append.mp inside
      · exact lasting e before
      · rw [List.mem_singleton.mp last]
        exact h
    cases d with
    | reset kind => exact ⟨_, [], reset_parked kind _, List.forall_mem_nil _, rfl⟩
    | load data =>
      obtain same | ⟨chunks, loaded⟩ := (p.afterDeeds ds).deed_load data
      · exact ⟨p, ds, parked, lasting, same⟩
      · exact ⟨_, [], restore_parked chunks _, List.forall_mem_nil _, loaded⟩
    | act | swap | recolor | bank | insert => exact onward trivial

theorem Passes.waits {ds : List (Line × Nat)} {l : List Ink} (h : Passes ds l m n) (hm : m.Waits) :
    n.Waits := by
  induction h with
  | refl => exact hm
  | still still _ ih =>
    refine ih fun hf => ?_
    obtain ⟨waiting, ended⟩ := hm (still.inFrame.symm.trans hf)
    refine ⟨waiting.of_eq still.clock still.raised, ?_⟩
    rw [still.clock]
    exact ended
  | blank target _ _ ih =>
    refine ih fun hf => ?_
    obtain ⟨waiting, ended⟩ := hm (passBlank_inFrame target _ ▸ hf)
    refine ⟨⟨(passBlank_position _ _).trans waiting.blank, ?_⟩, ?_⟩
    · rw [passBlank_raised, waiting.raised, Bool.true_or]
    · rw [passBlank_clock]
      exact Nat.max_le.mpr ⟨ended, Nat.min_le_right _ _⟩
  | dot standing _ ih =>
    refine ih fun hf => ?_
    rw [step_inFrame] at hf
    rw [(hm hf).1.blank] at standing
    cases standing

theorem step_inTime (ht : m.OnTime) {line : Line} {dot : Nat} (hp : m.clock.position = .raster line dot)
    (h : m.InTime late cycle) : (m.step line dot).InTime late cycle := by
  apply (step_onTime ht hp).inTime
  rw [step_frameStart line dot ht.paced, step_timing]
  rwa [InTime, hp] at h

/-- Time brings no request but that of the blank. -/
theorem advanceTo_asked (target : Nat) {old : Option Nat} (ht : m.clock.position ≠ .blank → m.OnTime)
    (h : ∀ cycle, Host.standing m.host.events = some cycle → old = some cycle ∨ m.InTime late cycle) :
    ∀ cycle, Host.standing (m.advanceTo target).host.events = some cycle →
      old = some cycle ∨ (m.advanceTo target).InTime late cycle := by
  fun_induction advanceTo target m with
  | case1 m _ blank =>
    intro cycle standing
    rw [passBlank_host] at standing
    refine (h cycle standing).imp_right fun inTime => ?_
    have frameEnd : (m.passBlank target).clock.frameEnd = m.clock.frameEnd := by
      rw [passBlank_clock]
      rfl
    rw [inTime_of_blank ((passBlank_position _ _).trans blank), frameEnd]
    exact (inTime_of_blank blank).mp inTime
  | case2 m _ line dot hp ih =>
    have onTime := ht (by simp [hp])
    have stepped := step_onTime onTime hp
    refine ih (fun _ => stepped) fun cycle standing => ?_
    obtain same | moved := settleAt_standing line dot (m.runDot line dot)
    · exact (h cycle (same.symm.trans standing)).imp_right (step_inTime onTime hp)
    · right
      cases moved.symm.trans standing
      exact stepped.vblankAt_inTime
  | case3 => exact h

theorem Punctual.advanceTo (h : p.Punctual late m) (target : Nat) :
    p.Punctual late (m.advanceTo target) := by
  obtain ⟨ds, l, passes⟩ := advanceTo_passes target m
  exact ⟨(advanceTo_config target m).trans h.config, h.kept.advanceTo target, passes.waits h.waits,
    advanceTo_asked target h.onTime h.asked⟩

theorem Punctual.still (h : p.Punctual late m) (aside : m.Aside n) (still : m.Still n) :
    p.Punctual late n :=
  h.of_aside aside (aside.kept still h.kept) (congrArg Ledger.config still.ledger) still.inFrame

theorem Punctual.readRegister (h : p.Punctual late m) (register : Register) (cycle : Nat) :
    p.Punctual late (m.readRegister register cycle).2 := by
  by_cases hr : register = .status
  · subst hr
    have still := readStatus_still cycle m
    refine ⟨(congrArg Ledger.config still.ledger).trans h.config, h.kept.readRegister .status cycle,
      still.passes.waits h.waits, fun requested standing => ?_⟩
    obtain same | none := readStatus_standing cycle m
    · have before := h.asked requested (same.symm.trans standing)
      exact before.imp_right (·.of_eq still.clock still.timing)
    · cases none.symm.trans standing
  · exact h.still (readRegister_aside hr cycle m) (readRegister_still register cycle m)

/-- The machine that a write to the control register finds. -/
def caught (t : Turn) (m : Machine κ) : Machine κ := (m.meet t).advanceTo ((m.meet t).landing .control)

/-- The turn switches the interrupt on, late in a frame that ends at `finish`, and the interrupt is due only
after that. -/
structure SwitchesLate (m : Machine κ) (t : Turn) (finish due : Nat) : Prop where
  writes : ∃ address byte, t.access = .write address byte ∧ address ≠ transferAddress
    ∧ Register.ofAddress address = .control ∧ (Control.mk byte).interrupts = true
  taken : m.warmingUp = false
  off : m.circuit.registers.control.interrupts = false
  raised : (m.caught t).vblank.raised = true
  flag : (m.caught t).circuit.flag = true
  frameEnd : (m.caught t).clock.frameEnd = finish
  landed : (m.meet t).landing .control < finish
  due_eq : due = (m.meet t).landing .control + m.timing.dot
  beyond : finish < due

/-- A write to the control register is the only one that concerns the requests. -/
theorem Punctual.writeRegister (h : p.Punctual late m) (register : Register) (byte : UInt8)
    (hc : m.Settled cycle)
    (lateWrite : register = .control → m.circuit.registers.control.interrupts = false →
      (Control.mk byte).interrupts = true → m.vblank.raised = true → m.circuit.flag = true →
      cycle < m.clock.frameEnd → m.clock.frameEnd < cycle + m.timing.dot →
      late m.clock.frameEnd (cycle + m.timing.dot)) :
    p.Punctual late (m.writeRegister register byte cycle) := by
  by_cases hr : register = .control
  · subst hr
    have still := writeControl_still byte cycle m
    refine ⟨(congrArg Ledger.config still.ledger).trans h.config, h.kept.writeRegister .control byte hc,
      still.passes.waits h.waits, fun requested standing => ?_⟩
    change Host.standing (m.writeControl byte cycle).host.events = some requested at standing
    have back {c : Nat} (inTime : m.InTime late c) : (m.writeControl byte cycle).InTime late c :=
      inTime.of_eq still.clock still.timing
    change _ ∨ (m.writeControl byte cycle).InTime late requested
    unfold writeControl at standing
    dsimp only at standing
    split at standing
    · exact (h.asked requested standing).imp_right back
    · next changed =>
      obtain same | none | ⟨hf, blank⟩ | ⟨on, stale, flag, before, asked⟩ :=
        switchInterrupt_standing _ cycle (m.withRegisters fun r =>
          { r with control := ⟨byte⟩, scroll := r.scroll.selectNametable byte })
      · exact (h.asked requested (same.symm.trans standing)).imp_right back
      · cases none.symm.trans standing
      · cases blank.symm.trans standing
        exact .inr (back (h.kept.minded hf).1.vblankAt_inTime)
      · cases asked.symm.trans standing
        have raised : m.vblank.raised = true := h.raised_of_flag stale flag
        have off : m.circuit.registers.control.interrupts = false := by
          have on : (Control.mk byte).interrupts = true := on
          cases hoff : m.circuit.registers.control.interrupts with
          | false => rfl
          | true => exact absurd (on.trans hoff.symm) changed
        refine .inr (back ((inTime_of_blank (blank_of_raised h.onTime raised)).mpr ?_))
        by_cases fits : cycle + m.timing.dot ≤ m.clock.frameEnd
        · exact .inl fits
        · exact .inr (lateWrite rfl off on raised flag before (Nat.not_le.mp fits))
  · exact h.still (writeRegister_aside hr byte cycle m) (writeRegister_still register byte cycle m)

theorem Punctual.landByte (h : p.Punctual late m) (byte : UInt8) : p.Punctual late (m.landByte byte) :=
  h.still (landByte_aside byte m) (landByte_still byte m)

theorem Punctual.transferPage (h : p.Punctual late m) (page : UInt8) :
    p.Punctual late (m.transferPage page) := by
  have aligned : p.Punctual late m.align :=
    (h.still (stall_aside m.alignment m) (stall_still m.alignment m)).advanceTo _
  refine transferPage_keeps aligned
    (fun n hn => hn.still (copyPage_aside page n) (copyPage_still page n)) fun n address hn => ?_
  have taken := ((stall_aside 1 n).trans (takeByte_aside address _)).trans (stall_aside 1 _)
  have still := ((stall_still 1 n).trans (takeByte_still address _)).trans (stall_still 1 _)
  exact ((hn.still taken still).advanceTo _).landByte _

theorem Punctual.turn (h : p.Punctual late m) (t : Turn)
    (lateTurn : ∀ finish due, m.SwitchesLate t finish due → late finish due) :
    p.Punctual late (m.turn t).2 := by
  have met : p.Punctual late (m.meet t) := h.still (meet_aside t m) (meet_still t m)
  have latched (n : Machine κ) (byte : UInt8) (hn : p.Punctual late n) : p.Punctual late (n.setLines byte) :=
    hn.still (setLines_aside byte n) (setLines_still byte n)
  unfold Machine.turn
  cases access : t.access with
  | read address => exact latched _ _ ((met.advanceTo _).readRegister _ _)
  | write address byte =>
    rw [perform, write]
    by_cases transfers : address = transferAddress
    · rw [if_pos transfers]
      exact met.transferPage byte
    · rw [if_neg transfers, writeInto_eq, put]
      generalize written : Register.ofAddress address = register
      have reached := latched _ byte (met.advanceTo ((m.meet t).landing register))
      have settled := (setLines_still byte _).settled
        (advanceTo_settled ((m.meet t).landing register) (m.meet t))
      split
      · exact reached
      · next taken =>
        refine reached.writeRegister register byte settled ?_
        rintro rfl off on raised flag before beyond
        have timing : (m.caught t).timing = m.timing := advanceTo_timing _ (m.meet t)
        have control : (m.caught t).circuit.registers.control = m.circuit.registers.control :=
          congrArg Settings.control (advanceTo_settings _ (m.meet t))
        have warm : (m.caught t).warmingUp = m.warmingUp := advanceTo_warmingUp _ (m.meet t)
        exact lateTurn _ _
          { writes := ⟨address, byte, access, transfers, written, on⟩
            taken := warm.symm.trans (Bool.eq_false_of_not_eq_true fun held =>
              taken (Bool.and_eq_true_iff.mpr ⟨held, rfl⟩))
            off := (congrArg Control.interrupts control).symm.trans off
            raised := raised
            flag := flag
            frameEnd := rfl
            landed := before
            due_eq := congrArg (fun timing => (m.meet t).landing .control + timing.dot) timing
            beyond := beyond }
  | transfer page => exact met.transferPage page
  | catchUp target => exact met.advanceTo target

theorem Punctual.closeFrame (h : p.Punctual late m) (finished : m.endFrame = .ok n) :
    p.Punctual late n := by
  have kept := (Moves.closed finished).kept h.kept
  obtain ⟨running, rfl⟩ := eq_of_endFrame finished
  have onTime := (h.kept.minded running).1
  have caughtUp := h.advanceTo m.clock.frameEnd
  have reached := advanceTo_onTime m.clock.frameEnd onTime
  exact ⟨caughtUp.config, kept,
    fun _ => ⟨⟨(advanceTo_frameEnd onTime).1, advanceTo_frameEnd_raised onTime⟩,
      count_le_frameEnd reached.paced⟩,
    fun cycle standing => (caughtUp.asked cycle standing).imp_right (·.of_eq rfl rfl)⟩

theorem Punctual.deed (h : p.Punctual late m)
    (near : ∀ finish due, late finish due → due < finish + p.timing.dot) {d : Deed κ} (lasting : d.Lasting)
    (lateTurn : ∀ t finish due, d = .act (.turn t) → m.SwitchesLate t finish due → late finish due) :
    p.Punctual late (m.deed d) := by
  have circuit {f : Circuit κ → Circuit κ} (hf : (f m.circuit).registers = m.circuit.registers) :
      p.Punctual late (m.withCircuit f) := by
    refine h.of_aside ⟨rfl, rfl, ?_, ?_, rfl⟩ (h.kept.withCircuit hf) rfl rfl
    · exact congrArg (·.status.vblank) hf
    · exact congrArg (·.control.interrupts) hf
  cases d with
  | act a =>
    cases a with
    | opening =>
      rw [Machine.deed, act]
      cases begun : m.beginFrame with
      | ok n => exact h.openFrame near begun
      | error => exact h
    | closing =>
      rw [Machine.deed, act]
      cases finished : m.endFrame with
      | ok n => exact h.closeFrame finished
      | error => exact h
    | turn t => exact h.turn t fun finish due => lateTurn t finish due rfl
  | swap given =>
    obtain same | taken := m.deed_swap given
    · rwa [same]
    · rw [taken]
      exact circuit rfl
  | recolor map => exact circuit (f := fun c => { c with palette := c.palette.setMap map }) rfl
  | bank change => exact circuit (f := fun c => { c with banks := change c.banks }) rfl
  | insert cartridge => exact circuit (f := fun c => { c with cartridge := cartridge }) rfl
  | reset | load => exact lasting.elim

/-- Among these deeds the interrupt was switched on late in a frame that ended at `finish`. -/
def Overdue (p : Machine κ) (ds : List (Deed κ)) (finish due : Nat) : Prop :=
  due < finish + p.timing.dot ∧ ∃ i t, ds[i]? = some (.act (.turn t))
    ∧ (p.afterDeeds (ds.take i)).SwitchesLate t finish due

/-- Since a machine was parked, no request is late but those of late switch-ons. -/
theorem Parked.afterDeeds_punctual (parked : p.Parked) {ds : List (Deed κ)}
    (lasting : ∀ d ∈ ds, d.Lasting) : p.Punctual (p.Overdue ds) (p.afterDeeds ds) := by
  -- What is excused is fixed by all the deeds, so it stays the same along the induction over their fronts.
  have run (i : Nat) (hi : i ≤ ds.length) : p.Punctual (p.Overdue ds) (p.afterDeeds (ds.take i)) := by
    induction i with
    | zero => exact parked.punctual
    | succ i ih =>
      have before := ih (Nat.le_of_succ_le hi)
      have found : ds[i]? = some ds[i] := List.getElem?_eq_getElem hi
      rw [afterDeeds_take_succ found]
      refine before.deed (fun finish due h => h.1) (lasting _ (List.getElem_mem hi)) ?_
      intro t finish due turned switched
      have timing : (p.afterDeeds (ds.take i)).timing = p.timing := congrArg Config.timing before.config
      refine ⟨?_, i, t, found.trans (congrArg some turned), switched⟩
      rw [switched.due_eq, timing]
      exact Nat.add_lt_add_right switched.landed _
  have all := run ds.length (le_refl _)
  rwa [List.take_length] at all

/-- Catching up to the end of a frame in its blank takes nothing but time. -/
theorem advanceTo_frameEnd_of_blank (h : m.OnTime) (blank : m.clock.position = .blank) :
    let n := m.advanceTo m.clock.frameEnd
    n.clock.position = .blank ∧ n.clock.count = m.clock.frameEnd ∧ n.clock.frameEnd = m.clock.frameEnd
      ∧ n.host = m.host := by
  obtain ⟨still, count⟩ := advanceTo_of_blank m.clock.frameEnd h blank (count_le_frameEnd h.paced)
  have kept : (m.advanceTo m.clock.frameEnd).clock.frameEnd = m.clock.frameEnd
      ∧ (m.advanceTo m.clock.frameEnd).host = m.host := by
    by_cases ahead : m.clock.count < m.clock.frameEnd
    · rw [advanceTo_blank _ m blank ahead, passBlank_clock]
      exact ⟨rfl, passBlank_host _ m⟩
    · rw [advanceTo_of_le _ m (Nat.not_lt.mp ahead)]
      exact ⟨rfl, rfl⟩
  exact ⟨still, count.trans (Nat.min_self _), kept⟩

omit [Cartridge κ] in
/-- An interrupt that is switched on after the blank was raised is asked for one dot later. -/
theorem writeControl_asks {byte : UInt8} (off : m.circuit.registers.control.interrupts = false)
    (on : (Control.mk byte).interrupts = true) (raised : m.vblank.raised = true)
    (flag : m.circuit.flag = true) (before : cycle < m.clock.frameEnd) :
    Host.standing (m.writeControl byte cycle).host.events = some (cycle + m.timing.dot) := by
  have changed : ¬ (Control.mk byte).interrupts = m.circuit.registers.control.interrupts := by
    rw [on, off]
    decide
  have stale : ¬ (m.inFrame && !m.vblank.raised && !m.vblank.suppressed) = true := by
    simp [raised]
  change Host.standing (if (Control.mk byte).interrupts = m.circuit.registers.control.interrupts then _
    else switchInterrupt (Control.mk byte).interrupts cycle (m.withRegisters fun r =>
      { r with control := ⟨byte⟩, scroll := r.scroll.selectNametable byte })).host.events = _
  rw [if_neg changed, on, switchInterrupt, if_pos rfl, if_neg (by exact stale),
    if_pos (by exact ⟨flag, before⟩)]
  rfl

/-- A late switch-on asks for an interrupt. -/
theorem SwitchesLate.turn {t : Turn} {finish due : Nat} (h : m.SwitchesLate t finish due) :
    Host.standing (m.turn t).2.host.events = some due
      ∧ (m.turn t).2.circuit.registers.control.interrupts = true
      ∧ (m.turn t).2.clock = (m.caught t).clock ∧ (m.turn t).2.vblank.raised = true := by
  obtain ⟨address, byte, access, plain, control, on⟩ := h.writes
  have turned := congrArg Prod.snd (turn_setup_warm h.taken access plain)
  rw [control] at turned
  change (m.turn t).2 = ((m.caught t).setLines byte).writeControl byte ((m.meet t).landing .control)
    at turned
  have off : ((m.caught t).setLines byte).circuit.registers.control.interrupts = false :=
    (congrArg (fun s : Settings => s.control.interrupts) (advanceTo_settings _ (m.meet t))).trans h.off
  have still := writeControl_still byte ((m.meet t).landing .control) ((m.caught t).setLines byte)
  rw [turned]
  refine ⟨?_, ?_, still.clock, still.raised.trans h.raised⟩
  · have landed := h.landed
    rw [← h.frameEnd] at landed
    have asked := writeControl_asks (m := (m.caught t).setLines byte) off on h.raised h.flag landed
    have timing : ((m.caught t).setLines byte).timing = m.timing := advanceTo_timing _ (m.meet t)
    rw [asked, timing, h.due_eq]
  · rw [writeControl_circuit]
    exact on

/-- What a late switch-on asks for is lost if the frame is closed and the next one opened. -/
theorem SwitchesLate.lost (punctual : p.Punctual late m) (running : m.inFrame = true) {t : Turn}
    {finish due : Nat} (h : m.SwitchesLate t finish due) :
    let q := (m.turn t).2.act .closing
    Host.standing q.host.events = some due
      ∧ ∃ o, q.beginFrame = .ok o ∧ o.clock.frameStart = finish
        ∧ o.host.events = .interruptAt o.clock.vblankAt :: q.host.events := by
  intro q
  obtain ⟨standing, on, clock, raised⟩ := h.turn
  obtain ⟨ds, l, drawn⟩ := turn_draws t m
  have inFrame : (m.turn t).2.inFrame = true :=
    (congrArg Ledger.inFrame drawn.passes.ledger).trans running
  have onTime := ((punctual.kept.turn t).minded inFrame).1
  have blank := blank_of_raised (fun _ => onTime) raised
  have frameEnd : (m.turn t).2.clock.frameEnd = finish := (congrArg Clock.frameEnd clock).trans h.frameEnd
  obtain ⟨still, count, ended, host⟩ := advanceTo_frameEnd_of_blank onTime blank
  have control := congrArg Settings.control (advanceTo_settings (m.turn t).2.clock.frameEnd (m.turn t).2)
  have closed : q = ((m.turn t).2.advanceTo (m.turn t).2.clock.frameEnd).closeFrame := by
    change (m.turn t).2.act .closing = _
    rw [act, endFrame, if_pos inFrame]
    rfl
  have between : (!q.inFrame && q.clock.betweenFrames) = true := by
    rw [closed]
    simp [closeFrame, Clock.betweenFrames, still, count, ended]
  have kept : q.circuit.registers.control.interrupts = true := by
    rw [closed]
    exact (congrArg Control.interrupts control).trans on
  refine ⟨?_, q.openFrame, if_pos between, ?_, ?_⟩
  · rw [closed]
    exact (congrArg (fun host : Host => Host.standing host.events) host).trans standing
  · rw [openFrame_frameStart, closed]
    exact count.trans frameEnd
  · rw [openFrame_events, if_pos kept]

/-- In the dark the flag is up in the last dot of a frame that began with its full length. -/
theorem advanceTo_dark_lastDot (h : m.OnTime) (dark : m.rendering = false) (long : m.clock.short = false)
    (low : m.vblank.raised = false) (free : m.vblank.suppressed = false) {target : Nat}
    (lastDot : m.clock.frameEnd < target + m.timing.dot) :
    let n := m.advanceTo target
    n.clock.frameEnd = m.clock.frameEnd ∧ n.vblank.raised = true ∧ n.circuit.flag = true := by
  intro n
  have lasts : m.Lasts n := advanceTo_lasts dark long target
  have reached : n.OnTime := advanceTo_onTime target h
  have timing : n.timing = m.timing := advanceTo_timing target m
  have frameEnd : n.clock.frameEnd = m.clock.frameEnd := by
    rw [reached.paced.frameEnd_eq, h.paced.frameEnd_eq, advanceTo_frameStart target h, lasts.short, timing]
  have raised : n.vblank.raised = true := by
    have begins : m.clock.vblankAt + m.timing.dot ≤ m.clock.frameEnd := by
      have room : m.timing.vblankDots < m.timing.dotsPerFrame - 1 := m.config.region.vblankDots_lt_pred
      have dots : m.timing.vblankDots + 1 ≤ m.timing.dotsPerFrame := by omega
      have fits := Nat.mul_le_mul_right m.timing.dot dots
      rw [h.paced.vblankAt_eq, h.paced.frameEnd_eq, long]
      rw [Nat.add_mul] at fits
      simp only [Bool.toNat_false, Nat.sub_zero]
      omega
    have dot : 0 < m.timing.dot := m.config.region.dot_pos
    rw [reached.raised_iff, lasts.vblankAt]
    have settled : n.Settled target := advanceTo_settled target m
    rw [Settled, frameEnd] at settled
    omega
  refine ⟨frameEnd, raised, ?_⟩
  have status := congrArg (·.registers.status.vblank) (advanceTo_circuit dark target)
  refine status.trans ?_
  change (_ || (!m.vblank.raised && n.vblank.raised && !m.vblank.suppressed)) = true
  rw [low, raised, free]
  exact Bool.or_true _

/-- There every write that switches the interrupt on does so late. -/
theorem switchesLate_dark (h : m.OnTime) (dark : m.rendering = false) (long : m.clock.short = false)
    (low : m.vblank.raised = false) (free : m.vblank.suppressed = false) (taken : m.warmingUp = false)
    (off : m.circuit.registers.control.interrupts = false) {t : Turn}
    (writes : ∃ address byte, t.access = .write address byte ∧ address ≠ transferAddress
      ∧ Register.ofAddress address = .control ∧ (Control.mk byte).interrupts = true)
    (landed : (m.meet t).landing .control < m.clock.frameEnd)
    (beyond : m.clock.frameEnd < (m.meet t).landing .control + m.timing.dot) :
    m.SwitchesLate t m.clock.frameEnd ((m.meet t).landing .control + m.timing.dot) := by
  obtain ⟨frameEnd, raised, flag⟩ :=
    advanceTo_dark_lastDot (m := m.meet t) ((meet_still t m).onTime h) dark long low free beyond
  exact ⟨writes, taken, off, raised, flag, frameEnd, landed, rfl, beyond⟩

/-- In every session the machine was parked somewhere, switched on, reset or loaded, and has not been parked
again. Since then the opening of a frame takes the place of a request before its time exactly after a late
switch-on: of the requests made since, the standing one is for a cycle up to the opening, or it is less than
a dot beyond it and was made in the last dot of the frame before. And every interrupt that is switched on
there is lost if the frame is closed and the next one opened. -/
theorem opening_replaces :
    (∀ m : Machine κ, m.Reachable → ∃ (p : Machine κ) (ds : List (Deed κ)), p.Parked
      ∧ (∀ d ∈ ds, d.Lasting) ∧ m = p.afterDeeds ds)
    ∧ ∀ (p : Machine κ) (ds : List (Deed κ)), p.Parked → (∀ d ∈ ds, d.Lasting) →
      let m := p.afterDeeds ds
      (∀ o, m.beginFrame = .ok o →
        (o.host.events = if m.circuit.registers.control.interrupts then
            .interruptAt o.clock.vblankAt :: m.host.events
          else m.host.events)
        ∧ ∀ cycle, Host.standing m.host.events = some cycle →
          Host.standing p.host.events = some cycle ∨ cycle ≤ o.clock.frameStart
            ∨ cycle < o.clock.frameStart + p.timing.dot
              ∧ ∃ i t, ds[i]? = some (.act (.turn t))
                ∧ (p.afterDeeds (ds.take i)).SwitchesLate t o.clock.frameStart cycle)
      ∧ (m.inFrame = true → ∀ t finish due, m.SwitchesLate t finish due →
        let q := (m.turn t).2.act .closing
        Host.standing q.host.events = some due
          ∧ ∃ o, q.beginFrame = .ok o ∧ o.clock.frameStart < due
            ∧ o.host.events = .interruptAt o.clock.vblankAt :: q.host.events) := by
  refine ⟨fun m came => came.exists_parked, fun p ds parked lasting => ?_⟩
  intro m
  have punctual : p.Punctual (p.Overdue ds) m := parked.afterDeeds_punctual lasting
  refine ⟨fun o begun => ⟨?_, fun cycle standing => punctual.opening begun standing⟩, ?_⟩
  · obtain rfl := eq_of_beginFrame begun
    exact openFrame_events m
  · intro running t finish due switched
    obtain ⟨standing, o, begun, start, events⟩ := switched.lost punctual running
    exact ⟨standing, o, begun, start ▸ switched.beyond, events⟩

theorem Parked.opening (h : p.Parked) : p.act .opening = p.openFrame := by
  have between : (!p.inFrame && p.clock.betweenFrames) = true := by
    rw [h.closed, h.clock, Clock.betweenFrames_parked]
    rfl
  rw [act, beginFrame, if_pos between]
  rfl

omit [Cartridge κ] in
/-- The first frame of a machine just switched on is a dark one of full length. -/
theorem new_openFrame_dark (config : Config) (banks : Banks) (cartridge : κ) (host : Host) :
    let m := (Machine.new config banks cartridge host).openFrame
    m.rendering = false ∧ m.clock.short = false ∧ m.warmingUp = false
      ∧ m.circuit.registers.control.interrupts = false
      ∧ m.clock.frameEnd = config.timing.dotsPerFrame * config.timing.dot := by
  generalize hp : Machine.new config banks cartridge host = p
  have registers : p.circuit.registers = .cleared := by
    rw [← hp]
    rfl
  have dark : p.rendering = false := by
    rw [rendering, registers]
    decide
  have clock : p.openFrame.clock = (Clock.parked 0).openFrame config.timing false := by
    rw [openFrame_clock, dropsDot_dark dark, ← hp]
    rfl
  refine ⟨?_, by rw [clock]; rfl, ?_, ?_, ?_⟩
  · rwa [openFrame_rendering]
  · rw [openFrame_warmingUp, ← hp, new_warmingUp]
  · rw [openFrame_circuit, registers]
    decide
  · rw [clock]
    exact Nat.zero_add _

/-- A write that lands three cycles before the end of a frame of five to the dot. -/
theorem opening_replaces_pal : ∃ (p o : Machine Unit) (t : Turn), p.Parked ∧ t.cycle = 531952
    ∧ t.access = .write 0x2000 0x80 ∧
    let m := p.afterDeeds [.act .opening, .act (.turn t), .act .closing]
    m.beginFrame = .ok o ∧ Host.standing m.host.events = some 531962 ∧ o.clock.frameStart < 531962
      ∧ 531962 < o.clock.frameStart + 5
      ∧ o.host.events = .interruptAt o.clock.vblankAt :: m.host.events := by
  have parked := new_parked ⟨.pal, .hardware⟩ .new () (.new fun _ => 0)
  have events : (Machine.new ⟨.pal, .hardware⟩ .new () (.new fun _ => 0)).host.events = [] := rfl
  have dot : (Machine.new ⟨.pal, .hardware⟩ .new () (.new fun _ => 0)).timing.dot = 5 := rfl
  obtain ⟨dark, long, taken, off, frameEnd⟩ :=
    new_openFrame_dark ⟨.pal, .hardware⟩ .new () (.new fun _ => 0)
  generalize Machine.new ⟨.pal, .hardware⟩ .new () (.new fun _ => 0) = p at *
  replace frameEnd : p.openFrame.clock.frameEnd = 531960 := frameEnd
  obtain ⟨t, at_, access⟩ : ∃ t : Turn, t.cycle = 531952 ∧ t.access = .write 0x2000 0x80 :=
    ⟨⟨531952, fun _ => 0, .write 0x2000 0x80⟩, rfl, rfl⟩
  have opened : p.afterDeeds [.act .opening] = p.openFrame := parked.opening
  have timing : p.openFrame.timing = p.timing := openFrame_timing p
  have landing : (p.openFrame.meet t).landing .control = 531957 := by
    change t.cycle + 1 * p.openFrame.timing.dot = 531957
    rw [timing, dot, at_]
  have switched : p.openFrame.SwitchesLate t 531960 531962 := by
    have late := switchesLate_dark (openFrame_onTime p) dark long (openFrame_raised p)
      (openFrame_suppressed p) taken off (t := t) ⟨0x2000, 0x80, access, by decide, by decide, by decide⟩
      (by rw [landing, frameEnd]; decide) (by rw [landing, frameEnd, timing, dot]; decide)
    rwa [landing, frameEnd, timing, dot] at late
  have lasting : ∀ ds : List Act, ∀ d ∈ ds.map Deed.act, (d : Deed Unit).Lasting := by
    simp [Deed.Lasting]
  obtain ⟨-, lost⟩ := opening_replaces.2 p _ parked (lasting [.opening])
  rw [List.map_cons, List.map_nil, opened] at lost
  obtain ⟨standing, o, begun, beyond, replaced⟩ := lost (openFrame_inFrame p) t 531960 531962 switched
  obtain ⟨stood, -⟩ := opening_replaces.2 p _ parked (lasting [.opening, .turn t, .closing])
  have after : p.afterDeeds [.act .opening, .act (.turn t), .act .closing]
      = (p.openFrame.turn t).2.act .closing := by
    rw [← opened]
    rfl
  rw [List.map_cons, List.map_cons, List.map_cons, List.map_nil, after] at stood
  refine ⟨p, o, t, parked, at_, access, ?_⟩
  rw [after]
  refine ⟨begun, standing, beyond, ?_, replaced⟩
  obtain earlier | passed | ⟨near, -⟩ := (stood o begun).2 531962 standing
  · rw [events] at earlier
    cases earlier
  · exact absurd passed (Nat.not_le.mpr beyond)
  · rwa [dot] at near

end PictureUnit.Machine
