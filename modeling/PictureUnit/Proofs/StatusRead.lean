import Mathlib.Data.List.Chain
import Mathlib.Data.List.Induction
import PictureUnit.Proofs.Closing
import PictureUnit.Proofs.Frame
import PictureUnit.Proofs.Hushed

/-!
# What status reads tell of the blank

A status read shows the vertical blank flag once, when the blank has begun, and takes it away. A
read within the dot before the blank comes too close: it shows nothing, and the frame goes on
without the flag and without the interrupt. Which of these happens follows from the cycles of the
status reads alone. The turns between them, with their writes that land a dot later and their
transfers, make no difference.
-/

set_option autoImplicit false

namespace PictureUnit

/-- Whether a turn reads the status. -/
def Turn.looks (t : Turn) : Bool :=
  match t.access with
  | .read address => Register.ofAddress address == .status
  | .write _ _ | .transfer _ | .catchUp _ => false

theorem Turn.exists_of_looks {t : Turn} (look : t.looks = true) :
    ∃ cycle memory address, Register.ofAddress address = .status
      ∧ t = ⟨cycle, memory, .read address⟩ := by
  obtain ⟨cycle, memory, access⟩ := t
  cases access with
  | read address => exact ⟨cycle, memory, address, beq_iff_eq.mp look, rfl⟩
  | write address byte => cases look
  | transfer page => cases look
  | catchUp target => cases look

namespace Machine

variable {κ : Type}

/-- The cycle at which the processor can go on after a turn. -/
def goesOn (t : Turn) (m : Machine κ) : Nat :=
  match t.access with
  | .read _ => t.cycle + m.timing.cpuCycle
  | .write address _ =>
    if address = transferAddress then (m.meet t).transferEnd else t.cycle + m.timing.cpuCycle
  | .transfer _ => (m.meet t).transferEnd
  | .catchUp target => max t.cycle target

theorem cycle_le_goesOn (t : Turn) (m : Machine κ) : t.cycle ≤ m.goesOn t := by
  have stalled : t.cycle ≤ (m.meet t).transferEnd := Nat.le_add_right _ _
  unfold goesOn
  split
  · exact Nat.le_add_right _ _
  · split
    · exact stalled
    · exact Nat.le_add_right _ _
  · exact stalled
  · exact Nat.le_max_left _ _

theorem goesOn_timing {m n : Machine κ} (h : n.timing = m.timing) (t : Turn) :
    n.goesOn t = m.goesOn t := by
  have stalled : (n.meet t).transferEnd = (m.meet t).transferEnd := by
    have timed : (n.meet t).timing = (m.meet t).timing := h
    unfold transferEnd alignment
    rw [timed]
    rfl
  unfold goesOn
  rw [stalled, h]

theorem writeRegister_flag [Cartridge κ] (register : Register) (byte : UInt8) (cycle : Nat)
    (m : Machine κ) : (m.writeRegister register byte cycle).circuit.flag = m.circuit.flag := by
  by_cases hr : register = .control
  · subst hr
    change (m.writeControl byte cycle).circuit.flag = _
    unfold writeControl switchInterrupt
    dsimp only
    split
    · rfl
    · split
      · split
        · rfl
        · split <;> rfl
      · split
        · split <;> rfl
        · rfl
  · exact (writeRegister_aside hr byte cycle m).flag

/-- The blank of an open frame after some turns, the latest of which let the processor go on at
cycle `onward`. -/
structure Course (ts : List Turn) (onward : Nat) (m : Machine κ) : Prop where
  onTime : m.OnTime
  inFrame : m.inFrame = true
  early : m.vblank.raised = true → m.clock.count ≤ onward
  past : m.vblank.raised = false → ∀ t ∈ ts, t.looks = true → t.cycle ≤ m.clock.count
  low : m.vblank.raised = false → m.circuit.flag = true →
    ∃ dot ≤ 1, m.clock.position = .raster .preRender dot
  raced : m.vblank.suppressed = true ↔ m.clock.position = .blank ∧ ∃ t ∈ ts, t.looks = true
    ∧ m.clock.vblankAt < t.cycle + m.timing.dot ∧ t.cycle ≤ m.clock.vblankAt
  high : m.vblank.raised = true → (m.circuit.flag = true ↔ m.vblank.suppressed = false
    ∧ ∀ t ∈ ts, t.looks = true → t.cycle ≤ m.clock.vblankAt)

theorem count_le_vblankAt {m : Machine κ} (h : m.OnTime) (hr : m.vblank.raised = false) :
    m.clock.count ≤ m.clock.vblankAt := by
  have raised := h.raised_iff
  rw [hr] at raised
  simpa using raised

/-- What is settled before the blank is reached has been counted. -/
theorem Settled.le_count {target : Nat} {m : Machine κ} (hs : m.Settled target) (h : m.OnTime)
    (hr : m.vblank.raised = false) : target ≤ m.clock.count := by
  rcases hs with counted | onward
  · exact counted
  · have := count_le_vblankAt h hr
    have := Clock.vblankAt_lt_frameEnd m.config.region m.clock h.paced
    omega

namespace Course

variable {ts : List Turn} {onward : Nat} {m n : Machine κ}

theorem mono (h : m.Course ts onward) {later : Nat} (hl : onward ≤ later) : m.Course ts later :=
  { h with early := fun hr => (h.early hr).trans hl }

/-- A blank that was raised lies before the cycle that the course has come to. -/
theorem vblankAt_lt (h : m.Course ts onward) (hr : m.vblank.raised = true) :
    m.clock.vblankAt < onward :=
  lt_of_lt_of_le (h.onTime.raised_iff.mp hr) (h.early hr)

theorem raised_false (h : m.Course ts onward) (soon : onward ≤ m.clock.vblankAt) :
    m.vblank.raised = false := by
  rw [Bool.eq_false_iff, ne_eq]
  exact fun hr => absurd (h.vblankAt_lt hr) (Nat.not_lt.mpr soon)

/-- A turn that does not read the status leaves no trace in the course. -/
theorem append (h : m.Course ts onward) {t : Turn} (ht : t.looks = false) :
    m.Course (ts ++ [t]) onward := by
  have past (bound : Nat) (hb : ∀ u ∈ ts, u.looks = true → u.cycle ≤ bound) :
      ∀ u ∈ ts ++ [t], u.looks = true → u.cycle ≤ bound := by
    intro u hu look
    rcases List.mem_append.mp hu with hu | hu
    · exact hb u hu look
    · rw [List.mem_singleton.mp hu, ht] at look
      cases look
  refine { h with past := fun hr => past _ (h.past hr), raced := ?_, high := fun hr => ?_ }
  · rw [h.raced]
    refine and_congr_right fun _ => ⟨?_, ?_⟩
    · rintro ⟨u, hu, rest⟩
      exact ⟨u, by simp [hu], rest⟩
    · rintro ⟨u, hu, look, rest⟩
      rcases List.mem_append.mp hu with hu | hu
      · exact ⟨u, hu, look, rest⟩
      · rw [List.mem_singleton.mp hu, ht] at look
        cases look
  · rw [h.high hr]
    refine and_congr_right fun _ => ⟨past _, fun all u hu => all u (by simp [hu])⟩

theorem passBlank (h : m.Course ts onward) (hp : m.clock.position = .blank) (target : Nat) :
    (m.passBlank target).Course ts (max onward target) := by
  have clock := passBlank_clock target m
  have raised := passBlank_raised target m
  have flag := passBlank_flag target m
  have position : (m.passBlank target).clock.position = .blank := by rw [passBlank_position, hp]
  have timed : (m.passBlank target).timing = m.timing :=
    congrArg Config.timing (passBlank_config target m)
  have still (hr : (m.passBlank target).vblank.raised = false) : m.vblank.raised = false := by
    rw [raised, Bool.or_eq_false_iff] at hr
    exact hr.1
  have down (hr : m.vblank.raised = false) : m.circuit.flag = false := by
    rw [Bool.eq_false_iff, ne_eq]
    intro up
    obtain ⟨dot, -, there⟩ := h.low hr up
    rw [hp] at there
    cases there
  refine ⟨passBlank_onTime target h.onTime hp, ?_, fun hr => ?_, fun hr t ht look => ?_,
    fun hr up => ?_, ?_, fun hr => ?_⟩
  · simp [h.inFrame]
  · rw [raised, Bool.or_eq_true, decide_eq_true_eq] at hr
    rw [clock]
    simp only [Clock.idleUntil]
    by_cases before : m.vblank.raised = true
    · have := h.early before
      omega
    · have due := hr.resolve_left before
      rw [Bool.not_eq_true] at before
      have := count_le_vblankAt h.onTime before
      omega
  · have := h.past (still hr) t ht look
    rw [clock]
    simp only [Clock.idleUntil]
    omega
  · rw [flag, down (still hr), Bool.false_or, Bool.and_eq_true, Bool.and_eq_true] at up
    rw [raised, Bool.or_eq_false_iff] at hr
    rw [up.2] at hr
    cases hr.2
  · rw [passBlank_suppressed, h.raced, position, hp, clock, timed]
    rfl
  · rw [flag, passBlank_suppressed, clock]
    simp only [Clock.idleUntil]
    cases before : m.vblank.raised with
    | true =>
      rw [Bool.not_true, Bool.and_false, Bool.false_and, Bool.or_false]
      exact h.high before
    | false =>
      -- The blank begins here, and no status was read past its cycle yet.
      rw [raised, before, Bool.false_or] at hr
      rw [down before, hr, Bool.not_false, Bool.and_true, Bool.and_true, Bool.false_or,
        Bool.not_eq_true']
      have counted := count_le_vblankAt h.onTime before
      exact ⟨fun free => ⟨free, fun t ht look => (h.past before t ht look).trans counted⟩,
        fun free => free.1⟩

variable [Cartridge κ]

/-- What keeps the flag and its suppression, between two dots, keeps the course. -/
theorem of_still (h : m.Course ts onward) (still : m.Still n)
    (suppressed : n.vblank.suppressed = m.vblank.suppressed)
    (flag : n.circuit.flag = m.circuit.flag) : n.Course ts onward where
  onTime := still.onTime h.onTime
  inFrame := still.inFrame.trans h.inFrame
  early := by
    rw [still.raised, still.clock]
    exact h.early
  past := by
    rw [still.raised, still.clock]
    exact h.past
  low := by
    rw [still.raised, still.clock, flag]
    exact h.low
  raced := by
    rw [suppressed, still.clock, still.timing]
    exact h.raced
  high := by
    rw [still.raised, still.clock, suppressed, flag]
    exact h.high

theorem of_aside (h : m.Course ts onward) (still : m.Still n) (aside : m.Aside n) :
    n.Course ts onward :=
  h.of_still still (congrArg VblankLatch.suppressed aside.vblank) aside.flag

theorem step (h : m.Course ts onward) {line : Line} {dot : Nat}
    (hp : m.clock.position = .raster line dot) : (m.step line dot).Course ts onward := by
  have onTime := step_onTime h.onTime hp
  have low := raised_false_of_raster h.onTime hp
  have raised : (m.step line dot).vblank.raised = false := (step_raised line dot m).trans low
  have past (t : Turn) (ht : t ∈ ts) (look : t.looks = true) :
      t.cycle + m.timing.dot ≤ (m.step line dot).clock.count := by
    rw [step_count]
    exact Nat.add_le_add_right (h.past low t ht look) _
  have up (hr : (m.step line dot).vblank.raised = true) : False := by
    rw [raised] at hr
    cases hr
  refine ⟨onTime, ?_, fun hr => (up hr).elim, fun _ t ht look => ?_, fun _ flag => ?_, ?_,
    fun hr => (up hr).elim⟩
  · simp [h.inFrame]
  · exact (Nat.le_add_right _ _).trans (past t ht look)
  · -- Dot 1 of the pre-render line clears the flag, so only the dot before it leaves it up.
    rw [step_flag] at flag
    split at flag
    · cases flag
    · next other =>
      obtain ⟨first, hd, there⟩ := h.low low flag
      rw [hp, Position.raster.injEq] at there
      obtain ⟨rfl, rfl⟩ := there
      have origin : dot = 0 := by
        by_contra
        exact other ⟨rfl, by omega⟩
      subst origin
      refine ⟨1, le_refl _, ?_⟩
      rw [step_position h.onTime.paced hp, Position.next, if_pos]
      cases m.shortAfter .preRender 0 <;> decide
  · rw [step_suppressed, h.raced, hp, step_timing]
    refine ⟨fun there => (by cases there.1), ?_⟩
    rintro ⟨-, t, ht, look, close, -⟩
    have := past t ht look
    have := count_le_vblankAt onTime raised
    omega

theorem advanceTo (h : m.Course ts onward) (target : Nat) :
    (m.advanceTo target).Course ts (max onward target) := by
  fun_induction Machine.advanceTo target m with
  | case1 m _ hp => exact h.passBlank hp target
  | case2 m _ line dot hp ih => exact ih (h.step hp)
  | case3 => exact h.mono (Nat.le_max_left _ _)

/-- A read that comes too close suppresses the blank, any other one only takes the flag away. -/
theorem readStatus {t : Turn} (look : t.looks = true) (h : m.Course ts t.cycle)
    (hs : m.Settled t.cycle) : (m.readStatus t.cycle).2.Course (ts ++ [t]) t.cycle := by
  have still := readStatus_still t.cycle m
  have onTime := still.onTime h.onTime
  have suppressed := readStatus_suppressed t.cycle m
  have down : (m.readStatus t.cycle).2.circuit.flag = false := rfl
  refine ⟨onTime, still.inFrame.trans h.inFrame, ?_, ?_, fun _ up => ?_, ?_, ?_⟩
  · rw [still.raised, still.clock]
    exact h.early
  · rw [still.raised, still.clock]
    intro hr u hu looked
    rcases List.mem_append.mp hu with hu | hu
    · exact h.past hr u hu looked
    · rw [List.mem_singleton.mp hu]
      exact hs.le_count h.onTime hr
  · rw [down] at up
    cases up
  · rw [suppressed, Bool.or_eq_true, h.raced, still.clock, still.timing]
    constructor
    · rintro (⟨hb, u, hu, rest⟩ | close)
      · exact ⟨hb, u, by simp [hu], rest⟩
      · simp only [racesVblank, Bool.and_eq_true, Bool.not_eq_true', decide_eq_true_eq] at close
        have counted := hs.le_count h.onTime close.1.2
        -- A read that races has been counted up to less than a dot before the blank: no raster is left.
        refine ⟨?_, t, by simp, look, close.2, counted.trans (count_le_vblankAt h.onTime close.1.2)⟩
        cases hp : m.clock.position with
        | blank => rfl
        | raster line dot =>
          have onward := h.onTime.paced.count_add_dot_le hp
          have room := Clock.rasterEnd_lt_vblankAt m.config.region m.clock h.onTime.paced
          simp only [timing, Config.timing] at *
          omega
    · rintro ⟨hb, u, hu, looked, close, before⟩
      rcases List.mem_append.mp hu with hu | hu
      · exact .inl ⟨hb, u, hu, looked, close, before⟩
      · rw [List.mem_singleton.mp hu] at close before
        right
        simp only [racesVblank, Bool.and_eq_true, Bool.not_eq_true', decide_eq_true_eq]
        exact ⟨⟨h.inFrame, h.raised_false before⟩, close⟩
  · rw [still.raised, still.clock]
    intro hr
    rw [down]
    refine ⟨fun up => (by cases up), ?_⟩
    rintro ⟨-, all⟩
    exact absurd (h.vblankAt_lt hr) (Nat.not_lt.mpr (all t (by simp) look))

theorem setLines (h : m.Course ts onward) (byte : UInt8) : (m.setLines byte).Course ts onward :=
  h.of_aside (setLines_still byte m) (setLines_aside byte m)

theorem writeRegister (h : m.Course ts onward) (register : Register) (byte : UInt8) (cycle : Nat) :
    (m.writeRegister register byte cycle).Course ts onward :=
  h.of_still (writeRegister_still register byte cycle m)
    (writeRegister_suppressed register byte cycle m) (writeRegister_flag register byte cycle m)

theorem writeInto (h : m.Course ts onward) (register : Register) (byte : UInt8) :
    (m.writeInto register byte).Course ts (max onward (m.landing register)) := by
  have latched := (h.advanceTo (m.landing register)).setLines byte
  rw [writeInto_eq, put]
  split
  · exact latched
  · exact latched.writeRegister _ _ _

/-- Each byte of a transfer is done by the time the processor has come to. -/
theorem moveByte (h : m.Course ts m.host.cycle) (address : Nat) :
    (m.moveByte address).Course ts (m.moveByte address).host.cycle := by
  let taken := ((m.stall 1).takeByte address).2.stall 1
  have still : m.Still taken := ((stall_still 1 m).trans (takeByte_still address _)).trans
    (stall_still 1 _)
  have aside : m.Aside taken := ((stall_aside 1 m).trans (takeByte_aside address _)).trans
    (stall_aside 1 _)
  have reached : m.host.cycle ≤ taken.host.cycle := by
    simp only [taken, stall, withHost, Host.stall, takeByte, Host.transfer]
    omega
  have landed := ((h.of_aside still aside).advanceTo taken.host.cycle).of_aside
    (landByte_still (m.host.memory address) _) (landByte_aside (m.host.memory address) _)
  have cycle : (m.moveByte address).host.cycle = taken.host.cycle := by
    change ((taken.advanceTo taken.host.cycle).landByte (m.host.memory address)).host.cycle = _
    rw [landByte_host, advanceTo_cycle]
  rw [cycle, ← Nat.max_eq_right reached]
  exact landed

theorem transferPage (h : m.Course ts m.host.cycle) (page : UInt8) :
    (m.transferPage page).Course ts m.transferEnd := by
  have waited : m.align.Course ts m.align.host.cycle := by
    let waiting := m.stall m.alignment
    have reached : m.host.cycle ≤ waiting.host.cycle := Nat.le_add_right _ _
    have cycle : m.align.host.cycle = waiting.host.cycle := advanceTo_cycle _ waiting
    rw [cycle, ← Nat.max_eq_right reached]
    exact (h.of_aside (stall_still _ m) (stall_aside _ m)).advanceTo waiting.host.cycle
  have copied (n : Machine κ) (hn : n.Course ts n.host.cycle) :
      (n.copyPage page).Course ts (n.copyPage page).host.cycle := by
    refine (hn.of_aside (copyPage_still page n) (copyPage_aside page n)).mono ?_
    have same := (foldl_copyByte (pageAddresses page) n).1
    exact same.symm.le.trans (Nat.le_add_right _ _)
  rw [← transferPage_cycle page m]
  exact transferPage_keeps (P := fun n => n.Course ts n.host.cycle) waited copied
    fun _ address hn => hn.moveByte address

/-- A turn that comes when the processor can go on continues the course. -/
theorem turn (h : m.Course ts onward) {t : Turn} (ht : onward ≤ t.cycle) :
    (m.turn t).2.Course (ts ++ [t]) (m.goesOn t) := by
  have met : (m.meet t).Course ts t.cycle :=
    (h.of_aside (meet_still t m) (meet_aside t m)).mono ht
  have done := m.cycle_le_goesOn t
  obtain ⟨cycle, memory, access⟩ := t
  cases access with
  | read address =>
    have caught := met.advanceTo cycle
    rw [Nat.max_self] at caught
    by_cases look : Register.ofAddress address = .status
    · have settled := advanceTo_settled cycle (m.meet ⟨cycle, memory, .read address⟩)
      have read := caught.readStatus (t := ⟨cycle, memory, .read address⟩) (beq_iff_eq.mpr look)
        settled
      refine Course.mono ?_ done
      change ((((m.meet ⟨cycle, memory, .read address⟩).advanceTo cycle).readRegister
        (.ofAddress address) cycle).2.setLines _).Course _ cycle
      rw [look]
      exact read.setLines _
    · have read := (caught.of_aside (readRegister_still (.ofAddress address) cycle _)
        (readRegister_aside look cycle _)).setLines
        (((m.meet ⟨cycle, memory, .read address⟩).advanceTo cycle).readRegister
          (.ofAddress address) cycle).1
      have blind : (⟨cycle, memory, .read address⟩ : Turn).looks = false := beq_false_of_ne look
      exact (read.append blind).mono done
  | write address byte =>
    refine Course.append ?_ rfl
    change ((m.meet ⟨cycle, memory, .write address byte⟩).write address byte).Course ts _
    unfold write goesOn
    dsimp only
    split
    · exact met.transferPage byte
    · refine (met.writeInto (.ofAddress address) byte).mono ?_
      have delay : (Register.ofAddress address).writeDelay ≤ 1 := by
        unfold Register.writeDelay
        split <;> decide
      have short := Nat.mul_le_mul_right m.timing.dot delay
      have dot : m.timing.dot ≤ m.timing.cpuCycle := m.config.region.dot_le_cpuCycle
      refine Nat.max_le.mpr ⟨Nat.le_add_right _ _, Nat.add_le_add_left ?_ _⟩
      exact short.trans ((Nat.one_mul _).le.trans dot)
  | transfer page => exact (met.transferPage page).append rfl
  | catchUp target => exact (met.advanceTo target).append rfl

end Course

theorem openFrame_course (m : Machine κ) : m.openFrame.Course [] 0 := by
  have low := openFrame_raised m
  have start : m.openFrame.clock.position = .raster .preRender 0 := openFrame_position m
  have fresh : m.openFrame.vblank.suppressed = false := openFrame_suppressed m
  refine ⟨openFrame_onTime m, openFrame_inFrame m, fun hr => ?_, fun _ t ht => (by cases ht),
    fun _ _ => ⟨0, Nat.zero_le _, start⟩, ?_, fun hr => ?_⟩
  · rw [low] at hr
    cases hr
  · rw [fresh, start]
    exact ⟨fun h => (by cases h), fun h => (by cases h.1)⟩
  · rw [low] at hr
    cases hr

/-- The cycle at which the processor can go on after some turns. -/
def goesOnAfter (ts : List Turn) (m : Machine κ) : Nat := (ts.getLast?.map (m.goesOn ·)).getD 0

theorem goesOnAfter_le {ts us : List Turn} {t : Turn} {m : Machine κ}
    (spaced : (ts ++ t :: us).IsChain fun t u => m.goesOn t ≤ u.cycle) :
    m.goesOnAfter ts ≤ t.cycle := by
  unfold goesOnAfter
  cases hl : ts.getLast? with
  | none => exact Nat.zero_le _
  | some last => exact (List.isChain_append.mp spaced).2.2 last hl t rfl

variable [Cartridge κ]

theorem turn_timing (t : Turn) (m : Machine κ) : (m.turn t).2.timing = m.timing := by
  obtain ⟨ds, l, drawn⟩ := turn_draws t m
  exact congrArg (fun l => l.config.timing) drawn.passes.ledger

theorem afterTurns_timing (ts : List Turn) (m : Machine κ) :
    (m.afterTurns ts).timing = m.timing := by
  obtain ⟨ds, l, drawn⟩ := afterTurns_draws ts m
  exact congrArg (fun l => l.config.timing) drawn.passes.ledger

theorem afterTurns_append (ts us : List Turn) (m : Machine κ) :
    m.afterTurns (ts ++ us) = (m.afterTurns ts).afterTurns us := List.foldl_append

/-- The turns of a frame make up its course. -/
theorem Course.afterTurns {m : Machine κ} (h : m.Course [] 0) {ts : List Turn}
    (spaced : ts.IsChain fun t u => m.goesOn t ≤ u.cycle) :
    (m.afterTurns ts).Course ts (m.goesOnAfter ts) := by
  induction ts using List.reverseRecOn with
  | nil => exact h
  | append_singleton ts t ih =>
    have before := ih (List.isChain_append.mp spaced).1
    have turned := before.turn (goesOnAfter_le spaced)
    rw [goesOn_timing (afterTurns_timing ts m)] at turned
    rw [afterTurns_append, goesOnAfter, List.getLast?_concat]
    exact turned

/-- In the blank the cycle of the blank stays. -/
theorem Passes.of_blank {ds : List (Line × Nat)} {l : List Ink} {m n : Machine κ}
    (h : Passes ds l m n) (hm : m.OnTime) (hb : m.clock.position = .blank) :
    n.clock.position = .blank ∧ n.clock.vblankAt = m.clock.vblankAt := by
  induction h with
  | refl => exact ⟨hb, rfl⟩
  | still hs _ ih =>
    rw [← hs.clock]
    exact ih (hs.onTime hm) (hs.clock ▸ hb)
  | blank target _ _ ih =>
    obtain ⟨position, vblankAt⟩ := ih (passBlank_onTime target hm hb) (by rwa [passBlank_position])
    refine ⟨position, vblankAt.trans ?_⟩
    rw [passBlank_clock]
    rfl
  | dot hd _ _ =>
    rw [hd] at hb
    cases hb

/-- The top bit of what a turn returns, if it returns something. -/
def topBit (t : Turn) (m : Machine κ) : Option Bool :=
  (m.turn t).1.map fun byte => byte.toNat.testBit 7

theorem testBit_readOver (s : Status) (lines : UInt8) :
    (s.readOver lines).toNat.testBit 7 = s.vblank := by
  have low : (lines &&& 0x1F).toNat.testBit 7 = false := by
    rw [UInt8.toNat_and, Nat.testBit_and]
    exact Bool.and_false _
  have high : s.bits.toNat.testBit 7 = s.vblank := by
    obtain ⟨_ | _, _ | _, _ | _⟩ := s <;> decide
  rw [Status.readOver, UInt8.toNat_or, Nat.testBit_or, low, high, Bool.or_false]

/-- A status read returns the flag as the catch-up leaves it. -/
theorem topBit_of_looks {t : Turn} (look : t.looks = true) (m : Machine κ) :
    m.topBit t = some (m.advanceTo t.cycle).circuit.flag := by
  obtain ⟨cycle, memory, address, status, rfl⟩ := Turn.exists_of_looks look
  have kept (m : Machine κ) :
      (if m.racesVblank cycle then m.suppressVblank else m).circuit = m.circuit := by
    unfold suppressVblank
    split
    · dsimp only
      split <;> rfl
    · rfl
  have met := advanceTo_meet ⟨cycle, memory, .read address⟩ cycle m
  change some ((((m.meet ⟨cycle, memory, .read address⟩).advanceTo cycle).readRegister
    (.ofAddress address) cycle).1.toNat.testBit 7) = _
  rw [status, met]
  simp only [readRegister, readStatus, kept, testBit_readOver]
  rfl

namespace Course

variable {ts : List Turn} {onward : Nat} {m : Machine κ}

/-- The course that a turn finds when it has caught up. -/
theorem caught (h : m.Course [] 0) {before after : List Turn} {t : Turn}
    (spaced : (before ++ t :: after).IsChain fun t u => m.goesOn t ≤ u.cycle) :
    ((m.afterTurns before).advanceTo t.cycle).Course before t.cycle := by
  have reached := (h.afterTurns (List.isChain_append.mp spaced).1).advanceTo t.cycle
  rwa [Nat.max_eq_right (goesOnAfter_le spaced)] at reached

omit [Cartridge κ] in
theorem flag_of_low (h : m.Course ts onward) (hr : m.vblank.raised = false)
    (hp : ∀ dot ≤ 1, m.clock.position ≠ .raster .preRender dot) : m.circuit.flag = false := by
  rw [Bool.eq_false_iff, ne_eq]
  intro up
  obtain ⟨dot, hd, there⟩ := h.low hr up
  exact hp dot hd there

/-- A frame closes in the blank, past the cycle that raises it. -/
theorem endFrame (h : m.Course ts onward) : ∃ n : Machine κ, n.Course ts (max onward m.clock.frameEnd)
    ∧ m.endFrame = .ok n.closeFrame ∧ n = m.advanceTo m.clock.frameEnd
    ∧ n.clock.position = .blank ∧ n.vblank.raised = true := by
  have reached := h.advanceTo m.clock.frameEnd
  obtain ⟨blank, -, -⟩ := advanceTo_frameEnd h.onTime
  have opened := h.inFrame
  exact ⟨_, reached, by simp only [Machine.endFrame, opened, if_true], rfl, blank,
    advanceTo_frameEnd_raised h.onTime⟩

end Course

/-- A status read leaves the clock where the catch-up to it has brought it. -/
theorem turn_clock_of_looks {t : Turn} (look : t.looks = true) (m : Machine κ) :
    (m.turn t).2.clock = (m.advanceTo t.cycle).clock := by
  obtain ⟨cycle, memory, address, -, rfl⟩ := Turn.exists_of_looks look
  have met := advanceTo_meet ⟨cycle, memory, .read address⟩ cycle m
  have read := (readRegister_still (.ofAddress address) cycle
    ((m.meet ⟨cycle, memory, .read address⟩).advanceTo cycle)).clock
  change ((((m.meet ⟨cycle, memory, .read address⟩).advanceTo cycle).readRegister
    (.ofAddress address) cycle).2).clock = _
  rw [read, met]
  rfl

/-- While the raster is drawn, the blank is more than a dot away, however the frame goes on. -/
theorem Passes.far {ds : List (Line × Nat)} {l : List Ink} {m n : Machine κ} (h : Passes ds l m n)
    (hm : m.OnTime) {line : Line} {dot : Nat} (hp : m.clock.position = .raster line dot) :
    m.clock.count + m.timing.dot < n.clock.vblankAt := by
  have onward := hm.paced.count_add_dot_le hp
  have start := h.frameStart hm
  have timing : n.timing = m.timing := congrArg (fun l => l.config.timing) h.ledger
  have room : rasterDots + 1 < m.timing.vblankDots := m.config.region.rasterDots_lt
  have short : n.clock.short.toNat ≤ 1 := by cases n.clock.short <;> decide
  have near : rasterDots - m.clock.short.toNat < m.timing.vblankDots - n.clock.short.toNat := by
    omega
  have dots := Nat.mul_lt_mul_of_pos_right near (show 0 < m.timing.dot from m.config.region.dot_pos)
  rw [(h.onTime hm).paced.vblankAt_eq, start, timing]
  omega

/-- A status read that comes too close withdraws the interrupt of the blank. -/
theorem turn_standing_of_races {t : Turn} {m : Machine κ} (look : t.looks = true)
    (hr : (m.advanceTo t.cycle).racesVblank t.cycle = true)
    (noted : (m.advanceTo t.cycle).vblank.interruptAt = some (m.advanceTo t.cycle).clock.vblankAt) :
    Host.standing (m.turn t).2.host.events = none := by
  obtain ⟨cycle, memory, address, status, rfl⟩ := Turn.exists_of_looks look
  have met := advanceTo_meet ⟨cycle, memory, .read address⟩ cycle m
  have close : ((m.advanceTo cycle).meet ⟨cycle, memory, .read address⟩).racesVblank cycle = true :=
    hr
  have own : ((m.advanceTo cycle).meet ⟨cycle, memory, .read address⟩).vblank.interruptAt
      = some ((m.advanceTo cycle).meet ⟨cycle, memory, .read address⟩).clock.vblankAt := noted
  change Host.standing (((m.meet ⟨cycle, memory, .read address⟩).advanceTo cycle).readRegister
    (.ofAddress address) cycle).2.host.events = none
  rw [status, met]
  simp only [readRegister, readStatus, if_pos close, suppressVblank, if_pos own]
  rfl

theorem Kept.afterTurns {m : Machine κ} (h : m.Kept) (ts : List Turn) : (m.afterTurns ts).Kept := by
  induction ts generalizing m with
  | nil => exact h
  | cons t rest ih => exact ih (h.turn t)

namespace Course

variable {o n : Machine κ} {before after : List Turn} {t : Turn}

/-- A status read of the frame finds the machine in the blank, with the final cycle of the blank, or
the blank is more than a dot away. -/
theorem looked (h : o.Course [] 0)
    (spaced : (before ++ t :: after).IsChain fun t u => o.goesOn t ≤ u.cycle)
    (look : t.looks = true) {target : Nat}
    (reached : n = (o.afterTurns (before ++ t :: after)).advanceTo target) :
    (((o.afterTurns before).advanceTo t.cycle).clock.position = .blank
        ∧ ((o.afterTurns before).advanceTo t.cycle).clock.vblankAt = n.clock.vblankAt)
      ∨ (((o.afterTurns before).advanceTo t.cycle).vblank.raised = false
        ∧ t.cycle + o.timing.dot < n.clock.vblankAt) := by
  have caught := h.caught spaced
  have settled := advanceTo_settled t.cycle (o.afterTurns before)
  have clock := turn_clock_of_looks look (o.afterTurns before)
  have turned : ((o.afterTurns before).turn t).2.OnTime :=
    ((h.afterTurns (List.isChain_append.mp spaced).1).turn (goesOnAfter_le spaced)).onTime
  have timing : ((o.afterTurns before).turn t).2.timing = o.timing :=
    (turn_timing t _).trans (afterTurns_timing before o)
  obtain ⟨ds, l, rest⟩ := afterTurns_draws after ((o.afterTurns before).turn t).2
  obtain ⟨es, k, last⟩ :=
    advanceTo_passes target (((o.afterTurns before).turn t).2.afterTurns after)
  have passes := rest.passes.trans last
  rw [afterTurns_append, afterTurns_cons] at reached
  rw [← reached] at passes
  cases hp : ((o.afterTurns before).advanceTo t.cycle).clock.position with
  | blank =>
    have kept := passes.of_blank turned (clock ▸ hp)
    rw [clock] at kept
    exact .inl ⟨rfl, kept.2.symm⟩
  | raster line dot =>
    have low := raised_false_of_raster caught.onTime hp
    have counted := settled.le_count caught.onTime low
    have far := passes.far turned (clock ▸ hp)
    rw [clock, timing] at far
    exact .inr ⟨low, by omega⟩

theorem found (h : o.Course [] 0)
    (spaced : (before ++ t :: after).IsChain fun t u => o.goesOn t ≤ u.cycle)
    (look : t.looks = true) {target : Nat}
    (reached : n = (o.afterTurns (before ++ t :: after)).advanceTo target)
    (near : n.clock.vblankAt ≤ t.cycle + o.timing.dot) :
    ((o.afterTurns before).advanceTo t.cycle).clock.position = .blank
      ∧ ((o.afterTurns before).advanceTo t.cycle).clock.vblankAt = n.clock.vblankAt :=
  (h.looked spaced look reached).resolve_right fun far => absurd far.2 (Nat.not_lt.mpr near)

/-- Before the blank comes close, a status read shows no flag but that of the frame before. -/
theorem topBit_before (h : o.Course [] 0)
    (spaced : (before ++ t :: after).IsChain fun t u => o.goesOn t ≤ u.cycle)
    (look : t.looks = true) {target : Nat}
    (reached : n = (o.afterTurns (before ++ t :: after)).advanceTo target)
    (hp : ∀ dot ≤ 1,
      ((o.afterTurns before).advanceTo t.cycle).clock.position ≠ .raster .preRender dot)
    (far : t.cycle + o.timing.dot ≤ n.clock.vblankAt) :
    (o.afterTurns before).topBit t = some false := by
  have caught := h.caught spaced
  rw [topBit_of_looks look, Option.some.injEq]
  apply caught.flag_of_low _ hp
  rcases h.looked spaced look reached with ⟨-, final⟩ | ⟨low, -⟩
  · exact caught.raised_false (by omega)
  · exact low

/-- A status read that comes too close finds no flag and leaves nothing of the blank. -/
theorem hushed (h : o.Course [] 0) (kept : o.Kept)
    (spaced : (before ++ t :: after).IsChain fun t u => o.goesOn t ≤ u.cycle)
    (look : t.looks = true) {target : Nat}
    (reached : n = (o.afterTurns (before ++ t :: after)).advanceTo target)
    (close : n.clock.vblankAt < t.cycle + o.timing.dot) (soon : t.cycle ≤ n.clock.vblankAt) :
    (o.afterTurns before).topBit t = some false ∧ ((o.afterTurns before).turn t).2.Hushed
      ∧ (((o.afterTurns before).advanceTo t.cycle).vblank.interruptAt = some n.clock.vblankAt →
        Host.standing ((o.afterTurns before).turn t).2.host.events = none) := by
  have caught := h.caught spaced
  have turned := (h.afterTurns (List.isChain_append.mp spaced).1).turn (goesOnAfter_le spaced)
  have clock := turn_clock_of_looks look (o.afterTurns before)
  have timing : ((o.afterTurns before).advanceTo t.cycle).timing = o.timing :=
    (advanceTo_timing _ _).trans (afterTurns_timing before o)
  obtain ⟨blank, final⟩ := h.found spaced look reached close.le
  have low := caught.raised_false (final ▸ soon)
  have suppressed : ((o.afterTurns before).turn t).2.vblank.suppressed = true := by
    rw [turned.raced, clock, turn_timing, afterTurns_timing, final]
    exact ⟨blank, t, by simp, look, close, soon⟩
  obtain ⟨flag, none⟩ := (((kept.afterTurns before).turn t).minded turned.inFrame).2.quiet suppressed
  refine ⟨?_, ⟨suppressed, flag, none⟩, fun noted =>
    turn_standing_of_races look ?_ (final ▸ noted)⟩
  · rw [topBit_of_looks look, Option.some.injEq]
    apply caught.flag_of_low low
    intro dot _ there
    rw [blank] at there
    cases there
  · rw [racesVblank, caught.inFrame, low, final, timing]
    exact decide_eq_true close

/-- Past a blank that no status read has suppressed, the first status read finds the flag. -/
theorem topBit_after (h : o.Course [] 0)
    (spaced : (before ++ t :: after).IsChain fun t u => o.goesOn t ≤ u.cycle)
    (look : t.looks = true) {target : Nat}
    (reached : n = (o.afterTurns (before ++ t :: after)).advanceTo target)
    (late : n.clock.vblankAt < t.cycle)
    (free : ∀ u ∈ before, u.looks = true → n.clock.vblankAt < u.cycle + o.timing.dot →
      n.clock.vblankAt < u.cycle) :
    (o.afterTurns before).topBit t
      = some (decide (∀ u ∈ before, u.looks = true → u.cycle ≤ n.clock.vblankAt)) := by
  have caught := h.caught spaced
  have settled := advanceTo_settled t.cycle (o.afterTurns before)
  have timing : ((o.afterTurns before).advanceTo t.cycle).timing = o.timing :=
    (advanceTo_timing _ _).trans (afterTurns_timing before o)
  obtain ⟨blank, final⟩ := h.found spaced look reached (late.le.trans (Nat.le_add_right _ _))
  have raised : ((o.afterTurns before).advanceTo t.cycle).vblank.raised = true := by
    by_contra low
    rw [Bool.not_eq_true] at low
    have := settled.le_count caught.onTime low
    have := count_le_vblankAt caught.onTime low
    omega
  have fresh : ((o.afterTurns before).advanceTo t.cycle).vblank.suppressed = false := by
    rw [Bool.eq_false_iff, ne_eq, caught.raced, timing, final]
    rintro ⟨-, u, hu, looked, close, soon⟩
    exact absurd (free u hu looked close) (Nat.not_lt.mpr soon)
  have seen := caught.high raised
  rw [final] at seen
  rw [topBit_of_looks look, Option.some.injEq, Bool.eq_iff_iff, seen, decide_eq_true_eq]
  exact and_iff_right fresh

end Course

/-- What a status read returns of the flag, and what is left of it for the end of the frame, follows
from the cycles of the status reads and the cycle of the blank. -/
theorem blank_seen {m o : Machine κ} (ho : m.beginFrame = .ok o) {ts : List Turn}
    (spaced : ts.IsChain fun t u => o.goesOn t ≤ u.cycle) :
    ∃ n, (o.afterTurns ts).endFrame = .ok n
      ∧ (∀ before t after, ts = before ++ t :: after → t.looks = true →
        (∀ dot ≤ 1,
          ((o.afterTurns before).advanceTo t.cycle).clock.position ≠ .raster .preRender dot) →
        t.cycle + o.timing.dot ≤ n.clock.vblankAt → (o.afterTurns before).topBit t = some false)
      ∧ (∀ before t after, ts = before ++ t :: after → t.looks = true →
        n.clock.vblankAt < t.cycle + o.timing.dot → t.cycle ≤ n.clock.vblankAt →
          (o.afterTurns before).topBit t = some false
          ∧ (∀ between u rest, after = between ++ u :: rest → u.looks = true →
            (o.afterTurns (before ++ t :: between)).topBit u = some false)
          ∧ n.circuit.flag = false ∧ n.vblank.interruptAt = none
          ∧ (((o.afterTurns before).advanceTo t.cycle).vblank.interruptAt = some n.clock.vblankAt →
            Host.standing n.host.events = none))
      ∧ ((∀ t ∈ ts, t.looks = true → n.clock.vblankAt < t.cycle + o.timing.dot →
          n.clock.vblankAt < t.cycle) →
        (∀ before t after, ts = before ++ t :: after → t.looks = true →
          n.clock.vblankAt < t.cycle → (o.afterTurns before).topBit t
            = some (decide (∀ u ∈ before, u.looks = true → u.cycle ≤ n.clock.vblankAt)))
        ∧ ((∀ t ∈ ts, t.looks = true → t.cycle ≤ n.clock.vblankAt) → n.circuit.flag = true)) := by
  obtain rfl := eq_of_beginFrame ho
  have opened := openFrame_course m
  have kept := openFrame_kept m
  obtain ⟨n, closed, ending, reached, blank, raised⟩ := (opened.afterTurns spaced).endFrame
  refine ⟨n.closeFrame, ending, ?_, ?_, fun free => ⟨?_, fun early => ?_⟩⟩
  · rintro before t after rfl look hp far
    exact opened.topBit_before spaced look reached hp far
  · rintro before t after rfl look close soon
    obtain ⟨clear, hushed, withdrawn⟩ := opened.hushed kept spaced look reached close soon
    rw [afterTurns_append, afterTurns_cons] at reached
    obtain ⟨last, same⟩ := ((afterTurns_hushes after _).trans (advanceTo_hushes _ _)) hushed
    rw [← reached] at last same
    refine ⟨clear, ?_, last.flag, last.interruptAt, fun noted => same.trans (withdrawn noted)⟩
    rintro between u rest rfl looked
    obtain ⟨still, -⟩ := ((afterTurns_hushes between _).trans (advanceTo_hushes u.cycle _)) hushed
    rw [topBit_of_looks looked, afterTurns_append, afterTurns_cons, still.flag]
  · rintro before t after rfl look late
    exact opened.topBit_after (n := n) spaced look reached late fun u hu => free u (by simp [hu])
  · have fresh : n.vblank.suppressed = false := by
      rw [Bool.eq_false_iff, ne_eq, closed.raced]
      rintro ⟨-, u, hu, looked, close, soon⟩
      rw [reached, advanceTo_timing, afterTurns_timing, ← reached] at close
      exact absurd (free u hu looked close) (Nat.not_lt.mpr soon)
    exact (closed.high raised).mpr ⟨fresh, early⟩

theorem vblankAt_le_of_endFrame {m n : Machine κ} (h : m.OnTime) (he : m.endFrame = .ok n) :
    n.clock.vblankAt ≤ m.clock.frameStart + m.timing.vblankDots * m.timing.dot := by
  obtain ⟨-, rfl⟩ := eq_of_endFrame he
  have paced := (advanceTo_onTime m.clock.frameEnd h).paced
  have start := advanceTo_frameStart m.clock.frameEnd h
  have blank := paced.vblankAt_eq
  rw [start, advanceTo_timing] at blank
  exact blank.le.trans (Nat.add_le_add_left (Nat.mul_le_mul_right _ (Nat.sub_le _ _)) _)

/-- A look at the status. -/
def look (cycle : Nat) : Turn := ⟨cycle, fun _ => 0, .read 0x2002⟩

/-- Of two looks past the blank the first one finds the flag. -/
theorem blank_seen_twoLooks :
    Journal.firstFrame.topBit (look 400000) = some true
      ∧ (Journal.firstFrame.afterTurns [look 400000]).topBit (look 400012) = some false := by
  have begun : (Machine.new ⟨.ntsc, .hardware⟩ .new (⟨(), []⟩ : Recorded Unit)
      (.new fun _ => 0)).beginFrame = .ok Journal.firstFrame := rfl
  have spaced : [look 400000, look 400012].IsChain fun t u =>
      Journal.firstFrame.goesOn t ≤ u.cycle := .cons_cons (by decide) (.singleton _)
  obtain ⟨n, closed, -, -, shown⟩ := blank_seen begun spaced
  have late : n.clock.vblankAt ≤ 330092 := by
    have opened := openFrame_course (Machine.new ⟨.ntsc, .hardware⟩ .new (⟨(), []⟩ : Recorded Unit)
      (.new fun _ => 0))
    obtain ⟨ds, l, drawn⟩ := afterTurns_draws [look 400000, look 400012] Journal.firstFrame
    have bound := vblankAt_le_of_endFrame (drawn.passes.onTime opened.onTime) closed
    rw [drawn.passes.frameStart opened.onTime, afterTurns_timing] at bound
    exact bound
  have free : ∀ t ∈ [look 400000, look 400012], t.looks = true →
      n.clock.vblankAt < t.cycle + Journal.firstFrame.timing.dot → n.clock.vblankAt < t.cycle := by
    simp only [List.forall_mem_cons, look]
    refine ⟨fun _ _ => by omega, fun _ _ => by omega, fun _ h => (by cases h)⟩
  obtain ⟨shown, -⟩ := shown free
  have first := shown [] (look 400000) [look 400012] rfl rfl (by simp only [look]; omega)
  have second := shown [look 400000] (look 400012) [] rfl rfl (by simp only [look]; omega)
  have onward : ¬ ∀ u ∈ [look 400000], u.looks = true → u.cycle ≤ n.clock.vblankAt := by
    intro early
    have := early (look 400000) (List.mem_singleton_self _) rfl
    simp only [look] at this
    omega
  rw [decide_eq_false onward] at second
  exact ⟨first.trans (by simp), second⟩

end Machine

end PictureUnit
