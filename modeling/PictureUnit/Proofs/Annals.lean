import PictureUnit.Proofs.Frame
import PictureUnit.Proofs.Resumed
import PictureUnit.Proofs.Trail

/-!
# The lengths of frames

The annals of a machine that is neither reset nor loaded list the frames it has completed, each with
the moments of its dots, and the moments of the frame that is open. When a frame is opened its length
is only predicted, and the processor may switch rendering as often as it likes. What counts is the
one moment in which the settling dot is executed: from then on the end and the blank of the frame
stay where they are, and the parity and the burst are counted by the length settled there.
-/

set_option autoImplicit false

namespace PictureUnit

/-- Whether the frame of this number is short, if it is rendered or not at its settling dot. -/
def Timing.skips (t : Timing) (number : Nat) (rendered : Bool) : Bool :=
  t.skipsOddDot && number % 2 == 1 && rendered

/-- The length of the frame is decided as this dot is executed. -/
def Moment.Settles {κ : Type} (x : Moment κ) : Prop := x.place = (.preRender, Machine.settlingDot)

/-- A completed frame: its dots, the latest first, and the machine that has closed it. -/
structure Lap (κ : Type) where
  past : List (Moment κ)
  closed : Machine κ

/-- Dots of the frame, those of the blank included. -/
def Lap.dots {κ : Type} (lap : Lap κ) : Nat := lap.closed.clock.frameDots lap.closed.timing

namespace Machine

variable {κ : Type}

variable [Cartridge κ]

/-- The frames that a machine has completed since it was switched on, the latest first, and the dots
of the frame that is open, the latest first. -/
inductive Annals : List (Lap κ) → List (Moment κ) → Machine κ → Prop where
  | new (config : Config) (banks : Banks) (cartridge : κ) (host : Host) :
      Annals [] [] (.new config banks cartridge host)
  | turn {laps : List (Lap κ)} {past : List (Moment κ)} {m : Machine κ} (h : Annals laps past m)
      (t : Turn) :
      Annals laps (((m.meet t).trailOfAccess t.access).reverse ++ past) (m.turn t).2
  | opened {laps : List (Lap κ)} {past : List (Moment κ)} {m n : Machine κ} (h : Annals laps past m)
      (ho : m.beginFrame = .ok n) : Annals laps [] n
  | closed {laps : List (Lap κ)} {past : List (Moment κ)} {m n : Machine κ} (h : Annals laps past m)
      (hc : m.endFrame = .ok n) :
      Annals (⟨(m.trailTo m.clock.frameEnd).reverse ++ past, n⟩ :: laps) [] n
  | swapped {laps : List (Lap κ)} {past : List (Moment κ)} {m n : Machine κ} {given taken : Screen}
      (h : Annals laps past m) (hs : m.swapScreen given = .ok (taken, n)) : Annals laps past n
  | mapped {laps : List (Lap κ)} {past : List (Moment κ)} {m : Machine κ} (h : Annals laps past m)
      (map : Option ColorMap) : Annals laps past (m.setColorMap map)
  | banked {laps : List (Lap κ)} {past : List (Moment κ)} {m : Machine κ} (h : Annals laps past m)
      (change : Banks → Banks) :
      Annals laps past (m.withCircuit fun c => { c with banks := change c.banks })
  | inserted {laps : List (Lap κ)} {past : List (Moment κ)} {m : Machine κ} (h : Annals laps past m)
      (cartridge : κ) : Annals laps past (m.withCircuit fun c => { c with cartridge := cartridge })

variable {laps : List (Lap κ)} {past later earlier : List (Moment κ)} {m n o p : Machine κ}
variable {x y : Moment κ}

/-! ## A frame so far -/

/-- Some dots lead from one machine to the other. -/
def Onward (m n : Machine κ) : Prop := ∃ ds, Covers ds m n

theorem Onward.trans (h : m.Onward n) (h' : n.Onward p) : m.Onward p := by
  obtain ⟨ds, covers⟩ := h
  obtain ⟨es, covers'⟩ := h'
  exact ⟨_, covers.trans covers'⟩

/-- The frame was opened as `o`; these are its dots so far, and each leads on to the next. -/
structure SoFar (o : Machine κ) (past : List (Moment κ)) (m : Machine κ) : Prop where
  covers : Covers (past.reverse.map Moment.place) o m
  standing : ∀ x ∈ past, x.before.clock.position = .raster x.line x.dot
  onTime : ∀ x ∈ past, x.before.OnTime
  onward : ∀ x ∈ past, x.after.Onward m
  linked : past.Pairwise fun y x => x.after.Onward y.before

theorem SoFar.refl (o : Machine κ) : SoFar o [] o :=
  ⟨.refl o, List.forall_mem_nil _, List.forall_mem_nil _, List.forall_mem_nil _, .nil⟩

/-- What is no dot goes on from the same dots. -/
theorem SoFar.next (h : SoFar o past m) (rest : Covers [] m n) : SoFar o past n := by
  have all := h.covers.trans rest
  rw [List.append_nil] at all
  exact ⟨all, h.standing, h.onTime, fun x hx => (h.onward x hx).trans ⟨_, rest⟩, h.linked⟩

theorem SoFar.aside (h : SoFar o past m) (same : m.SameTime n) : SoFar o past n :=
  h.next (.aside same (.refl n))

theorem SoFar.dot (h : SoFar o past m) (ho : o.OnTime) {line : Line} {dot : Nat}
    (standing : m.clock.position = .raster line dot) :
    SoFar o (⟨m, line, dot⟩ :: past) (m.step line dot) := by
  have stepped := Covers.dot standing (.refl (m.step line dot))
  have all : Covers (((⟨m, line, dot⟩ : Moment κ) :: past).reverse.map Moment.place) o
      (m.step line dot) := by
    rw [List.reverse_cons, List.map_append]
    exact h.covers.trans stepped
  exact ⟨all, List.forall_mem_cons.mpr ⟨standing, h.standing⟩,
    List.forall_mem_cons.mpr ⟨h.covers.onTime ho, h.onTime⟩,
    List.forall_mem_cons.mpr ⟨⟨[], .refl _⟩, fun x hx => (h.onward x hx).trans ⟨_, stepped⟩⟩,
    List.pairwise_cons.mpr ⟨h.onward, h.linked⟩⟩

theorem soFar_telling (ho : o.OnTime) : Telling (SoFar o) where
  dot h standing := h.dot ho standing
  blank target h standing := h.next (.blank target standing (.refl _))
  served f h := h.aside (withHost_still f _).sameTime
  latched byte h := h.aside (setLines_still byte _).sameTime
  looked register cycle h := h.aside (readRegister_still register cycle _).sameTime
  written register byte cycle h := h.aside (writeRegister_still register byte cycle _).sameTime

/-! ## The settling dot -/

/-- After the settling dot the frame has the length that the machine before it asks for. -/
theorem settles_after (settles : x.Settles) (onTime : x.before.OnTime)
    (standing : x.before.clock.position = .raster x.line x.dot) :
    x.after.OnTime ∧ x.after.clock.position.unsettled = false
      ∧ x.after.clock.short = x.before.dropsDot ∧ x.after.ledger = x.before.ledger := by
  obtain ⟨line, dot⟩ := Prod.mk.inj settles
  refine ⟨step_onTime onTime standing, ?_, ?_, step_ledger _ _ _⟩
  · rw [Moment.after, step_position onTime.paced standing, Position.next_unsettled]
    exact decide_eq_false fun h => h.2.ne dot
  · rw [Moment.after, step_short _ _ onTime.paced, shortAfter, if_pos ⟨line, dot⟩]

/-- The end and the blank of the frame have been where they are since the settling dot, and they lie
where a frame without its last pre-render dot has them, if it is short. -/
structure Fixed (x : Moment κ) (later : List (Moment κ)) (short : Bool) (m : Machine κ) : Prop where
  frameEnd : m.clock.frameEnd
    = m.clock.frameStart + (m.timing.dotsPerFrame - short.toNat) * m.timing.dot
  vblankAt : m.clock.vblankAt = m.clock.frameStart
    + ((m.timing.vblankLine + 1) * dotsPerLine + 1 - short.toNat) * m.timing.dot
  settled : x.after.clock.frameEnd = m.clock.frameEnd ∧ x.after.clock.vblankAt = m.clock.vblankAt
  kept : ∀ y ∈ later,
    y.before.clock.frameEnd = m.clock.frameEnd ∧ y.before.clock.vblankAt = m.clock.vblankAt

/-- What lies ahead of a settled length moves neither the end nor the blank. -/
theorem Onward.landmarks (h : m.Onward n) (hm : m.OnTime)
    (settled : m.clock.position.unsettled = false) :
    n.clock.short = m.clock.short ∧ n.clock.frameEnd = m.clock.frameEnd
      ∧ n.clock.vblankAt = m.clock.vblankAt := by
  obtain ⟨ds, covers⟩ := h
  have hn := covers.onTime hm
  have short := covers.short_of_settled hm settled
  have start := covers.frameStart hm
  have timing : n.timing = m.timing := congrArg (Config.timing ∘ Ledger.config) covers.ledger
  refine ⟨short, ?_, ?_⟩
  · rw [hn.paced.frameEnd_eq, hm.paced.frameEnd_eq, short, start, timing]
  · rw [hn.paced.vblankAt_eq, hm.paced.vblankAt_eq, short, start, timing]

theorem Onward.ledger (h : m.Onward n) : n.ledger = m.ledger := by
  obtain ⟨ds, covers⟩ := h
  exact covers.ledger

/-- Where the settling dot lies in the past, all is fixed. -/
theorem SoFar.fixed (h : SoFar o past m) (ho : o.OnTime) (hx : past = later ++ x :: earlier)
    (settles : x.Settles) :
    m.clock.short = x.before.dropsDot ∧ Fixed x later x.before.dropsDot m
      ∧ x.before.ledger = m.ledger := by
  have own : x ∈ past := by simp [hx]
  obtain ⟨after_onTime, settled, short, ledger⟩ :=
    settles_after settles (h.onTime x own) (h.standing x own)
  have now := (h.onward x own).landmarks after_onTime settled
  have same : m.clock.short = x.before.dropsDot := now.1.trans short
  have paced := (h.covers.onTime ho).paced
  refine ⟨same, ⟨?_, ?_, ⟨now.2.1.symm, now.2.2.symm⟩, fun y hy => ?_⟩, ?_⟩
  · rw [paced.frameEnd_eq, same]
  · rw [paced.vblankAt_eq, same]
    rfl
  · have linked := h.linked
    rw [hx] at linked
    have onward : x.after.Onward y.before :=
      (List.pairwise_append.mp linked).2.2 y hy x List.mem_cons_self
    have then_ := onward.landmarks after_onTime settled
    exact ⟨then_.2.1.trans now.2.1.symm, then_.2.2.trans now.2.2.symm⟩
  · exact ledger.symm.trans (h.onward x own).ledger.symm

/-- A frame that has come to its blank has executed the settling dot once. -/
theorem SoFar.settled_once (h : SoFar p.openFrame past m) (blank : m.clock.position = .blank) :
    past.reverse.map Moment.place = raster m.clock.short
      ∧ ∃ later x earlier, past = later ++ x :: earlier ∧ x.Settles
        ∧ ∀ y ∈ later ++ earlier, ¬y.Settles := by
  have all := h.covers.raster blank
  have listed : (.preRender, settlingDot) ∈ past.map Moment.place := by
    rw [← List.mem_reverse, ← List.map_reverse, all, mem_raster]
    exact ⟨by decide, fun last => absurd last.2.2 (by decide)⟩
  have once : (past.map Moment.place).Nodup := by
    rw [← List.nodup_reverse, ← List.map_reverse, all]
    exact raster_nodup _
  obtain ⟨x, own, settles⟩ := List.mem_map.mp listed
  obtain ⟨later, earlier, rfl⟩ := List.append_of_mem own
  refine ⟨all, later, x, earlier, rfl, settles, fun y hy other => ?_⟩
  rw [List.map_append, List.map_cons, List.nodup_middle, List.nodup_cons, ← List.map_append] at once
  exact once.1 (List.mem_map.mpr ⟨y, hy, other.trans settles.symm⟩)

/-! ## The annals -/

/-- Between two frames no dot is executed. -/
theorem idle_telling : Telling fun past (n : Machine κ) => past = [] ∧ n.clock.position = .blank where
  dot h standing := by
    rw [h.2] at standing
    cases standing
  blank target h _ := ⟨h.1, (passBlank_position target _).trans h.2⟩
  served _ h := h
  latched _ h := h
  looked register cycle h :=
    ⟨h.1, (congrArg Clock.position (readRegister_still register cycle _).clock).trans h.2⟩
  written register byte cycle h :=
    ⟨h.1, (congrArg Clock.position (writeRegister_still register byte cycle _).clock).trans h.2⟩

/-- A frame is open and has come so far, or none is open and the raster is in the blank. -/
def Stage (past : List (Moment κ)) (m : Machine κ) : Prop :=
  (m.inFrame = true ∧ ∃ p : Machine κ, SoFar p.openFrame past m)
    ∨ m.inFrame = false ∧ past = [] ∧ m.clock.position = .blank

theorem Stage.aside (h : Stage past m) (same : m.SameTime n) : Stage past n := by
  have inFrame : n.inFrame = m.inFrame := congrArg Ledger.inFrame same.ledger
  rw [Stage, inFrame, same.clock]
  exact h.imp_left fun ⟨inside, p, soFar⟩ => ⟨inside, p, soFar.aside same⟩

theorem turn_ledger (m : Machine κ) (t : Turn) : (m.turn t).2.ledger = m.ledger := by
  obtain ⟨ds, l, drawn⟩ := turn_draws t m
  exact drawn.passes.ledger

theorem turn_config (m : Machine κ) (t : Turn) : (m.turn t).2.config = m.config :=
  congrArg Ledger.config (turn_ledger m t)

/-- What closes a frame has executed all its dots. -/
theorem Stage.closing (h : Stage past m) (inside : m.inFrame = true) :
    ∃ p : Machine κ, SoFar p.openFrame ((m.trailTo m.clock.frameEnd).reverse ++ past)
        (m.advanceTo m.clock.frameEnd)
      ∧ (m.advanceTo m.clock.frameEnd).clock.position = .blank := by
  obtain ⟨-, p, soFar⟩ | ⟨outside, -⟩ := h
  · have opened := openFrame_onTime p
    exact ⟨p, (soFar_telling opened).advanceTo soFar _,
      (advanceTo_frameEnd (soFar.covers.onTime opened)).1⟩
  · rw [inside] at outside
    cases outside

theorem Annals.stage (h : Annals laps past m) : Stage past m := by
  induction h with
  | new config banks cartridge host => exact .inr ⟨rfl, rfl, rfl⟩
  | @turn laps past m _ t ih =>
    have inFrame : (m.turn t).2.inFrame = m.inFrame := congrArg Ledger.inFrame (turn_ledger m t)
    rw [Stage, inFrame]
    refine ih.imp (fun ⟨inside, p, soFar⟩ => ⟨inside, p, ?_⟩) fun ⟨outside, idle⟩ => ⟨outside, ?_⟩
    · exact (soFar_telling (openFrame_onTime p)).turn soFar t
    · exact idle_telling.turn idle t
  | @opened laps past m n _ ho _ =>
    rw [eq_of_beginFrame ho]
    exact .inl ⟨openFrame_inFrame m, m, .refl _⟩
  | closed _ hc ih =>
    obtain ⟨inside, rfl⟩ := eq_of_endFrame hc
    obtain ⟨p, -, blank⟩ := ih.closing inside
    exact .inr ⟨rfl, rfl, blank⟩
  | swapped _ hs ih =>
    obtain ⟨-, rfl⟩ := eq_of_swapScreen hs
    exact ih.aside (withCircuit_sameTime _ _)
  | mapped _ _ ih | banked _ _ ih | inserted _ _ ih => exact ih.aside (withCircuit_sameTime _ _)

/-- The counts of frames and the make of the chip. -/
structure Counted (laps : List (Lap κ)) (l : Ledger) : Prop where
  frames : l.frames = laps.length
  parity : l.oddFrame = (laps.length % 2 == 1)
  burst : l.burst.val = (laps.map Lap.dots).sum % 3
  config : ∀ lap ∈ laps, lap.closed.config = l.config

omit [Cartridge κ] in
theorem Counted.closed (h : Counted laps m.ledger) (past : List (Moment κ)) :
    Counted (⟨past, m.closeFrame⟩ :: laps) m.closeFrame.ledger where
  frames := congrArg (· + 1) h.frames
  parity := by
    have parity : m.oddFrame = (laps.length % 2 == 1) := h.parity
    show (!m.oddFrame) = _
    rw [parity, List.length_cons]
    obtain even | odd := Nat.mod_two_eq_zero_or_one laps.length
    · simp [even, Nat.add_mod]
    · simp [odd, Nat.add_mod]
  burst := by
    have burst : m.burst.val = (laps.map Lap.dots).sum % 3 := h.burst
    show (m.burst.val + m.clock.frameDots m.timing) % 3 = _
    rw [burst, List.map_cons, List.sum_cons, Nat.mod_add_mod, Nat.add_comm]
    rfl
  config := List.forall_mem_cons.mpr ⟨rfl, h.config⟩

theorem Annals.counted (h : Annals laps past m) : Counted laps m.ledger := by
  induction h with
  | new config banks cartridge host => exact ⟨rfl, rfl, rfl, List.forall_mem_nil _⟩
  | turn _ t ih => rwa [turn_ledger]
  | opened _ ho ih =>
    rw [eq_of_beginFrame ho, openFrame_ledger]
    exact ⟨ih.frames, ih.parity, ih.burst, ih.config⟩
  | @closed laps past m n _ hc ih =>
    obtain ⟨-, rfl⟩ := eq_of_endFrame hc
    obtain ⟨ds, l, passes⟩ := advanceTo_passes m.clock.frameEnd m
    exact Counted.closed (by rwa [passes.ledger]) _
  | swapped _ hs ih =>
    obtain ⟨-, rfl⟩ := eq_of_swapScreen hs
    exact ih
  | @mapped laps past m _ map ih =>
    have same : (m.setColorMap map).ledger = m.ledger := (withCircuit_sameTime _ m).ledger
    rwa [same]
  | banked _ _ ih | inserted _ _ ih => exact ih

omit [Cartridge κ] in
/-- The parity that the settling dot finds is that of the number of the frame. -/
theorem Counted.dropsDot (h : Counted laps m.ledger) :
    m.dropsDot = m.timing.skips laps.length m.rendering := by
  have parity : m.oddFrame = (laps.length % 2 == 1) := h.parity
  rw [Machine.dropsDot, parity, Timing.skips]

/-- The frame of this number executed the settling dot once. There it got its length, and its end and
its blank have been where they are ever since. -/
def SettledOnce (t : Timing) (number : Nat) (lap : Lap κ) : Prop :=
  ∃ later x earlier, lap.past = later ++ x :: earlier
    ∧ x.Settles ∧ (∀ y ∈ later ++ earlier, ¬y.Settles)
    ∧ lap.dots = t.dotsPerFrame - (t.skips number x.before.rendering).toNat
    ∧ lap.past.reverse.map Moment.place = raster (t.skips number x.before.rendering)
    ∧ Fixed x later (t.skips number x.before.rendering) lap.closed

/-- A frame has at its end the length that it got at the settling dot. -/
theorem SoFar.settled (h : SoFar p.openFrame past m) (blank : m.clock.position = .blank)
    (counted : Counted laps m.ledger) : SettledOnce m.timing laps.length ⟨past, m.closeFrame⟩ := by
  obtain ⟨all, later, x, earlier, hx, settles, once⟩ := h.settled_once blank
  obtain ⟨short, fixed, ledger⟩ := h.fixed (openFrame_onTime p) hx settles
  have timing : x.before.timing = m.timing := congrArg (Config.timing ∘ Ledger.config) ledger
  have drops : x.before.dropsDot = m.timing.skips laps.length x.before.rendering := by
    rw [← timing]
    rw [← ledger] at counted
    exact counted.dropsDot
  rw [drops] at short fixed
  refine ⟨later, x, earlier, hx, settles, once, ?_, short ▸ all,
    ⟨fixed.frameEnd, fixed.vblankAt, fixed.settled, fixed.kept⟩⟩
  show (m.clock.frameEnd - m.clock.frameStart) / m.timing.dot = _
  rw [fixed.frameEnd, Nat.add_sub_cancel_left]
  exact Nat.mul_div_cancel _ m.config.region.dot_pos

theorem Annals.settled (h : Annals laps past m) {after before : List (Lap κ)} {lap : Lap κ}
    (hl : laps = after ++ lap :: before) : SettledOnce lap.closed.timing before.length lap := by
  induction h generalizing after with
  | new config banks cartridge host => exact absurd hl (by simp)
  | turn _ _ ih | opened _ _ ih | swapped _ _ ih | mapped _ _ ih | banked _ _ ih | inserted _ _ ih =>
    exact ih hl
  | @closed laps past m n h hc ih =>
    cases after with
    | cons _ after => exact ih (List.cons.inj hl).2
    | nil =>
      obtain ⟨rfl, rfl⟩ := List.cons.inj hl
      obtain ⟨inside, rfl⟩ := eq_of_endFrame hc
      obtain ⟨p, soFar, blank⟩ := h.stage.closing inside
      obtain ⟨ds, l, passes⟩ := advanceTo_passes m.clock.frameEnd m
      have counted := h.counted
      rw [← passes.ledger] at counted
      exact soFar.settled blank counted

/-- In annals without resets and loads every completed frame lacks a dot exactly if its region skips
dots, its number is odd and the settling dot found rendering switched on, whatever was predicted when
it was opened; its dots are those of the raster of that length. From the settling dot on neither its
end nor its blank moves, and the blank lies one dot into its line. The frames are counted, their
parity kept, and the burst follows from their lengths. -/
theorem Annals.lengths (h : Annals laps past m) :
    (∀ after lap before, laps = after ++ lap :: before → SettledOnce m.timing before.length lap)
      ∧ (∀ later x earlier, past = later ++ x :: earlier → x.Settles →
        Fixed x later (m.timing.skips laps.length x.before.rendering) m)
      ∧ m.frames = laps.length
      ∧ m.oddFrame = (laps.length % 2 == 1)
      ∧ m.burst.val = (laps.map Lap.dots).sum % 3 := by
  have counted := h.counted
  refine ⟨fun after lap before hl => ?_, fun later x earlier hx settles => ?_, counted.frames,
    counted.parity, counted.burst⟩
  · have config : lap.closed.config = m.config := counted.config lap (by simp [hl])
    have settled := h.settled hl
    rwa [Machine.timing, config] at settled
  · obtain ⟨-, p, soFar⟩ | ⟨-, none, -⟩ := h.stage
    · obtain ⟨-, fixed, ledger⟩ := soFar.fixed (openFrame_onTime p) hx settles
      have timing : x.before.timing = m.timing := congrArg (Config.timing ∘ Ledger.config) ledger
      rw [← ledger] at counted
      rwa [counted.dropsDot, timing] at fixed
    · rw [none] at hx
      exact absurd hx (by simp)

/-- The machine after a frame in which the processor takes no turn. -/
def idleFrame (m : Machine κ) : Machine κ :=
  (m.openFrame.advanceTo m.openFrame.clock.frameEnd).closeFrame

def idleLap (m : Machine κ) : Lap κ :=
  ⟨(m.openFrame.trailTo m.openFrame.clock.frameEnd).reverse, m.idleFrame⟩

theorem Annals.idleFrame (h : Annals laps [] m) (resting : m.Resting) :
    Annals (m.idleLap :: laps) [] m.idleFrame := by
  have ended : m.openFrame.endFrame = .ok m.idleFrame := if_pos (openFrame_inFrame m)
  have closed := (h.opened resting.beginFrame).closed ended
  rwa [List.append_nil] at closed

theorem idleFrame_resting (m : Machine κ) : m.idleFrame.Resting :=
  resting_closeFrame (openFrame_onTime m) (openFrame_not_stretches m)

theorem idleFrame_warmingUp (m : Machine κ) : m.idleFrame.warmingUp = false := rfl

theorem idleFrame_config (m : Machine κ) : m.idleFrame.config = m.config :=
  (advanceTo_config _ m.openFrame).trans (openFrame_config m)

theorem idleLap_rendering : ∀ x ∈ m.idleLap.past, x.before.rendering = m.rendering := by
  have opened : m.openFrame.rendering = m.rendering := by
    rw [Machine.rendering, Machine.rendering, openFrame_circuit]
  intro x hx
  exact trailTo_keeps (P := fun n => n.rendering = m.rendering)
    (fun n line dot _ same => (step_rendering line dot n).trans same) _ opened x
    (List.mem_reverse.mp hx)

/-- A mask byte written between two frames. -/
theorem Resting.turn_mask (h : m.Resting) (ready : m.warmingUp = false) (byte : UInt8) (cycle : Nat) :
    let t : Turn := ⟨cycle, fun _ => 0, .write 0x2001 byte⟩
    (m.turn t).2.Resting ∧ (m.turn t).2.rendering = Mask.rendering ⟨byte⟩
      ∧ (m.meet t).trailOfAccess t.access = [] := by
  intro t
  have met : (m.meet t).Resting := h.of_still (withHost_still _ m)
  have written : (m.turn t).2
      = (m.meet t).put .mask byte ((m.meet t).landing .mask) :=
    congrArg (put .mask byte _) (met.advanceTo _)
  have put : (m.meet t).put .mask byte ((m.meet t).landing .mask)
      = ((m.meet t).setLines byte).withCircuit (·.setMask ⟨byte⟩) := by
    rw [Machine.put, show ((m.meet t).setLines byte).warmingUp = false from ready]
    rfl
  refine ⟨?_, ?_, trailTo_blank met.waiting.blank⟩
  · rw [written]
    exact met.of_still (put_still _ _ _ _)
  · rw [written, put]
    rfl

/-- Rendering is switched on between the first two frames of a machine, so the second one, whose
number is odd, is short. -/
theorem Annals.lengths_litBetween :
    let fresh := Machine.new ⟨.ntsc, .hardware⟩ .new () (.new fun _ => 0)
    let lit := (fresh.idleFrame.turn ⟨fresh.idleFrame.clock.count, fun _ => 0, .write 0x2001 8⟩).2
    Annals [lit.idleLap, fresh.idleLap] [] lit.idleFrame
      ∧ fresh.idleLap.dots = 262 * 341 ∧ lit.idleLap.dots = 262 * 341 - 1
      ∧ lit.idleFrame.frames = 2 ∧ lit.idleFrame.oddFrame = false ∧ lit.idleFrame.burst.val = 0 := by
  intro fresh lit
  have resting := idleFrame_resting fresh
  have first : Annals [fresh.idleLap] [] fresh.idleFrame :=
    (Annals.new ⟨.ntsc, .hardware⟩ .new () (.new fun _ => 0)).idleFrame (new_resting _ _ _ _)
  obtain ⟨rests, on, still⟩ := resting.turn_mask (idleFrame_warmingUp _) 8 fresh.idleFrame.clock.count
  have between : Annals [fresh.idleLap] [] lit := by
    have told := first.turn ⟨fresh.idleFrame.clock.count, fun _ => 0, .write 0x2001 8⟩
    rwa [still] at told
  have second := between.idleFrame rests
  have timing : lit.idleFrame.timing = Region.ntsc.timing := by
    rw [Machine.timing, idleFrame_config, turn_config, idleFrame_config]
    rfl
  obtain ⟨settled, -, frames, odd, burst⟩ := second.lengths
  obtain ⟨-, x, -, -, -, -, dots₀, -⟩ := settled [lit.idleLap] fresh.idleLap [] rfl
  obtain ⟨later, y, earlier, own, -, -, dots₁, -⟩ := settled [] lit.idleLap [fresh.idleLap] rfl
  have rendered : y.before.rendering = true := by
    rw [idleLap_rendering y (own ▸ List.mem_append_right _ List.mem_cons_self)]
    exact on
  rw [timing] at dots₀ dots₁
  rw [rendered] at dots₁
  have long : fresh.idleLap.dots = 262 * 341 := dots₀
  have short : lit.idleLap.dots = 262 * 341 - 1 := dots₁
  refine ⟨second, long, short, frames, odd.trans (by rw [List.length_cons, List.length_singleton]; decide), ?_⟩
  rw [burst, List.map_cons, List.map_singleton, long, short]
  decide

end Machine

end PictureUnit
