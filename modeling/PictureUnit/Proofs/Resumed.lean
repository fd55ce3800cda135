import PictureUnit.Proofs.Resting

/-!
# A restored machine goes on

Between frames a machine is asked for whole frames and for single accesses. A machine that has loaded the
state of another one then shows the same screens, answers the same and saves the same, for as long as
the two are asked for the same. What was left in the works of either is never seen.
-/

set_option autoImplicit false

namespace PictureUnit

/-- Something to do between frames: to pass a whole frame, or to take a turn. -/
inductive Beat where
  | frame
  | turn (t : Turn)

/-- The same to do, at whatever cycle. -/
inductive Beat.Same : Beat → Beat → Prop where
  | frame : Same .frame .frame
  | turn {t t' : Turn} (memory : t'.memory = t.memory) (access : t'.access = t.access) :
      Same (.turn t) (.turn t')

/-- What can be seen after a beat. -/
structure Sight where
  /-- The screen of a frame, and how many dots it took. -/
  picture : Option (Screen × Nat)
  /-- What a turn returned, if it was a read. -/
  value : Option UInt8
  status : Status
  saved : List UInt8

namespace Machine

variable {κ : Type}

def sight (picture : Option (Screen × Nat)) (value : Option UInt8) (m : Machine κ) : Sight :=
  ⟨picture, value, m.circuit.registers.status, m.save⟩

/-- The length that a frame opens with is the length that it is settled to. -/
theorem openFrame_not_stretches (m : Machine κ) : ¬ m.openFrame.Stretches := by
  rintro ⟨-, short, drops⟩
  have same : m.openFrame.dropsDot = m.dropsDot := by simp [dropsDot]
  rw [openFrame_short] at short
  rw [same, short] at drops
  cases drops

theorem Resting.beginFrame {m : Machine κ} (h : m.Resting) : m.beginFrame = .ok m.openFrame := by
  rw [Machine.beginFrame, h.closed, h.betweenFrames]
  rfl

variable [Cartridge κ]

def playBeat (m : Machine κ) : Beat → Except Misuse (Sight × Machine κ)
  | .frame => m.beginFrame.bind fun o => o.endFrame.map fun n =>
      (n.sight (some (n.circuit.screen, n.clock.frameDots n.timing)) none, n)
  | .turn t =>
    let (value, n) := m.turn t
    .ok (n.sight none value, n)

/-- What is seen after each of some beats in a row. -/
def playBeats : List Beat → Machine κ → Except Misuse (List Sight × Machine κ)
  | [], m => .ok ([], m)
  | beat :: rest, m =>
    (m.playBeat beat).bind fun (seen, m) => (m.playBeats rest).map fun (more, m) => (seen :: more, m)

variable {t : Trust} {m n b : Machine κ}

/-- What is saved is either the same in alike machines or trusted. -/
theorem Even.save (h : m.Even t n) :
    n.circuit.registers.status = m.circuit.registers.status ∧ n.save = m.save := by
  have status := h.alike.circuit.status h.flags
  have lines := h.alike.circuit.lines
  rw [h.lines, agree_all] at lines
  have level := h.alike.circuit.works.level
  have registers : n.circuit.registers = m.circuit.registers := by
    have same := congrArg Circuit.registers (Circuit.eq_withResidue level)
    rw [same]
    simp only [Circuit.withResidue, Circuit.residue, status, lines]
  have banks : n.circuit.banks = m.circuit.banks := level.banks
  refine ⟨status, ?_⟩
  rw [Machine.save, Machine.save, Machine.sections, Machine.sections, registers,
    h.alike.circuit.palette, h.alike.circuit.objects, banks, h.alike.oddFrame, h.alike.burst,
    h.alike.warmingUp]

/-- A frame that does not stretch is closed at its end. -/
theorem resting_closeFrame (h : m.OnTime) (hs : ¬ m.Stretches) :
    (m.advanceTo m.clock.frameEnd).closeFrame.Resting := by
  obtain ⟨blank, ends, count⟩ := advanceTo_frameEnd h
  refine ⟨⟨blank, advanceTo_frameEnd_raised h⟩, ?_, rfl⟩
  change (m.advanceTo m.clock.frameEnd).clock.frameEnd ≤ (m.advanceTo m.clock.frameEnd).clock.count
  have settled := (settledEnd_le_iff h.paced).mpr hs
  rw [ends, count]
  omega

/-- A whole frame is passed alike, and both machines draw the same picture. -/
theorem Even.frame (h : m.Even t n) :
    ∃ m' n' t', m.openFrame.endFrame = .ok m' ∧ n.openFrame.endFrame = .ok n' ∧ m'.Even t' n'
      ∧ n'.circuit.screen = m'.circuit.screen
      ∧ n'.clock.frameDots n'.timing = m'.clock.frameDots m'.timing := by
  obtain ⟨opened, abreast⟩ := h.alike.openFrame
  obtain ⟨alike, together, closed, -⟩ := opened.endFrame abreast
  have whole : t.Whole m.openFrame.rendering m.openFrame.clock.position := by
    rw [openFrame_clock]
    exact Trust.whole_start h.flags h.lines _
  have after := advanceTo_whole m.openFrame.clock.frameEnd (openFrame_onTime m) whole
  obtain ⟨ends, -⟩ := abreast.ends opened.timing
  obtain ⟨ds, l, passes, own, other⟩ := opened.advanceTo_inks abreast whole ends
  have drawn := passes.raster (advanceTo_frameEnd (openFrame_onTime m)).1
  have places : l.map Ink.place = Screen.places := by
    rw [passes.places, drawn]
    exact drawn_raster _
  -- The screens before may differ: the frame draws every place, and the same ink in both.
  refine ⟨_, _, _, if_pos (openFrame_inFrame m), if_pos (openFrame_inFrame n),
    ⟨closed, resting_closeFrame (openFrame_onTime m) (openFrame_not_stretches m),
      resting_closeFrame (openFrame_onTime n) (openFrame_not_stretches n), after.flags, after.lines⟩,
    ?_, alike.frameDots together⟩
  exact (other.trans (Screen.inks_of_places places _ _)).trans own.symm

/-- The same beat shows the same. -/
theorem Even.playBeat (h : m.Even t n) {beat beat' : Beat} (same : beat.Same beat') :
    ∃ seen m' n' t', m.playBeat beat = .ok (seen, m') ∧ n.playBeat beat' = .ok (seen, n')
      ∧ m'.Even t' n' := by
  cases same with
  | frame =>
    obtain ⟨m', n', t', own, other, even, screen, dots⟩ := h.frame
    obtain ⟨status, saved⟩ := even.save
    refine ⟨m'.sight (some (m'.circuit.screen, m'.clock.frameDots m'.timing)) none, m', n', t', ?_, ?_,
      even⟩
    · simp only [Machine.playBeat, h.first.beginFrame, Except.bind, own, Except.map]
    · simp only [Machine.playBeat, h.second.beginFrame, Except.bind, other, Except.map, sight, screen,
        dots, status, saved]
  | turn memory access =>
    obtain ⟨value, even⟩ := h.turn memory access
    obtain ⟨status, saved⟩ := even.save
    refine ⟨(m.turn _).2.sight none (m.turn _).1, _, _, t, rfl, ?_, even⟩
    simp only [Machine.playBeat, sight, value, status, saved]

theorem Even.playBeats (h : m.Even t n) {beats beats' : List Beat}
    (same : List.Forall₂ Beat.Same beats beats') :
    ∃ seen m' n', m.playBeats beats = .ok (seen, m') ∧ n.playBeats beats' = .ok (seen, n') := by
  induction same generalizing t m n with
  | nil => exact ⟨[], m, n, rfl, rfl⟩
  | cons first rest ih =>
    obtain ⟨seen, m', n', t', own, other, even⟩ := h.playBeat first
    obtain ⟨more, last, last', own', other'⟩ := ih even
    refine ⟨seen :: more, last, last', ?_, ?_⟩
    · simp only [Machine.playBeats, own, Except.bind, own', Except.map]
    · simp only [Machine.playBeats, other, Except.bind, other', Except.map]

/-- A machine that loads a saved state goes on like the one that saved it, whatever either has done
before, through any number of frames and accesses between them. -/
theorem load_resumes {m b : Machine (Option κ)} (hm : m.Reachable) (hf : m.inFrame = false)
    (caughtUp : m.clock.betweenFrames = true) (empty : m.circuit.cartridge = none)
    (hb : b.Reachable) (closed : b.inFrame = false) (same : m.SameBoard b) :
    ∃ n, b.load m.save = .ok (.ok (n, []))
      ∧ ∀ beats beats', List.Forall₂ Beat.Same beats beats' → ∃ seen m' n',
        m.playBeats beats = .ok (seen, m') ∧ n.playBeats beats' = .ok (seen, n') := by
  have idle : Cartridge.Idle m.circuit.cartridge := by
    rw [empty]
    exact Cartridge.idle_none
  obtain ⟨n, loaded, alike, reached, between⟩ := hm.load_save hf idle hb closed same
  have even : m.Even .saved n := ⟨alike, hm.resting hf caughtUp,
    reached.resting (alike.inFrame.trans hf) between, rfl, rfl⟩
  exact ⟨n, loaded, fun beats beats' beat => even.playBeats beat⟩

/-- A new machine whose background was switched on goes on where it was saved. -/
theorem load_resumes_switchedOn :
    let lit := ((Machine.new ⟨.ntsc, .hardware⟩ .new (none : Option Unit)
      (.new fun _ => 0)).turn (switchOn 100)).2
    let other := Machine.new ⟨.ntsc, .hardware⟩ .new (none : Option Unit) (.new fun _ => 7)
    ∃ n, other.load lit.save = .ok (.ok (n, []))
      ∧ ∃ seen m' n', lit.playBeats [.frame, .turn (look 500000), .frame] = .ok (seen, m')
        ∧ n.playBeats [.frame, .turn (look 900000), .frame] = .ok (seen, n') := by
  intro lit other
  have reached : lit.Reachable := (Reachable.new _ _ _ _).turn _
  have written := switchOn_eq (m := .new ⟨.ntsc, .hardware⟩ .new (none : Option Unit)
    (.new fun _ => 0)) rfl (Nat.le_refl _) rfl rfl 100
  have closed : lit.inFrame = false := congrArg (·.inFrame) written
  have between : lit.clock.betweenFrames = true := congrArg (·.clock.betweenFrames) written
  have slot : lit.circuit.cartridge = none := congrArg (·.circuit.cartridge) written
  have map : lit.circuit.palette.map = other.circuit.palette.map :=
    (congrArg (·.circuit.palette.map) written).trans (Palette.setMask_keeps _ _).2
  have board : lit.SameBoard other := sameBoard_of_eq (congrArg (·.config) written).symm
    (congrArg (·.circuit.banks) written).symm map.symm slot.symm
  obtain ⟨n, loaded, goesOn⟩ := load_resumes reached closed between slot (.new _ _ _ _) rfl board
  exact ⟨n, loaded, goesOn _ _ (.cons .frame (.cons (.turn rfl rfl) (.cons .frame .nil)))⟩

end Machine

end PictureUnit
