import PictureUnit.Proofs.Eager
import PictureUnit.Proofs.Frame
import PictureUnit.Proofs.Lockstep
import PictureUnit.Proofs.StatusRead

/-!
# Scripts

A script tells for some frames in a row what is asked for in each, at times after the start of the
frame. Machines that are alike between frames open and close the same frames under a script, and what
they answer agrees in the trusted bits.
-/

set_option autoImplicit false

namespace PictureUnit

/-- At the start of a frame nothing is half done. -/
theorem Works.Alike.atStart {κ : Type} {limit : SpriteLimit} {t : Trust} {p : Position}
    {v w : Works κ} (h : Alike limit t p v w) : Alike limit t .start v w := by
  refine ⟨h.level, h.bounded, h.latch, h.walk, h.search, ?_, h.pixels, ?_⟩
  · intro y d here
    cases here
  · intro line d here late
    cases here
    cases late

/-- The visit as late after `start` as it is after the start of the clock. -/
def Visit.after (start : Nat) (v : Visit) : Visit := { v with cycle := start + v.cycle }

namespace Machine

variable {κ : Type} [Cartridge κ] {t : Trust} {m n : Machine κ}

/-- Machines that are alike between frames open frames that run alike. -/
theorem Alike.openFrame (h : m.Alike t n) :
    m.openFrame.Alike t n.openFrame ∧ m.openFrame.Abreast n.openFrame := by
  constructor
  · refine ⟨?_, ?_, ?_, ?_, ?_, ?_, ?_, ?_⟩
    · simp [h.config]
    · simp
    · simp
    · simp [h.oddFrame]
    · simp [h.burst]
    · simp [h.warmingUp]
    · simp
    · rw [openFrame_circuit, openFrame_circuit, openFrame_config, openFrame_clock]
      exact ⟨h.circuit.works.atStart, h.circuit.vblank, h.circuit.overflow, h.circuit.hit,
        h.circuit.lines, h.circuit.idle⟩
  · refine ⟨openFrame_onTime m, openFrame_onTime n, ?_, ?_, ?_⟩
    · simp [h.dropsDot]
    · simp [Nat.add_comm]
    · simp

/-- Frames that ran alike have the same length. -/
theorem Alike.frameDots (h : m.Alike t n) (ha : m.Abreast n) :
    n.clock.frameDots n.timing = m.clock.frameDots m.timing := by
  obtain ⟨ends, -⟩ := ha.ends h.timing
  have same : n.clock.frameEnd - n.clock.frameStart = m.clock.frameEnd - m.clock.frameStart := by omega
  rw [Clock.frameDots, Clock.frameDots, same, h.timing]

theorem Alike.closeFrame (h : m.Alike t n) (ha : m.Abreast n) : m.closeFrame.Alike t n.closeFrame where
  config := h.config
  position := h.position
  raised := h.raised
  oddFrame := congrArg (!·) h.oddFrame
  burst := by
    change Burst.ofNat (n.burst.val + n.clock.frameDots n.timing) = _
    rw [h.burst, h.frameDots ha]
    rfl
  warmingUp := rfl
  inFrame := rfl
  circuit := h.circuit

/-- The next frame opens for both, or for none. -/
theorem Alike.betweenFrames (h : m.Alike t n) (ha : m.Abreast n) :
    n.clock.betweenFrames = m.clock.betweenFrames := by
  obtain ⟨ends, -⟩ := ha.ends h.timing
  have count := ha.count
  have reached : n.clock.frameEnd ≤ n.clock.count ↔ m.clock.frameEnd ≤ m.clock.count := by omega
  rw [Clock.betweenFrames, Clock.betweenFrames, h.position, decide_eq_decide.mpr reached]

/-- A frame is closed alike. -/
theorem Alike.endFrame (h : m.Alike t n) (ha : m.Abreast n) :
    let last := m.advanceTo m.clock.frameEnd
    let other := n.advanceTo n.clock.frameEnd
    last.Alike (m.trustUpTo m.clock.frameEnd t) other ∧ last.Abreast other
      ∧ last.closeFrame.Alike (m.trustUpTo m.clock.frameEnd t) other.closeFrame
      ∧ other.closeFrame.clock.betweenFrames = last.closeFrame.clock.betweenFrames := by
  obtain ⟨ends, -⟩ := ha.ends h.timing
  obtain ⟨alike, abreast⟩ := h.advanceTo ha ends
  exact ⟨alike, abreast, alike.closeFrame abreast, alike.betweenFrames abreast⟩

/-- Opens a frame, takes the visits of a script in it, each at its time after the start of the frame,
and closes it. -/
def playFrame (script : List Visit) (m : Machine κ) : Except Misuse (List UInt8 × Machine κ) :=
  m.beginFrame.bind fun o =>
    let ts := script.map fun v => (v.after o.clock.frameStart).turn
    (o.afterTurns ts).endFrame.map fun n => (o.answers ts, n)

/-- The answers to the scripts of some frames in a row. -/
def play : List (List Visit) → Machine κ → Except Misuse (List UInt8 × Machine κ)
  | [], m => .ok ([], m)
  | script :: rest, m =>
    (m.playFrame script).bind fun (values, m) =>
      (m.play rest).map fun (more, m) => (values ++ more, m)

/-- The trusted bits of what visits return, and the trust after them. -/
def trustVisits : List Visit → Machine κ → Trust → List UInt8 × Trust
  | [], _, t => ([], t)
  | v :: rest, m, t =>
    let now := m.advanceTo (v.landing m.timing)
    let trust := m.trustUpTo (v.landing m.timing) t
    let (bits, last) := trustVisits rest (m.turn v.turn).2 (trustAfter v trust now)
    (trustedOf v trust now ++ bits, last)

def trustFrame (script : List Visit) (m : Machine κ) (t : Trust) : List UInt8 × Trust :=
  let o := m.openFrame
  let visits := script.map fun v => v.after o.clock.frameStart
  let (bits, trust) := trustVisits visits o t
  let closing := o.afterTurns (visits.map Visit.turn)
  (bits, closing.trustUpTo closing.clock.frameEnd trust)

/-- The trusted bits of the answers to scripts. -/
def trustPlay : List (List Visit) → Machine κ → Trust → List UInt8
  | [], _, _ => []
  | script :: rest, m, t =>
    match m.playFrame script with
    | .error _ => []
    | .ok (_, n) =>
      let (bits, trust) := m.trustFrame script t
      bits ++ trustPlay rest n trust

/-- Visits at the same times of frames that run alike. -/
theorem Alike.visits (h : m.Alike t n) (ha : m.Abreast n) (vs : List Visit) :
    let own := vs.map fun v => v.after m.clock.frameStart
    let other := vs.map fun v => v.after n.clock.frameStart
    (m.afterTurns (own.map Visit.turn)).Alike (trustVisits own m t).2
        (n.afterTurns (other.map Visit.turn))
      ∧ (m.afterTurns (own.map Visit.turn)).Abreast (n.afterTurns (other.map Visit.turn))
      ∧ Agrees (trustVisits own m t).1 (m.answers (own.map Visit.turn))
        (n.answers (other.map Visit.turn)) := by
  induction vs generalizing t m n with
  | nil => exact ⟨h, ha, trivial⟩
  | cons v rest ih =>
    have sameTime : (v.after n.clock.frameStart).cycle + m.clock.frameStart
        = (v.after m.clock.frameStart).cycle + n.clock.frameStart := by
      simp only [Visit.after]
      omega
    obtain ⟨alike, abreast, agree⟩ := h.visit ha (v.after m.clock.frameStart)
      (v.after n.clock.frameStart) rfl rfl sameTime
    -- The rest is still told from the start of the frame, which a visit does not move.
    have started {u : Machine κ} (hu : u.OnTime) (w : Visit) :
        (u.turn w.turn).2.clock.frameStart = u.clock.frameStart := by
      rw [turn_visit, (land_still w _).clock, advanceTo_frameStart _ hu]
    have later := ih alike abreast
    rw [started ha.first, started ha.second] at later
    exact ⟨later.1, later.2.1, agree.append later.2.2⟩

theorem Alike.beginFrame (h : m.Alike t n)
    (hb : n.clock.betweenFrames = m.clock.betweenFrames) :
    m.beginFrame = .ok m.openFrame ∧ n.beginFrame = .ok n.openFrame
      ∨ m.beginFrame = .error .openedInFrame ∧ n.beginFrame = .error .openedInFrame := by
  rw [Machine.beginFrame, Machine.beginFrame, h.inFrame, hb]
  split
  · exact .inl ⟨rfl, rfl⟩
  · exact .inr ⟨rfl, rfl⟩

/-- A frame that opens is played to its end. -/
theorem playFrame_eq (hb : m.beginFrame = .ok m.openFrame) (script : List Visit) :
    let ts := script.map fun v => (v.after m.openFrame.clock.frameStart).turn
    let last := m.openFrame.afterTurns ts
    m.playFrame script
      = .ok (m.openFrame.answers ts, (last.advanceTo last.clock.frameEnd).closeFrame) := by
  intro ts last
  obtain ⟨ds, l, drawn⟩ := afterTurns_draws ts m.openFrame
  have open_ : last.inFrame = true :=
    (congrArg Ledger.inFrame drawn.passes.ledger).trans (openFrame_inFrame m)
  rw [Machine.playFrame, hb, Except.bind]
  dsimp only
  rw [Machine.endFrame, if_pos open_]
  rfl

theorem Reachable.playFrame (h : m.Reachable) {script : List Visit} {values : List UInt8}
    (hp : m.playFrame script = .ok (values, n)) : n.Reachable := by
  unfold Machine.playFrame at hp
  cases hb : m.beginFrame with
  | error misuse => simp [hb, Except.bind] at hp
  | ok o =>
    simp only [hb, Except.bind] at hp
    cases he : (o.afterTurns (script.map fun v => (v.after o.clock.frameStart).turn)).endFrame with
    | error misuse => simp [he, Except.map] at hp
    | ok last =>
      simp only [he, Except.map, Except.ok.injEq, Prod.mk.injEq] at hp
      rw [← hp.2]
      exact ((h.move (.opened hb)).afterTurns _).move (.closed he)

theorem Reachable.play (h : m.Reachable) {scripts : List (List Visit)} {values : List UInt8}
    (hp : m.play scripts = .ok (values, n)) : n.Reachable := by
  induction scripts generalizing m values with
  | nil =>
    cases hp
    exact h
  | cons script rest ih =>
    rw [Machine.play] at hp
    cases first : m.playFrame script with
    | error misuse => simp [first, Except.bind] at hp
    | ok played =>
      simp only [first, Except.bind] at hp
      cases more : played.2.play rest with
      | error misuse => simp [more, Except.map] at hp
      | ok last =>
        simp only [more, Except.map, Except.ok.injEq, Prod.mk.injEq] at hp
        obtain ⟨-, rfl⟩ := hp
        exact ih (h.playFrame first) more

/-- A frame is played alike. -/
theorem Alike.playFrame (h : m.Alike t n) (hb : n.clock.betweenFrames = m.clock.betweenFrames)
    (script : List Visit) :
    (∃ as m' bs n', m.playFrame script = .ok (as, m') ∧ n.playFrame script = .ok (bs, n')
      ∧ Agrees (m.trustFrame script t).1 as bs ∧ m'.Alike (m.trustFrame script t).2 n'
      ∧ n'.clock.betweenFrames = m'.clock.betweenFrames)
    ∨ ∃ misuse, m.playFrame script = .error misuse ∧ n.playFrame script = .error misuse := by
  rcases h.beginFrame hb with ⟨own, other⟩ | ⟨own, other⟩
  · left
    obtain ⟨opened, started⟩ := h.openFrame
    obtain ⟨alike, abreast, agree⟩ := opened.visits started script
    rw [List.map_map, List.map_map] at alike abreast agree
    obtain ⟨-, -, closed, between⟩ := alike.endFrame abreast
    refine ⟨_, _, _, _, playFrame_eq own script, playFrame_eq other script, agree, ?_, between⟩
    unfold trustFrame
    dsimp only
    rw [List.map_map]
    exact closed
  · right
    refine ⟨.openedInFrame, ?_, ?_⟩
    · rw [Machine.playFrame, own]
      rfl
    · rw [Machine.playFrame, other]
      rfl

/-- Scripts are played alike: both machines come through and agree in the trusted bits, or both refuse
for the same reason. -/
theorem Alike.play (h : m.Alike t n) (hb : n.clock.betweenFrames = m.clock.betweenFrames)
    (scripts : List (List Visit)) :
    (∃ as m' bs n', m.play scripts = .ok (as, m') ∧ n.play scripts = .ok (bs, n')
      ∧ Agrees (m.trustPlay scripts t) as bs)
    ∨ ∃ misuse, m.play scripts = .error misuse ∧ n.play scripts = .error misuse := by
  induction scripts generalizing t m n with
  | nil => exact .inl ⟨_, _, _, _, rfl, rfl, trivial⟩
  | cons script rest ih =>
    rcases h.playFrame hb script with ⟨as, m', bs, n', own, other, agree, alike, between⟩ |
      ⟨misuse, own, other⟩
    · rcases ih alike between with ⟨as', last, bs', last', own', other', agree'⟩ |
        ⟨misuse, own', other'⟩
      · left
        refine ⟨as ++ as', last, bs ++ bs', last', ?_, ?_, ?_⟩
        · simp only [Machine.play, own, Except.bind, own', Except.map]
        · simp only [Machine.play, other, Except.bind, other', Except.map]
        · simp only [trustPlay, own]
          exact agree.append agree'
      · right
        refine ⟨misuse, ?_, ?_⟩
        · simp only [Machine.play, own, Except.bind, own', Except.map]
        · simp only [Machine.play, other, Except.bind, other', Except.map]
    · right
      refine ⟨misuse, ?_, ?_⟩
      · simp only [Machine.play, own, Except.bind]
      · simp only [Machine.play, other, Except.bind]

end Machine

end PictureUnit
