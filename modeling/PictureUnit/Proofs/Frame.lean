import PictureUnit.Proofs.Closing
import PictureUnit.Proofs.Hooks

/-!
# A frame is one pass over the raster

The count of an open frame follows from the position and the length, so neither can drift from the
other. Whatever the processor asks for meanwhile, a frame passes every dot of the raster once: the
cartridge hears of every line, every place of the screen is drawn once, and the finished machine
shows nothing of the screen that it was given.
-/

set_option autoImplicit false

namespace PictureUnit

theorem mem_raster (short : Bool) (line : Line) (dot : Nat) : (line, dot) ∈ raster short
    ↔ dot < dotsPerLine ∧ ¬ (short = true ∧ line = .preRender ∧ dot = 340) := by
  have listed : line ∈ Line.all := List.mem_of_getElem? (getElem?_index line)
  have inLine : (line, dot) ∈ raster short ↔ dot ≤ Position.lastDot short line := by
    simp only [raster, lineDots, List.mem_flatMap, List.mem_map, List.mem_range, Prod.mk.injEq]
    constructor
    · rintro ⟨_, -, d, hd, rfl, rfl⟩
      exact Nat.le_of_lt_succ hd
    · intro hd
      exact ⟨line, listed, dot, Nat.lt_succ_of_le hd, rfl, rfl⟩
  rw [inLine]
  cases line <;> cases short <;> simp [Position.lastDot, dotsPerLine] <;> omega

theorem raster_nodup (short : Bool) : (raster short).Nodup := by
  have lines : Line.all.Nodup := by
    rw [Line.all, List.nodup_cons]
    refine ⟨by simp, ?_⟩
    exact (List.nodup_finRange screenHeight).map fun _ _ h => Line.visible.inj h
  rw [raster, List.nodup_flatMap]
  constructor
  · intro line _
    exact List.nodup_range.map fun _ _ h => (Prod.mk.inj h).2
  · refine lines.imp fun {a b} hab => ?_
    apply List.disjoint_left.mpr
    intro d ha hb
    obtain ⟨_, -, rfl⟩ := List.mem_map.mp ha
    obtain ⟨_, -, hd⟩ := List.mem_map.mp hb
    exact hab (congrArg Prod.fst hd).symm

namespace Machine

variable {κ : Type}

theorem withScreen_beginFrame (s : Screen) (m : Machine κ) :
    (m.withScreen s).beginFrame = m.beginFrame.map (withScreen s) := by
  have opened : (m.withScreen s).openFrame = m.openFrame.withScreen s := by
    unfold openFrame
    dsimp only
    rw [apply_ite (withScreen s)]
    rfl
  by_cases hb : (!m.inFrame && m.clock.betweenFrames) = true
  · rw [beginFrame, beginFrame, if_pos hb, if_pos (by exact hb), opened]
    rfl
  · rw [beginFrame, beginFrame, if_neg hb, if_neg (by exact hb)]
    rfl

/-- Where the count of an open frame stands. -/
theorem count_eq_number {m : Machine κ} (h : m.OnTime) {line : Line} {dot : Nat}
    (hp : m.clock.position = .raster line dot) :
    dot < dotsPerLine ∧ (m.clock.count : Int) = m.clock.frameStart
      + ((line.number + 1) * 341 + dot - (if m.clock.short = true ∧ 0 ≤ line.number then 1 else 0))
        * m.timing.dot := by
  have hd := h.paced.dot_le hp
  refine ⟨lt_of_le_of_lt hd (Clock.lastDot_lt _ _), ?_⟩
  have dots : (m.clock.dotsBefore line dot : Int)
      = line.index * 341 + dot - (if m.clock.short = true ∧ 0 ≤ line.number then 1 else 0) := by
    cases line with
    | preRender => simp [Clock.dotsBefore, Clock.dropped, Line.index, Line.number]
    | visible y =>
      cases hs : m.clock.short with
      | false => simp [Clock.dotsBefore, Clock.dropped, Line.index, Line.number, dotsPerLine, hs]
      | true =>
        have visible : (0 : Int) ≤ (Line.visible y).number := Int.natCast_nonneg _
        rw [if_pos ⟨rfl, visible⟩]
        simp only [Clock.dotsBefore, Clock.dropped, Line.index, hs, dotsPerLine, Bool.toNat_true]
        omega
  rw [h.paced.count_eq hp, ← index_eq_number, ← dots]
  push_cast
  rfl

variable [Cartridge κ]

/-- From the opening of a frame to the blank the dots are those of the raster. -/
theorem Covers.raster {ds : List (Line × Nat)} {m n : Machine κ} (h : Covers ds m.openFrame n)
    (hb : n.clock.position = .blank) : ds = PictureUnit.raster n.clock.short := by
  have start : m.openFrame.clock.position = .start := openFrame_position m
  have all := h.ahead (openFrame_onTime m) (by rw [hb]; rfl)
  rw [start, ahead_start, hb] at all
  simp only [Position.ahead, List.append_nil] at all
  exact all.symm

theorem Passes.raster {ds : List (Line × Nat)} {l : List Ink} {m n : Machine κ}
    (h : Passes ds l m.openFrame n) (hb : n.clock.position = .blank) :
    ds = PictureUnit.raster n.clock.short := h.covers.raster hb

/-- The frame that a machine opens and closes around some turns. -/
theorem openFrame_draws (ts : List Turn) (m : Machine κ) : ∃ n l,
    (m.openFrame.afterTurns ts).endFrame = .ok n.closeFrame
      ∧ Passes (raster n.clock.short) l m.openFrame n
      ∧ ∀ s, ((m.openFrame.withScreen s).afterTurns ts).endFrame
        = .ok (n.withScreen (s.inks l)).closeFrame := by
  obtain ⟨ds, l, turns⟩ := afterTurns_draws ts m.openFrame
  obtain ⟨es, k, rest⟩ := advanceTo_draws (m.openFrame.afterTurns ts).clock.frameEnd
    (m.openFrame.afterTurns ts)
  have both := turns.comp rest
  have opened := turns.passes.onTime (openFrame_onTime m)
  have still : (m.openFrame.afterTurns ts).inFrame = true :=
    (congrArg Ledger.inFrame turns.passes.ledger).trans (openFrame_inFrame m)
  have all := both.passes.raster (advanceTo_frameEnd opened).1
  refine ⟨_, _, if_pos still, all ▸ both.passes, fun s => ?_⟩
  have other : ((m.openFrame.withScreen s).afterTurns ts).inFrame = true := by
    rw [turns.blind]
    exact still
  have target : ((m.openFrame.withScreen s).afterTurns ts).clock.frameEnd
      = (m.openFrame.afterTurns ts).clock.frameEnd := by
    rw [turns.blind]
    rfl
  rw [endFrame, if_pos other, target, both.blind s]

/-- The clock of an open frame never drifts from the raster, and a frame passes the raster once. -/
theorem frame_passes_raster :
    (∀ m : Machine κ, m.Reachable → m.inFrame = true →
      (∀ line dot, m.clock.position = .raster line dot →
        dot < dotsPerLine ∧ (m.clock.count : Int) = m.clock.frameStart
          + ((line.number + 1) * 341 + dot
            - (if m.clock.short = true ∧ 0 ≤ line.number then 1 else 0)) * m.timing.dot)
      ∧ (m.clock.position = .blank →
        m.clock.frameStart + (241 * 341 - m.clock.short.toNat) * m.timing.dot ≤ m.clock.count
          ∧ m.clock.count ≤ m.clock.frameEnd)
      ∧ m.clock.frameEnd
        = m.clock.frameStart + (m.timing.dotsPerFrame - m.clock.short.toNat) * m.timing.dot
      ∧ m.clock.vblankAt
        = m.clock.frameStart + (m.timing.vblankDots - m.clock.short.toNat) * m.timing.dot)
    ∧ ∀ (m o : Machine (Recorded κ)) (ts : List Turn), m.Reachable → m.beginFrame = .ok o →
      ∃ n l, (o.afterTurns ts).endFrame = .ok n.closeFrame
        ∧ Passes (raster n.clock.short) l o n
        ∧ (raster n.clock.short).Nodup
        ∧ (∀ line dot, (line, dot) ∈ raster n.clock.short
          ↔ dot < dotsPerLine ∧ ¬ (n.clock.short = true ∧ line = .preRender ∧ dot = 340))
        ∧ n.circuit.cartridge.hooks
          = (Line.all.flatMap fun line => [.active line, .blank line]).reverse
            ++ o.circuit.cartridge.hooks
        ∧ l.map Ink.place = Screen.places
        ∧ (∀ given : Screen, n.closeFrame.circuit.screen = given.inks l)
        ∧ ∀ given taken p, m.swapScreen given = .ok (taken, p) →
          ∃ q, p.beginFrame = .ok q ∧ (q.afterTurns ts).endFrame = .ok n.closeFrame := by
  constructor
  · intro m hm hf
    have h := hm.onTime hf
    exact ⟨fun line dot hp => count_eq_number h hp, h.paced.count_bounds, h.paced.frameEnd_eq,
      h.paced.vblankAt_eq⟩
  · intro m o ts hm hb
    have opened : o = m.openFrame := by
      unfold beginFrame at hb
      split at hb
      · cases hb
        rfl
      · cases hb
    obtain ⟨n, l, closed, passes, blind⟩ := openFrame_draws ts m
    rw [← opened] at closed passes blind
    have places : l.map Ink.place = Screen.places := passes.places.trans (drawn_raster _)
    have hooks := passes.hooks
    rw [hooks_raster] at hooks
    have own := blind o.circuit.screen
    have same : o.withScreen o.circuit.screen = o := rfl
    rw [same, closed] at own
    have drawn (given : Screen) : n.closeFrame.circuit.screen = given.inks l := by
      rw [Screen.inks_of_places places given o.circuit.screen]
      exact congrArg (·.circuit.screen) (Except.ok.inj own)
    refine ⟨n, l, closed, passes, raster_nodup _, mem_raster _, hooks, places, drawn, ?_⟩
    intro given taken p hs
    have swapped : p = m.withScreen given := by
      unfold swapScreen at hs
      split at hs
      · cases hs
      · cases hs
        rfl
    refine ⟨o.withScreen given, ?_, ?_⟩
    · rw [swapped, withScreen_beginFrame, hb]
      rfl
    · rw [Screen.inks_of_places places _ given] at own
      rw [blind given, own]

/-- A first frame in which rendering is switched on. -/
theorem frame_passes_raster_switchedOn : ∃ (n : Machine (Recorded Unit)) (l : List Ink),
    ((Machine.new ⟨.pal, .unlimited⟩ .new ⟨(), []⟩ (.new fun _ => 0)).openFrame.afterTurns
        [⟨100, fun _ => 0, .write 0x2001 8⟩]).endFrame = .ok n.closeFrame
      ∧ l.map Ink.place = Screen.places ∧ n.closeFrame.circuit.screen = Screen.blank.inks l := by
  obtain ⟨n, l, closed, -, -, -, -, places, drawn, -⟩ := (frame_passes_raster (κ := Unit)).2
    (Machine.new ⟨.pal, .unlimited⟩ .new ⟨(), []⟩ (.new fun _ => 0)) _
    [⟨100, fun _ => 0, .write 0x2001 8⟩] (.new _ _ _ _) rfl
  exact ⟨n, l, closed, places, drawn _⟩

end Machine

end PictureUnit
