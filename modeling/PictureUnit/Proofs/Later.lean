import PictureUnit.Machine.Pausing
import PictureUnit.Proofs.Lineage

/-!
# Some dots later

A machine that catches up by whole dots stands on the dot that follows. Where the raster goes on after
the last dot of a line depends on the length of the frame, which is settled just before, by the mask
byte alone.
-/

set_option autoImplicit false

namespace PictureUnit.Machine

variable {κ : Type} {m : Machine κ} {line below : Line} {d e k : Nat}

theorem settleAt_place (line : Line) (dot : Nat) (m : Machine κ) :
    (m.settleAt line dot).clock.position = m.clock.position
      ∧ (m.settleAt line dot).clock.short = m.shortAfter line dot := by
  unfold settleAt shortAfter settleLength
  split
  · split
    · next same => exact ⟨rfl, same.symm⟩
    · dsimp only
      split <;> exact ⟨rfl, rfl⟩
  · exact ⟨rfl, rfl⟩

variable [Cartridge κ]

theorem step_place (line : Line) (dot : Nat) (m : Machine κ) :
    (m.step line dot).clock.position = m.clock.position.next (m.shortAfter line dot) := by
  obtain ⟨position, short⟩ := settleAt_place line dot (m.runDot line dot)
  have drops : (m.runDot line dot).shortAfter line dot = m.shortAfter line dot := by
    have rendering : (m.runDot line dot).rendering = m.rendering := rendering_of_settings
      (Circuit.dot_settings line dot m.clock.count m.config.limit m.circuit)
    unfold shortAfter dropsDot
    rw [rendering]
    rfl
  rw [drops] at short
  show (((m.runDot line dot).settleAt line dot).clock.position).next
    ((m.runDot line dot).settleAt line dot).clock.short = _
  rw [position, short]
  rfl

theorem step_inside (place : m.clock.position = .raster line d) (hd : d < 339) :
    (m.step line d).clock.position = .raster line (d + 1) := by
  rw [step_place, place, Position.next_inside hd]

/-- The machine when some more dots have passed. -/
def later (k : Nat) (m : Machine κ) : Machine κ := m.advanceTo (m.clock.count + k * m.timing.dot)

@[simp]
theorem later_zero (m : Machine κ) : m.later 0 = m := by
  rw [later, Nat.zero_mul]
  exact advanceTo_of_le _ _ le_rfl

@[simp]
theorem later_config (k : Nat) (m : Machine κ) : (m.later k).config = m.config := advanceTo_config _ m

@[simp]
theorem later_settings (k : Nat) (m : Machine κ) :
    (m.later k).circuit.settings = m.circuit.settings := advanceTo_settings _ m

@[simp]
theorem later_rendering (k : Nat) (m : Machine κ) : (m.later k).rendering = m.rendering :=
  advanceTo_rendering _ m

@[simp]
theorem later_timing (k : Nat) (m : Machine κ) : (m.later k).timing = m.timing := advanceTo_timing _ m

@[simp]
theorem later_oddFrame (k : Nat) (m : Machine κ) : (m.later k).oddFrame = m.oddFrame :=
  advanceTo_oddFrame _ m

@[simp]
theorem later_warmingUp (k : Nat) (m : Machine κ) : (m.later k).warmingUp = m.warmingUp :=
  advanceTo_warmingUp _ m

@[simp]
theorem later_dropsDot (k : Nat) (m : Machine κ) : (m.later k).dropsDot = m.dropsDot := by
  simp [dropsDot]

/-- The machine stands on a dot, and no time was left over. -/
structure Reaches (m : Machine κ) (k : Nat) (line : Line) (d : Nat) : Prop where
  place : (m.later k).clock.position = .raster line d
  count : (m.later k).clock.count = m.clock.count + k * m.timing.dot

theorem reaches_zero (place : m.clock.position = .raster line d) : m.Reaches 0 line d :=
  ⟨by rw [later_zero, place], by rw [later_zero, Nat.zero_mul, Nat.add_zero]⟩

/-- One dot later is one step later. -/
theorem Reaches.later_succ (h : m.Reaches k line d) : m.later (k + 1) = (m.later k).step line d := by
  have dot : 0 < m.timing.dot := m.config.region.dot_pos
  have next : m.clock.count + (k + 1) * m.timing.dot = m.clock.count + k * m.timing.dot + m.timing.dot := by
    rw [Nat.succ_mul, Nat.add_assoc]
  rw [later, ← advanceTo_advanceTo (m.clock.count + k * m.timing.dot) _ m (by omega)]
  show (m.later k).advanceTo _ = _
  rw [advanceTo_raster _ _ line d h.place (by rw [h.count]; omega), advanceTo_of_le]
  rw [step_count, h.count, later_timing, next]

theorem Reaches.succ (h : m.Reaches k line d) :
    (m.later (k + 1)).clock.position
        = (Position.raster line d).next ((m.later k).shortAfter line d)
      ∧ (m.later (k + 1)).clock.count = m.clock.count + (k + 1) * m.timing.dot := by
  rw [h.later_succ, step_place, h.place, step_count, h.count, later_timing, Nat.succ_mul, Nat.add_assoc]
  exact ⟨rfl, rfl⟩

theorem Reaches.next (h : m.Reaches k line d)
    (inside : d < Position.lastDot ((m.later k).shortAfter line d) line) :
    m.Reaches (k + 1) line (d + 1) := by
  obtain ⟨place, count⟩ := h.succ
  rw [Position.next, if_pos inside] at place
  exact ⟨place, count⟩

theorem Reaches.down (h : m.Reaches k line d) (touching : line.next = some below)
    (last : ¬ d < Position.lastDot ((m.later k).shortAfter line d) line) :
    m.Reaches (k + 1) below 0 := by
  obtain ⟨place, count⟩ := h.succ
  rw [Position.next, if_neg last, touching] at place
  exact ⟨place, count⟩

/-- Before the length of the frame matters, the dots of a line follow one another. -/
theorem reaches_line (place : m.clock.position = .raster line d) (inside : d + k ≤ 339) :
    m.Reaches k line (d + k) := by
  induction k with
  | zero => exact reaches_zero place
  | succ k ih =>
    apply (ih (by omega)).next
    have := Position.le_lastDot ((m.later k).shortAfter line (d + k)) line
    omega

theorem reaches_of_le (place : m.clock.position = .raster line d) (hd : d ≤ e ∧ e ≤ 339) :
    m.Reaches (e - d) line e := by
  have here := reaches_line (k := e - d) place (by omega)
  rwa [show d + (e - d) = e by omega] at here

/-- From the dot that settles it on, the length of the line is what the mask byte says. -/
theorem later_lastDot (hd : 339 ≤ d) (k : Nat) (h : d ≤ Position.lastDot m.dropsDot line) :
    d < Position.lastDot ((m.later k).shortAfter line d) line
      ↔ d < Position.lastDot m.dropsDot line := by
  cases line with
  | visible y => exact Iff.rfl
  | preRender =>
    have long := Clock.lastDot_lt ((m.later k).shortAfter .preRender d) .preRender
    have long' := Clock.lastDot_lt m.dropsDot .preRender
    obtain rfl | last : d = 339 ∨ d = 340 := by
      simp only [dotsPerLine] at long long'
      omega
    · rw [shortAfter, if_pos ⟨rfl, rfl⟩, later_dropsDot]
    · simp only [dotsPerLine] at long long'
      omega

/-- The dots of a line follow one another to its last. -/
theorem reaches_of_le_lastDot (place : m.clock.position = .raster line d) (hd : d ≤ 339)
    (he : d ≤ e ∧ e ≤ Position.lastDot m.dropsDot line) : m.Reaches (e - d) line e := by
  obtain early | late := Nat.lt_or_ge 339 e
  · have long := Clock.lastDot_lt m.dropsDot line
    have before := reaches_of_le (e := 339) place ⟨hd, le_rfl⟩
    simp only [dotsPerLine] at long
    obtain rfl : e = 340 := by omega
    have inside : 339 < Position.lastDot ((m.later (339 - d)).shortAfter line 339) line :=
      (later_lastDot le_rfl _ (by omega)).mpr he.2
    have last := before.next inside
    rwa [show 339 - d + 1 = 340 - d by omega] at last
  · exact reaches_of_le place ⟨he.1, late⟩

/-- After its last dot comes the next line. -/
theorem reaches_below (place : m.clock.position = .raster line d) (hd : d ≤ 339)
    (touching : line.next = some below) :
    m.Reaches (Position.lastDot m.dropsDot line + 1 - d) below 0 := by
  have long := Position.le_lastDot m.dropsDot line
  have last := reaches_of_le_lastDot place hd ⟨by omega, le_rfl⟩
  have down := last.down touching ((later_lastDot long _ le_rfl).not.mpr (lt_irrefl _))
  rwa [show Position.lastDot m.dropsDot line - d + 1 = Position.lastDot m.dropsDot line + 1 - d by omega]
    at down

/-- Waiting goes on where it paused. -/
theorem Reaches.later_later (h : m.Reaches k line d) (j : Nat) :
    (m.later k).later j = m.later (k + j) := by
  rw [later, h.count, later_timing, later, later, Nat.add_mul, ← Nat.add_assoc]
  exact advanceTo_advanceTo _ _ m (Nat.le_add_right _ _)

/-- A session may wait. -/
theorem Reachable.later (h : m.Reachable) (k : Nat) : (m.later k).Reachable :=
  h.turn ⟨m.host.cycle, m.host.memory, .catchUp (m.clock.count + k * m.timing.dot)⟩

/-- The dots that pass are a story. -/
theorem story_later (place : m.clock.position = .raster line d) (inside : d + k ≤ 339) :
    ∃ past, Story m past (m.later k) ∧ ∀ moment ∈ past, ∃ j < k, moment = ⟨m.later j, line, d + j⟩ := by
  induction k with
  | zero =>
    rw [later_zero]
    exact ⟨[], .refl, fun _ none => by cases none⟩
  | succ k ih =>
    obtain ⟨past, story, all⟩ := ih (by omega)
    have reaches := reaches_line (k := k) place (by omega)
    rw [reaches.later_succ]
    refine ⟨_, story.dot reaches.place, fun moment mem => ?_⟩
    obtain rfl | earlier := List.mem_cons.mp mem
    · exact ⟨k, Nat.lt_succ_self k, rfl⟩
    · obtain ⟨j, before, same⟩ := all moment earlier
      exact ⟨j, Nat.lt_succ_of_lt before, same⟩

/-- While a line is drawn, the object address stays. -/
theorem Dawn.later_objectAddress {m : Machine (Option Unit)} (h : m.Dawn) {k : Nat} (hk : k ≤ 256) :
    (m.later k).circuit.registers.objectAddress = 0 := by
  have still : Cartridge.Silent (m.later k).circuit.cartridge
      ∧ (m.later k).circuit.registers.objectAddress = 0 := by
    induction k with
    | zero =>
      rw [later_zero]
      exact ⟨h.silent, h.objectAddress⟩
    | succ k ih =>
      obtain ⟨silent, address⟩ := ih (by omega)
      have reaches := reaches_line (k := k) h.place (by omega)
      have rendering : (m.later k).rendering = true := (later_rendering k m).trans h.on
      rw [reaches.later_succ, step_circuit]
      constructor
      · rw [Circuit.dot_cartridge silent]
        exact silent
      · have works := Circuit.dot_works silent rendering (.visible ⟨0, by decide⟩) (1 + k)
          (m.later k).clock.count (m.later k).config.limit
        rw [Works.dot_tile (.inl ⟨by omega, by omega⟩)] at works
        exact (congrArg Works.objectAddress works).trans ((Works.search_keeps _ _ _ _).2.trans address)
  exact still.2

end PictureUnit.Machine
