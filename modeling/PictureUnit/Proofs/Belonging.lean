import PictureUnit.Proofs.Decoded

/-!
# The strips that a line is drawn with

Whatever the processor does meanwhile, the strips that a column of a visible line is drawn with were
fetched on the line above it, as long as the first dot of the object fetches was rendered there. Each
belongs to a slot of its own, and they lie in the order of the slots.
-/

set_option autoImplicit false

namespace PictureUnit

namespace Machine

variable {κ : Type} [Cartridge κ] {m : Machine κ}

/-- In any session, when a column of a visible line is drawn, the list of strips is what the first dot of
the object fetches on the line above left, which is nothing if it was rendered, and then the strips
added there: at most as many as a line may show, at most one for each slot, in the order of the slots,
and only the first may be flagged as the first object's. Rendered or not, every strip was added by a
rendered dot of some object fetches. -/
theorem Reachable.strips_of_line (h : m.Reachable) : (∃ past, Chronicle past m)
    ∧ ∀ past, Chronicle past m → ∀ later moment before, past = later ++ moment :: before →
      ∀ (y : Fin screenHeight) (x : Nat), moment.line = .visible y → moment.dot = x + 1 →
        x < screenWidth → ∃ (above : Line) (l : Lineage before above moment.before),
          above.next = some (.visible y)
          ∧ (∀ b ∈ l.births, objectFetchStart < b.moment.dot ∧ b.moment.dot ≤ objectFetchEnd)
          ∧ l.births.length ≤ moment.before.config.limit.perLine
          ∧ (∀ (i : Nat) (hi : i < l.births.length), l.births[i].strip.zero = true → i = 0)
          ∧ (l.dawn.before.rendering = true →
            moment.before.circuit.strips.list = l.births.map Birth.strip
              ∧ (above = .preRender → moment.before.circuit.strips.list = []))
          ∧ moment.before.circuit.strips.list.length ≤ objectCount
          ∧ ∀ s ∈ moment.before.circuit.strips.list,
            ∃ b : Birth κ, b.Genuine ∧ b.moment ∈ before ∧ b.strip = s := by
  refine ⟨h.chronicle, fun past told later moment before parts y x line dot inside => ?_⟩
  obtain ⟨earlier, standing⟩ := told.of_append parts
  obtain ⟨above, touching⟩ := exists_above y
  have descends := earlier.descends
  rw [standing, line, dot] at descends
  obtain ⟨l⟩ := descends.2 (Nat.le_trans inside (by decide)) above touching
  refine ⟨above, l, touching, fun b hb => ?_, l.length_le, fun i hi => l.eq_zero_of_zero hi, fun on => ?_,
    earlier.roomy.room, earlier.genuine⟩
  · rw [(l.genuine b hb).1.dot]
    exact birthDot_bounds b.slot
  · have list : moment.before.circuit.strips.list = l.births.map Birth.strip := by
      rw [l.list_eq, Moment.left, if_pos on, List.nil_append]
    refine ⟨list, fun first => ?_⟩
    rw [list, (l.barren on first).1, List.map_nil]

/-- Line 0 is rendered after rendering was switched on, and so is the first column of line 1. -/
theorem Dawn.reaches_below {m : Machine (Option Unit)} (h : m.Dawn) :
    m.Reaches 338 (.visible ⟨0, by decide⟩) 339 ∧ m.Reaches 339 (.visible ⟨0, by decide⟩) 340
      ∧ m.Reaches 340 (.visible ⟨1, by decide⟩) 0 ∧ m.Reaches 341 (.visible ⟨1, by decide⟩) 1 := by
  have late := reaches_line (k := 338) h.place (by decide)
  have last := late.next (show 339 < 340 by decide)
  have below : m.Reaches 340 (.visible ⟨1, by decide⟩) 0 := last.down rfl (show ¬ 340 < 340 by decide)
  exact ⟨late, last, below, below.next (show 0 < 340 by decide)⟩

/-- Line 0 leaves eight strips for line 1. -/
theorem Dawn.length_strips {m : Machine (Option Unit)} (h : m.Dawn) :
    (m.later 341).circuit.strips.list.length = 8 := by
  have slots := reaches_line h.place (k := 256) (by decide)
  obtain ⟨late, last, below, -⟩ := h.reaches_below
  have own : ((m.later 256).step (.visible ⟨0, by decide⟩) 257).circuit.banks.OwnPatterns := by
    rw [step_banks fixed_none, Machine.later, advanceTo_fixed fixed_none]
    exact Banks.ownPatterns_of_new h.patterns
  have fetched := later_list (h.came.later 256) slots.place ((later_rendering 256 m).trans h.on) own
  rw [slots.later_later] at fetched
  have found : (m.later 320).circuit.strips.list.length = 8 := by
    rw [fetched, List.length_map, List.length_range]
    exact h.sought.2
  -- From there to the line below no slot is fetched.
  have kept (k : Nat) (hk : k ≤ 18) : (m.later (320 + k)).circuit.strips.list.length = 8 := by
    induction k with
    | zero => exact found
    | succ k ih =>
      have reaches := reaches_line (k := 320 + k) h.place (by omega)
      rw [← Nat.add_assoc, reaches.later_succ, step_list _ _ (.inr (by simp only [objectFetchEnd]; omega))]
      exact ih (by omega)
  rw [below.later_succ, step_list _ _ (.inl (by decide)), last.later_succ,
    step_list _ _ (.inr (by decide)), late.later_succ, step_list _ _ (.inr (by decide))]
  exact kept 18 le_rfl

/-- Between the first dot of the object fetches on line 0 and the first column of line 1 lie only dots that
follow it. -/
theorem Dawn.chronicle {m : Machine (Option Unit)} (h : m.Dawn) :
    ∃ recent earlier : List (Moment (Option Unit)),
      Chronicle (⟨m.later 341, .visible ⟨1, by decide⟩, 1⟩ :: (recent
        ++ ⟨m.later 256, .visible ⟨0, by decide⟩, 257⟩ :: earlier)) (m.later 342)
      ∧ ∀ moment ∈ recent, moment.Follows (.visible ⟨0, by decide⟩) := by
  obtain ⟨past, told⟩ := h.came.chronicle
  obtain ⟨late, last, below, column⟩ := h.reaches_below
  have slots := reaches_line h.place (k := 256) (by decide)
  have after := reaches_line h.place (k := 257) (by decide)
  obtain ⟨begun, story, -⟩ := story_later h.place (k := 256) (by decide)
  obtain ⟨fetched, story', all⟩ := story_later after.place (k := 81) (by decide)
  rw [after.later_later] at story'
  have emptied := (told.append story).dot slots.place
  rw [← slots.later_succ] at emptied
  have filled := (emptied.append story').dot late.place
  rw [← late.later_succ] at filled
  have ended := filled.dot last.place
  rw [← last.later_succ] at ended
  have begins := ended.dot below.place
  rw [← below.later_succ] at begins
  have shown := begins.dot column.place
  rw [← column.later_succ] at shown
  refine ⟨_ :: _ :: _ :: fetched, begun ++ past, shown, fun moment mem => ?_⟩
  simp only [List.mem_cons] at mem
  obtain rfl | rfl | rfl | slot := mem
  · exact .inr ⟨rfl, show 0 < 257 by decide⟩
  · exact .inl ⟨rfl, show 257 < 340 by decide⟩
  · exact .inl ⟨rfl, show 257 < 339 by decide⟩
  · obtain ⟨j, -, rfl⟩ := all moment slot
    exact .inl ⟨rfl, show 257 < 1 + 257 + j by omega⟩

/-- The first column of line 1, after line 0 was rendered with all objects at the top of the screen. -/
theorem Reachable.strips_of_line_switchedOn : ∃ (m : Machine (Option Unit)) (moment : Moment (Option Unit))
    (before : List (Moment (Option Unit))), m.Reachable ∧ Chronicle (moment :: before) m
      ∧ moment.line = .visible ⟨1, by decide⟩ ∧ moment.dot = 1 ∧ moment.before.rendering = true
      ∧ ∃ l : Lineage before (.visible ⟨0, by decide⟩) moment.before,
        l.dawn.before.rendering = true ∧ l.births.length = 8
          ∧ moment.before.circuit.strips.list = l.births.map Birth.strip := by
  obtain ⟨lit, h⟩ := exists_dawn
  obtain ⟨recent, earlier, shown, follows⟩ := h.chronicle
  have came := h.came.later 342
  obtain ⟨above, l, touching, -, -, -, own, -⟩ :=
    came.strips_of_line.2 _ shown [] _ _ rfl ⟨1, by decide⟩ 0 rfl rfl (by decide)
  obtain rfl : above = .visible ⟨0, by decide⟩ := above_unique touching rfl
  have on : l.dawn.before.rendering = true := by
    rw [l.dawn_eq rfl rfl follows]
    exact (later_rendering 256 lit).trans h.on
  obtain ⟨list, -⟩ := own on
  have count := congrArg List.length list
  rw [List.length_map] at count
  exact ⟨_, _, _, came, shown, rfl, rfl, (later_rendering 341 lit).trans h.on, l, on,
    count.symm.trans h.length_strips, list⟩

end Machine

end PictureUnit
