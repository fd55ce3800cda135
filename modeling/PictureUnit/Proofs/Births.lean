import PictureUnit.Proofs.Contents
import PictureUnit.Proofs.Secondary
import PictureUnit.Proofs.Story

/-!
# Where the strips come from

Each of the eight slots adds its strip in the last dot of its fetch, and the slots past them follow in
the very last. The list is emptied by the first dot of the object fetches, if that dot is rendered. So
on a visible line the list holds what that dot left on the line above, and the strips fetched there
since: at most one for each slot, in the order of the slots.
-/

set_option autoImplicit false

namespace PictureUnit

/-- The dot that adds the strip of a slot. -/
def birthDot (slot : Nat) : Nat := objectFetchStart + 8 * min slot 7 + 7

theorem birthDot_bounds (slot : Nat) : objectFetchStart < birthDot slot ∧ birthDot slot ≤ objectFetchEnd := by
  unfold birthDot objectFetchStart objectFetchEnd
  omega

theorem slot_lt_of_birthDot_lt {slot other : Nat} (h : birthDot slot < birthDot other) : slot < other := by
  unfold birthDot at h
  omega

namespace Strips

/-- The slots below `bound` add these strips, each with its slot, in one dot. -/
structure Adds (dot bound : Nat) (s t : Strips) (new : List (Nat × Strip)) : Prop where
  list : t.list = s.list ++ new.map Prod.snd
  pending : t.pending = s.pending
  zeroInRange : t.zeroInRange = s.zeroInRange
  room : s.list.length ≤ objectCount → t.list.length ≤ objectCount
  slot : ∀ p ∈ new, p.1 < bound ∧ birthDot p.1 = dot ∧ p.1 < s.pending
    ∧ p.2.zero = (p.1 == 0 && s.zeroInRange)
  sorted : new.Pairwise fun p q => p.1 < q.1

variable {dot bound : Nat} {s t u : Strips} {new : List (Nat × Strip)}

theorem Adds.refl (dot bound : Nat) (s : Strips) : Adds dot bound s s [] where
  list := (List.append_nil s.list).symm
  pending := rfl
  zeroInRange := rfl
  room := id
  slot := by
    intro p hp
    cases hp
  sorted := .nil

theorem Adds.select (h : Adds dot bound s t new) (slot : Nat) (memory : Block 256) :
    Adds dot bound s (t.select slot memory) new :=
  ⟨h.list, h.pending, h.zeroInRange, h.room, h.slot, h.sorted⟩

theorem Adds.latchLow (h : Adds dot bound s t new) (byte : UInt8) :
    Adds dot bound s (t.latchLow byte) new :=
  ⟨h.list, h.pending, h.zeroInRange, h.room, h.slot, h.sorted⟩

/-- The next slot is committed, if it is pending and there is room. -/
theorem Adds.commit (h : Adds dot bound s t new) (own : birthDot bound = dot) (high : UInt8) :
    ∃ more, Adds dot (bound + 1) s (t.commit bound high) more := by
  have below (p : Nat × Strip) (hp : p ∈ new) := h.slot p hp
  unfold Strips.commit
  split
  · next fits =>
    obtain ⟨awaited, room⟩ := fits
    refine ⟨new ++ [(bound, t.strip bound high)], ?_, h.pending, h.zeroInRange, fun _ => ?_,
      fun p hp => ?_, ?_⟩
    · simp [h.list]
    · simp only [List.length_append, List.length_singleton]
      omega
    · rw [List.mem_append, List.mem_singleton] at hp
      obtain old | rfl := hp
      · obtain ⟨under, rest⟩ := below p old
        exact ⟨Nat.lt_succ_of_lt under, rest⟩
      · refine ⟨Nat.lt_succ_self bound, own, h.pending ▸ awaited, ?_⟩
        rw [← h.zeroInRange]
        rfl
    · refine List.pairwise_append.mpr ⟨h.sorted, List.pairwise_singleton _ _, fun p hp q hq => ?_⟩
      rw [List.mem_singleton.mp hq]
      exact (below p hp).1
  · refine ⟨new, h.list, h.pending, h.zeroInRange, h.room, fun p hp => ?_, h.sorted⟩
    obtain ⟨under, rest⟩ := below p hp
    exact ⟨Nat.lt_succ_of_lt under, rest⟩

end Strips

namespace Evaluation

variable {limit : SpriteLimit} {i : Inputs} {e : Evaluation}

/-- No step finds more objects than a line may show. -/
theorem step_found_le (h : e.Bounded i.limit) (full : e.found ≤ i.limit.perLine) :
    (e.step i).found ≤ i.limit.perLine := by
  unfold step
  split
  · exact full
  · unfold compare
    dsimp only
    split <;> exact full
  · exact full
  · exact full
  · next hs =>
    have room : e.found < i.limit.perLine := h.room (by rw [hs]; rfl)
    exact room
  · unfold scan
    split <;> exact full
  · unfold skip
    by_cases last : e.byte = 3
    · rw [if_pos last]
      dsimp only
      split <;> exact full
    · rw [if_neg last]
      dsimp only
      split <;> exact full
  · exact full

/-- Nor does any other operation, as long as nothing is written past the slots. -/
theorem found_invariant (limit : SpriteLimit) :
    Invariant limit fun e => e.Bounded limit ∧ e.found ≤ limit.perLine where
  clearStep h dot := by
    refine ⟨clearStep_bounded h.1 dot, ?_⟩
    unfold clearStep
    split
    · exact h.2
    · split <;> exact h.2
  start h address := ⟨start_bounded h.1 address, Nat.zero_le _⟩
  step hi h := by
    subst hi
    exact ⟨step_bounded h.1, step_found_le h.1 h.2⟩
  stop h := ⟨stop_bounded h.1, Nat.zero_le _⟩
  latch h value := ⟨latch_bounded h.1 value, h.2⟩

end Evaluation

namespace Circuit

variable {κ : Type} [Cartridge κ] {c : Circuit κ}

theorem fetchTile_strips (phase : Phase) (dot cycle : Nat) (c : Circuit κ) :
    (c.fetchTile phase dot cycle).strips = c.strips := by
  have name := (readName_still c.bus c).strips
  have pattern := (readPattern_still c.bus c).strips
  cases phase with
  | openName | openAttributes | openLow | openHigh => rfl
  | name | attributes => exact name
  | low | high => exact pattern

/-- The last dot of a fetch commits the slot. -/
theorem fetchObject_adds (line : Line) {slot dot : Nat} (phase : Phase) (cycle : Nat) (c : Circuit κ)
    (own : phase = .high → birthDot slot = dot) : ∃ new,
      Strips.Adds dot (slot + 1) c.strips (c.fetchObject line slot phase cycle).strips new := by
  have start (bound : Nat) : Strips.Adds dot bound c.strips c.strips [] := .refl _ _ _
  have name (bound : Nat) : Strips.Adds dot bound c.strips (c.readName c.bus).2.strips [] := by
    rw [(readName_still c.bus c).strips]
    exact .refl _ _ _
  have pattern (bound : Nat) : Strips.Adds dot bound c.strips (c.readPattern c.bus).2.strips [] := by
    rw [(readPattern_still c.bus c).strips]
    exact .refl _ _ _
  cases phase with
  | openName => exact ⟨[], (start _).select slot c.evaluation.secondary⟩
  | openAttributes | openLow | openHigh => exact ⟨[], start _⟩
  | name | attributes => exact ⟨[], name _⟩
  | low => exact ⟨[], (pattern _).latchLow _⟩
  | high => exact (pattern slot).commit (own rfl) _

theorem fetchExtra_adds {s : Strips} {new : List (Nat × Strip)} {dot slot : Nat} (line : Line)
    (h : Strips.Adds dot slot s c.strips new) (own : birthDot slot = dot) :
    ∃ more, Strips.Adds dot (slot + 1) s (c.fetchExtra line slot).strips more := by
  let selected := { c with strips := c.strips.select slot c.evaluation.secondary }
  let address := selected.strips.object.lowAddress line selected.registers.control
  let low := selected.readPattern address
  let high := low.2.readPattern (highPlane address)
  have kept : high.2.strips = selected.strips :=
    (readPattern_still _ _).strips.trans (readPattern_still _ _).strips
  have read : Strips.Adds dot slot s high.2.strips new := by
    rw [kept]
    exact h.select slot c.evaluation.secondary
  exact (read.latchLow low.1).commit own high.1

theorem fetchExtras_adds {s : Strips} {new : List (Nat × Strip)} (line : Line)
    (h : Strips.Adds objectFetchEnd 8 s c.strips new) :
    ∃ bound more, Strips.Adds objectFetchEnd bound s (c.fetchExtras line).strips more := by
  have fetched (n first : Nat) (late : 8 ≤ first) {c : Circuit κ} {new : List (Nat × Strip)}
      (h : Strips.Adds objectFetchEnd first s c.strips new) : ∃ bound more,
        Strips.Adds objectFetchEnd bound s
          ((List.range' first n).foldl (fetchExtra line) c).strips more := by
    induction n generalizing first c new with
    | zero => exact ⟨first, new, h⟩
    | succ n ih =>
      have own : birthDot first = objectFetchEnd := by
        unfold birthDot objectFetchStart objectFetchEnd
        omega
      obtain ⟨more, added⟩ := fetchExtra_adds line h own
      exact ih (first + 1) (by omega) added
  exact fetched _ 8 (Nat.le_refl 8) h

omit [Cartridge κ] in
theorem latchSlot_strips (dot : Nat) (c : Circuit κ) : (c.latchSlot dot).strips = c.strips := by
  simp only [latchSlot]

omit [Cartridge κ] in
theorem searching_strips (line : Line) (dot : Nat) (limit : SpriteLimit) (c : Circuit κ) :
    (c.searching line dot limit).strips = c.strips := by
  have searched := congrArg Works.strips (searching_works line dot limit c)
  exact searched.trans (c.works.search_keeps line dot limit).1

omit [Cartridge κ] in
theorem prepareStrips_congr {c d : Circuit κ} (strips : d.strips = c.strips)
    (evaluation : d.evaluation = c.evaluation) (line : Line) :
    (d.prepareStrips line).strips = (c.prepareStrips line).strips := by
  simp only [prepareStrips, strips, evaluation]

theorem mod_eq_of_high {dot : Nat} (h : Phase.ofIndex (dot - 257) = .high) :
    (dot - 257) % 8 = 7 := by
  grind [Phase.ofIndex]

/-- Apart from the dots of the slots no fetch touches the strips. -/
theorem fetch_strips (line : Line) {dot : Nat} (hd : ¬ (257 ≤ dot ∧ dot ≤ 320)) (cycle : Nat)
    (c : Circuit κ) : (c.fetch line dot cycle).strips = c.strips := by
  unfold fetch
  split
  · rfl
  · exact fetchTile_strips _ dot cycle c
  · next object => exact absurd (bounds_of_ofDot object) hd
  · rfl
  · exact (readName_still c.bus c).strips

/-- Only the slot whose fetch ends adds its strip, and the last one the strips past it. -/
theorem fetch_adds (line : Line) (dot cycle : Nat) (c : Circuit κ) : ∃ bound new,
    Strips.Adds dot bound c.strips (c.fetch line dot cycle).strips new := by
  by_cases slots : 257 ≤ dot ∧ dot ≤ 320
  · have own (h : Phase.ofIndex (dot - 257) = .high) : birthDot (objectSlot dot) = dot := by
      have := mod_eq_of_high h
      unfold birthDot objectSlot objectFetchStart
      omega
    obtain ⟨new, added⟩ := fetchObject_adds line (.ofIndex (dot - 257)) cycle c own
    rw [fetch, ofDot_slot slots]
    dsimp only
    rw [latchSlot_strips]
    split
    · next last =>
      subst last
      exact fetchExtras_adds line added
    · exact ⟨_, new, added⟩
  · rw [fetch_strips line slots]
    exact ⟨0, [], .refl _ _ _⟩

/-- The strips once the search is handed over, if this dot does that. -/
def handedStrips (line : Line) (dot : Nat) (c : Circuit κ) : Strips :=
  if c.registers.mask.rendering = true ∧ dot = objectFetchStart then (c.prepareStrips line).strips
  else c.strips

omit [Cartridge κ] in
theorem rewindAddress_strips (line : Line) (dot : Nat) (c : Circuit κ) :
    ((c.rewindAddress line dot).clearObjectAddress dot).strips = c.strips := by
  unfold clearObjectAddress rewindAddress
  split
  · split
    · rfl
    · split <;> rfl
  · split
    · rfl
    · split <;> rfl

/-- What a dot makes of the strips, whatever answers in the cartridge slot. -/
theorem dot_adds (line : Line) (dot cycle : Nat) (limit : SpriteLimit) (c : Circuit κ) :
    ∃ bound new, Strips.Adds dot bound (c.handedStrips line dot) (c.dot line dot cycle limit).strips new
      ∧ (new ≠ [] → c.registers.mask.rendering = true) := by
  by_cases first : dot = 0
  · subst first
    have kept : c.handedStrips line 0 = c.strips := if_neg fun h => by cases h.2
    rw [kept]
    exact ⟨0, [], .refl _ _ _, fun h => absurd rfl h⟩
  have drawn := drawn_works line dot c
  have whole : c.dot line dot cycle limit =
      let d := (c.clearFlags line dot).drawDot line dot
      let d := if d.registers.mask.rendering then d.render line dot cycle limit else d
      if dot = objectFetchStart then d.blankStart line else d := if_neg first
  rw [whole]
  generalize (c.clearFlags line dot).drawDot line dot = d at drawn
  have rendering : d.registers.mask.rendering = c.registers.mask.rendering :=
    congrArg (·.settings.mask.rendering) drawn
  have strips : d.strips = c.strips := congrArg Works.strips drawn
  have evaluation : d.evaluation = c.evaluation := congrArg Works.evaluation drawn
  have told (e : Circuit κ) :
      (if dot = objectFetchStart then e.blankStart line else e).strips = e.strips := by
    split <;> rfl
  dsimp only
  rw [told, rendering]
  by_cases on : c.registers.mask.rendering = true
  · have handed : (if dot = objectFetchStart then (d.searching line dot limit).prepareStrips line
        else d.searching line dot limit).strips = c.handedStrips line dot := by
      unfold handedStrips
      split
      · next start =>
        rw [if_pos ⟨on, start⟩, searching_of_lt line (by rw [start]; decide)]
        exact prepareStrips_congr strips evaluation line
      · next other =>
        rw [if_neg fun h => other h.2, searching_strips, strips]
    obtain ⟨bound, new, added⟩ := fetch_adds line dot cycle
      (if dot = objectFetchStart then (d.searching line dot limit).prepareStrips line
        else d.searching line dot limit)
    rw [if_pos on, render_eq, rewindAddress_strips, ← handed]
    exact ⟨bound, new, added, fun _ => on⟩
  · have kept : c.handedStrips line dot = c.strips := if_neg fun h => on h.1
    rw [if_neg on, kept, strips]
    exact ⟨0, [], .refl _ _ _, fun h => absurd rfl h⟩

end Circuit

namespace Machine

variable {κ : Type} [Cartridge κ] {m n : Machine κ} {past : List (Moment κ)}

/-- Nothing holds more than it has room for. -/
structure Roomy (m : Machine κ) : Prop where
  bounded : m.Bounded
  found : m.circuit.evaluation.found ≤ m.config.limit.perLine
  pending : m.circuit.strips.pending ≤ m.config.limit.perLine
  room : m.circuit.strips.list.length ≤ objectCount

omit [Cartridge κ] in
theorem roomy_of_empty (evaluation : m.circuit.evaluation = .resting)
    (strips : m.circuit.strips = .empty) : m.Roomy where
  bounded := by
    rw [Bounded, evaluation]
    exact Evaluation.resting_bounded _
  found := by
    rw [evaluation]
    exact Nat.zero_le _
  pending := by
    rw [strips]
    exact Nat.zero_le _
  room := by
    rw [strips]
    exact Nat.zero_le _

theorem Roomy.step (h : m.Roomy) (line : Line) (dot : Nat) : (m.step line dot).Roomy := by
  obtain ⟨bound, new, added, -⟩ := Circuit.dot_adds line dot m.clock.count m.config.limit m.circuit
  have handed : (m.circuit.handedStrips line dot).pending ≤ m.config.limit.perLine
      ∧ (m.circuit.handedStrips line dot).list.length ≤ objectCount := by
    unfold Circuit.handedStrips
    split
    · cases line with
      | preRender => exact ⟨Nat.zero_le _, Nat.zero_le _⟩
      | visible y => exact ⟨h.found, Nat.zero_le _⟩
    · exact ⟨h.pending, h.room⟩
  obtain ⟨bounded, found⟩ := (Evaluation.found_invariant m.config.limit).dot ⟨h.bounded, h.found⟩ line
    dot m.clock.count
  constructor
  · rw [Bounded, step_circuit, step_config]
    exact bounded
  · rw [step_circuit, step_config]
    exact found
  · rw [step_circuit, step_config, added.pending]
    exact handed.1
  · rw [step_circuit]
    exact added.room handed.2

theorem Chronicle.roomy (h : Chronicle past m) : m.Roomy := by
  induction h with
  | new config banks cartridge host => exact roomy_of_empty rfl rfl
  | dot _ _ ih => exact ih.step _ _
  | between _ small ih =>
    constructor
    · exact ih.bounded.of_eq small.pipelines.2 small.config
    · rw [small.pipelines.2, small.config]
      exact ih.found
    · rw [small.pipelines.1, small.config]
      exact ih.pending
    · rw [small.pipelines.1]
      exact ih.room
  | reset _ kind => cases kind <;> exact roomy_of_empty rfl rfl
  | loaded _ hl =>
    obtain ⟨chunks, -, rfl⟩ := load_eq_restore hl
    rw [restore_eq]
    exact roomy_of_empty rfl rfl

end Machine

end PictureUnit
