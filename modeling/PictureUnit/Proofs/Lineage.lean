import PictureUnit.Proofs.Births
import PictureUnit.Proofs.Latched

/-!
# The strips of a visible line

A visible line is drawn with what the first dot of the object fetches left on the line above it, and
with the strips that the slots added there. If that dot was rendered it left nothing, and all strips
belong to the line. If rendering was off at that very dot, the strips of an earlier line are still in
the list, before those of this line.
-/

set_option autoImplicit false

namespace PictureUnit

variable {κ : Type}

/-- The strips after the first dot of the object fetches. -/
def Moment.left (moment : Moment κ) : List Strip :=
  if moment.before.rendering = true then [] else moment.before.circuit.strips.list

/-- After the first dot of the object fetches of a line, and before that of the next line. -/
def Moment.Follows (line : Line) (moment : Moment κ) : Prop :=
  moment.line = line ∧ objectFetchStart < moment.dot
    ∨ line.next = some moment.line ∧ moment.dot < objectFetchStart

/-- A strip, the slot it was fetched from, and the dot that added it. -/
structure Birth (κ : Type) where
  moment : Moment κ
  slot : Nat
  strip : Strip

/-- The dot was rendered, it is the one of the slot, and it added the strip to the list. -/
structure Birth.Genuine [Cartridge κ] (b : Birth κ) : Prop where
  rendering : b.moment.before.rendering = true
  dot : b.moment.dot = birthDot b.slot
  added : ∃ before after, b.moment.after.circuit.strips.list
    = b.moment.before.circuit.strips.list ++ before ++ b.strip :: after
  zero : b.strip.zero = (b.slot == 0 && b.moment.before.circuit.strips.zeroInRange)

namespace Machine

variable [Cartridge κ] {m n : Machine κ} {past : List (Moment κ)}

/-- The strips that one dot adds, unless it empties the list. -/
theorem step_births (m : Machine κ) (line : Line) {dot : Nat} (hd : dot ≠ objectFetchStart) :
    ∃ births : List (Birth κ),
      (m.step line dot).circuit.strips.list = m.circuit.strips.list ++ births.map Birth.strip
      ∧ (m.step line dot).circuit.strips.pending = m.circuit.strips.pending
      ∧ (∀ b ∈ births, b.Genuine ∧ b.moment = ⟨m, line, dot⟩ ∧ b.slot < m.circuit.strips.pending)
      ∧ births.Pairwise (·.slot < ·.slot) := by
  obtain ⟨bound, new, added, lit⟩ :=
    Circuit.dot_adds line dot m.clock.count m.config.limit m.circuit
  have kept : m.circuit.handedStrips line dot = m.circuit.strips := if_neg fun h => hd h.2
  rw [kept, ← step_circuit] at added
  refine ⟨new.map fun p => ⟨⟨m, line, dot⟩, p.1, p.2⟩, ?_, added.pending, fun b hb => ?_, ?_⟩
  · rw [added.list, List.map_map]
    rfl
  · obtain ⟨p, hp, rfl⟩ := List.mem_map.mp hb
    obtain ⟨-, own, awaited, zero⟩ := added.slot p hp
    obtain ⟨front, rear, parts⟩ := List.append_of_mem hp
    refine ⟨⟨lit (List.ne_nil_of_mem hp), own.symm, ⟨front.map Prod.snd, rear.map Prod.snd, ?_⟩, zero⟩, rfl, awaited⟩
    have list := added.list
    rw [parts, List.map_append, List.map_cons, ← List.append_assoc] at list
    exact list
  · exact List.pairwise_map.mpr added.sorted

/-- The first dot of the object fetches empties the list, if it is rendered. -/
theorem step_dawn (line : Line) (m : Machine κ) :
    (m.step line objectFetchStart).circuit.strips.list = Moment.left ⟨m, line, objectFetchStart⟩
      ∧ (m.rendering = true → line = .preRender →
        (m.step line objectFetchStart).circuit.strips.pending = 0) := by
  obtain ⟨bound, new, added, -⟩ :=
    Circuit.dot_adds line objectFetchStart m.clock.count m.config.limit m.circuit
  have none : new = [] := by
    refine List.eq_nil_iff_forall_not_mem.mpr fun p hp => ?_
    have := (birthDot_bounds p.1).1
    have := (added.slot p hp).2.1
    omega
  subst none
  have list := added.list
  rw [List.map_nil, List.append_nil] at list
  rw [step_circuit, list, added.pending, Moment.left]
  unfold Circuit.handedStrips
  by_cases on : m.rendering = true
  · have lit : m.circuit.registers.mask.rendering = true := on
    rw [if_pos ⟨lit, rfl⟩, if_pos on]
    refine ⟨by cases line <;> rfl, fun _ first => ?_⟩
    subst first
    rfl
  · have dark : ¬ m.circuit.registers.mask.rendering = true := on
    rw [if_neg fun h => dark h.1, if_neg on]
    exact ⟨rfl, fun h => absurd h on⟩

/-- Off the object fetches the list of strips stays. -/
theorem step_list (m : Machine κ) (line : Line) {dot : Nat}
    (hd : dot < objectFetchStart ∨ objectFetchEnd < dot) :
    (m.step line dot).circuit.strips.list = m.circuit.strips.list := by
  have start : dot ≠ objectFetchStart := by
    simp only [objectFetchStart, objectFetchEnd] at *
    omega
  obtain ⟨births, list, -, genuine, -⟩ := step_births m line start
  have none : births = [] := by
    refine List.eq_nil_iff_forall_not_mem.mpr fun b hb => ?_
    obtain ⟨real, moment, -⟩ := genuine b hb
    have bounds := birthDot_bounds b.slot
    rw [← real.dot, moment] at bounds
    change objectFetchStart < dot ∧ dot ≤ objectFetchEnd at bounds
    omega
  rw [list, none, List.map_nil, List.append_nil]

/-- Where the strips of a machine come from, since the object fetches of `line` began. -/
structure Lineage (past : List (Moment κ)) (line : Line) (m : Machine κ) where
  /-- The dots since the first one of the object fetches. -/
  recent : List (Moment κ)
  /-- The first dot of the object fetches. -/
  dawn : Moment κ
  earlier : List (Moment κ)
  births : List (Birth κ)
  past_eq : past = recent ++ dawn :: earlier
  dawn_line : dawn.line = line
  dawn_dot : dawn.dot = objectFetchStart
  recent_follows : ∀ moment ∈ recent, moment.Follows line
  list_eq : m.circuit.strips.list = dawn.left ++ births.map Birth.strip
  genuine : ∀ b ∈ births, b.Genuine ∧ b.moment ∈ recent ∧ b.moment.line = line
    ∧ b.slot < m.config.limit.perLine
  sorted : births.Pairwise (·.slot < ·.slot)
  barren : dawn.before.rendering = true → line = .preRender →
    births = [] ∧ m.circuit.strips.pending = 0

variable {line : Line}

/-- All slots so far were fetched before `dot`. -/
def Lineage.Below (dot : Nat) (l : Lineage past line m) : Prop := ∀ b ∈ l.births, birthDot b.slot < dot

/-- The first dot of the object fetches is the last one at its place. -/
theorem Lineage.dawn_eq (l : Lineage past line m) {recent earlier : List (Moment κ)} {dawn : Moment κ}
    (parts : past = recent ++ dawn :: earlier) (dot : dawn.dot = objectFetchStart)
    (follows : ∀ moment ∈ recent, moment.Follows line) : l.dawn = dawn := by
  have apart (moment : Moment κ) (same : moment.dot = objectFetchStart) : ¬ moment.Follows line := by
    unfold Moment.Follows
    omega
  have both := l.past_eq.symm.trans parts
  obtain ⟨more, front, rear⟩ | ⟨more, front, rear⟩ := List.append_eq_append_iff.mp both
  · cases more with
    | nil =>
      rw [List.nil_append, List.cons.injEq] at rear
      exact rear.1
    | cons first more =>
      rw [List.cons_append, List.cons.injEq] at rear
      have mem : l.dawn ∈ recent := by
        rw [front, rear.1]
        exact List.mem_append_right _ List.mem_cons_self
      exact absurd (follows _ mem) (apart _ l.dawn_dot)
  · cases more with
    | nil =>
      rw [List.nil_append, List.cons.injEq] at rear
      exact rear.1.symm
    | cons first more =>
      rw [List.cons_append, List.cons.injEq] at rear
      have mem : dawn ∈ l.recent := by
        rw [front, rear.1]
        exact List.mem_append_right _ List.mem_cons_self
      exact absurd (l.recent_follows _ mem) (apart _ dot)

def Lineage.start (past : List (Moment κ)) (line : Line) (m : Machine κ) :
    Lineage (⟨m, line, objectFetchStart⟩ :: past) line (m.step line objectFetchStart) where
  recent := []
  dawn := ⟨m, line, objectFetchStart⟩
  earlier := past
  births := []
  past_eq := rfl
  dawn_line := rfl
  dawn_dot := rfl
  recent_follows := fun _ h => by cases h
  list_eq := by rw [(step_dawn line m).1, List.map_nil, List.append_nil]
  genuine := fun _ h => by cases h
  sorted := .nil
  barren := fun on first => ⟨rfl, (step_dawn line m).2 on first⟩

def Lineage.of_strips (l : Lineage past line m) (strips : n.circuit.strips = m.circuit.strips)
    (config : n.config = m.config) : Lineage past line n where
  recent := l.recent
  dawn := l.dawn
  earlier := l.earlier
  births := l.births
  past_eq := l.past_eq
  dawn_line := l.dawn_line
  dawn_dot := l.dawn_dot
  recent_follows := l.recent_follows
  list_eq := by rw [strips, l.list_eq]
  genuine := by
    rw [config]
    exact l.genuine
  sorted := l.sorted
  barren := by
    rw [strips]
    exact l.barren

/-- One dot more adds what it fetches. -/
theorem Lineage.step (l : Lineage past line m) (hm : m.Roomy) {here : Line} {dot : Nat}
    (place : Moment.Follows line (⟨m, here, dot⟩ : Moment κ))
    (below : objectFetchStart < dot → l.Below dot) :
    ∃ l' : Lineage (⟨m, here, dot⟩ :: past) line (m.step here dot),
      objectFetchStart < dot → l'.Below (dot + 1) := by
  have later : dot ≠ objectFetchStart := by
    rcases place with ⟨-, late⟩ | ⟨-, early⟩
    · exact Nat.ne_of_gt late
    · exact Nat.ne_of_lt early
  obtain ⟨births, list, pending, genuine, sorted⟩ := step_births m here later
  have own (b : Birth κ) (hb : b ∈ births) : birthDot b.slot = dot := by
    obtain ⟨real, moment, -⟩ := genuine b hb
    rw [← real.dot, moment]
  -- A dot that adds a strip is one of the object fetches, so it is on the line itself.
  have late (b : Birth κ) (hb : b ∈ births) : objectFetchStart < dot := by
    rw [← own b hb]
    exact (birthDot_bounds b.slot).1
  have before (a : Birth κ) (ha : a ∈ l.births) (b : Birth κ) (hb : b ∈ births) :
      a.slot < b.slot := by
    refine slot_lt_of_birthDot_lt ?_
    rw [own b hb]
    exact below (late b hb) a ha
  let l' : Lineage (⟨m, here, dot⟩ :: past) line (m.step here dot) :=
    { recent := ⟨m, here, dot⟩ :: l.recent
      dawn := l.dawn
      earlier := l.earlier
      births := l.births ++ births
      past_eq := congrArg (⟨m, here, dot⟩ :: ·) l.past_eq
      dawn_line := l.dawn_line
      dawn_dot := l.dawn_dot
      recent_follows := List.forall_mem_cons.mpr ⟨place, l.recent_follows⟩
      list_eq := by rw [list, l.list_eq, List.map_append, List.append_assoc]
      genuine := by
        intro b hb
        rw [step_config]
        obtain old | new := List.mem_append.mp hb
        · obtain ⟨real, told, home, slot⟩ := l.genuine b old
          exact ⟨real, List.mem_cons_of_mem _ told, home, slot⟩
        · obtain ⟨real, moment, awaited⟩ := genuine b new
          rw [moment]
          refine ⟨real, List.mem_cons_self, ?_, Nat.lt_of_lt_of_le awaited hm.pending⟩
          rcases place with ⟨home, -⟩ | ⟨-, early⟩
          · exact home
          · exact absurd (late b new) (Nat.not_lt_of_gt early)
      sorted := List.pairwise_append.mpr ⟨l.sorted, sorted, before⟩
      barren := by
        intro on first
        obtain ⟨none, empty⟩ := l.barren on first
        refine ⟨?_, pending.trans empty⟩
        rw [none, List.nil_append]
        refine List.eq_nil_iff_forall_not_mem.mpr fun b hb => ?_
        have awaited := (genuine b hb).2.2
        rw [empty] at awaited
        exact Nat.not_lt_zero _ awaited }
  refine ⟨l', fun fetching b hb => ?_⟩
  obtain old | new := List.mem_append.mp hb
  · exact Nat.lt_succ_of_lt (below fetching b old)
  · rw [own b new]
    exact Nat.lt_succ_self dot

/-- Where the strips come from, by the place in the raster. -/
def Descends (past : List (Moment κ)) (m : Machine κ) : Position → Prop
  | .blank => True
  | .raster line dot =>
    (objectFetchStart < dot → ∃ l : Lineage past line m, l.Below dot)
      ∧ (dot ≤ objectFetchStart →
        ∀ above : Line, above.next = some line → Nonempty (Lineage past above m))

theorem descends_of_blank (h : m.clock.position = .blank) : Descends past m m.clock.position := by
  rw [h]
  trivial

omit [Cartridge κ] in
/-- Every line is below one line at most. -/
theorem above_unique {a b below : Line} (ha : a.next = some below) (hb : b.next = some below) :
    a = b := by
  have := index_of_next ha
  have := index_of_next hb
  exact index_inj (by omega)

theorem Descends.between {p : Position} (h : Descends past m p) (small : m.Between n) :
    Descends past n p := by
  cases p with
  | blank => trivial
  | raster line dot =>
    refine ⟨fun late => ?_, fun early above touching => ?_⟩
    · obtain ⟨l, below⟩ := h.1 late
      exact ⟨l.of_strips small.pipelines.1 small.config, below⟩
    · obtain ⟨l⟩ := h.2 early above touching
      exact ⟨l.of_strips small.pipelines.1 small.config⟩

/-- No line is above the first one. -/
theorem descends_openFrame (m : Machine κ) :
    Descends past m.openFrame m.openFrame.clock.position := by
  rw [openFrame_position]
  refine ⟨fun late => absurd late (Nat.not_lt_zero _), fun _ above first => ?_⟩
  have := index_of_next first
  exact absurd this (Nat.succ_ne_zero _).symm

theorem Descends.dot {line : Line} {dot : Nat} (h : Descends past m (.raster line dot)) (hm : m.Roomy)
    (onTime : m.OnTime) (standing : m.clock.position = .raster line dot) :
    Descends (⟨m, line, dot⟩ :: past) (m.step line dot) (m.step line dot).clock.position := by
  rw [step_position onTime.paced standing, Position.next]
  split
  · refine ⟨fun late => ?_, fun early above touching => ?_⟩
    · obtain rfl | later := Nat.eq_or_lt_of_le (Nat.le_of_lt_succ late)
      · exact ⟨.start past line m, fun b hb => by cases hb⟩
      · obtain ⟨l, below⟩ := h.1 later
        obtain ⟨l', below'⟩ := l.step hm (.inl ⟨rfl, later⟩) fun _ => below
        exact ⟨l', below' later⟩
    · obtain ⟨l⟩ := h.2 (Nat.le_of_succ_le early) above touching
      obtain ⟨l', -⟩ := l.step hm (.inr ⟨touching, early⟩) fun late => absurd late (by omega)
      exact ⟨l'⟩
  · next last =>
    have late : objectFetchStart < dot := by
      have := Position.le_lastDot (m.shortAfter line dot) line
      unfold objectFetchStart
      omega
    split
    · next below touching =>
      refine ⟨fun late => absurd late (Nat.not_lt_zero _), fun _ above h' => ?_⟩
      cases above_unique h' touching
      obtain ⟨l, under⟩ := h.1 late
      obtain ⟨l', -⟩ := l.step hm (.inl ⟨rfl, late⟩) fun _ => under
      exact ⟨l'⟩
    · trivial

/-- Every machine of a chronicle tells where its strips come from. -/
theorem Chronicle.descends (h : Chronicle past m) : Descends past m m.clock.position := by
  induction h with
  | new config banks cartridge host => exact descends_of_blank rfl
  | reset _ kind => cases kind <;> exact descends_of_blank rfl
  | loaded _ hl =>
    obtain ⟨chunks, -, rfl⟩ := load_eq_restore hl
    exact descends_of_blank (restore_waiting chunks _).blank
  | between _ small ih =>
    obtain rfl | same := small.position
    · exact descends_openFrame _
    · rw [same]
      exact ih.between small
  | dot told standing ih =>
    have onTime := told.onTime (by rw [standing]; exact Position.noConfusion)
    rw [standing] at ih
    exact ih.dot told.roomy onTime standing

omit [Cartridge κ] in
theorem exists_above (y : Fin screenHeight) : ∃ above : Line, above.next = some (.visible y) := by
  obtain ⟨y, inside⟩ := y
  cases y with
  | zero => exact ⟨.preRender, rfl⟩
  | succ y => exact ⟨.visible ⟨y, Nat.lt_of_succ_lt inside⟩, dif_pos inside⟩

/-- A strip is fetched from no slot before its own place in the list. -/
theorem Lineage.le_slot (l : Lineage past line m) {i : Nat} (hi : i < l.births.length) :
    i ≤ l.births[i].slot := by
  induction i with
  | zero => exact Nat.zero_le _
  | succ i ih =>
    have rising := List.pairwise_iff_getElem.mp l.sorted i (i + 1) (by omega) hi (Nat.lt_succ_self i)
    exact Nat.lt_of_le_of_lt (ih _) rising

theorem Lineage.length_le (l : Lineage past line m) : l.births.length ≤ m.config.limit.perLine := by
  by_contra more
  have last : l.births.length - 1 < l.births.length := by omega
  have slot := (l.genuine _ (List.getElem_mem last)).2.2.2
  have := l.le_slot last
  omega

theorem Lineage.eq_zero_of_zero (l : Lineage past line m) {i : Nat} (hi : i < l.births.length)
    (flagged : l.births[i].strip.zero = true) : i = 0 := by
  have zero := (l.genuine _ (List.getElem_mem hi)).1.zero
  rw [flagged, eq_comm, Bool.and_eq_true, beq_iff_eq] at zero
  have := l.le_slot hi
  omega

/-- Every strip in the list was added by a dot that was rendered. -/
theorem Chronicle.genuine (h : Chronicle past m) : ∀ s ∈ m.circuit.strips.list,
    ∃ b : Birth κ, b.Genuine ∧ b.moment ∈ past ∧ b.strip = s := by
  induction h with
  | new config banks cartridge host =>
    intro s hs
    cases hs
  | reset _ kind =>
    intro s hs
    cases kind <;> cases hs
  | loaded _ hl =>
    obtain ⟨chunks, -, rfl⟩ := load_eq_restore hl
    rw [restore_eq]
    intro s hs
    cases hs
  | between _ small ih =>
    rw [small.pipelines.1]
    exact ih
  | @dot past m line dot told _ ih =>
    have old (s : Strip) (hs : s ∈ m.circuit.strips.list) :
        ∃ b : Birth κ, b.Genuine ∧ b.moment ∈ (⟨m, line, dot⟩ :: past : List (Moment κ)) ∧ b.strip = s := by
      obtain ⟨b, real, told, strip⟩ := ih s hs
      exact ⟨b, real, List.mem_cons_of_mem _ told, strip⟩
    by_cases start : dot = objectFetchStart
    · subst start
      rw [(step_dawn line m).1, Moment.left]
      split
      · intro s hs
        cases hs
      · exact old
    · obtain ⟨births, list, -, genuine, -⟩ := step_births m line start
      rw [list]
      intro s hs
      obtain kept | new := List.mem_append.mp hs
      · exact old s kept
      · obtain ⟨b, hb, rfl⟩ := List.mem_map.mp new
        obtain ⟨real, moment, -⟩ := genuine b hb
        exact ⟨b, real, moment ▸ List.mem_cons_self, rfl⟩

/-- A chronicle holds the chronicle of each of its moments. -/
theorem Chronicle.of_append {later before : List (Moment κ)} {moment : Moment κ}
    (h : Chronicle past m) (parts : past = later ++ moment :: before) :
    Chronicle before moment.before
      ∧ moment.before.clock.position = .raster moment.line moment.dot := by
  induction h generalizing later with
  | new config banks cartridge host => simp at parts
  | reset _ kind ih => exact ih parts
  | loaded _ hl ih => exact ih parts
  | between _ small ih => exact ih parts
  | @dot past m line dot told standing ih =>
    cases later with
    | nil =>
      rw [List.nil_append, List.cons.injEq] at parts
      obtain ⟨rfl, rfl⟩ := parts
      exact ⟨told, standing⟩
    | cons first later =>
      rw [List.cons_append, List.cons.injEq] at parts
      exact ih parts.2

/-- A machine just switched on, in whose first frame rendering was switched on before the first dot of
line 0 that it can matter to. All its objects lie at the top of the screen. -/
structure Dawn (m : Machine (Option Unit)) : Prop extends m.Lit where
  came : m.Reachable
  limit : m.config.limit = .hardware
  patterns : m.circuit.banks.patterns = Banks.new.patterns
  names : m.circuit.banks.names = Banks.new.names
  objects : m.circuit.objects = .filled 256 0
  objectAddress : m.circuit.registers.objectAddress = 0
  control : m.circuit.registers.control = ⟨0⟩

theorem exists_dawn : ∃ m : Machine (Option Unit), m.Dawn := by
  have new : (Machine.new ⟨.ntsc, .hardware⟩ .new (none : Option Unit) (.new fun _ => 0)).Reachable :=
    .new _ _ _ _
  have dark : (Machine.new ⟨.ntsc, .hardware⟩ .new (none : Option Unit)
      (.new fun _ => 0)).rendering = false := by
    change Mask.rendering ⟨0⟩ = false
    decide
  obtain ⟨lit, lights, -⟩ := openFrame_lit Cartridge.silent_none dark rfl
  exact ⟨_, lit, (new.move (.opened (if_pos rfl))).turn _, congrArg Config.limit lights.board.config,
    lights.board.patterns, lights.board.names, lights.objects, lights.objectAddress, lights.control⟩

end Machine

end PictureUnit
