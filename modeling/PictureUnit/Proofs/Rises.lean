import PictureUnit.Proofs.AddressLine
import PictureUnit.Proofs.Debounce
import PictureUnit.Proofs.Derived
import PictureUnit.Proofs.Undisturbed

/-!
# One rise on every rendered line

A watch sees the addresses of a rendered frame. On every line the tiles keep the address line low for
hundreds of dots, so the first object raises it; between two object slots it is low for four dots only,
which the watch takes for no more than a glitch. Where the watch stood before does not matter.
-/

set_option autoImplicit false

namespace PictureUnit

/-- The lines from a line on are that line and those from the one below it on. -/
theorem drop_index (line : Line) : Line.all.drop line.index = line :: Line.all.drop (line.index + 1) := by
  obtain ⟨h, hl⟩ := List.getElem?_eq_some_iff.mp (getElem?_index line)
  rw [List.drop_eq_getElem_cons h, hl]

theorem Clock.dotsBefore_eq (c : Clock) (line : Line) (dot : Nat) :
    c.dotsBefore line dot = c.dotsBefore line 0 + dot := by
  induction dot with
  | zero => rfl
  | succ dot ih => rw [dotsBefore_succ, ih, Nat.add_assoc]

namespace A12

variable {w : Watch} {t c d : Nat}

/-- The cycles at which a watch reports a rise. -/
def Watch.rises (w : Watch) (history : List (Nat × Nat)) : List Nat :=
  ((history.zip (w.edges history)).filter fun seen => seen.2 = some .rise).map fun seen => seen.1.2

theorem Watch.rises_cons (w : Watch) (address cycle : Nat) (rest : List (Nat × Nat)) :
    w.rises ((address, cycle) :: rest) = (if w.edge address cycle = some .rise then [cycle] else [])
      ++ (w.observe address cycle).rises rest := by
  unfold rises
  rw [edges, List.zip_cons_cons, List.filter_cons]
  by_cases h : w.edge address cycle = some .rise
  · simp [h]
  · simp [h]

theorem Watch.rises_append (w : Watch) (first rest : List (Nat × Nat)) :
    w.rises (first ++ rest) = w.rises first ++ (w.after first).rises rest := by
  induction first generalizing w with
  | nil => rfl
  | cons seen first ih =>
    obtain ⟨address, cycle⟩ := seen
    rw [List.cons_append, rises_cons, rises_cons, ih, List.append_assoc]
    rfl

/-- The addresses seen in these dots, one dot after the other from this cycle on: in each of them the
address line is as its fetch has it. -/
inductive Shows (t : Nat) : Nat → List (Line × Nat) → List (Nat × Nat) → Prop where
  | nil (c : Nat) : Shows t c [] []
  | silent {c : Nat} {line : Line} {d : Nat} {ds : List (Line × Nat)} {seen : List (Nat × Nat)}
      (level : (Fetch.ofDot d).level? = none) (rest : Shows t (c + t) ds seen) :
      Shows t c ((line, d) :: ds) seen
  | driven {c : Nat} {line : Line} {d address : Nat} {ds : List (Line × Nat)} {seen : List (Nat × Nat)}
      (level : (Fetch.ofDot d).level? = some (isHigh address)) (rest : Shows t (c + t) ds seen) :
      Shows t c ((line, d) :: ds) ((address, c) :: seen)

theorem Shows.append {ds es : List (Line × Nat)} {seen : List (Nat × Nat)}
    (h : Shows t c (ds ++ es) seen) : ∃ first rest, seen = first ++ rest ∧ Shows t c ds first
      ∧ Shows t (c + ds.length * t) es rest := by
  induction ds generalizing c seen with
  | nil => exact ⟨[], seen, rfl, .nil c, by simpa using h⟩
  | cons place ds ih =>
    have next : c + (place :: ds).length * t = c + t + ds.length * t := by
      rw [List.length_cons, Nat.add_mul]
      omega
    rw [next]
    cases h with
    | silent level later =>
      obtain ⟨first, rest, rfl, shows, others⟩ := ih later
      exact ⟨first, rest, rfl, .silent level shows, others⟩
    | driven level later =>
      obtain ⟨first, rest, rfl, shows, others⟩ := ih later
      exact ⟨_ :: first, rest, rfl, .driven level shows, others⟩

/-- The longest that the address line can have been low, so many dots into an object slot. -/
def slotLow (t : Nat) : Nat → Nat
  | 0 => 1
  | 1 => 1 + t
  | 2 => 1 + 2 * t
  | 3 => 1 + 3 * t
  | 4 => 1 + 4 * t
  | _ => 0

theorem slotLow_of_high (t : Nat) {k : Nat} (h : 5 ≤ k) : slotLow t k = 0 := by
  unfold slotLow
  split <;> omega

/-- How long the address line was low can be told at each dot of a line: since the line's first address
before the objects, and since the last object in between them. -/
structure Tracks (t c d : Nat) (w : Watch) : Prop where
  threshold : w.threshold = lowDots * t
  past : 1 < d → w.lastCycle ≤ c
  long : 1 < d → d ≤ 261 → min (1 + (d - 1) * t) largest64 ≤ w.lowTimeAt c
  brief : 261 < d → d ≤ objectFetchEnd → w.lowTimeAt c ≤ slotLow t ((d - objectFetchStart) % 8)

theorem tracks_start (threshold : w.threshold = lowDots * t) (c : Nat) : Tracks t c 0 w where
  threshold := threshold
  past h := by omega
  long h := by omega
  brief h := by omega

theorem lowTimeAt_add (past : w.lastCycle ≤ c) :
    w.lowTimeAt (c + t) = if w.lowTimeAt c = 0 then 0 else min (w.lowTimeAt c + t) largest64 := by
  have room : 0 < largest64 := by decide
  unfold Watch.lowTimeAt
  by_cases high : w.lowTime = 0
  · rw [if_pos high, if_pos high, if_pos rfl]
  · rw [if_neg high, if_neg high, if_neg (by omega)]
    omega

theorem lowTimeAt_add_le (past : w.lastCycle ≤ c) : w.lowTimeAt (c + t) ≤ w.lowTimeAt c + t := by
  rw [lowTimeAt_add past]
  by_cases high : w.lowTimeAt c = 0
  · rw [if_pos high]
    exact Nat.zero_le _
  · rw [if_neg high]
    exact Nat.min_le_left _ _

theorem lowTimeAt_observe (w : Watch) (address c t : Nat) : (w.observe address c).lowTimeAt (c + t)
    = if isHigh address then 0 else min (max 1 (w.lowTimeAt c) + t) largest64 := by
  have passed : c + t - c = t := Nat.add_sub_cancel_left c t
  cases high : isHigh address with
  | true => simp [Watch.lowTimeAt, Watch.observe, high]
  | false =>
    have nonzero : max 1 (w.lowTimeAt c) ≠ 0 := by omega
    rw [Watch.lowTimeAt, Watch.observe, high]
    dsimp only
    rw [if_neg Bool.false_ne_true, if_neg nonzero, passed]
    rfl

theorem edge_low {address : Nat} (low : isHigh address = false) (w : Watch) (c : Nat) :
    w.edge address c ≠ some .rise := by
  rw [Watch.edge, low]
  simp

theorem edge_high {address : Nat} (high : isHigh address = true) (w : Watch) (c : Nat) :
    w.edge address c = some .rise ↔ w.threshold < w.lowTimeAt c := by
  rw [Watch.edge, if_pos high]
  split <;> simp_all

/-- What a dot's place tells of the address line. -/
theorem level_cases {b : Bool} (hd : d < dotsPerLine) (h : (Fetch.ofDot d).level? = some b) :
    d % 2 = 1 ∧ (b = true ↔ objectFetchStart ≤ d ∧ d ≤ objectFetchEnd ∧ 4 ≤ (d - objectFetchStart) % 8) := by
  rw [level_ofDot hd] at h
  split at h
  · cases h
  · refine ⟨by omega, ?_⟩
    rw [← Option.some.inj h, decide_eq_true_iff]

theorem even_of_silent (hd : d < dotsPerLine) (h : (Fetch.ofDot d).level? = none) : d % 2 = 0 := by
  rw [level_ofDot hd] at h
  split at h
  · assumption
  · cases h

/-- One dot later a line has lasted one dot more. -/
theorem succ_mul_pred (t : Nat) (h : 1 ≤ d) : (d + 1 - 1) * t = (d - 1) * t + t := by
  obtain ⟨k, rfl⟩ : ∃ k, d = k + 1 := ⟨d - 1, by omega⟩
  exact Nat.succ_mul k t

/-- Past the first object, in the dots of a slot that drive nothing. -/
theorem slot_even (even : d % 2 = 0) (h : 261 < d) :
    (d - objectFetchStart) % 8 = 1 ∧ (d + 1 - objectFetchStart) % 8 = 2
      ∨ (d - objectFetchStart) % 8 = 3 ∧ (d + 1 - objectFetchStart) % 8 = 4
      ∨ 5 ≤ (d - objectFetchStart) % 8 := by
  simp only [objectFetchStart]
  omega

/-- Past the first object, in the dots of a slot that drive the line low. -/
theorem slot_odd (odd : d % 2 = 1) (h : 261 < d) (last : d ≤ objectFetchEnd)
    (outside : ¬ (objectFetchStart ≤ d ∧ d ≤ objectFetchEnd ∧ 4 ≤ (d - objectFetchStart) % 8)) :
    (d - objectFetchStart) % 8 = 0 ∧ (d + 1 - objectFetchStart) % 8 = 1
      ∨ (d - objectFetchStart) % 8 = 2 ∧ (d + 1 - objectFetchStart) % 8 = 3 := by
  simp only [objectFetchStart, objectFetchEnd] at last outside ⊢
  omega

theorem Tracks.silent (h : Tracks t c d w) (even : d % 2 = 0) : Tracks t (c + t) (d + 1) w := by
  have later (after : 1 < d + 1) : w.lastCycle ≤ c := h.past (by omega)
  refine ⟨h.threshold, fun after => Nat.le_add_right_of_le (later after), fun after before => ?_,
    fun after before => ?_⟩
  · have long := h.long (by omega) (by omega)
    have room : 0 < largest64 := by decide
    rw [lowTimeAt_add (later after), if_neg (by omega), succ_mul_pred t (by omega)]
    omega
  · have grown := lowTimeAt_add_le (t := t) (later (by omega))
    have brief := h.brief (by omega) (by omega)
    obtain ⟨k, next⟩ | ⟨k, next⟩ | k := slot_even even (by omega : 261 < d)
    · rw [k] at brief
      rw [next]
      simp only [slotLow] at brief ⊢
      omega
    · rw [k] at brief
      rw [next]
      simp only [slotLow] at brief ⊢
      omega
    · have high : w.lowTimeAt c = 0 := Nat.le_zero.mp (brief.trans (slotLow_of_high t k).le)
      rw [lowTimeAt_add (later (by omega)), if_pos high]
      exact Nat.zero_le _

theorem Tracks.low {address : Nat} (h : Tracks t c d w) (low : isHigh address = false) (odd : d % 2 = 1)
    (outside : ¬ (objectFetchStart ≤ d ∧ d ≤ objectFetchEnd ∧ 4 ≤ (d - objectFetchStart) % 8)) :
    Tracks t (c + t) (d + 1) (w.observe address c) := by
  refine ⟨h.threshold, fun _ => Nat.le_add_right c t, fun after before => ?_, fun after before => ?_⟩
  · rw [lowTimeAt_observe, low, if_neg Bool.false_ne_true, succ_mul_pred t (by omega)]
    obtain rfl | started : d = 1 ∨ 1 < d := by omega
    · omega
    · have long := h.long started (by omega)
      omega
  · have later : 261 < d := by
      simp only [objectFetchStart, objectFetchEnd] at outside
      omega
    have brief := h.brief later (by omega)
    rw [lowTimeAt_observe, low, if_neg Bool.false_ne_true]
    obtain ⟨k, next⟩ | ⟨k, next⟩ := slot_odd odd later (by omega) outside
    · rw [k] at brief
      rw [next]
      simp only [slotLow] at brief ⊢
      omega
    · rw [k] at brief
      rw [next]
      simp only [slotLow] at brief ⊢
      omega

theorem Tracks.high {address : Nat} (h : Tracks t c d w) (high : isHigh address = true)
    (inside : objectFetchStart ≤ d ∧ d ≤ objectFetchEnd ∧ 4 ≤ (d - objectFetchStart) % 8) :
    Tracks t (c + t) (d + 1) (w.observe address c) := by
  simp only [objectFetchStart, objectFetchEnd] at inside
  refine ⟨h.threshold, fun _ => Nat.le_add_right c t, fun after before => by omega,
    fun after before => ?_⟩
  rw [lowTimeAt_observe, high, if_pos rfl]
  exact Nat.zero_le _

/-- The first object raises the line, and no other. -/
theorem Tracks.rise_iff {address : Nat} (h : Tracks t c d w) (ht : 0 < t)
    (room : lowDots * t < largest64) (high : isHigh address = true) (odd : d % 2 = 1)
    (inside : objectFetchStart ≤ d ∧ d ≤ objectFetchEnd ∧ 4 ≤ (d - objectFetchStart) % 8) :
    w.edge address c = some .rise ↔ d = 261 := by
  rw [edge_high high, h.threshold]
  have brief := h.brief
  simp only [lowDots, objectFetchStart, objectFetchEnd] at room inside brief ⊢
  obtain rfl | later : d = 261 ∨ 261 < d := by omega
  · have long := h.long (by decide) (by decide)
    exact ⟨fun _ => rfl, fun _ => by omega⟩
  · have few := brief later (by omega)
    refine ⟨fun rises => ?_, fun here => by omega⟩
    obtain k | k : (d - 257) % 8 = 4 ∨ 5 ≤ (d - 257) % 8 := by omega
    · rw [k] at few
      simp only [slotLow] at few
      omega
    · rw [slotLow_of_high t k] at few
      omega

/-- The cycle of dot 261, if it is one of these dots of a line. -/
def crossing (t c d k : Nat) : List Nat := if d ≤ 261 ∧ 261 < d + k then [c + (261 - d) * t] else []

theorem crossing_succ (k : Nat) (other : d ≠ 261) :
    crossing t (c + t) (d + 1) k = crossing t c d (k + 1) := by
  unfold crossing
  by_cases there : d < 261 ∧ 261 < d + (k + 1)
  · obtain ⟨j, hj⟩ : ∃ j, 261 - d = j + 1 := ⟨260 - d, by omega⟩
    have less : 261 - (d + 1) = j := by omega
    rw [if_pos (by omega), if_pos (by omega), hj, less, Nat.succ_mul, Nat.add_assoc, Nat.add_comm t]
  · rw [if_neg (by omega), if_neg (by omega)]

/-- A watch that sees a part of a line reports a rise at dot 261, if the part has it. -/
theorem Tracks.rises {line : Line} {k : Nat} {seen : List (Nat × Nat)} (ht : 0 < t)
    (room : lowDots * t < largest64) (h : Tracks t c d w) (inside : d + k ≤ dotsPerLine)
    (shows : Shows t c ((List.range' d k).map (line, ·)) seen) : w.rises seen = crossing t c d k := by
  induction k generalizing c d w seen with
  | zero =>
    cases shows
    rw [crossing, if_neg (by omega)]
    rfl
  | succ k ih =>
    rw [List.range'_succ, List.map_cons] at shows
    have here : d < dotsPerLine := by omega
    cases shows with
    | silent level later =>
      have even := even_of_silent here level
      rw [ih (h.silent even) (by omega) later, crossing_succ k (by omega)]
    | @driven _ _ _ address _ seen level later =>
      rw [Watch.rises_cons]
      obtain ⟨odd, place⟩ := level_cases here level
      cases high : isHigh address with
      | false =>
        rw [high] at place
        have outside := fun inside => Bool.false_ne_true (place.mpr inside)
        have other : d ≠ 261 := by
          rintro rfl
          exact outside (by decide)
        rw [if_neg (edge_low high w c), List.nil_append, ih (h.low high odd outside) (by omega) later,
          crossing_succ k other]
      | true =>
        have slot := place.mp high
        have rises := h.rise_iff ht room high odd slot
        rw [ih (h.high high slot) (by omega) later]
        by_cases first : d = 261
        · subst first
          rw [if_pos (rises.mpr rfl), crossing, if_neg (by omega), crossing, if_pos (by omega),
            Nat.sub_self, Nat.zero_mul]
          rfl
        · rw [if_neg fun rise => first (rises.mp rise), List.nil_append, crossing_succ k first]

/-- On a whole line a watch reports one rise. -/
theorem rises_line {line : Line} {short : Bool} {seen : List (Nat × Nat)} (ht : 0 < t)
    (room : lowDots * t < largest64) (threshold : w.threshold = lowDots * t)
    (shows : Shows t c (lineDots short line) seen) : w.rises seen = [c + 261 * t] := by
  have most : Position.lastDot short line + 1 ≤ dotsPerLine := Clock.lastDot_lt short line
  have least := Position.le_lastDot short line
  rw [lineDots, List.range_eq_range'] at shows
  rw [(tracks_start threshold c).rises ht room (by omega) shows, crossing, if_pos (by omega)]

/-- From the start of a line to the end of the frame a watch reports one rise on each line. -/
theorem rises_from {clock : Clock} {start : Nat} (ht : 0 < t) (room : lowDots * t < largest64)
    (line : Line) {seen : List (Nat × Nat)} {w : Watch} (threshold : w.threshold = lowDots * t)
    (shows : Shows t (start + clock.dotsBefore line 0 * t)
      ((Line.all.drop line.index).flatMap (lineDots clock.short)) seen) :
    w.rises seen
      = (Line.all.drop line.index).map fun line => start + clock.dotsBefore line 261 * t := by
  have own : start + clock.dotsBefore line 0 * t + 261 * t = start + clock.dotsBefore line 261 * t := by
    rw [clock.dotsBefore_eq line 261, Nat.add_mul, Nat.add_assoc]
  rw [drop_index, List.flatMap_cons] at shows
  obtain ⟨first, rest, rfl, here, later⟩ := shows.append
  rw [drop_index, List.map_cons, Watch.rises_append, rises_line ht room threshold here, own]
  refine congrArg _ ?_
  cases next : line.next with
  | none =>
    have none : Line.all.drop (line.index + 1) = [] := by
      rw [next_eq_getElem?, List.getElem?_eq_none_iff] at next
      exact List.drop_eq_nil_of_le next
    rw [none] at later ⊢
    cases later
    rfl
  | some below =>
    have index := index_of_next next
    have length : (lineDots clock.short line).length = Position.lastDot clock.short line + 1 := by
      rw [lineDots, List.length_map, List.length_range]
    have begins : start + clock.dotsBefore line 0 * t + (lineDots clock.short line).length * t
        = start + clock.dotsBefore below 0 * t := by
      rw [length, Clock.dotsBefore_below next,
        clock.dotsBefore_eq line (Position.lastDot clock.short line), Nat.add_assoc, ← Nat.add_mul,
        Nat.add_assoc]
    rw [begins, ← index] at later
    rw [← index]
    exact rises_from ht room below ((w.after_threshold first).trans threshold) later
termination_by 241 - line.index
decreasing_by
  have last := index_lt line
  omega

end A12

namespace Machine

open A12

variable {κ : Type} {m n : Machine (Recorded κ)}

/-- Rendering with the two tables split; on a line the address lines still show the last address. -/
structure Levelled (m : Machine (Recorded κ)) : Prop where
  rendering : m.rendering = true
  split : m.circuit.registers.control.Split
  bus : ∀ line d, m.clock.position = .raster line d → 2 ≤ d →
    (Fetch.ofDot (lastDriven d)).level? = some (isHigh m.circuit.bus)

theorem Levelled.of_settings (h : m.Levelled) (settings : n.circuit.settings = m.circuit.settings)
    (bus : ∀ line d, n.clock.position = .raster line d → 2 ≤ d →
      (Fetch.ofDot (lastDriven d)).level? = some (isHigh n.circuit.bus)) : n.Levelled where
  rendering := (congrArg (·.mask.rendering) settings).trans h.rendering
  split := by
    have control : n.circuit.registers.control = m.circuit.registers.control :=
      congrArg Settings.control settings
    rw [control]
    exact h.split
  bus := bus

theorem lastDriven_succ {d : Nat} (odd : d % 2 = 1) : lastDriven (d + 1) = d := by
  unfold lastDriven
  omega

theorem lastDriven_of_even {d : Nat} (even : d % 2 = 0) : lastDriven (d + 1) = lastDriven d := by
  unfold lastDriven
  omega

variable [Cartridge κ]

theorem Levelled.step (h : m.Levelled) (onTime : m.OnTime) {line : Line} {d : Nat}
    (here : m.clock.position = .raster line d) : (m.step line d).Levelled
      ∧ ∃ address : Option Nat, address.map isHigh = (Fetch.ofDot d).level?
        ∧ (m.step line d).circuit.cartridge.observed
          = (address.map (·, m.clock.count)).toList ++ m.circuit.cartridge.observed := by
  have inside : d < dotsPerLine := lt_of_le_of_lt (onTime.paced.dot_le here) (Clock.lastDot_lt _ _)
  have drives := Circuit.dot_drives h.rendering line d m.clock.count m.config.limit
  rw [← step_circuit] at drives
  have level : (m.circuit.works.driven? line (.ofDot d)).map isHigh = (Fetch.ofDot d).level? := by
    refine Works.driven_level h.split line fun opens => ?_
    obtain ⟨started, same⟩ := level_lastDriven inside opens
    exact same.trans (h.bus line d here started)
  generalize m.circuit.works.driven? line (.ofDot d) = address at drives level
  refine ⟨h.of_settings (step_settings line d m) fun line' d' standing started => ?_, address, level,
    drives.observed⟩
  have next : d' = d + 1 := by
    rw [step_position onTime.paced here] at standing
    obtain first | ⟨-, next⟩ := next_follows _ line d line' d' standing
    · omega
    · exact next
  subst next
  rw [drives.bus]
  cases address with
  | some address =>
    have odd := (level_cases inside level.symm).1
    rw [lastDriven_succ odd]
    exact level.symm
  | none =>
    have even := even_of_silent inside level.symm
    rw [lastDriven_of_even even]
    exact h.bus line d here (by omega)

/-- What the cartridge sees of an undisturbed run. -/
theorem Undisturbed.shows {ds : List (Line × Nat)} (h : Undisturbed ds m n) (levelled : m.Levelled)
    (onTime : m.OnTime) : ∃ seen, Shows m.timing.dot m.clock.count ds seen
      ∧ n.circuit.cartridge.observed = seen.reverse ++ m.circuit.cartridge.observed := by
  induction h with
  | refl m => exact ⟨[], .nil _, rfl⟩
  | hosted f _ ih =>
    exact ih ⟨levelled.rendering, levelled.split, levelled.bus⟩ (onTime.of_eq rfl rfl rfl)
  | blank target standing later ih =>
    obtain rfl := later.eq_nil_of_blank ((passBlank_position target _).trans standing)
    have next := levelled.of_settings (passBlank_settings target _) fun line d here => by
      rw [passBlank_position, standing] at here
      cases here
    obtain ⟨seen, shows, all⟩ := ih next (passBlank_onTime target onTime standing)
    cases shows
    rw [passBlank_cartridge] at all
    exact ⟨[], .nil _, all⟩
  | @dot ds m _ line d here later ih =>
    obtain ⟨next, address, level, observed⟩ := levelled.step onTime here
    obtain ⟨seen, shows, all⟩ := ih next (step_onTime onTime here)
    rw [step_timing, step_count] at shows
    rw [observed] at all
    cases address with
    | none => exact ⟨seen, .silent level.symm shows, all⟩
    | some address =>
      refine ⟨_, .driven level.symm shows, all.trans ?_⟩
      rw [List.reverse_cons, List.append_assoc]
      rfl

/-- In a rendered frame with tiles from the first pattern table and objects of eight rows from the
second, in which the processor keeps still, a watch of this region reports one rise on each line, at the
first object's pattern row. -/
theorem rises_of_frame (m o : Machine (Recorded κ)) (ts : List Turn) (w : Watch)
    (opened : m.beginFrame = .ok o) (idle : ∀ t ∈ ts, ∃ target, t.access = .catchUp target)
    (on : m.rendering = true) (split : m.circuit.registers.control.Split)
    (watch : w.threshold = (Watch.ofTiming m.timing).threshold) :
    ∃ n seen, (o.afterTurns ts).endFrame = .ok n
      ∧ n.circuit.cartridge.observed = seen.reverse ++ m.circuit.cartridge.observed
      ∧ w.rises seen = Line.all.map fun line =>
        o.clock.frameStart + n.clock.dotsBefore line 261 * m.timing.dot := by
  obtain rfl := eq_of_beginFrame opened
  obtain ⟨n, ended, run⟩ := openFrame_undisturbed idle m
  have circuit := openFrame_circuit m
  have levelled : m.openFrame.Levelled := by
    refine ⟨by rwa [rendering, circuit], by rwa [circuit], fun line d here started => ?_⟩
    rw [openFrame_position] at here
    cases here
    omega
  obtain ⟨seen, shows, all⟩ := run.shows levelled (openFrame_onTime m)
  have timing : m.openFrame.timing = m.timing := openFrame_timing m
  have start : m.openFrame.clock.count
      = m.openFrame.clock.frameStart + n.clock.dotsBefore .preRender 0 * m.timing.dot := by
    have none : n.clock.dotsBefore .preRender 0 = 0 := rfl
    simp [none]
  have fast : 0 < m.timing.dot ∧ lowDots * m.timing.dot < largest64 := by
    rw [Machine.timing, Config.timing]
    cases m.config.region <;> decide
  rw [circuit] at all
  rw [timing, start] at shows
  exact ⟨n.closeFrame, seen, ended, all, rises_from fast.1 fast.2 .preRender watch shows⟩

/-- Renders, with objects from the second pattern table. -/
def splitMachine : Machine (Recorded Unit) :=
  (Machine.new ⟨.dendy, .unlimited⟩ .new ⟨(), []⟩ (.new fun _ => 0)).withCircuit fun c =>
    (c.setMask ⟨0x18⟩).withRegisters fun r => { r with control := ⟨8⟩ }

/-- A frame with a catch-up in it, seen by a watch just built. -/
theorem rises_of_frame_split : ∃ o n seen, splitMachine.beginFrame = .ok o
    ∧ (o.afterTurns [⟨100, fun _ => 0, .catchUp 100⟩]).endFrame = .ok n
    ∧ n.circuit.cartridge.observed = seen.reverse ++ splitMachine.circuit.cartridge.observed
    ∧ (Watch.ofTiming splitMachine.timing).rises seen = Line.all.map fun line =>
      o.clock.frameStart + n.clock.dotsBefore line 261 * splitMachine.timing.dot := by
  have opened : splitMachine.beginFrame = .ok splitMachine.openFrame := rfl
  have split : splitMachine.circuit.registers.control.Split := ⟨by decide, by decide, by decide⟩
  obtain ⟨n, seen, ended, all, rises⟩ := rises_of_frame splitMachine _
    [⟨100, fun _ => 0, .catchUp 100⟩] (.ofTiming splitMachine.timing) opened
    (fun t ht => ⟨100, by rw [List.mem_singleton.mp ht]⟩) (by decide) split rfl
  exact ⟨_, n, seen, opened, ended, all, rises⟩

end Machine

end PictureUnit
