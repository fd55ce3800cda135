import PictureUnit.Proofs.Hits
import PictureUnit.Proofs.Rendered
import PictureUnit.Proofs.Undisturbed

/-!
# The hits of a frame

A rendered line hits where the scene has it: the first object is in range of the line above, its dot
and the background's are both opaque, and neither layer is hidden there. The search starts at the first
object and takes it before all others, so its strip stands in front of the rest and alone is flagged
zero. So a frame that is rendered ends with the hit flag exactly when the scene has such a place.
-/

set_option autoImplicit false

namespace PictureUnit

theorem Strips.zero_of_pixelOf {x : Nat} {strip : Strip} {o : ObjectPixel}
    (h : pixelOf x strip = some o) : o.zero = strip.zero := by
  obtain ⟨value, -, rfl⟩ := Option.map_eq_some_iff.mp h
  rfl

/-- If no strip is flagged zero, no pixel is. -/
theorem Strips.not_zero_of_plain {list : List Strip} (plain : ∀ strip ∈ list, strip.zero = false)
    (x : Nat) : ¬ ∃ o, list.findSome? (pixelOf x) = some o ∧ o.zero = true := by
  rintro ⟨o, pixel, zero⟩
  obtain ⟨strip, told, shown⟩ := List.exists_of_findSome?_eq_some pixel
  rw [zero_of_pixelOf shown, plain strip told] at zero
  cases zero

/-- If only the first strip is flagged zero, a pixel is where that strip has one. -/
theorem Strips.zero_iff_of_first {strips : Strips} {first : Strip} {rest : List Strip}
    (list : strips.list = first :: rest) (zero : first.zero = true)
    (plain : ∀ strip ∈ rest, strip.zero = false) (x : Nat) :
    (∃ o, strips.pixel? x = some o ∧ o.zero = true) ↔ pixelOf x first ≠ none := by
  rw [pixel?, list, List.findSome?_cons]
  cases front : pixelOf x first with
  | some o =>
    have own : o.zero = true := (zero_of_pixelOf front).trans zero
    simp [own]
  | none => simpa using not_zero_of_plain plain x

namespace Scene

/-- The dot of the first object meets the background's, and both layers are shown there. -/
structure Meets (s : Scene) (x y : Nat) : Prop where
  inRange : inRange (y - 1) s.control.objectHeight (s.object 0).y = true
  object : s.objectDot? x y 0 ≠ none
  background : (s.patternRow (s.tileRow (s.tileOf x y))).color (s.across x % 8) ≠ 0
  layers : s.mask.background = true ∧ s.mask.objects = true
  left : x < 8 → s.mask.bits.toNat.testBit 1 = true ∧ s.mask.bits.toNat.testBit 2 = true

variable {s : Scene} {x y : Nat}

theorem background_ne_zero : s.background x y ≠ 0
    ↔ s.shows 3 1 x
      ∧ (s.patternRow (s.tileRow (s.tileOf x y))).color (s.across x % 8) ≠ 0 := by
  unfold background
  dsimp only
  split
  · next shown => simpa [shown.2] using shown.1
  · next hidden => simpa using hidden

/-- A column shows the strip flagged zero where the dot of the first object is. -/
def Marks (s : Scene) (y : Nat) (strips : Strips) : Prop :=
  ∀ x, (∃ o, strips.pixel? x = some o ∧ o.zero = true)
    ↔ 1 ≤ y ∧ inRange (y - 1) s.control.objectHeight (s.object 0).y = true ∧ s.objectDot? x y 0 ≠ none

/-- If the first object is in range, it is the first that the line shows. -/
theorem shown_cons (h : inRange y s.control.objectHeight (s.object 0).y = true) :
    ∃ rest, s.shown (y + 1) = 0 :: rest := by
  have room : ∃ n, s.limit.perLine = n + 1 := by
    cases s.limit
    · exact ⟨7, rfl⟩
    · exact ⟨63, rfl⟩
  obtain ⟨n, room⟩ := room
  have all : List.range objectCount = 0 :: (List.range 63).map Nat.succ := List.range_succ_eq_map
  rw [shown, all, List.filter_cons_of_pos (by exact h), room, List.take_succ_cons]
  exact ⟨_, rfl⟩

theorem marks_succ {y : Fin screenHeight} {e : Evaluation} {strips : Strips}
    (h : Evaluation.Done (s.inputs y.val) 0 e) (hz : strips.zeroInRange = e.zeroInRange)
    (hl : strips.list = (List.range e.found).map fun slot =>
      s.stripOf (.visible y) (Strips.objectIn e.secondary slot) (slot == 0 && strips.zeroInRange)) :
    s.Marks (y.val + 1) strips := by
  intro x
  have zero : strips.zeroInRange = inRange y.val s.control.objectHeight (s.object 0).y :=
    hz.trans h.zero
  rw [Nat.add_sub_cancel]
  by_cases covers : inRange y.val s.control.objectHeight (s.object 0).y = true
  · obtain ⟨rest, shown⟩ := shown_cons covers
    have found := h.found
    have copied := h.copied
    rw [shown_succ, shown] at found copied
    have object : Strips.objectIn e.secondary 0 = s.object 0 := objectIn_of_copied copied rfl
    rw [found, List.length_cons, List.range_succ_eq_map, List.map_cons, List.map_map, object, zero,
      covers, Bool.and_true, beq_self_eq_true] at hl
    have plain : ∀ strip ∈ strips.list.tail, strip.zero = false := by
      intro strip told
      rw [hl, List.tail_cons] at told
      obtain ⟨slot, -, rfl⟩ := List.mem_map.mp told
      rfl
    rw [hl, List.tail_cons] at plain
    have dots := s.pixelOf_stripOf x true covers
    rw [Strips.zero_iff_of_first hl rfl plain, ← dots]
    simp [covers]
  · have plain : ∀ strip ∈ strips.list, strip.zero = false := by
      intro strip told
      rw [hl, zero, (Bool.not_eq_true _).mp covers] at told
      obtain ⟨slot, -, rfl⟩ := List.mem_map.mp told
      exact Bool.and_false _
    have none : ¬ ∃ o, strips.pixel? x = some o ∧ o.zero = true := Strips.not_zero_of_plain plain x
    simp [none, covers]

end Scene

namespace Works

variable {κ : Type} {limit : SpriteLimit} {s : Scene} {w : Works κ}

/-- The flag that the search found the first object goes to the strips of the line below. -/
theorem before_zeroInRange (y : Fin screenHeight) (limit : SpriteLimit) (w : Works κ) :
    (w.before (.visible y) limit 321).strips.zeroInRange
      = (w.before (.visible y) limit 257).evaluation.zeroInRange := by
  rw [(w.before_passing (.visible y) limit 257 321).strips, (Scene.fetchSlots_pending _ _ _ _ _).2]
  rfl

/-- Ready to draw a line, with the strip of the first object flagged. -/
structure Primed (limit : SpriteLimit) (s : Scene) (y : Nat) (w : Works κ) : Prop where
  ready : Ready limit s y w
  marks : s.Marks y w.strips

theorem Primed.below {y : Fin screenHeight} (h : Primed limit s y.val w) {d : Nat} (hd : 337 ≤ d) :
    Primed limit s (y.val + 1) (w.before (.visible y) limit d) := by
  obtain ⟨done, list⟩ := h.ready.strips
  refine ⟨h.ready.below hd, ?_⟩
  rw [(w.before_fetched (.visible y) limit (d := d) (by omega)).1]
  exact Scene.marks_succ done (w.before_zeroInRange y limit) list

/-- A line that is ready hits where the scene has it. -/
theorem Primed.meets_iff {y : Fin screenHeight} (h : Primed limit s y.val w) {x : Nat} (hx : x < 256) :
    (w.before (.visible y) limit (x + 1)).Meets x ↔ 1 ≤ y.val ∧ s.Meets x y.val := by
  obtain ⟨settings, -, -⟩ := w.before_keeps (.visible y) limit (x + 1)
  obtain ⟨strips, -⟩ := w.before_drawn (.visible y) limit (d := x + 1) (by omega)
  have mask : w.settings.visibility = s.mask.visibility := by
    rw [h.ready.derived.visibility, ← h.ready.scene]
    rfl
  have background : (w.before (.visible y) limit (x + 1)).backgroundEntry x = s.background x y.val := by
    rw [backgroundEntry, settings]
    exact h.ready.background hx
  have solid := backgroundEntry_ne_zero (w := w.before (.visible y) limit (x + 1)) (x := x)
  rw [background, Scene.background_ne_zero] at solid
  have objects := Mask.showsObjects_iff s.mask x
  have zero := h.marks x
  rw [← strips] at zero
  rw [← mask, ← settings] at objects
  constructor
  · intro meets
    obtain ⟨⟨on, left⟩, tile⟩ := solid.mpr ⟨meets.background, meets.solid⟩
    obtain ⟨below, covers, dot⟩ := zero.mp meets.zero
    obtain ⟨on', left'⟩ := objects.mp meets.objects
    exact ⟨below, covers, dot, tile, ⟨on, on'⟩, fun h => ⟨left h, left' h⟩⟩
  · rintro ⟨below, meets⟩
    obtain ⟨on, on'⟩ := meets.layers
    obtain ⟨shown, solid⟩ := solid.mp ⟨⟨on, fun h => (meets.left h).1⟩, meets.background⟩
    exact ⟨shown, solid, objects.mpr ⟨on', fun h => (meets.left h).2⟩,
      zero.mpr ⟨below, meets.inRange, meets.object⟩⟩

/-- Whether the hit flag is set after some rendered dots. -/
def HitAfter (limit : SpriteLimit) : List (Line × Nat) → Works κ → Prop → Prop
  | [], _, already => already
  | d :: ds, w, already =>
    HitAfter limit ds (w.dot d.1 d.2 limit)
      (d.2 ≠ 0 ∧ w.hits d.1 d.2 = true ∨ ¬ (d.1 = .preRender ∧ d.2 = 1) ∧ already)

theorem hitAfter_append (ds es : List (Line × Nat)) (w : Works κ) (already : Prop) :
    HitAfter limit (ds ++ es) w already = HitAfter limit es (w.pass limit ds) (HitAfter limit ds w already) := by
  induction ds generalizing w already with
  | nil => rfl
  | cons d ds ih => exact ih _ _

/-- The first dots of a line. -/
theorem hitAfter_line_succ (line : Line) (n : Nat) (w : Works κ) (already : Prop) :
    HitAfter limit ((List.range (n + 1)).map (line, ·)) w already
      = (n ≠ 0 ∧ (w.before line limit n).hits line n = true
        ∨ ¬ (line = .preRender ∧ n = 1) ∧ HitAfter limit ((List.range n).map (line, ·)) w already) := by
  rw [List.range_succ, List.map_append, hitAfter_append, pass_line]
  rfl

/-- A visible line sets the flag if one of its dots is a hit. -/
theorem hitAfter_visible (y : Fin screenHeight) (n : Nat) (w : Works κ) (already : Prop) :
    HitAfter limit ((List.range n).map (.visible y, ·)) w already
      ↔ already ∨ ∃ d < n, d ≠ 0 ∧ (w.before (.visible y) limit d).hits (.visible y) d = true := by
  induction n with
  | zero => simp [HitAfter]
  | succ n ih =>
    rw [hitAfter_line_succ, ih]
    simp only [Nat.exists_lt_succ_right, reduceCtorEq, false_and, not_false_eq_true, true_and]
    exact or_comm.trans or_assoc

theorem Primed.hitAfter {y : Fin screenHeight} (h : Primed limit s y.val w) (short : Bool) (already : Prop) :
    HitAfter limit (lineDots short (.visible y)) w already
      ↔ already ∨ 1 ≤ y.val ∧ ∃ x < 255, s.Meets x y.val := by
  rw [lineDots, hitAfter_visible]
  refine or_congr_right ⟨?_, ?_⟩
  · rintro ⟨d, -, first, hit⟩
    rw [hits, Bool.and_eq_true, decide_eq_true_eq, touches_iff_meets] at hit
    obtain ⟨inside, column, meets⟩ := hit
    have place : d - 1 + 1 = d := by omega
    simp only [screenWidth] at inside
    have scene := h.meets_iff (x := d - 1) (by omega)
    rw [place] at scene
    obtain ⟨below, meets⟩ := scene.mp meets
    exact ⟨below, d - 1, by omega, meets⟩
  · rintro ⟨below, x, column, meets⟩
    have long := lineDots_long short (.visible y)
    refine ⟨x + 1, by omega, x.succ_ne_zero, ?_⟩
    rw [hits, Bool.and_eq_true, decide_eq_true_eq, Nat.add_sub_cancel, touches_iff_meets]
    exact ⟨by simp only [screenWidth]; omega, by omega, (h.meets_iff (by omega)).mpr ⟨below, meets⟩⟩

/-- The lines from `y` down set the flag if one of them has a hit. -/
theorem Primed.rows (n : Nat) {y : Nat} (hy : y + n = screenHeight) {w : Works κ}
    (h : Primed limit s y w) (short : Bool) (already : Prop) :
    HitAfter limit (((List.finRange screenHeight).drop y).flatMap fun y => lineDots short (.visible y))
        w already
      ↔ already ∨ ∃ k x, y ≤ k ∧ 1 ≤ k ∧ k < screenHeight ∧ x < 255 ∧ s.Meets x k := by
  -- The induction is on the lines left; what carries it is that each line primes the next.
  induction n generalizing y w already with
  | zero =>
    rw [List.drop_eq_nil_of_le (by rw [List.length_finRange]; omega)]
    constructor
    · exact .inl
    · rintro (already | ⟨k, x, above, -, inside, -⟩)
      · exact already
      · omega
  | succ n ih =>
    have inside : y < (List.finRange screenHeight).length := by
      rw [List.length_finRange]
      omega
    have line : (List.finRange screenHeight)[y] = ⟨y, by omega⟩ := by simp
    have below : Primed limit s (y + 1) (w.pass limit (lineDots short (.visible ⟨y, by omega⟩))) := by
      rw [lineDots, pass_line]
      exact Primed.below (y := ⟨y, by omega⟩) h (lineDots_long short _)
    rw [List.drop_eq_getElem_cons inside, line, List.flatMap_cons, hitAfter_append,
      ih (by omega) below, Primed.hitAfter (y := ⟨y, by omega⟩) h, or_assoc]
    refine or_congr_right ⟨?_, ?_⟩
    · rintro (⟨first, x, column, meets⟩ | ⟨k, x, above, rest⟩)
      · exact ⟨y, x, Nat.le_refl y, first, by omega, column, meets⟩
      · exact ⟨k, x, by omega, rest⟩
    · rintro ⟨k, x, above, first, inside, column, meets⟩
      rcases Nat.eq_or_lt_of_le above with rfl | later
      · exact .inl ⟨first, x, column, meets⟩
      · exact .inr ⟨k, x, later, first, inside, column, meets⟩

end Works

namespace Machine

variable {κ : Type} [Cartridge κ]

variable {m n : Machine κ} {ds : List (Line × Nat)}

/-- Rendered dots with an empty slot leave the flag as the works tell. -/
theorem Undisturbed.hit (h : Undisturbed ds m n) (hs : Cartridge.Silent m.circuit.cartridge)
    (hr : m.rendering = true) : n.status.zeroHit = true
      ↔ Works.HitAfter m.config.limit ds m.circuit.works (m.status.zeroHit = true) := by
  induction h with
  | refl => exact Iff.rfl
  | hosted f _ ih => exact ih hs hr
  | @blank ds m n target _ _ ih =>
    have works := passBlank_works target m
    have slot : (m.passBlank target).circuit.cartridge = m.circuit.cartridge :=
      congrArg Works.cartridge works
    have later := ih (slot ▸ hs) ((congrArg (·.settings.mask.rendering) works).trans hr)
    rwa [works, passBlank_config, (passBlank_marks target m).zeroHit] at later
  | @dot ds m n line dot hp _ ih =>
    obtain ⟨works, silent⟩ := step_works hs hr line dot
    have after : (m.step line dot).status.zeroHit = true
        ↔ dot ≠ 0 ∧ m.circuit.works.hits line dot = true
          ∨ ¬ (line = .preRender ∧ dot = 1) ∧ m.status.zeroHit = true := by
      rw [step_zeroHit, Moment.hits_iff, hr]
      simp [Moment.Clears]
    have later := ih silent (by rwa [step_rendering])
    rwa [works, step_config, propext after] at later

end Machine

end PictureUnit
