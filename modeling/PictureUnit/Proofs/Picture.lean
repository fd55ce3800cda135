import PictureUnit.Proofs.Derived
import PictureUnit.Proofs.Sweep

/-!
# The picture that the works draw

When a visible line begins, the works are ready for it: its first two tiles and its strips have been
fetched, and the next search will start at the first object. A line that is ready draws its row of
the scene and leaves the works ready for the line below; the pre-render line makes them ready for the
first one, whatever they were. So a raster draws the scene.
-/

set_option autoImplicit false

namespace PictureUnit

namespace Scene

theorem across_column (s : Scene) (x : Nat) : s.across x % 8 = (x + s.fineX.val) % 8 := by
  unfold across
  omega

/-- The pixel of a tile that is transparent is one of the four backdrop entries. -/
theorem tile_pixel (s : Scene) (a : Scroll.Address) (column : Nat) :
    (if (s.tile a).pixel column % 4 = 0 then 0 else (s.tile a).pixel column)
      = if (s.patternRow (s.tileRow a)).color column ≠ 0 then
          s.tilePalette a * 4 + (s.patternRow (s.tileRow a)).color column
        else 0 := by
  have small := (s.patternRow (s.tileRow a)).color_lt column
  have pixel : (s.tile a).pixel column
      = s.tilePalette a * 4 + (s.patternRow (s.tileRow a)).color column := rfl
  rw [pixel]
  by_cases hc : (s.patternRow (s.tileRow a)).color column = 0
  · rw [if_pos (by omega), if_neg (by omega)]
  · rw [if_neg (by omega), if_pos hc]

theorem blend_eq {s : Scene} {x y background : Nat} {object : Option ObjectPixel}
    (hb : background = s.background x y)
    (ho : object.map (fun p => (p.value, p.behind)) = s.front? x y) :
    blend background object = s.entry x y := by
  rw [entry, ← ho, ← hb]
  cases object <;> rfl

end Scene

namespace Works

variable {κ : Type} {limit : SpriteLimit} {s : Scene} {w : Works κ}

theorem output_eq (h : w.settings.Derived) (limit : SpriteLimit) (entry : Nat) :
    w.settings.palette.output entry = (w.scene limit).color entry := by
  rw [Palette.output_of_coherent h.coherent, Palette.resolve, Scene.color, h.coloring, h.emphasis]
  dsimp only [scene]
  cases w.settings.palette.map <;> rfl

/-- The works are ready to draw line `y` of the scene. -/
structure Ready (limit : SpriteLimit) (s : Scene) (y : Nat) (w : Works κ) : Prop where
  derived : w.settings.Derived
  scene : w.scene limit = s
  tiles : Pipe.At s (s.row y) 0 w.pipe
  strung : s.Strung y w.strips
  address : w.objectAddress = 0

/-- A line that is ready has the background of the scene behind each of its columns. -/
theorem Ready.background {y : Fin screenHeight} (h : Ready limit s y.val w) {x : Nat} (hx : x < 256) :
    (if w.settings.visibility.showsBackground x then
      let entry := (w.before (.visible y) limit (x + 1)).pipe.background.pixel x w.settings.fineX.val
      if entry % 4 = 0 then 0 else entry
    else 0) = s.background x y.val := by
  have tiles : Pipe.At s (s.row y.val) (x / 8) (w.before (.visible y) limit (x + 1)).pipe := by
    have start : Pipe.At (w.scene limit) (s.row y.val) 0 w.pipe := h.scene ▸ h.tiles
    have column := (w.before_passing (.visible y) limit 0 (x + 1)).column start hx le_rfl
    exact h.scene ▸ column
  have fine : w.settings.fineX = s.fineX := h.scene ▸ rfl
  have mask : w.settings.mask = s.mask := h.scene ▸ rfl
  dsimp only
  rw [h.derived.visibility, mask, fine, tiles.pixel rfl s.fineX, Scene.tile_pixel, ← Scene.tileOf_eq,
    ← Scene.across_column, Scene.background]
  have shows : s.mask.visibility.showsBackground x = true ↔ s.shows 3 1 x := s.mask.showsBackground_iff x
  by_cases shown : s.shows 3 1 x
  · simp only [shows.mpr shown, shown, true_and, if_true]
  · rw [if_neg fun h => shown (shows.mp h), if_neg fun h => shown h.1]

/-- A line that is ready draws the pixels of the scene. -/
theorem Ready.shade {y : Fin screenHeight} (h : Ready limit s y.val w) {x : Nat} (hx : x < 256) :
    (w.before (.visible y) limit (x + 1)).shade x = s.color (s.entry x y.val) := by
  obtain ⟨settings, -, -⟩ := w.before_keeps (.visible y) limit (x + 1)
  obtain ⟨strips, -⟩ := w.before_drawn (.visible y) limit (d := x + 1) (by omega)
  have mask : w.settings.mask = s.mask := h.scene ▸ rfl
  rw [Works.shade, settings, strips, output_eq h.derived limit, h.scene]
  dsimp only
  congr 1
  apply Scene.blend_eq
  · exact h.background hx
  · have shows : s.mask.visibility.showsObjects x = true ↔ s.shows 4 2 x := s.mask.showsObjects_iff x
    simp only [Scene.front?, ← h.strung x, h.derived.visibility, mask, shows]
    split <;> rfl

theorem before_derived (h : w.settings.Derived) (line : Line) (d : Nat) :
    (w.before line limit d).settings.Derived := by
  rw [(w.before_keeps line limit d).1]
  exact h

/-- The pre-render line leaves no strips. -/
theorem preRender_strips (limit : SpriteLimit) (w : Works κ) :
    (w.before .preRender limit 321).strips.list = [] := by
  rw [(w.before_passing .preRender limit 257 321).list (Nat.zero_le _)]
  rfl

/-- The pre-render line makes everything ready for the first line. -/
theorem preRender_ready (h : w.settings.Derived) {d : Nat} (hd : 337 ≤ d) :
    Ready limit (w.scene limit) 0 (w.before .preRender limit d) := by
  obtain ⟨strips, address⟩ := w.before_fetched .preRender limit (d := d) (by omega)
  have top : (w.before .preRender limit 321).pipe.current = (w.scene limit).row 0 := by
    rw [w.before_current .preRender limit (by decide), if_pos ⟨rfl, by decide⟩]
    rfl
  have tiles := (w.before_passing .preRender limit 321 d).prefetch ⟨hd, le_rfl⟩
  rw [w.before_scene, top] at tiles
  refine ⟨before_derived h _ d, w.before_scene _ _ d, tiles, ?_, address⟩
  rw [strips]
  exact Scene.strung_zero (preRender_strips limit w)

/-- A line that is ready searches the objects of the scene from the first one on, and leaves a strip
for each that it found. -/
theorem Ready.strips {y : Fin screenHeight} (h : Ready limit s y.val w) :
    let e := (w.before (.visible y) limit 257).evaluation
    let strips := (w.before (.visible y) limit 321).strips
    Evaluation.Done (s.inputs y.val) 0 e
      ∧ strips.list = (List.range e.found).map fun slot =>
        s.stripOf (.visible y) (Strips.objectIn e.secondary slot) (slot == 0 && strips.zeroInRange) := by
  have done := w.before_done y limit
  rw [h.scene, h.address] at done
  have few : (w.before (.visible y) limit 257).evaluation.found ≤ objectCount := by
    rw [done.found]
    exact (List.length_take_le _ _).trans (Evaluation.perLine_le _)
  have list := (w.before_passing (.visible y) limit 257 321).list few
  rw [w.before_scene, h.scene] at list
  exact ⟨done, list⟩

/-- A line that is ready makes the line below ready. -/
theorem Ready.below {y : Fin screenHeight} (h : Ready limit s y.val w) {d : Nat} (hd : 337 ≤ d) :
    Ready limit s (y.val + 1) (w.before (.visible y) limit d) := by
  obtain ⟨strips, address⟩ := w.before_fetched (.visible y) limit (d := d) (by omega)
  obtain ⟨done, list⟩ := h.strips
  have scene := (w.before_scene (.visible y) limit d).trans h.scene
  have row : (w.before (.visible y) limit 321).pipe.current = s.row (y.val + 1) := by
    have last := w.before_rowEnd (.visible y) limit (a := s.row y.val)
      (by rw [h.scene]; exact h.tiles)
    have origin : w.settings.pending = s.origin := h.scene ▸ rfl
    rw [w.before_current (.visible y) limit (by decide), if_neg (fun h => by cases h.1), last, origin,
      Scene.row_below]
  have tiles := (w.before_passing (.visible y) limit 321 d).prefetch ⟨hd, le_rfl⟩
  rw [w.before_scene, h.scene, row] at tiles
  refine ⟨before_derived h.derived _ d, scene, tiles, ?_, address⟩
  rw [strips]
  exact Scene.strung_succ done list

/-- The works after some dots. -/
def pass (limit : SpriteLimit) (ds : List (Line × Nat)) (w : Works κ) : Works κ :=
  ds.foldl (fun w d => w.dot d.1 d.2 limit) w

/-- The inks of some dots. -/
def inksOf (limit : SpriteLimit) : List (Line × Nat) → Works κ → List Ink
  | [], _ => []
  | d :: ds, w => w.inks d.1 d.2 ++ inksOf limit ds (w.dot d.1 d.2 limit)

theorem inksOf_append (ds es : List (Line × Nat)) (w : Works κ) :
    inksOf limit (ds ++ es) w = inksOf limit ds w ++ inksOf limit es (w.pass limit ds) := by
  induction ds generalizing w with
  | nil => rfl
  | cons d ds ih =>
    rw [List.cons_append, inksOf, ih, inksOf, List.append_assoc]
    rfl

theorem pass_line (line : Line) (n : Nat) (w : Works κ) :
    w.pass limit ((List.range n).map (line, ·)) = w.before line limit n := by
  induction n with
  | zero => rfl
  | succ n ih =>
    rw [List.range_succ, List.map_append, pass, List.foldl_append, before, ← ih]
    rfl

theorem inksOf_line (line : Line) (n : Nat) (w : Works κ) :
    inksOf limit ((List.range n).map (line, ·)) w
      = (List.range n).flatMap fun d => (w.before line limit d).inks line d := by
  induction n with
  | zero => rfl
  | succ n ih =>
    rw [List.range_succ, List.map_append, inksOf_append, ih, pass_line, List.flatMap_append]
    simp only [List.map_cons, List.map_nil, inksOf, List.append_nil, List.flatMap_cons,
      List.flatMap_nil]

theorem lineDots_long (short : Bool) (line : Line) : 337 ≤ Position.lastDot short line + 1 := by
  have := Position.le_lastDot short line
  omega

/-- One row of the picture. -/
def rowInks (s : Scene) (y : Nat) : List Ink :=
  (List.range screenWidth).map fun x => ⟨x, y, s.color (s.entry x y)⟩

theorem Ready.inks {y : Fin screenHeight} (h : Ready limit s y.val w) (short : Bool) :
    inksOf limit (lineDots short (.visible y)) w = rowInks s y.val := by
  have drawn (d : Nat) : (w.before (.visible y) limit d).inks (.visible y) d
      = (columns d).map fun x => ⟨x, y.val, s.color (s.entry x y.val)⟩ := by
    rw [Works.inks, drawnAt, List.map_map]
    apply List.map_congr_left
    intro x hx
    have column : d = x + 1 ∧ x < 256 := by
      unfold columns at hx
      split at hx
      · simp only [List.mem_singleton, screenWidth] at *
        omega
      · cases hx
    obtain ⟨rfl, inside⟩ := column
    simp only [Function.comp, h.shade inside]
  rw [lineDots, inksOf_line, rowInks, ← columns_line, List.map_flatMap]
  simp only [drawn]
  rfl

/-- The lines from `y` down draw their rows. -/
theorem Ready.rows (n : Nat) {y : Nat} (hy : y + n = screenHeight) {w : Works κ}
    (h : Ready limit s y w) (short : Bool) :
    inksOf limit (((List.finRange screenHeight).drop y).flatMap fun y => lineDots short (.visible y)) w
      = ((List.finRange screenHeight).drop y).flatMap fun y => rowInks s y.val := by
  -- The induction is on the lines left; what carries it is that each line readies the next.
  induction n generalizing y w with
  | zero =>
    rw [List.drop_eq_nil_of_le (by rw [List.length_finRange]; omega)]
    rfl
  | succ n ih =>
    have inside : y < (List.finRange screenHeight).length := by
      rw [List.length_finRange]
      omega
    have line : (List.finRange screenHeight)[y] = ⟨y, by omega⟩ := by simp
    have below : Ready limit s (y + 1) (w.pass limit (lineDots short (.visible ⟨y, by omega⟩))) := by
      rw [lineDots, pass_line]
      exact Ready.below (y := ⟨y, by omega⟩) h (lineDots_long short _)
    rw [List.drop_eq_getElem_cons inside, line, List.flatMap_cons, List.flatMap_cons, inksOf_append,
      Ready.inks (y := ⟨y, by omega⟩) h, ih (by omega) below]

theorem inksOf_preRender (short : Bool) (w : Works κ) :
    inksOf limit (lineDots short .preRender) w = [] := by
  rw [lineDots, inksOf_line, List.flatMap_eq_nil_iff]
  intro d _
  rfl

theorem pass_preRender (h : w.settings.Derived) (short : Bool) :
    Ready limit (w.scene limit) 0 (w.pass limit (lineDots short .preRender)) := by
  rw [lineDots, pass_line]
  exact preRender_ready h (lineDots_long short _)

/-- A raster draws the scene. -/
theorem inksOf_raster (h : w.settings.Derived) (short : Bool) :
    inksOf limit (raster short) w = (List.finRange screenHeight).flatMap fun y =>
      rowInks (w.scene limit) y.val := by
  have ready : Ready limit (w.scene limit) 0 (w.pass limit (lineDots short .preRender)) :=
    pass_preRender h short
  have rows := ready.rows screenHeight (Nat.zero_add _) short
  rw [List.drop_zero] at rows
  rw [raster, Line.all, List.flatMap_cons, inksOf_append, inksOf_preRender, List.nil_append,
    List.flatMap_map]
  exact rows

end Works

end PictureUnit
