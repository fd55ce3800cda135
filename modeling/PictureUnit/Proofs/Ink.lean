import PictureUnit.Proofs.Blind
import PictureUnit.Proofs.Raster
import PictureUnit.Proofs.Settings

/-!
# What a dot leaves on the screen

A dot of a visible line puts one ink on the screen, in the column before it, if there is such a
column. No ink depends on what was on the screen. A raster fills all rows from top to bottom, each
from left to right, and a full screen shows nothing of what it was before.
-/

set_option autoImplicit false

namespace PictureUnit

/-- One pixel drawn. -/
structure Ink where
  x : Nat
  y : Nat
  color : UInt16
  deriving DecidableEq, Repr

def Ink.place (i : Ink) : Nat × Nat := (i.x, i.y)

/-- The columns that a dot draws. -/
def columns (dot : Nat) : List Nat := if 1 ≤ dot ∧ dot ≤ screenWidth then [dot - 1] else []

/-- The places that a dot draws. -/
def drawnAt : Line → Nat → List (Nat × Nat)
  | .preRender, _ => []
  | .visible y, dot => (columns dot).map (·, y.val)

/-- The places of the screen, row after row. -/
def Screen.places : List (Nat × Nat) :=
  (List.range screenHeight).flatMap fun y => (List.range screenWidth).map (·, y)

namespace Screen

def inks (l : List Ink) (s : Screen) : Screen := l.foldl (fun s i => s.draw i.x i.y i.color) s

theorem inks_append (l k : List Ink) (s : Screen) : s.inks (l ++ k) = (s.inks l).inks k :=
  List.foldl_append

/-- Drawing the same hides the difference at every place drawn. -/
theorem inks_pixels_eq (l : List Ink) {s s' : Screen} (index : Nat)
    (h : s.pixels[index]? = s'.pixels[index]? ∨ ∃ i ∈ l, i.y * screenWidth + i.x = index) :
    (s.inks l).pixels[index]? = (s'.inks l).pixels[index]? := by
  induction l generalizing s s' with
  | nil => simpa [inks] using h
  | cons i rest ih =>
    apply ih
    by_cases hi : i.y * screenWidth + i.x = index
    · left
      simp only [draw, hi, Vector.getElem?_setIfInBounds_self]
    · rw [List.exists_mem_cons_iff] at h
      simp only [draw, Vector.getElem?_setIfInBounds_ne hi]
      rcases h with h | h | h
      · exact .inl h
      · exact absurd h hi
      · exact .inr h

/-- A full screen shows nothing of what it was before. -/
theorem inks_of_places {l : List Ink} (h : l.map Ink.place = places) (s s' : Screen) :
    s.inks l = s'.inks l := by
  rw [mk.injEq]
  apply Vector.ext
  intro index hi
  have same : (s.inks l).pixels[index]? = (s'.inks l).pixels[index]? := by
    apply inks_pixels_eq
    right
    have inside : (index % screenWidth, index / screenWidth) ∈ l.map Ink.place := by
      have hd : index / screenWidth < screenHeight := by
        simp only [screenWidth, screenHeight, screenSize] at *
        omega
      have hm : index % screenWidth < screenWidth := Nat.mod_lt _ (by decide)
      simp only [h, places, List.mem_flatMap, List.mem_map, List.mem_range]
      exact ⟨_, hd, _, hm, rfl⟩
    obtain ⟨i, hl, he⟩ := List.mem_map.mp inside
    simp only [Ink.place, Prod.mk.injEq] at he
    refine ⟨i, hl, ?_⟩
    rw [he.1, he.2, Nat.mul_comm]
    exact Nat.div_add_mod index screenWidth
  rw [Vector.getElem?_eq_getElem hi, Vector.getElem?_eq_getElem hi] at same
  exact Option.some.inj same

end Screen

/-- The dots of a line draw every column once, from left to right. -/
theorem columns_line : (List.range dotsPerLine).flatMap columns = List.range screenWidth := by
  decide +kernel

theorem drawn_line (short : Bool) (y : Fin screenHeight) :
    (lineDots short (.visible y)).flatMap (fun d => drawnAt d.1 d.2)
      = (List.range screenWidth).map (·, y.val) := by
  rw [← columns_line, List.map_flatMap, lineDots, List.flatMap_map]
  rfl

/-- A raster draws every place once, in the order of the rows. -/
theorem drawn_raster (short : Bool) :
    (raster short).flatMap (fun d => drawnAt d.1 d.2) = Screen.places := by
  have above : (lineDots short .preRender).flatMap (fun d => drawnAt d.1 d.2) = [] := by
    rw [List.flatMap_eq_nil_iff]
    intro d hd
    obtain ⟨dot, -, rfl⟩ := List.mem_map.mp hd
    rfl
  have rows : List.range screenHeight = (List.finRange screenHeight).map (·.val) :=
    List.map_coe_finRange_eq_range.symm
  rw [raster, List.flatMap_assoc, Line.all, List.flatMap_cons, above, List.nil_append,
    List.flatMap_map, Screen.places, rows, List.flatMap_map]
  exact List.flatMap_congr fun y _ => drawn_line short y

namespace Circuit

variable {κ : Type}

/-- The colour that a column gets. -/
def shade (x : Nat) (c : Circuit κ) : UInt16 :=
  c.palette.output (if c.registers.mask.rendering then blend (c.backgroundEntry x) (c.objectPixel? x)
    else c.backdropEntry)

/-- The inks that a dot puts on the screen. -/
def inks (line : Line) (dot : Nat) (c : Circuit κ) : List Ink :=
  (drawnAt line dot).map fun p => ⟨p.1, p.2, c.shade p.1⟩

theorem inks_places (line : Line) (dot : Nat) (c : Circuit κ) :
    (c.inks line dot).map Ink.place = drawnAt line dot := by
  rw [inks, List.map_map]
  exact List.map_id _

theorem drawPixel_withScreen (s : Screen) (x y : Nat) (c : Circuit κ) :
    (c.withScreen s).drawPixel x y = (c.drawPixel x y).withScreen (s.draw x y (c.shade x)) := by
  by_cases hr : c.registers.mask.rendering = true
  · have drawn : (c.withScreen s).drawRendered x y
        = (c.drawRendered x y).withScreen
          (s.draw x y (c.palette.output (blend (c.backgroundEntry x) (c.objectPixel? x)))) := by
      unfold drawRendered
      dsimp only
      rw [apply_ite (withScreen _)]
      rfl
    rw [drawPixel, drawPixel, shade, if_pos hr, if_pos hr, ← drawn]
    exact if_pos hr
  · rw [drawPixel, drawPixel, shade, if_neg hr, if_neg hr]
    exact if_neg hr

theorem drawDot_withScreen (s : Screen) (line : Line) {dot : Nat} (hd : dot ≠ 0) (c : Circuit κ) :
    (c.withScreen s).drawDot line dot = (c.drawDot line dot).withScreen (s.inks (c.inks line dot)) := by
  cases line with
  | preRender => rfl
  | visible y =>
    by_cases hw : dot ≤ screenWidth
    · have one : columns dot = [dot - 1] := if_pos ⟨Nat.pos_of_ne_zero hd, hw⟩
      simp only [drawDot, if_pos hw, drawPixel_withScreen, inks, drawnAt, one]
      rfl
    · have none : columns dot = [] := if_neg fun h => hw h.2
      simp only [drawDot, if_neg hw, inks, drawnAt, none]
      rfl

theorem clearFlags_inks (line : Line) (dot : Nat) (c : Circuit κ) :
    (c.clearFlags line dot).inks line dot = c.inks line dot := by
  unfold clearFlags
  split <;> rfl

theorem blankStart_withScreen [Cartridge κ] (s : Screen) (line : Line) (c : Circuit κ) :
    (c.withScreen s).blankStart line = (c.blankStart line).withScreen s := rfl

theorem dot_withScreen [Cartridge κ] (s : Screen) (line : Line) (dot cycle : Nat)
    (limit : SpriteLimit) (c : Circuit κ) : (c.withScreen s).dot line dot cycle limit
      = (c.dot line dot cycle limit).withScreen (s.inks (c.inks line dot)) := by
  by_cases hd : dot = 0
  · subst hd
    cases line <;> rfl
  · have drawn := drawDot_withScreen s line hd (c.clearFlags line dot)
    rw [clearFlags_inks] at drawn
    have rendered (s : Screen) (d : Circuit κ) :
        (if d.registers.mask.rendering then (d.withScreen s).render line dot cycle limit
            else d.withScreen s)
          = withScreen s (if d.registers.mask.rendering then d.render line dot cycle limit else d) := by
      rw [apply_ite (withScreen s), render_withScreen]
    unfold Circuit.dot
    rw [if_neg hd, if_neg hd, clearFlags_withScreen, drawn]
    dsimp only
    rw [apply_ite (withScreen _), ← blankStart_withScreen, ← rendered]
    rfl

end Circuit

theorem Machine.step_withScreen {κ : Type} [Cartridge κ] (s : Screen) (line : Line) (dot : Nat)
    (m : Machine κ) : (m.withScreen s).step line dot
      = (m.step line dot).withScreen (s.inks (m.circuit.inks line dot)) := by
  have ran : (m.withScreen s).runDot line dot
      = (m.runDot line dot).withScreen (s.inks (m.circuit.inks line dot)) :=
    congrArg (fun c => m.withCircuit fun _ => c)
      (Circuit.dot_withScreen s line dot m.clock.count m.config.limit m.circuit)
  unfold step settleAt
  rw [ran]
  split
  · rw [settleLength_withScreen]
    rfl
  · rfl

end PictureUnit
