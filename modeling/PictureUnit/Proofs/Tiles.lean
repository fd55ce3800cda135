import PictureUnit.Circuit.Rendering
import PictureUnit.Proofs.Scene

/-!
# The tiles of a row

Eight phases fetch a tile and put it into one half of the ring, from where it is drawn one group of
dots later or two. So while a row is drawn the two halves always hold the tiles that the columns of
the current group fall into, whatever the fine scroll.
-/

set_option autoImplicit false

namespace PictureUnit

namespace Scroll.Address

/-- The two nametables are one row of sixty-four tiles. -/
theorem right_eq (a : Address) : a.right =
    { a with
      coarseX := coarse (a.tableX.val * 32 + a.coarseX.val + 1)
      tableX := table ((a.tableX.val * 32 + a.coarseX.val + 1) / 32) } := by
  have column := a.coarseX.isLt
  by_cases he : a.coarseX.val = 31
  · rw [right, if_pos he]
    simp only [coarse, table, wrap, mk.injEq, Fin.ext_iff, and_true, true_and]
    omega
  · rw [right, if_neg he]
    simp only [coarse, table, wrap, mk.injEq, Fin.ext_iff, and_true, true_and]
    omega

theorem right_iterate (n : Nat) (a : Address) : right^[n] a =
    { a with
      coarseX := coarse (a.tableX.val * 32 + a.coarseX.val + n)
      tableX := table ((a.tableX.val * 32 + a.coarseX.val + n) / 32) } := by
  induction n with
  | zero =>
    obtain ⟨cx, cy, tx, ty, fy⟩ := a
    simp only [Function.iterate_zero, id_eq, coarse, table, wrap, mk.injEq, Fin.ext_iff, and_true,
      true_and]
    omega
  | succ n ih =>
    rw [Function.iterate_succ_apply', ih, right_eq]
    simp only [coarse, table, wrap, mk.injEq, Fin.ext_iff, and_true, true_and]
    omega

theorem takeHorizontal_right_iterate (source a : Address) (n : Nat) :
    takeHorizontal source (right^[n] a) = takeHorizontal source a := by
  rw [right_iterate]
  rfl

/-- A step down keeps to its column. -/
theorem takeHorizontal_down (source a : Address) :
    takeHorizontal source a.down = (takeHorizontal source a).down := by
  by_cases hf : a.fineY.val < 7
  · rw [down, down, if_pos hf, if_pos (by exact hf)]
    rfl
  · by_cases hc : a.coarseY.val = 29
    · rw [down, down, if_neg hf, if_pos hc, if_neg (by exact hf), if_pos (by exact hc)]
      rfl
    · rw [down, down, if_neg hf, if_neg hc, if_neg (by exact hf), if_neg (by exact hc)]
      rfl

end Scroll.Address

namespace Scene

open Scroll.Address (right down takeHorizontal)

/-- The tile at a scroll position. -/
def tile (s : Scene) (a : Scroll.Address) : Tile := ⟨s.tilePalette a, s.patternRow (s.tileRow a)⟩

theorem row_succ (s : Scene) (y : Nat) : s.row (y + 1) = (s.row y).down :=
  Function.iterate_succ_apply' _ _ _

theorem takeHorizontal_row (s : Scene) (y : Nat) : takeHorizontal s.origin (s.row y) = s.row y := by
  induction y with
  | zero => rfl
  | succ y ih => rw [row_succ, Scroll.Address.takeHorizontal_down, ih]

/-- The end of a row leads to the beginning of the next. -/
theorem row_below (s : Scene) (y n : Nat) :
    takeHorizontal s.origin (right^[n] (s.row y)).down = s.row (y + 1) := by
  rw [Scroll.Address.takeHorizontal_down, Scroll.Address.takeHorizontal_right_iterate,
    takeHorizontal_row, row_succ]

/-- The tile over a pixel is as many steps right as the pixel is tiles from the edge. -/
theorem tileOf_eq (s : Scene) (x y : Nat) :
    s.tileOf x y = right^[(x + s.fineX.val) / 8] (s.row y) := by
  have same := takeHorizontal_row s y
  have tables : (s.row y).tableX = s.origin.tableX := (congrArg (·.tableX) same).symm
  have columns : (s.row y).coarseX = s.origin.coarseX := (congrArg (·.coarseX) same).symm
  rw [Scroll.Address.right_iterate, tileOf, across, tables, columns]
  simp only [Scroll.Address.coarse, Scroll.Address.table, wrap, Scroll.Address.mk.injEq, Fin.ext_iff,
    and_true, true_and]
  omega

theorem highPlane_tileRow (s : Scene) (a : Scroll.Address) :
    highPlane (s.tileRow a) = s.tileRow a + 8 := by
  have table : s.control.backgroundTable = 0 ∨ s.control.backgroundTable = 0x1000 := by
    unfold Control.backgroundTable Control.patternTable
    split
    · exact .inr rfl
    · exact .inl rfl
  have fine : a.fineY.val < 8 := a.fineY.isLt
  apply if_pos
  unfold tileRow
  omega

end Scene

/-- The part of the circuit that fetches tiles. -/
structure Pipe where
  background : Background
  current : Scroll.Address
  bus : Nat

namespace Pipe

open Scroll.Address (right down takeHorizontal)

/-- One dot of a tile fetch. -/
def tile (s : Scene) (phase : Phase) (dot : Nat) (p : Pipe) : Pipe :=
  match phase with
  | .openName => { p with bus := p.current.tileAddress }
  | .name => { p with background := p.background.latchName (s.name p.bus) }
  | .openAttributes => { p with bus := p.current.attributeAddress }
  | .attributes =>
    { p with background := p.background.latchAttribute (s.name p.bus) p.current.attributeShift }
  | .openLow =>
    { p with bus := p.background.lowAddress s.control.backgroundTable p.current.fineY.val }
  | .low => { p with background := p.background.latchLow (s.pattern p.bus) }
  | .openHigh => { p with bus := highPlane p.bus }
  | .high =>
    { p with
      background := (p.background.latchHigh (s.pattern p.bus)).keep dot
      current := if dot = 256 then p.current.right.down else p.current.right }

/-- The first dots of a tile fetch that begins at `base`. -/
def tiles (s : Scene) (base : Nat) : Nat → Pipe → Pipe
  | 0, p => p
  | k + 1, p => (tiles s base k p).tile s (.ofIndex k) (base + k)

variable {s : Scene} {a : Scroll.Address} {p : Pipe} {g : Nat}

/-- Before its last dot a tile fetch has moved nothing. -/
theorem tiles_keeps (s : Scene) (base : Nat) {k : Nat} (hk : k < 8) (p : Pipe) :
    (p.tiles s base k).current = p.current
      ∧ (p.tiles s base k).background.even = p.background.even
      ∧ (p.tiles s base k).background.odd = p.background.odd := by
  obtain rfl | rfl | rfl | rfl | rfl | rfl | rfl | rfl :
      k = 0 ∨ k = 1 ∨ k = 2 ∨ k = 3 ∨ k = 4 ∨ k = 5 ∨ k = 6 ∨ k = 7 := by omega
  all_goals exact ⟨rfl, rfl, rfl⟩

theorem tiles_current (s : Scene) (base : Nat) (p : Pipe) :
    (p.tiles s base 8).current
      = if base + 7 = 256 then p.current.right.down else p.current.right := rfl

/-- The last dot puts the tile into its half. -/
theorem tiles_background (s : Scene) (base : Nat) (p : Pipe) :
    (p.tiles s base 8).background.even
        = (if (base + 7) / 8 % 2 = 1 then s.tile p.current else p.background.even)
      ∧ (p.tiles s base 8).background.odd
        = (if (base + 7) / 8 % 2 = 1 then p.background.odd else s.tile p.current) := by
  have fetched : (p.tiles s base 8).background = ({ p.background with
      name := s.name p.current.tileAddress
      palette := s.tilePalette p.current
      row := ⟨s.pattern (s.tileRow p.current), s.pattern (highPlane (s.tileRow p.current))⟩
      }).keep (base + 7) := rfl
  rw [fetched, Scene.highPlane_tileRow]
  unfold Background.keep
  split
  · exact ⟨rfl, rfl⟩
  · exact ⟨rfl, rfl⟩

end Pipe

/-- The half of the ring that the `q`-th tile of a row takes. -/
def Background.half (q : Nat) (b : Background) : Tile := if q % 2 = 0 then b.even else b.odd

theorem Background.pixel_eq (b : Background) (x fineX : Nat) :
    b.pixel x fineX = (b.half ((x + fineX) / 8)).pixel ((x + fineX) % 8) := by
  unfold pixel half
  dsimp only
  by_cases hp : (x + fineX) % 16 < 8
  · have even : (x + fineX) / 8 % 2 = 0 := by omega
    have column : (x + fineX) % 16 = (x + fineX) % 8 := by omega
    rw [if_pos hp, if_pos even, column]
  · have odd : ¬ (x + fineX) / 8 % 2 = 0 := by omega
    have column : (x + fineX) % 16 - 8 = (x + fineX) % 8 := by omega
    rw [if_neg hp, if_neg odd, column]

namespace Pipe

open Scroll.Address (right down takeHorizontal)

/-- The ring holds two tiles of the row from `a`, and the next one is to be fetched. -/
structure At (s : Scene) (a : Scroll.Address) (g : Nat) (p : Pipe) : Prop where
  current : p.current = right^[g + 2] a
  near : p.background.half g = s.tile (right^[g] a)
  far : p.background.half (g + 1) = s.tile (right^[g + 1] a)

variable {s : Scene} {a : Scroll.Address} {p : Pipe} {g : Nat}

theorem At.tiles_keeps (h : At s a g p) (base : Nat) {k : Nat} (hk : k < 8) :
    At s a g (p.tiles s base k) := by
  obtain ⟨current, even, odd⟩ := Pipe.tiles_keeps s base hk p
  refine ⟨current.trans h.current, ?_, ?_⟩
  · rw [← h.near, Background.half, Background.half, even, odd]
  · rw [← h.far, Background.half, Background.half, even, odd]

/-- A tile fetch replaces the tile that is no longer drawn. -/
theorem At.tiles_half (h : At s a g p) {base : Nat} (hb : (base + 7) / 8 = g + 1) :
    (p.tiles s base 8).background.half (g + 1) = s.tile (right^[g + 1] a)
      ∧ (p.tiles s base 8).background.half (g + 2) = s.tile (right^[g + 2] a) := by
  obtain ⟨even, odd⟩ := tiles_background s base p
  have far := h.far
  rw [hb, h.current] at even odd
  unfold Background.half at far ⊢
  by_cases hg : g % 2 = 0
  · have this : (g + 1) % 2 = 1 := by omega
    have next : (g + 2) % 2 = 0 := by omega
    rw [if_pos this] at even odd
    rw [if_neg (by omega)] at far
    rw [if_neg (by omega), if_pos next, even, odd]
    exact ⟨far, rfl⟩
  · have this : (g + 1) % 2 = 0 := by omega
    have next : ¬ (g + 2) % 2 = 0 := by omega
    rw [if_neg (by omega)] at even odd
    rw [if_pos this] at far
    rw [if_pos this, if_neg next, even, odd]
    exact ⟨far, rfl⟩

theorem At.tiles_next (h : At s a g p) {base : Nat} (hb : (base + 7) / 8 = g + 1)
    (hl : base + 7 ≠ 256) : At s a (g + 1) (p.tiles s base 8) := by
  obtain ⟨near, far⟩ := h.tiles_half hb
  refine ⟨?_, near, far⟩
  rw [tiles_current, if_neg hl, h.current]
  exact (Function.iterate_succ_apply' right (g + 2) a).symm

/-- The pixel drawn is that of the tile over the column. -/
theorem At.pixel (h : At s a g p) {x : Nat} (hx : x / 8 = g) (fineX : Fin 8) :
    p.background.pixel x fineX.val
      = (s.tile (right^[(x + fineX.val) / 8] a)).pixel ((x + fineX.val) % 8) := by
  have fine := fineX.isLt
  rw [Background.pixel_eq]
  obtain hq | hq : (x + fineX.val) / 8 = g ∨ (x + fineX.val) / 8 = g + 1 := by omega
  · rw [hq, h.near]
  · rw [hq, h.far]

end Pipe

end PictureUnit
