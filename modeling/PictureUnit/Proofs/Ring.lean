import PictureUnit.Proofs.Decoded

/-!
# The tiles over a line

A rendered line ends with the fetch of two tiles, and the line below fetches the others, sixteen columns
ahead of the beam. So wherever the scroll position stood at the first of these fetches, each column of the
line below shows its tile, whatever the fine scroll and however many dots the line above has.
-/

set_option autoImplicit false

namespace PictureUnit

open Scroll.Address (right)

/-- The palette entry of a column of the tile at a scroll position. -/
def Scroll.Address.entry (b : Banks) (c : Control) (column : Nat) (a : Scroll.Address) : Nat :=
  let name := b.load (b.nameCell a.tileAddress)
  let attributes := b.load (b.nameCell a.attributeAddress)
  let address := c.backgroundTable + 16 * name.toNat + a.fineY.val
  let low := b.load (b.patternCell address)
  let high := b.load (b.patternCell (address + 8))
  let bit := 7 - column
  let color := (low.toNat.testBit bit).toNat + 2 * (high.toNat.testBit bit).toNat
  (attributes.toNat >>> a.attributeShift % 4) * 4 ||| color

theorem Scene.tile_entry (s : Scene) (a : Scroll.Address) (column : Nat) :
    (s.tile a).pixel column = a.entry s.banks s.control column := by
  have joined : ∀ palette < 4, ∀ color < 4, palette * 4 + color = palette * 4 ||| color := by decide
  have row : s.tileRow a
      = s.control.backgroundTable + 16 * (s.name a.tileAddress).toNat + a.fineY.val := by
    rw [Scene.tileRow, Nat.mul_comm]
  have palette : (s.tile a).palette < 4 := Nat.mod_lt _ (by decide)
  rw [Tile.pixel, joined _ palette _ ((s.tile a).row.color_lt column), Scene.tile, row]
  rfl

namespace Machine

variable {κ : Type} [Cartridge κ] {m : Machine κ} {line : Line} {y : Fin screenHeight}

theorem sweeps_tiles (place : m.clock.position = .raster line 321) :
    m.Sweeps line 321 (Position.lastDot m.dropsDot line + 1) where
  place := place
  start := .inr (.inr rfl)
  reach d lower upper := reaches_of_le_lastDot place (by decide) ⟨lower, by omega⟩
  hooks := fun zero => by cases zero

theorem sweeps_columns (place : m.clock.position = .raster line 0) : m.Sweeps line 0 257 where
  place := place
  start := .inl rfl
  reach d lower upper := reaches_of_le place ⟨lower, by omega⟩
  hooks := fun _ => le_rfl

/-- The dots to the next line, from the one that begins to fetch its tiles. -/
def lead (m : Machine κ) (line : Line) : Nat := Position.lastDot m.dropsDot line + 1 - 321

/-- At the end of a line the first two tiles of the next one are there. -/
theorem later_prefetch (place : m.clock.position = .raster line 321) (on : m.rendering = true)
    (patterns : m.circuit.banks.OwnPatterns) (names : m.circuit.banks.OwnNames) :
    Pipe.At m.scene m.circuit.registers.scroll.current 0 (m.later (m.lead line)).circuit.pipe
      ∧ (m.later (m.lead line)).circuit.settings = m.circuit.settings := by
  have slots : (m.step line 321).circuit.banks = m.circuit.banks := by
    rw [step_circuit, Circuit.dot_slots (by decide) (by decide)]
  have long := Position.le_lastDot m.dropsDot line
  have passing := (sweeps_tiles place).passing on fun d after _ => by
    rw [slots]
    exact Fetch.own_tiles patterns names (.inr after.le)
  have tiles := passing.prefetch (d := Position.lastDot m.dropsDot line + 1) ⟨by omega, le_rfl⟩
  have kept := (passing.keeps (d := Position.lastDot m.dropsDot line + 1) ⟨by omega, le_rfl⟩).1
  rw [worksAt_first, slots] at tiles kept
  exact ⟨tiles, kept⟩

/-- A line shows in each column the tile that lies as many steps right as the column is tiles from the
edge, if its first tiles were there before its first dot. -/
theorem later_column {s : Scene} {a : Scroll.Address} (place : m.clock.position = .raster (.visible y) 0)
    (on : m.rendering = true) (tiles : Pipe.At s a 0 m.circuit.pipe) {x : Nat} (hx : x < 256)
    (scene : { m.scene with banks := (m.later (x + 1)).circuit.banks } = s)
    (patterns : s.banks.OwnPatterns) (names : s.banks.OwnNames) :
    Pipe.At s a (x / 8) (m.later (x + 1)).circuit.pipe := by
  have slots : (m.step (.visible y) 0).circuit.banks = s.banks := by
    rw [← (sweeps_columns place).banks (d := x + 1) ⟨by omega, by omega⟩, ← scene]
    rfl
  have passing := (sweeps_columns place).passing on fun d _ before => by
    rw [slots]
    exact Fetch.own_tiles patterns names (.inl (by omega))
  have first : (m.worksAt (.visible y) 0 0).scene m.config.limit = s := by
    rw [worksAt_first, slots, ← scene]
    rfl
  have start : Pipe.At ((m.worksAt (.visible y) 0 0).scene m.config.limit) a 0
      (m.worksAt (.visible y) 0 0).pipe := by
    rw [first, worksAt_first]
    exact tiles
  have column := passing.column start hx (by omega)
  rw [first] at column
  exact column

/-- From the dot of a rendered line that begins to fetch the tiles of the visible line below, whatever the
scroll position and the fine scroll are then and however long the line is: as long as only dots pass and
the slots stay those of the chip's own memories, the background pixel read in each column of the line
below is the one of the tile that lies as many steps right as the column is tiles from the edge. -/
theorem columns_show (place : m.clock.position = .raster line 321) (on : m.rendering = true)
    (touching : line.next = some (.visible y)) (patterns : m.circuit.banks.OwnPatterns)
    (names : m.circuit.banks.OwnNames) {x : Nat} (hx : x < 256) :
    let fineX := m.circuit.registers.scroll.fineX.val
    let n := m.advanceTo (m.clock.count + (m.lead line + (x + 1)) * m.timing.dot)
    n.clock.position = .raster (.visible y) (x + 1)
      ∧ n.circuit.registers.scroll.fineX.val = fineX
      ∧ (n.circuit.banks = m.circuit.banks →
        n.circuit.background.pixel x fineX
          = (right^[(x + fineX) / 8] m.circuit.registers.scroll.current).entry m.circuit.banks
            m.circuit.registers.control ((x + fineX) % 8)) := by
  intro fineX n
  have below : m.Reaches (m.lead line) (.visible y) 0 :=
    reaches_below (d := 321) place (by decide) touching
  have later : (m.later (m.lead line)).later (x + 1) = n := below.later_later (x + 1)
  obtain ⟨tiles, kept⟩ := later_prefetch place on patterns names
  have same := later_settings (x + 1) (m.later (m.lead line))
  have standing := (reaches_line below.place (k := x + 1) (by omega)).place
  rw [later, Nat.zero_add] at standing
  rw [later, kept] at same
  refine ⟨standing, congrArg (·.fineX.val) same, fun slots => ?_⟩
  have scene : { (m.later (m.lead line)).scene with banks := n.circuit.banks } = m.scene := by
    have config := later_config (m.lead line) m
    rw [slots, Machine.scene, config]
    exact congrArg (fun s : Settings => (⟨s.control, s.mask, s.pending, s.fineX, s.objects,
      s.palette.entries, s.palette.map, m.circuit.banks, m.config.limit⟩ : Scene)) kept
  have lit : (m.later (m.lead line)).rendering = true := (later_rendering _ m).trans on
  rw [← later] at scene
  have column := later_column below.place lit tiles hx scene patterns names
  rw [later] at column
  exact (column.pixel rfl m.circuit.registers.scroll.fineX).trans (m.scene.tile_entry _ _)

/-- The column in the middle of line 1. -/
theorem columns_show_switchedOn : ∃ m : Machine (Option Unit),
    let fineX := m.circuit.registers.scroll.fineX.val
    let line := Line.visible ⟨0, by decide⟩
    let n := m.advanceTo (m.clock.count + (m.lead line + (128 + 1)) * m.timing.dot)
    m.clock.position = .raster line 321
      ∧ n.clock.position = .raster (.visible ⟨1, by decide⟩) (128 + 1)
      ∧ n.circuit.background.pixel 128 fineX
        = (right^[(128 + fineX) / 8] m.circuit.registers.scroll.current).entry m.circuit.banks
          m.circuit.registers.control ((128 + fineX) % 8) := by
  obtain ⟨lit, on⟩ := exists_dawn
  have place := (reaches_line on.place (k := 320) (by decide)).place
  have rendering : (lit.later 320).rendering = true := (later_rendering _ lit).trans on.on
  have banks : (lit.later 320).circuit.banks = lit.circuit.banks := advanceTo_fixed fixed_none _ lit
  obtain ⟨standing, -, shown⟩ := columns_show place rendering (y := ⟨1, by decide⟩) rfl
    (banks ▸ Banks.ownPatterns_of_new on.patterns) (banks ▸ Banks.ownNames_of_new on.names) (x := 128)
    (by decide)
  exact ⟨lit.later 320, place, standing, shown (advanceTo_fixed fixed_none _ _)⟩

end Machine

end PictureUnit
