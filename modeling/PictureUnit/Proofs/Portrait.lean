import PictureUnit.Proofs.Cells
import PictureUnit.Proofs.Colors

/-!
# The picture in bytes

A scene can be told without the chip: from the bytes behind its addresses, the four bytes of each object and
the bits of its control and mask bytes. Every pixel is the background's unless an object stands before it,
and its colour is looked up last. A rendered frame in which the processor keeps still is this picture.
-/

set_option autoImplicit false

namespace PictureUnit

/-- How far down the nametables a line lies. -/
structure Height where
  table : Nat
  tile : Nat
  pixel : Nat

/-- The line below. The other table begins after the thirtieth row of tiles; the rows past it lead back to
the top of their own. -/
def Height.below (h : Height) : Height :=
  if h.pixel < 7 then { h with pixel := h.pixel + 1 }
  else if h.tile = 29 then ⟨1 - h.table, 0, 0⟩
  else ⟨h.table, (h.tile + 1) % 32, 0⟩

/-- The height that a scroll position stands for. -/
def Scroll.Address.height (a : Scroll.Address) : Height := ⟨a.tableY.val, a.coarseY.val, a.fineY.val⟩

theorem Scroll.Address.height_down (a : Scroll.Address) : a.down.height = a.height.below := by
  obtain ⟨cx, cy, tx, ty, fy⟩ := a
  unfold down height Height.below
  dsimp only
  by_cases inside : fy.val < 7
  · have next : (fy.val + 1) % 8 = fy.val + 1 := by omega
    simp only [if_pos inside, withFineY, fine, val_wrap, next]
  · by_cases last : cy.val = 29
    · have other : (ty.val + 1) % 2 = 1 - ty.val := by omega
      simp only [if_neg inside, if_pos last, withFineY, withCoarseY, fine, coarse, table, val_wrap, other,
        Nat.zero_mod]
    · simp only [if_neg inside, if_neg last, withFineY, withCoarseY, fine, coarse, val_wrap, Nat.zero_mod]

namespace Scene

/-- The byte behind an address below the palette. -/
def peek (s : Scene) (address : Nat) : Nat := (s.banks.content (s.banks.decode address)).toNat

/-- The colour of a pixel in a row of eight, one bit from each of two bytes. -/
def tone (s : Scene) (address column : Nat) : Nat :=
  ((s.peek address).testBit (7 - column)).toNat + 2 * ((s.peek (address + 8)).testBit (7 - column)).toNat

def height (s : Scene) : Nat → Height
  | 0 => s.origin.height
  | y + 1 => (s.height y).below

/-- The nametable under a pixel. -/
def sheet (s : Scene) (x y : Nat) : Nat :=
  0x2000 + ((s.height y).table * 2 + s.across x / 256 % 2) * 0x400

/-- The colour of the tile under a pixel. -/
def tileTone (s : Scene) (x y : Nat) : Nat :=
  let name := s.peek (s.sheet x y + (s.height y).tile * 32 + s.across x / 8 % 32)
  let table := if s.control.bits.toNat.testBit 4 then 0x1000 else 0
  s.tone (table + name * 16 + (s.height y).pixel) (s.across x % 8)

/-- The two bits that choose its palette; a byte holds those of four times four tiles. -/
def tileChoice (s : Scene) (x y : Nat) : Nat :=
  let row := (s.height y).tile
  let column := s.across x / 8 % 32
  s.peek (s.sheet x y + 0x3C0 + row / 4 * 8 + column / 4) >>> (row / 2 % 2 * 4 + column / 2 % 2 * 2) % 4

/-- The background's palette entry, zero where it is hidden or transparent. -/
def ground (s : Scene) (x y : Nat) : Nat :=
  if s.shows 3 1 x ∧ s.tileTone x y ≠ 0 then s.tileChoice x y * 4 + s.tileTone x y else 0

/-- A byte of an object: its line, its tile, its attributes or its column. -/
def objectByte (s : Scene) (k i : Nat) : Nat := (s.objects[k * 4 + i]?.getD 0).toNat

def tall (s : Scene) : Nat := if s.control.bits.toNat.testBit 5 then 16 else 8

/-- The objects of a line: the first eight, or all, that the line above goes through. -/
def cast (s : Scene) : Nat → List Nat
  | 0 => []
  | y + 1 => ((List.range 64).filter fun k => s.objectByte k 0 ≤ y ∧ y < s.objectByte k 0 + s.tall).take
      (if s.limit = .unlimited then 64 else 8)

/-- The colour of an object at a pixel. A tall one holds two tiles, and its number tells their table. -/
def objectTone (s : Scene) (x y k : Nat) : Nat :=
  let down := y - 1 - s.objectByte k 0
  let row := if (s.objectByte k 2).testBit 7 then s.tall - 1 - down else down
  let across := x - s.objectByte k 3
  let column := if (s.objectByte k 2).testBit 6 then 7 - across else across
  let tile := s.objectByte k 1
  let address :=
    if s.tall = 16 then tile % 2 * 0x1000 + (tile / 2 * 2 + row / 8) * 16 + row % 8
    else (if s.control.bits.toNat.testBit 3 then 0x1000 else 0) + tile * 16 + row
  s.tone address column

/-- An object covers a pixel and is not transparent there. -/
def covers (s : Scene) (x y k : Nat) : Bool :=
  s.objectByte k 3 ≤ x ∧ x < s.objectByte k 3 + 8 ∧ s.objectTone x y k ≠ 0

def foremost (s : Scene) (x y : Nat) : Option Nat :=
  if s.shows 4 2 x then (s.cast y).find? (s.covers x y) else none

/-- The palette entry of a pixel. The first object that covers it comes before the background, unless it
stands behind one that is not transparent. -/
def painted (s : Scene) (x y : Nat) : Nat :=
  match s.foremost x y with
  | none => s.ground x y
  | some k =>
    if (s.objectByte k 2).testBit 5 ∧ s.ground x y ≠ 0 then s.ground x y
    else 16 + s.objectByte k 2 % 4 * 4 + s.objectTone x y k

/-- The colour that a palette entry stands for: through the map, without its lower bits in grey, and under
the emphasis. The first of every four entries is shared by background and objects. -/
def hue (s : Scene) (entry : Nat) : Nat :=
  let stored := (s.entries[if entry % 4 = 0 then entry % 16 else entry % 32]?.getD 0).toNat
  let color := match s.map with
    | none => stored
    | some map => (map[stored]?.getD 0).toNat
  (color &&& if s.mask.bits.toNat.testBit 0 then 0x30 else 0x3F) ||| s.mask.bits.toNat / 32 * 64

variable {s : Scene} {x y address : Nat}

theorem pattern_toNat (h : address < 0x2000) : (s.pattern address).toNat = s.peek address := by
  have inside : address < patternSpace := h
  rw [pattern, peek, ← Banks.cell_eq_decode, ← Banks.load_eq_content, Banks.cell, if_pos inside]

theorem name_toNat (h : 0x2000 ≤ address) : (s.name address).toNat = s.peek address := by
  have outside : ¬address < patternSpace := Nat.not_lt.mpr h
  rw [name, peek, ← Banks.cell_eq_decode, ← Banks.load_eq_content, Banks.cell, if_neg outside]

theorem color_eq_tone (h : address + 8 < 0x2000) (column : Nat) :
    (s.patternRow address).color column = s.tone address column := by
  have low : address < 0x2000 := by omega
  rw [tone, ← pattern_toNat low, ← pattern_toNat h]
  rfl

theorem height_eq (s : Scene) (y : Nat) : s.height y = (s.row y).height := by
  induction y with
  | zero => rfl
  | succ y ih => rw [height, ih, row_succ, Scroll.Address.height_down]

/-- What the position of a tile says about its column. -/
theorem tileOf_column (s : Scene) (x y : Nat) : (s.tileOf x y).coarseX.val = s.across x / 8 % 32
    ∧ (s.tileOf x y).tableX.val = s.across x / 256 % 2 := ⟨rfl, rfl⟩

theorem tileOf_height (s : Scene) (x y : Nat) : (s.tileOf x y).height = s.height y := by
  rw [height_eq]
  rfl

theorem tileAddress_eq (s : Scene) (x y : Nat) : (s.tileOf x y).tileAddress
    = s.sheet x y + (s.height y).tile * 32 + s.across x / 8 % 32 := by
  obtain ⟨column, table⟩ := s.tileOf_column x y
  rw [sheet, ← tileOf_height s x y, ← column, ← table]
  dsimp only [Scroll.Address.tileAddress, Scroll.Address.raw, Scroll.Address.nametable,
    Scroll.Address.height]
  omega

theorem attributeAddress_eq (s : Scene) (x y : Nat) : (s.tileOf x y).attributeAddress
    = s.sheet x y + 0x3C0 + (s.height y).tile / 4 * 8 + s.across x / 8 % 32 / 4 := by
  obtain ⟨column, table⟩ := s.tileOf_column x y
  rw [sheet, ← tileOf_height s x y, ← column, ← table]
  rfl

theorem patternTable_le (second : Bool) : Control.patternTable second ≤ 0x1000 := by
  cases second <;> decide

theorem tileRow_eq_tone (s : Scene) (x y : Nat) :
    (s.patternRow (s.tileRow (s.tileOf x y))).color (s.across x % 8) = s.tileTone x y := by
  have table : s.control.backgroundTable ≤ 0x1000 := patternTable_le _
  have name := (s.name (s.tileOf x y).tileAddress).toNat_lt
  have pixel := (s.tileOf x y).fineY.isLt
  have inside : s.tileRow (s.tileOf x y) + 8 < 0x2000 := by
    unfold tileRow
    omega
  have above : 0x2000 ≤ (s.tileOf x y).tileAddress := Nat.le_add_right _ _
  rw [color_eq_tone inside, tileRow, name_toNat above, tileAddress_eq, tileTone, ← tileOf_height s x y]
  rfl

theorem tilePalette_eq (s : Scene) (x y : Nat) : s.tilePalette (s.tileOf x y) = s.tileChoice x y := by
  have above : 0x2000 ≤ (s.tileOf x y).attributeAddress := by
    rw [attributeAddress_eq, sheet]
    omega
  rw [tilePalette, name_toNat above, attributeAddress_eq, tileChoice, ← tileOf_height s x y]
  rfl

theorem background_eq_ground (s : Scene) (x y : Nat) : s.background x y = s.ground x y := by
  rw [background, tileRow_eq_tone, tilePalette_eq]
  rfl

theorem shown_eq_cast (s : Scene) (y : Nat) : s.shown y = s.cast y := by
  have most : s.limit.perLine = if s.limit = .unlimited then 64 else 8 := by
    cases s.limit <;> rfl
  cases y with
  | zero => rfl
  | succ y =>
    have inside (k : Nat) : inRange y s.control.objectHeight (s.object k).y
        = decide (s.objectByte k 0 ≤ y ∧ y < s.objectByte k 0 + s.tall) := (Bool.decide_and _ _).symm
    rw [shown, cast, most]
    simp only [inside]
    rfl

theorem objectRow_le {o : Object} {row : Nat} (h : row < s.control.objectHeight) :
    s.objectRow o row + 8 < 0x2000 := by
  have table := patternTable_le (s.control.bits.toNat.testBit 3)
  have own := patternTable_le (o.tile.toNat.testBit 0)
  have tile := o.tile.toNat_lt
  unfold objectRow
  split
  · omega
  · have low : s.control.objectHeight = 8 := s.control.objectHeight_eq.resolve_right ‹_›
    unfold Control.objectTable
    omega

theorem patternTable_testBit (tile : Nat) :
    Control.patternTable (tile.testBit 0) = tile % 2 * 0x1000 := by
  obtain even | odd := Nat.mod_two_eq_zero_or_one tile
  · simp [Control.patternTable, even]
  · simp [Control.patternTable, odd]

/-- An object of the line is one that the line above goes through. -/
theorem mem_cast {k : Nat} (h : k ∈ s.cast y) :
    s.objectByte k 0 < y ∧ y ≤ s.objectByte k 0 + s.tall := by
  cases y with
  | zero => cases h
  | succ y =>
    obtain ⟨lower, upper⟩ := of_decide_eq_true (List.mem_filter.mp (List.mem_of_mem_take h)).2
    omega

/-- The colour that the chip finds in the row of an object of the line. -/
theorem objectTone_eq {k : Nat} (h : k ∈ s.cast y) : s.objectTone x y k
    = (s.patternRow (s.objectRow (s.object k)
        (if (s.objectByte k 2).testBit 7 then s.control.objectHeight - 1 - (y - 1 - s.objectByte k 0)
          else y - 1 - s.objectByte k 0))).color
      (if (s.objectByte k 2).testBit 6 then 7 - (x - s.objectByte k 3) else x - s.objectByte k 3) := by
  obtain ⟨lower, upper⟩ := mem_cast h
  have tall : s.control.objectHeight = s.tall := rfl
  rw [color_eq_tone (s.objectRow_le (by split <;> omega)), objectTone, objectRow, patternTable_testBit]
  rfl

theorem objectDot_eq {k : Nat} (h : k ∈ s.cast y) : s.objectDot? x y k
    = if s.covers x y k then some (16 + s.objectByte k 2 % 4 * 4 + s.objectTone x y k,
        (s.objectByte k 2).testBit 5) else none := by
  have tone := objectTone_eq (x := x) h
  rw [covers, tone]
  simp only [decide_eq_true_eq]
  rfl

theorem front_eq (s : Scene) (x y : Nat) : s.front? x y = (s.foremost x y).map fun k =>
    (16 + s.objectByte k 2 % 4 * 4 + s.objectTone x y k, (s.objectByte k 2).testBit 5) := by
  rw [front?, foremost, shown_eq_cast]
  split
  · have only := fun k (h : k ∈ s.cast y) => objectDot_eq (x := x) h
    generalize s.cast y = cast at only
    induction cast with
    | nil => rfl
    | cons k rest ih =>
      rw [List.forall_mem_cons] at only
      rw [List.findSome?_cons, only.1, List.find?_cons]
      cases s.covers x y k with
      | true => rfl
      | false => exact ih only.2
  · rfl

theorem entry_eq_painted (s : Scene) (x y : Nat) : s.entry x y = s.painted x y := by
  rw [entry, painted, front_eq, background_eq_ground]
  cases s.foremost x y <;> rfl

theorem hue_eq (s : Scene) (entry : Nat) :
    s.hue entry = Palette.shade s.map s.mask (s.entries.load (Ports.entry entry)) := by
  have index : (if entry % 4 = 0 then entry % 16 else entry % 32) = Ports.entry entry := by
    rw [Ports.entry_eq_fold, Palette.fold]
    dsimp only [paletteSize]
    split <;> split <;> omega
  have grey : s.mask.bits.toNat.testBit 0 = true ↔ s.mask.bits.toNat % 2 = 1 := by simp
  rw [hue, Palette.shade, index, UInt8.toNat_and, apply_ite UInt8.toNat]
  simp only [grey]
  cases s.map <;> rfl

end Scene

namespace Machine

variable {κ : Type}

/-- What the works draw for a palette entry is its hue. -/
theorem color_toNat {m : Machine κ} (h : m.circuit.Derived) (entry : Nat) :
    (m.scene.color entry).toNat = m.scene.hue entry := by
  have color : m.circuit.palette.output entry = m.scene.color entry :=
    Works.output_eq (w := m.circuit.works) h m.config.limit entry
  rw [← color, h.output_toNat, Scene.hue_eq]
  rfl

variable [Cartridge κ]

/-- Whatever a machine with an empty slot holds between frames, the next frame is the picture that its
memories, its scroll position, and its control and mask bytes describe. -/
theorem frame_shows_picture {m : Machine (Option κ)} (hm : m.Reachable) (hf : m.inFrame = false)
    (hb : m.clock.betweenFrames = true) (hs : m.circuit.cartridge = none)
    (hr : m.scene.mask.bits.toNat.testBit 3 = true ∨ m.scene.mask.bits.toNat.testBit 4 = true) :
    ∃ o n, m.beginFrame = .ok o ∧ o.endFrame = .ok n ∧ ∀ x < 256, ∀ y < 240,
      (n.circuit.screen.pixels[y * 256 + x]?).map UInt16.toNat = some (m.scene.hue (m.scene.painted x y)) := by
  have rendering : m.rendering = true := (Bool.or_eq_true _ _).mpr hr
  obtain ⟨o, n, opened, ended, drawn⟩ := frame_shows_scene hm hf hb hs rendering
  refine ⟨o, n, opened, ended, fun x hx y hy => ?_⟩
  have pixel : n.circuit.screen.pixels[y * 256 + x]? = some (m.scene.color (m.scene.entry x y)) :=
    drawn x hx y hy
  rw [pixel, Option.map_some, color_toNat hm.derived, Scene.entry_eq_painted]

/-- Patterns and nametables lie in a memory of one byte. -/
def solidBanks : Banks := { Banks.ofRom #[0xFF] with names := Vector.replicate 4 (.rom 0) }

/-- Every tile is opaque and takes the last palette, and all objects lie in the corner. The background is
switched on but for its left columns, and the objects in whole. -/
def tiledMachine : Machine (Option Unit) :=
  ((Machine.new ⟨.pal, .unlimited⟩ solidBanks none (.new fun _ => 0)).turn
    ⟨100, fun _ => 0, .write 0x2001 0x1C⟩).2

def tiledScene : Scene where
  control := ⟨0⟩
  mask := ⟨0x1C⟩
  origin := Scroll.Latch.cleared.pending
  fineX := 0
  objects := .filled 256 0
  entries := Palette.new.entries
  map := none
  banks := solidBanks
  limit := .unlimited

theorem tiledMachine_eq : tiledMachine
    = (((Machine.new ⟨.pal, .unlimited⟩ solidBanks none (.new fun _ => 0)).meet
      ⟨100, fun _ => 0, .write 0x2001 0x1C⟩).setLines 0x1C).withCircuit (·.setMask ⟨0x1C⟩) :=
  turn_mask rfl (Nat.le_refl _) rfl rfl 100 0x1C

theorem tiledMachine_scene : tiledMachine.scene = tiledScene := by
  have palette : tiledMachine.circuit.palette = (Palette.new.setMask ⟨0⟩).setMask ⟨0x1C⟩ :=
    congrArg (·.circuit.palette) tiledMachine_eq
  have entries : tiledMachine.circuit.palette.entries = Palette.new.entries := by
    rw [palette, (Palette.setMask_keeps _ _).1, (Palette.setMask_keeps _ _).1]
  have map : tiledMachine.circuit.palette.map = none := by
    rw [palette, (Palette.setMask_keeps _ _).2, (Palette.setMask_keeps _ _).2]
    rfl
  have rest : tiledMachine.scene = { tiledScene with
      entries := tiledMachine.circuit.palette.entries
      map := tiledMachine.circuit.palette.map } := by
    rw [tiledMachine_eq]
    rfl
  rw [rest, entries, map]
  rfl

/-- An object in the corner, the backdrop below it where the background is cut off, and a tile beside both. -/
theorem frame_shows_picture_tiled : ∃ o n, tiledMachine.beginFrame = .ok o ∧ o.endFrame = .ok n
    ∧ (n.circuit.screen.pixels[1 * 256 + 7]?).map UInt16.toNat = some 0x03
    ∧ (n.circuit.screen.pixels[9 * 256 + 7]?).map UInt16.toNat = some 0x09
    ∧ (n.circuit.screen.pixels[9 * 256 + 8]?).map UInt16.toNat = some 0x2C := by
  have reached : tiledMachine.Reachable := (Reachable.new _ _ _ _).turn _
  have closed : tiledMachine.inFrame = false := congrArg (·.inFrame) tiledMachine_eq
  have between : tiledMachine.clock.betweenFrames = true := congrArg (·.clock.betweenFrames) tiledMachine_eq
  have slot : tiledMachine.circuit.cartridge = none := congrArg (·.circuit.cartridge) tiledMachine_eq
  obtain ⟨o, n, opened, ended, drawn⟩ := frame_shows_picture reached closed between slot (by
    rw [tiledMachine_scene]
    decide)
  rw [tiledMachine_scene] at drawn
  have object : tiledScene.hue (tiledScene.painted 7 1) = 0x03 := by decide +kernel
  have backdrop : tiledScene.hue (tiledScene.painted 7 9) = 0x09 := by decide +kernel
  have tile : tiledScene.hue (tiledScene.painted 8 9) = 0x2C := by decide +kernel
  refine ⟨o, n, opened, ended, ?_, ?_, ?_⟩
  · rw [drawn 7 (by decide) 1 (by decide), object]
  · rw [drawn 7 (by decide) 9 (by decide), backdrop]
  · rw [drawn 8 (by decide) 9 (by decide), tile]

end Machine

end PictureUnit
