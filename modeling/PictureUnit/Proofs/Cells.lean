import Mathlib.Logic.Function.Basic
import PictureUnit.Machine

/-!
# The cells behind the bus

However the slots are set and however long the memories are, an address below the palette stands for one
cell, and reading and writing go through it. So the bus is a store of cells: a byte written at one address
is read at every address of the same cell and at no other. Where the cartridge answers, it alone is asked.
-/

set_option autoImplicit false

namespace PictureUnit

/-- The cell keeps a byte that is written to it. -/
def Cell.Writable : Cell → Prop
  | .internal _ | .ram _ => True
  | .rom _ | .cartridge | .missing => False

instance (c : Cell) : Decidable c.Writable := by
  cases c <;> unfold Cell.Writable <;> infer_instance

namespace Banks

variable {b : Banks} {i address : Nat}

/-- The names repeat once over. -/
theorem cell_mirror {address : Nat} (h : patternSpace ≤ address) :
    b.cell (address + 0x1000) = b.cell address := by
  have slot : (address + 0x1000) / pageSize % 4 = address / pageSize % 4 := by
    simp only [pageSize]
    omega
  have offset : (address + 0x1000) % pageSize = address % pageSize := by
    simp only [pageSize]
    omega
  have above : ¬ address + 0x1000 < patternSpace := by omega
  simp only [cell, if_neg above, if_neg (Nat.not_lt.mpr h), nameCell, name, slot, offset]

/-- The cell is one of the memory's own. -/
def Holds (b : Banks) : Cell → Prop
  | .internal i => i < internalSize
  | .ram i => i < b.ram.size
  | .rom i => i < b.rom.size
  | .cartridge | .missing => True

theorem holds_ramCell (page offset : Nat) : b.Holds (b.ramCell page offset) := by
  unfold ramCell
  cases h : index? b.ram.size page offset with
  | none => trivial
  | some i => exact index?_lt h

theorem holds_romCell (page offset : Nat) : b.Holds (b.romCell page offset) := by
  unfold romCell
  cases h : index? b.rom.size page offset with
  | none => trivial
  | some i => exact index?_lt h

/-- No address stands for a cell that is not there. -/
theorem holds_cell (b : Banks) (address : Nat) : b.Holds (b.cell address) := by
  unfold cell patternCell nameCell
  dsimp only
  split
  · split
    · exact holds_ramCell _ _
    · exact holds_romCell _ _
    · trivial
  · split
    · exact Nat.mod_lt _ (by decide)
    · exact holds_ramCell _ _
    · exact holds_romCell _ _
    · trivial

/-- A store changes no slot and no size, so no address stands for another cell. -/
theorem store_cell (byte : UInt8) (b : Banks) (c : Cell) : (b.store byte c).cell = b.cell := by
  funext address
  cases c <;> simp [store, cell, patternCell, nameCell, pattern, name, ramCell, romCell]

theorem load_store_internal (byte : UInt8) (h : i < internalSize) :
    (b.store byte (.internal i)).load = Function.update b.load (.internal i) byte := by
  funext c
  by_cases same : c = .internal i
  · rw [same, Function.update_self]
    exact Block.load_store_same b.internal i byte h
  · rw [Function.update_of_ne same]
    cases c with
    | internal j =>
      exact Block.load_store_ne b.internal i j byte fun h => same (congrArg Cell.internal h.symm)
    | ram j | rom j | cartridge | missing => rfl

theorem load_store_ram (byte : UInt8) (h : i < b.ram.size) :
    (b.store byte (.ram i)).load = Function.update b.load (.ram i) byte := by
  funext c
  by_cases same : c = .ram i
  · rw [same, Function.update_self]
    simp [store, load, h]
  · rw [Function.update_of_ne same]
    cases c with
    | ram j =>
      have other : i ≠ j := fun h => same (congrArg Cell.ram h.symm)
      simp [store, load, other]
    | internal j | rom j | cartridge | missing => rfl

/-- What any cell holds once a byte was stored. -/
theorem load_store (byte : UInt8) {c : Cell} (h : b.Holds c) (d : Cell) :
    (b.store byte c).load d = if c = d ∧ c.Writable then byte else b.load d := by
  have updated (c : Cell) (load : Cell → UInt8) : Function.update load c byte d
      = if c = d then byte else load d := by
    by_cases same : c = d
    · rw [if_pos same, ← same, Function.update_self]
    · rw [if_neg same, Function.update_of_ne (Ne.symm same)]
  cases c with
  | internal i => simp [load_store_internal byte h, updated, Cell.Writable]
  | ram i => simp [load_store_ram byte h, updated, Cell.Writable]
  | rom i | cartridge | missing => simp [store, Cell.Writable]

/-- A store reaches the internal memory at the index of its cell only. -/
theorem store_internal_of_ne (byte : UInt8) {c : Cell} (h : c ≠ .internal i) :
    (b.store byte c).internal[i]? = b.internal[i]? := by
  cases c with
  | internal j =>
    have other : j ≠ i := fun same => h (congrArg Cell.internal same)
    simp [store, Block.store, other]
  | ram j | rom j | cartridge | missing => rfl

theorem store_ram_of_ne (byte : UInt8) {c : Cell} (h : c ≠ .ram i) :
    (b.store byte c).ram[i]? = b.ram[i]? := by
  cases c with
  | ram j =>
    have other : j ≠ i := fun same => h (congrArg Cell.ram same)
    simp [store, other]
  | internal j | rom j | cartridge | missing => rfl

/-- The slot behind an address: eight for the patterns, and four for the names, which repeat. -/
def slot (b : Banks) (address : Nat) : NameSource :=
  have eight : address / 0x400 % 8 < 8 := Nat.mod_lt _ (by decide)
  have four : address / 0x400 % 4 < 4 := Nat.mod_lt _ (by decide)
  if address < 0x2000 then
    match b.patterns[address / 0x400 % 8] with
    | .ram page => .ram page
    | .rom page => .rom page
    | .cartridge => .cartridge
  else b.names[address / 0x400 % 4]

/-- The place of a page's byte in a memory of so many bytes, which starts again at its end. -/
def wrapped (size : Nat) (page : UInt16) (address : Nat) (memory : Nat → Cell) : Cell :=
  if size = 0 then .missing else memory ((page.toNat * 0x400 + address % 0x400) % size)

def decode (b : Banks) (address : Nat) : Cell :=
  match b.slot address with
  | .internal page => .internal ((page.toNat * 0x400 + address % 0x400) % 0x800)
  | .ram page => wrapped b.ram.size page address .ram
  | .rom page => wrapped b.rom.size page address .rom
  | .cartridge => .cartridge

/-- The byte of a cell; where there is no memory it is zero. -/
def content (b : Banks) : Cell → UInt8
  | .internal i => b.internal[i]?.getD 0
  | .ram i => b.ram[i]?.getD 0
  | .rom i => b.rom[i]?.getD 0
  | .cartridge | .missing => 0

theorem load_eq_content (b : Banks) : b.load = b.content := by
  funext c
  cases c <;> rfl

theorem ramCell_eq_wrapped (page : UInt16) (address : Nat) :
    b.ramCell page.toNat (address % pageSize) = wrapped b.ram.size page address .ram := by
  unfold ramCell index? wrapped
  split <;> rfl

theorem romCell_eq_wrapped (page : UInt16) (address : Nat) :
    b.romCell page.toNat (address % pageSize) = wrapped b.rom.size page address .rom := by
  unfold romCell index? wrapped
  split <;> rfl

theorem cell_eq_decode (b : Banks) : b.cell = b.decode := by
  funext address
  unfold cell patternCell nameCell decode slot
  by_cases inside : address < patternSpace
  · have low : address < 0x2000 := inside
    rw [if_pos inside, if_pos low]
    dsimp only [pageSize, pattern]
    cases b.patterns[address / 0x400 % 8] with
    | ram page => exact ramCell_eq_wrapped page address
    | rom page => exact romCell_eq_wrapped page address
    | cartridge => rfl
  · have high : ¬address < 0x2000 := inside
    rw [if_neg inside, if_neg high]
    dsimp only [pageSize, name]
    cases b.names[address / 0x400 % 4] with
    | internal page => rfl
    | ram page => exact ramCell_eq_wrapped page address
    | rom page => exact romCell_eq_wrapped page address
    | cartridge => rfl

theorem wrapped_ne_cartridge {size : Nat} {page : UInt16} (memory : Nat → Cell)
    (h : ∀ i, memory i ≠ .cartridge) : wrapped size page address memory ≠ .cartridge := by
  unfold wrapped
  split
  · exact Cell.noConfusion
  · exact h _

/-- The cartridge answers where a slot is its own. -/
theorem cell_eq_cartridge_iff : b.cell address = .cartridge ↔ b.slot address = .cartridge := by
  rw [cell_eq_decode, decode]
  cases b.slot address with
  | internal page => simp
  | ram page => simp [wrapped_ne_cartridge Cell.ram fun i => Cell.noConfusion]
  | rom page => simp [wrapped_ne_cartridge Cell.rom fun i => Cell.noConfusion]
  | cartridge => simp

end Banks

namespace Circuit

variable {κ : Type} [Cartridge κ] {c : Circuit κ} {address : Nat}

/-- What the cartridge answers at an address of its own. -/
def served (address : Nat) (c : Circuit κ) : UInt8 × κ :=
  if address < patternSpace then Cartridge.readPattern address c.cartridge
  else Cartridge.readName address c.cartridge

/-- The cartridge after a byte was written at an address of its own. -/
def given (address : Nat) (byte : UInt8) (c : Circuit κ) : κ :=
  if address < patternSpace then Cartridge.writePattern address byte c.cartridge
  else Cartridge.writeName address byte c.cartridge

/-- A read asks the cartridge or the cell. -/
theorem readVideo_eq (address : Nat) (c : Circuit κ) : c.readVideo address
    = if c.banks.cell address = .cartridge then
        ((c.served address).1, { c with cartridge := (c.served address).2 })
      else (c.banks.load (c.banks.cell address), c) := by
  unfold readVideo readPattern readName Banks.cell served
  by_cases inside : address < patternSpace
  · simp only [if_pos inside, Nat.mod_eq_of_lt inside]
    cases c.banks.patternCell address <;> rfl
  · simp only [if_neg inside]
    cases c.banks.nameCell address <;> rfl

/-- A write tells the cartridge or changes the cell. -/
theorem writeVideo_eq (address : Nat) (byte : UInt8) (c : Circuit κ) : c.writeVideo address byte
    = if c.banks.cell address = .cartridge then { c with cartridge := c.given address byte }
      else { c with banks := c.banks.store byte (c.banks.cell address) } := by
  unfold writeVideo writePattern writeName Banks.cell given
  by_cases inside : address < patternSpace
  · simp only [if_pos inside, Nat.mod_eq_of_lt inside]
    cases c.banks.patternCell address <;> rfl
  · simp only [if_neg inside]
    cases c.banks.nameCell address <;> rfl

/-- What a byte written at an address does to a circuit: `c` is the circuit before, `d` the one after. -/
structure Writes (address : Nat) (byte : UInt8) (c d : Circuit κ) : Prop where
  /-- Wherever the cartridge does not answer, the byte is read at the addresses of its cell, if the cell
  keeps bytes, and what was read before at all others; and a read changes nothing. -/
  read : ∀ other, c.banks.cell other ≠ .cartridge →
    (c.readVideo other).2 = c ∧ (d.readVideo other).2 = d ∧ (d.readVideo other).1
      = if c.banks.cell address = c.banks.cell other ∧ (c.banks.cell address).Writable then byte
        else (c.readVideo other).1
  /-- Only memory changes, or the cartridge if the address is its own. -/
  rest : d = { c with banks := d.banks, cartridge := d.cartridge }
  cartridge : c.banks.cell address = .cartridge → d.banks = c.banks ∧ d.cartridge = c.given address byte
  apart : c.banks.cell address ≠ .cartridge → d.cartridge = c.cartridge
  rom : d.banks.rom = c.banks.rom
  /-- At most one byte changes, that of the cell. -/
  internal : ∀ i, c.banks.cell address ≠ .internal i → d.banks.internal[i]? = c.banks.internal[i]?
  ram : ∀ i, c.banks.cell address ≠ .ram i → d.banks.ram[i]? = c.banks.ram[i]?
  size : d.banks.ram.size = c.banks.ram.size
  patterns : d.banks.patterns = c.banks.patterns
  names : d.banks.names = c.banks.names

theorem writeVideo_writes (address : Nat) (byte : UInt8) (c : Circuit κ) :
    c.Writes address byte (c.writeVideo address byte) := by
  have holds := c.banks.holds_cell address
  by_cases own : c.banks.cell address = .cartridge
  · have told : c.writeVideo address byte = { c with cartridge := c.given address byte } := by
      rw [writeVideo_eq, if_pos own]
    rw [told]
    refine ⟨fun other h => ?_, rfl, fun _ => ⟨rfl, rfl⟩, fun h => absurd own h, rfl, fun _ _ => rfl,
      fun _ _ => rfl, rfl, rfl, rfl⟩
    have kept : ¬(c.banks.cell address = c.banks.cell other ∧ (c.banks.cell address).Writable) := by
      simp [own, Cell.Writable]
    simp only [readVideo_eq, if_neg h, if_neg kept, and_self]
  · have stored : c.writeVideo address byte
        = { c with banks := c.banks.store byte (c.banks.cell address) } := by
      rw [writeVideo_eq, if_neg own]
    rw [stored]
    refine ⟨fun other h => ?_, rfl, fun h => absurd h own, fun _ => rfl, Banks.store_rom _ _ _,
      fun i h => Banks.store_internal_of_ne byte h, fun i h => Banks.store_ram_of_ne byte h,
      Banks.store_ram_size _ _ _, Banks.store_patterns _ _ _, Banks.store_names _ _ _⟩
    simp only [readVideo_eq, Banks.store_cell, if_neg h, Banks.load_store byte holds, true_and]

/-- However the slots are set and however long the memories are, video memory is one store of cells. An
address stands for a cell that is there, the one that its slot gives it, and the names repeat once over. A
write changes that cell alone; and an address behind a slot of the cartridge reaches the cartridge and no
memory. -/
theorem video_cells (c : Circuit κ) :
    (∀ address, c.banks.cell address = c.banks.decode address)
    ∧ (∀ address, c.banks.Holds (c.banks.cell address))
    ∧ (∀ address, patternSpace ≤ address → c.banks.cell (address + 0x1000) = c.banks.cell address)
    ∧ (∀ address byte, c.Writes address byte (c.writeVideo address byte))
    ∧ (∀ address, c.banks.cell address = .cartridge ↔ c.banks.slot address = .cartridge)
    ∧ ∀ address, c.banks.cell address = .cartridge → c.readVideo address
      = ((c.served address).1, { c with cartridge := (c.served address).2 }) := by
  refine ⟨congrFun c.banks.cell_eq_decode, c.banks.holds_cell, fun address => Banks.cell_mirror,
    fun address byte => writeVideo_writes address byte c, fun address => Banks.cell_eq_cartridge_iff, ?_⟩
  intro address own
  rw [readVideo_eq, if_pos own]

/-- A name is written to a memory of a hundred bytes, past its end, and read as a pattern; the byte after
it is as it was. -/
theorem video_cells_wrapped :
    let names : Vector NameSource 4 := #v[.ram 3, .internal 0, .cartridge, .internal 1]
    let c : Circuit Unit := .new { Banks.new with ram := Array.replicate 100 7, names := names } ()
    ((c.writeVideo 0x2000 0x5A).readVideo 0x48).1 = 0x5A
      ∧ ((c.writeVideo 0x2000 0x5A).readVideo 0x49).1 = (c.readVideo 0x49).1 := by
  intro names c
  have writes := (video_cells c).2.2.2.1 0x2000 0x5A
  have read := (writes.read 0x48 (by decide)).2.2
  have beside := (writes.read 0x49 (by decide)).2.2
  rw [if_pos (by decide)] at read
  rw [if_neg (by decide)] at beside
  exact ⟨read, beside⟩

end Circuit

end PictureUnit
