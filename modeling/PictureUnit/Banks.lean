import PictureUnit.Block

/-!
# Video memory and the slots that decode it

Patterns live behind eight slots of one kilobyte and names behind four. Each slot points at
a page of some memory, or at the cartridge. An address therefore stands for one cell, and
reading and writing go through the cell: two addresses alias when their cells are equal.
Pages past the end of a memory start again at its beginning; a memory of no bytes has no cell.
-/

set_option autoImplicit false

namespace PictureUnit

inductive PatternSource where
  | ram (page : UInt16)
  | rom (page : UInt16)
  | cartridge
  deriving DecidableEq, Repr

inductive NameSource where
  | internal (page : UInt8)
  | ram (page : UInt16)
  | rom (page : UInt16)
  | cartridge
  deriving DecidableEq, Repr

/-- The fixed ways to spread two internal pages over four nametables. -/
inductive Mirroring where
  | horizontal
  | vertical
  | lower
  | upper
  deriving DecidableEq, Repr

def Mirroring.pages : Mirroring → Vector UInt8 4
  | .horizontal => #v[0, 0, 1, 1]
  | .vertical => #v[0, 1, 0, 1]
  | .lower => #v[0, 0, 0, 0]
  | .upper => #v[1, 1, 1, 1]

/-- What an address below the palette stands for. -/
inductive Cell where
  | internal (index : Nat)
  | ram (index : Nat)
  | rom (index : Nat)
  | cartridge
  | missing
  deriving DecidableEq, Repr

def pageSize : Nat := 0x400

def patternSpace : Nat := 0x2000

def internalSize : Nat := 0x800

structure Banks where
  rom : Array UInt8
  ram : Array UInt8
  internal : Block internalSize
  patterns : Vector PatternSource 8
  names : Vector NameSource 4
  deriving DecidableEq

namespace Banks

def setMirroring (mode : Mirroring) (b : Banks) : Banks :=
  { b with names := mode.pages.map .internal }

/-- Eight kilobytes of memory, each page in its own slot. -/
def new : Banks where
  rom := #[]
  ram := Array.replicate patternSpace 0
  internal := .filled internalSize 0
  patterns := .ofFn fun slot => .ram (UInt16.ofNat slot.val)
  names := Mirroring.vertical.pages.map .internal

/-- The first eight kilobytes of `rom`, and no memory to write patterns to. -/
def ofRom (rom : Array UInt8) : Banks :=
  { new with
    rom := rom
    ram := #[]
    patterns := .ofFn fun slot => .rom (UInt16.ofNat slot.val) }

def resizeRam (size : Nat) (b : Banks) : Banks := { b with ram := Array.replicate size 0 }

def setPattern (slot : Nat) (source : PatternSource) (b : Banks) : Banks :=
  { b with patterns := b.patterns.set (slot % 8) source }

def pattern (b : Banks) (slot : Nat) : PatternSource := b.patterns[slot % 8]

def setName (quadrant : Nat) (source : NameSource) (b : Banks) : Banks :=
  { b with names := b.names.set (quadrant % 4) source }

def name (b : Banks) (quadrant : Nat) : NameSource := b.names[quadrant % 4]

/-- Index of a page's byte in a memory of `size` bytes. -/
def index? (size page offset : Nat) : Option Nat :=
  if size = 0 then none else some ((page * pageSize + offset) % size)

def internalCell (page offset : Nat) : Cell :=
  .internal ((page * pageSize + offset) % internalSize)

def ramCell (b : Banks) (page offset : Nat) : Cell :=
  (index? b.ram.size page offset).elim .missing .ram

def romCell (b : Banks) (page offset : Nat) : Cell :=
  (index? b.rom.size page offset).elim .missing .rom

/-- Only the low thirteen bits of a pattern address count. -/
def patternCell (b : Banks) (address : Nat) : Cell :=
  let offset := address % pageSize
  match b.pattern (address / pageSize) with
  | .ram page => b.ramCell page.toNat offset
  | .rom page => b.romCell page.toNat offset
  | .cartridge => .cartridge

/-- Only the low twelve bits of a name address count. -/
def nameCell (b : Banks) (address : Nat) : Cell :=
  let offset := address % pageSize
  match b.name (address / pageSize) with
  | .internal page => internalCell page.toNat offset
  | .ram page => b.ramCell page.toNat offset
  | .rom page => b.romCell page.toNat offset
  | .cartridge => .cartridge

def cell (b : Banks) (address : Nat) : Cell :=
  if address < patternSpace then b.patternCell address else b.nameCell address

/-- The byte a cell holds; the cartridge's own cells hold none here. -/
def load (b : Banks) : Cell → UInt8
  | .internal i => b.internal.load i
  | .ram i => b.ram[i]?.getD 0
  | .rom i => b.rom[i]?.getD 0
  | .cartridge | .missing => 0

def store (value : UInt8) (b : Banks) : Cell → Banks
  | .internal i => { b with internal := b.internal.store i value }
  | .ram i => { b with ram := b.ram.setIfInBounds i value }
  | .rom _ | .cartridge | .missing => b

def copyInto (memory : Array UInt8) (offset : Nat) : List UInt8 → Array UInt8
  | [] => memory
  | byte :: rest => copyInto (memory.setIfInBounds offset byte) (offset + 1) rest

/-- Copies bytes into the memory from `offset` on, if they all fit. -/
def fillRam? (offset : Nat) (bytes : List UInt8) (b : Banks) : Option Banks :=
  if offset + bytes.length ≤ b.ram.size then some { b with ram := copyInto b.ram offset bytes }
  else none

theorem copyInto_size (memory : Array UInt8) (offset : Nat) (bytes : List UInt8) :
    (copyInto memory offset bytes).size = memory.size := by
  induction bytes generalizing memory offset with
  | nil => rfl
  | cons byte rest ih => simp [copyInto, ih]

theorem pattern_setPattern (slot : Nat) (source : PatternSource) (b : Banks) :
    (b.setPattern slot source).pattern slot = source := by
  simp [setPattern, pattern]

theorem name_setName (quadrant : Nat) (source : NameSource) (b : Banks) :
    (b.setName quadrant source).name quadrant = source := by
  simp [setName, name]

theorem index?_lt {size page offset i : Nat} (h : index? size page offset = some i) :
    i < size := by
  unfold index? at h
  split at h
  · cases h
  · cases h
    exact Nat.mod_lt _ (by omega)

theorem store_patterns (value : UInt8) (b : Banks) (c : Cell) :
    (b.store value c).patterns = b.patterns := by
  cases c <;> rfl

theorem store_names (value : UInt8) (b : Banks) (c : Cell) :
    (b.store value c).names = b.names := by
  cases c <;> rfl

theorem store_rom (value : UInt8) (b : Banks) (c : Cell) : (b.store value c).rom = b.rom := by
  cases c <;> rfl

theorem store_ram_size (value : UInt8) (b : Banks) (c : Cell) :
    (b.store value c).ram.size = b.ram.size := by
  cases c <;> simp [store]

end Banks

end PictureUnit
