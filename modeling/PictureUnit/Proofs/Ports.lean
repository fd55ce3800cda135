import PictureUnit.Proofs.Cells
import PictureUnit.Proofs.Twins
import PictureUnit.Proofs.Visit

/-!
# The ports outside rendering

While nothing is rendered, the eight registers are the ports of a simple machine. It keeps two addresses
of fifteen bits, a write toggle, a delayed byte, and memories that map an address to a byte: the cells
behind the bus, where addresses that stand for one cell share it, the palette, and the objects. The
flags are not part of it; it is told what they are.
-/

set_option autoImplicit false

namespace PictureUnit

structure Ports where
  current : Nat
  pending : Nat
  fine : Nat
  second : Bool
  control : UInt8
  mask : UInt8
  objectAddress : UInt8
  buffer : UInt8
  lines : UInt8
  cells : Cell → UInt8
  entries : Nat → UInt8
  objects : Nat → UInt8

namespace Ports

/-- Fourteen of the fifteen bits reach the bus. -/
def bus (p : Ports) : Nat := p.current % 0x4000

/-- One byte across or one row down. -/
def advance (p : Ports) : Ports :=
  { p with current := (p.current + if p.control.toNat / 4 % 2 = 1 then 32 else 1) % 0x8000 }

/-- The palette entry behind an address. -/
def entry (address : Nat) : Nat :=
  match address % 32 with
  | 0x10 => 0x00
  | 0x14 => 0x04
  | 0x18 => 0x08
  | 0x1C => 0x0C
  | i => i

/-- What is left of a colour. -/
def tint (p : Ports) : UInt8 := if p.mask.toNat % 2 = 1 then 0x30 else 0x3F

/-- The byte of a cell; where there is no memory it is zero. -/
def load (p : Ports) : Cell → UInt8
  | .missing | .cartridge => 0
  | .internal i => p.cells (.internal i)
  | .ram i => p.cells (.ram i)
  | .rom i => p.cells (.rom i)

/-- Only writable memory takes a byte. -/
def store (byte : UInt8) (p : Ports) : Cell → Ports
  | .missing | .cartridge | .rom _ => p
  | .internal i => { p with cells := Function.update p.cells (.internal i) byte }
  | .ram i => { p with cells := Function.update p.cells (.ram i) byte }

/-- Reads come one read late. A palette entry comes at once, under the two bits that are left on the data
lines, and the byte of the nametable beneath it is kept instead. -/
def readData (map : Nat → Cell) (p : Ports) : UInt8 × Ports :=
  if p.bus < 0x3F00 then (p.buffer, { p with buffer := p.load (map p.bus) }.advance)
  else ((p.lines &&& 0xC0) ||| (p.entries (entry p.bus) &&& p.tint),
    { p with buffer := p.load (map (p.bus - 0x1000)) }.advance)

def writeData (map : Nat → Cell) (byte : UInt8) (p : Ports) : Ports :=
  if p.bus < 0x3F00 then (p.store byte (map p.bus)).advance
  else { p with entries := Function.update p.entries (entry p.bus) (byte &&& 0x3F) }.advance

/-- The unused bits of an attribute byte are not stored. -/
def writeObject (byte : UInt8) (p : Ports) : Ports :=
  let kept := if p.objectAddress.toNat % 4 = 2 then byte &&& 0xE3 else byte
  { p with
    objects := Function.update p.objects p.objectAddress.toNat kept
    objectAddress := p.objectAddress + 1 }

/-- A column and the pixel inside it, then a row and the pixel inside it. -/
def writeScroll (byte : UInt8) (p : Ports) : Ports :=
  if p.second then
    { p with
      pending := p.pending % 0x20 + byte.toNat / 8 * 0x20 + p.pending / 0x400 % 4 * 0x400
        + byte.toNat % 8 * 0x1000
      second := false }
  else
    { p with
      pending := p.pending / 0x20 * 0x20 + byte.toNat / 8
      fine := byte.toNat % 8
      second := true }

/-- Six bits and then eight, which make the pending address the current one. -/
def writeAddress (byte : UInt8) (p : Ports) : Ports :=
  if p.second then
    { p with
      pending := p.pending / 0x100 * 0x100 + byte.toNat
      current := p.pending / 0x100 * 0x100 + byte.toNat
      second := false }
  else
    { p with
      pending := byte.toNat % 0x40 * 0x100 + p.pending % 0x100
      second := true }

/-- The control byte also holds two bits of the pending address. -/
def writeControl (byte : UInt8) (p : Ports) : Ports :=
  { p with
    control := byte
    pending := p.pending % 0x400 + byte.toNat % 4 * 0x400 + p.pending / 0x1000 * 0x1000 }

/-- The three flags at the top of a byte. -/
def top (flags : Status) : UInt8 :=
  (if flags.vblank then 0x80 else 0) ||| (if flags.zeroHit then 0x40 else 0)
    ||| if flags.overflow then 0x20 else 0

/-- What a port answers, given the flags. Those that are only written show the data lines. -/
def read (map : Nat → Cell) (flags : Status) (port : Nat) (p : Ports) : UInt8 × Ports :=
  match port with
  | 2 => (top flags ||| (p.lines &&& 0x1F), { p with second := false })
  | 4 => (p.objects p.objectAddress.toNat, p)
  | 7 => p.readData map
  | _ => (p.lines, p)

def write (map : Nat → Cell) (port : Nat) (byte : UInt8) (p : Ports) : Ports :=
  match port with
  | 0 => p.writeControl byte
  | 1 => { p with mask := byte }
  | 3 => { p with objectAddress := byte }
  | 4 => p.writeObject byte
  | 5 => p.writeScroll byte
  | 6 => p.writeAddress byte
  | 7 => p.writeData map byte
  | _ => p

/-- The eight ports repeat. Every access leaves its byte on the data lines. -/
def visit (map : Nat → Cell) (flags : Status) (v : Visit) (p : Ports) : Option UInt8 × Ports :=
  match v.byte with
  | none =>
    let (value, p) := p.read map flags (v.address % 8)
    (some value, { p with lines := value })
  | some byte => (none, { p with lines := byte }.write map (v.address % 8) byte)

/-- What some visits return, each with the flags it finds, and the ports after them. -/
def visits (map : Nat → Cell) : List (Status × Visit) → Ports → List UInt8 × Ports
  | [], p => ([], p)
  | (flags, v) :: rest, p =>
    let (value, p) := p.visit map flags v
    let (values, p) := p.visits map rest
    (value.toList ++ values, p)

end Ports

/-- The ports that the works stand for. -/
def Works.ports {κ : Type} (w : Works κ) : Ports where
  current := w.pipe.current.raw
  pending := w.settings.pending.raw
  fine := w.settings.fineX.val
  second := w.settings.second
  control := w.settings.control.bits
  mask := w.settings.mask.bits
  objectAddress := w.objectAddress
  buffer := w.settings.buffer
  lines := w.settings.lines
  cells := w.banks.content
  entries i := w.settings.palette.entries[i]?.getD 0
  objects i := w.settings.objects[i]?.getD 0

def Circuit.ports {κ : Type} (c : Circuit κ) : Ports := c.works.ports

def Machine.ports {κ : Type} (m : Machine κ) : Ports := m.circuit.ports

/-- The slots' view of the bus below the palette. -/
def Machine.map {κ : Type} (m : Machine κ) : Nat → Cell := m.circuit.banks.decode

end PictureUnit
