import PictureUnit.Machine.Frame
import PictureUnit.Snapshot.Chunk
import PictureUnit.Wire

/-!
# Saved states

Six sections of a machine are saved, each in a chunk of its own: the registers, the palette,
object memory, the internal nametables, the frame parity and the warm-up. Loading resets the
machine and then applies every chunk it understands, in order, so what a stream lacks keeps its
reset value. Chunks of unknown tags or versions, or with bodies that cannot be read, are
skipped with a warning; only a broken stream is refused, before anything changes.
-/

set_option autoImplicit false

namespace PictureUnit.Snapshot

inductive Kind where
  | registers
  | palette
  | objects
  | nametables
  | parity
  | warmUp
  deriving DecidableEq, Repr

namespace Kind

def tag : Kind → Tag
  | .registers => #v[0x52, 0x45, 0x47, 0]
  | .palette => #v[0x50, 0x41, 0x4C, 0]
  | .objects => #v[0x4F, 0x41, 0x4D, 0]
  | .nametables => #v[0x4E, 0x4D, 0x54, 0]
  | .parity => #v[0x46, 0x52, 0x4D, 0]
  | .warmUp => #v[0x50, 0x4F, 0x57, 0]

def all : List Kind := [.registers, .palette, .objects, .nametables, .parity, .warmUp]

def ofTag? (tag : Tag) : Option Kind := all.find? fun kind => kind.tag == tag

theorem ofTag?_tag (kind : Kind) : ofTag? kind.tag = some kind := by
  cases kind <;> decide

end Kind

inductive Section where
  | registers (registers : Registers)
  | palette (entries : Block paletteSize)
  | objects (objects : Block 256)
  | nametables (internal : Block internalSize)
  | parity (odd : Bool) (burst : Burst)
  | warmUp (pending : Bool)
  deriving DecidableEq

/-- The version of every section's body. -/
def currentVersion : UInt8 := 1

def writeRegisters (r : Registers) : List UInt8 :=
  [r.control.bits, r.mask.bits, r.status.bits, r.objectAddress]
    ++ Wire.writeNumber r.scroll.current.raw ++ Wire.writeNumber r.scroll.pending.raw
    ++ UInt8.ofNat r.scroll.fineX.val :: Wire.writeTruth r.scroll.second ++ [r.lines, r.buffer]

def readRegisters : Wire.Reader Registers := do
  let control ← Wire.readByte
  let mask ← Wire.readByte
  let status ← Wire.readByte
  let objectAddress ← Wire.readByte
  let current ← Wire.readNumber Wire.width16
  let pending ← Wire.readNumber Wire.width16
  let fineX ← Wire.readByte
  let second ← Wire.readTruth
  let lines ← Wire.readByte
  let buffer ← Wire.readByte
  return {
    control := ⟨control⟩
    mask := ⟨mask⟩
    status := .ofBits status
    objectAddress := objectAddress
    scroll := ⟨.ofRaw current, .ofRaw pending, Scroll.Address.fine fineX.toNat, second⟩
    buffer := buffer
    lines := lines }

namespace Section

def kind : Section → Kind
  | .registers _ => .registers
  | .palette _ => .palette
  | .objects _ => .objects
  | .nametables _ => .nametables
  | .parity _ _ => .parity
  | .warmUp _ => .warmUp

def body : Section → List UInt8
  | .registers r => writeRegisters r
  | .palette entries => Wire.writeBlock entries
  | .objects memory => Wire.writeBlock memory
  | .nametables internal => Wire.writeBlock internal
  | .parity odd burst => Wire.writeTruth odd ++ [UInt8.ofNat burst.val]
  | .warmUp pending => Wire.writeTruth pending

def chunk (s : Section) : Chunk := ⟨s.kind.tag, currentVersion, s.body⟩

def reader : Kind → Wire.Reader Section
  | .registers => .registers <$> readRegisters
  | .palette => .palette <$> Wire.readBlock paletteSize
  | .objects => .objects <$> Wire.readBlock 256
  | .nametables => .nametables <$> Wire.readBlock internalSize
  | .parity => do return .parity (← Wire.readTruth) (.ofNat (← Wire.readByte).toNat)
  | .warmUp => .warmUp <$> Wire.readTruth

end Section

/-- Why a chunk of a known tag is left out. -/
inductive Skip where
  | version (tag : Tag) (found : UInt8)
  | body (fault : Wire.Fault)
  deriving DecidableEq, Repr

def Skip.message : Skip → String
  | .version tag found => s!"chunk {showTag tag} has unsupported version {found}"
  | .body fault => "postcard: " ++ fault.message

inductive Warning where
  | skipped (tag : Tag) (reason : Skip)
  | unknown (tag : Tag)
  deriving DecidableEq, Repr

def Warning.message : Warning → String
  | .skipped tag reason => s!"skipping save-state chunk tag={showTag tag} err={reason.message}"
  | .unknown tag => s!"unknown save-state chunk tag={showTag tag}"

/-- What a chunk says, or why nothing is understood. -/
def Chunk.understand (c : Chunk) : Except Warning Section :=
  match Kind.ofTag? c.tag with
  | none => .error (.unknown c.tag)
  | some kind =>
    if c.version = currentVersion then
      match Wire.front (Section.reader kind) c.body with
      | .ok s => .ok s
      | .error fault => .error (.skipped c.tag (.body fault))
    else .error (.skipped c.tag (.version c.tag c.version))

end PictureUnit.Snapshot

namespace PictureUnit.Machine

open Snapshot

variable {κ : Type}

def sections (m : Machine κ) : List Section :=
  [.registers m.circuit.registers,
    .palette m.circuit.palette.entries,
    .objects m.circuit.objects,
    .nametables m.circuit.banks.internal,
    .parity m.oddFrame m.burst,
    .warmUp m.warmingUp]

def save (m : Machine κ) : List UInt8 := join (m.sections.map Section.chunk)

def apply (m : Machine κ) : Section → Machine κ
  | .registers r => m.withCircuit fun c => { c with registers := r }
  | .palette entries => m.withCircuit fun c => { c with palette := c.palette.load entries }
  | .objects objects => m.withCircuit fun c => { c with objects := objects }
  | .nametables internal =>
    m.withCircuit fun c => { c with banks := { c.banks with internal := internal } }
  | .parity odd burst => { m with oddFrame := odd, burst := burst }
  | .warmUp pending => { m with warmingUp := pending }

/-- Applies the chunks in order; warnings come in the order of their chunks. -/
def applyChunks (m : Machine κ) : List Chunk → Machine κ × List Warning
  | [] => (m, [])
  | c :: rest =>
    match c.understand with
    | .ok s => (m.apply s).applyChunks rest
    | .error w =>
      let (m, warnings) := m.applyChunks rest
      (m, w :: warnings)

/-- A reset machine with the chunks applied. -/
def restore (chunks : List Chunk) (m : Machine κ) : Machine κ × List Warning :=
  let (m, warnings) := (m.reset .cold).applyChunks chunks
  (m.withCircuit fun c => c.setMask c.registers.mask, warnings)

def load (data : List UInt8) (m : Machine κ) :
    Except Misuse (Except FramingError (Machine κ × List Warning)) :=
  if m.inFrame then .error .loadedInFrame
  else .ok ((parse data).map fun chunks => m.restore chunks)

/-- What is loaded is what the chunks make of a reset machine. -/
theorem load_eq_restore {m n : Machine κ} {data : List UInt8} {warnings : List Warning}
    (h : m.load data = .ok (.ok (n, warnings))) :
    ∃ chunks, parse data = .ok chunks ∧ n = (m.restore chunks).1 := by
  unfold load at h
  split at h
  · cases h
  · simp only [Except.ok.injEq] at h
    cases hp : parse data with
    | error fault => simp [hp, Except.map] at h
    | ok chunks =>
      simp only [hp, Except.map, Except.ok.injEq] at h
      exact ⟨chunks, rfl, (congrArg Prod.fst h).symm⟩

end PictureUnit.Machine
