import PictureUnit.Banks
import PictureUnit.Clock

/-!
# Cartridges

A cartridge sees every address put on the bus with its cycle, is told twice a line where the
line stands, and may then change the slots. It also answers for the cells behind its own slots.
A cartridge that says nothing about one of these does nothing and reads as zero. `Recorded`
keeps every call made to the cartridge inside, latest first.
-/

set_option autoImplicit false

namespace PictureUnit

class Cartridge (κ : Type) where
  /-- Called at the first dot of a line, with whether the chip is rendering. -/
  activeStart : Line → Bool → Banks → κ → Banks × κ := fun _ _ banks c => (banks, c)
  /-- Called when the object fetches of a line begin. -/
  blankStart : Line → Bool → Banks → κ → Banks × κ := fun _ _ banks c => (banks, c)
  observe : Nat → Nat → κ → κ := fun _ _ c => c
  readPattern : Nat → κ → UInt8 × κ := fun _ c => (0, c)
  writePattern : Nat → UInt8 → κ → κ := fun _ _ c => c
  readName : Nat → κ → UInt8 × κ := fun _ c => (0, c)
  writeName : Nat → UInt8 → κ → κ := fun _ _ c => c

/-- A cartridge that only holds memory. -/
instance : Cartridge Unit where

/-- A slot that may be empty. -/
instance {κ : Type} [Cartridge κ] : Cartridge (Option κ) where
  activeStart line rendering banks
    | none => (banks, none)
    | some c => let (banks, c) := Cartridge.activeStart line rendering banks c; (banks, some c)
  blankStart line rendering banks
    | none => (banks, none)
    | some c => let (banks, c) := Cartridge.blankStart line rendering banks c; (banks, some c)
  observe address cycle
    | none => none
    | some c => some (Cartridge.observe address cycle c)
  readPattern address
    | none => (0, none)
    | some c => let (byte, c) := Cartridge.readPattern address c; (byte, some c)
  writePattern address byte
    | none => none
    | some c => some (Cartridge.writePattern address byte c)
  readName address
    | none => (0, none)
    | some c => let (byte, c) := Cartridge.readName address c; (byte, some c)
  writeName address byte
    | none => none
    | some c => some (Cartridge.writeName address byte c)

inductive Cartridge.Call where
  | activeStart (line : Line) (rendering : Bool)
  | blankStart (line : Line) (rendering : Bool)
  | observe (address cycle : Nat)
  | readPattern (address : Nat) (byte : UInt8)
  | writePattern (address : Nat) (byte : UInt8)
  | readName (address : Nat) (byte : UInt8)
  | writeName (address : Nat) (byte : UInt8)
  deriving DecidableEq, Repr

structure Recorded (κ : Type) where
  inner : κ
  calls : List Cartridge.Call

instance {κ : Type} [Cartridge κ] : Cartridge (Recorded κ) where
  activeStart line rendering banks r :=
    let (banks, c) := Cartridge.activeStart line rendering banks r.inner
    (banks, ⟨c, .activeStart line rendering :: r.calls⟩)
  blankStart line rendering banks r :=
    let (banks, c) := Cartridge.blankStart line rendering banks r.inner
    (banks, ⟨c, .blankStart line rendering :: r.calls⟩)
  observe address cycle r :=
    ⟨Cartridge.observe address cycle r.inner, .observe address cycle :: r.calls⟩
  readPattern address r :=
    let (byte, c) := Cartridge.readPattern address r.inner
    (byte, ⟨c, .readPattern address byte :: r.calls⟩)
  writePattern address byte r :=
    ⟨Cartridge.writePattern address byte r.inner, .writePattern address byte :: r.calls⟩
  readName address r :=
    let (byte, c) := Cartridge.readName address r.inner
    (byte, ⟨c, .readName address byte :: r.calls⟩)
  writeName address byte r :=
    ⟨Cartridge.writeName address byte r.inner, .writeName address byte :: r.calls⟩

end PictureUnit
