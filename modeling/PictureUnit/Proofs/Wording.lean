import PictureUnit.Proofs.Exact
import PictureUnit.Snapshot

/-!
# What a chunk tells

A chunk tells something if its tag is one of the six, its version is the one known, and its body begins as a
section of that kind is spelled; whatever follows does not matter. A chunk is understood exactly as what it
tells.
-/

set_option autoImplicit false

namespace PictureUnit.Wire

variable {input rest : List UInt8}

theorem readByte_eq_ok_iff {b : UInt8} : readByte input = .ok (b, rest) ↔ input = b :: rest := by
  cases input with
  | nil => simp [readByte]
  | cons c left => simp [readByte]

/-- A truth value is zero or one. -/
theorem readTruth_eq_ok_iff {b : Bool} :
    readTruth input = .ok (b, rest) ↔ ∃ t : UInt8, t.toNat = b.toNat ∧ input = t :: rest := by
  have spelled (t : UInt8) : t.toNat = b.toNat ↔ t = if b then 1 else 0 := by
    cases b <;> simp [← UInt8.toNat_inj]
  simp only [spelled]
  cases input with
  | nil => simp [readTruth]
  | cons c left => cases b <;> grind [readTruth]

theorem readNumber_eq_ok_iff {w : Width} {n : Nat} :
    readNumber w input = .ok (n, rest) ↔ ∃ digits, Spells w digits n ∧ input = digits ++ rest :=
  readDigits_eq_ok_iff

/-- A reader followed by a function reads what the reader does. -/
theorem map_eq_ok_iff {α β : Type} {r : Reader α} {f : α → β} {b : β} :
    (f <$> r) input = .ok (b, rest) ↔ ∃ a, r input = .ok (a, rest) ∧ b = f a := by
  rw [map_eq_pure_bind, bind_eq_ok_iff]
  constructor
  · rintro ⟨a, middle, read, same⟩
    cases same
    exact ⟨a, read, rfl⟩
  · rintro ⟨a, read, rfl⟩
    exact ⟨a, rest, read, rfl⟩

theorem front_eq_ok_iff {α : Type} {r : Reader α} {a : α} :
    front r input = .ok a ↔ ∃ rest, r input = .ok (a, rest) := by
  unfold front
  cases r input with
  | error fault => simp [Except.map]
  | ok p => simp [Except.map, Prod.ext_iff]

end PictureUnit.Wire

namespace PictureUnit.Snapshot

/-- The tag and the body under which a section is spelled. Numbers and sizes may be spelled longer than they
have to be, as far as their width allows. -/
inductive Spelled : List UInt8 → List UInt8 → Section → Prop
  /-- Of a number fifteen bits are kept, and three of the flags and of the column. -/
  | registers (control mask flags place column toggle lines buffer : UInt8) (second : Bool)
      (current pending : Scroll.Address) (fineX : Fin 8) {digits others rest : List UInt8} {v t : Nat}
      (address : Wire.Spells ⟨3, 3⟩ digits v) (target : Wire.Spells ⟨3, 3⟩ others t)
      (low : current.raw = v % 0x8000) (kept : pending.raw = t % 0x8000)
      (fine : fineX.val = column.toNat % 8) (half : toggle.toNat = second.toNat) :
      Spelled [0x52, 0x45, 0x47, 0]
        (control :: mask :: flags :: place :: (digits ++ (others ++ column :: toggle :: lines :: buffer :: rest)))
        (.registers {
          control := ⟨control⟩
          mask := ⟨mask⟩
          status := ⟨flags.toNat.testBit 5, flags.toNat.testBit 6, flags.toNat.testBit 7⟩
          objectAddress := place
          scroll := ⟨current, pending, fineX, second⟩
          buffer := buffer
          lines := lines })
  | palette (entries : Block 32) {digits rest : List UInt8} (size : Wire.Spells ⟨10, 1⟩ digits 32) :
      Spelled [0x50, 0x41, 0x4C, 0] (digits ++ (entries.toList ++ rest)) (.palette entries)
  | objects (objects : Block 256) {digits rest : List UInt8} (size : Wire.Spells ⟨10, 1⟩ digits 256) :
      Spelled [0x4F, 0x41, 0x4D, 0] (digits ++ (objects.toList ++ rest)) (.objects objects)
  | nametables (internal : Block 0x800) {digits rest : List UInt8}
      (size : Wire.Spells ⟨10, 1⟩ digits 0x800) :
      Spelled [0x4E, 0x4D, 0x54, 0] (digits ++ (internal.toList ++ rest)) (.nametables internal)
  | parity (odd : Bool) (burst : Burst) (truth phase : UInt8) {rest : List UInt8}
      (parity : truth.toNat = odd.toNat) (thirds : burst.val = phase.toNat % 3) :
      Spelled [0x46, 0x52, 0x4D, 0] (truth :: phase :: rest) (.parity odd burst)
  | warmUp (pending : Bool) (truth : UInt8) {rest : List UInt8} (waiting : truth.toNat = pending.toNat) :
      Spelled [0x50, 0x4F, 0x57, 0] (truth :: rest) (.warmUp pending)

/-- What a chunk tells. -/
def Chunk.Tells (c : Chunk) (s : Section) : Prop := c.version = 1 ∧ Spelled c.tag.toList c.body s

theorem ofRaw_mod (n : Nat) : Scroll.Address.ofRaw (n % 0x8000) = .ofRaw n := by
  rw [← Scroll.Address.raw_ofRaw, Scroll.Address.ofRaw_raw]

/-- An address is the fifteen bits that it stands for. -/
theorem eq_ofRaw {a : Scroll.Address} {n : Nat} (h : a.raw = n % 0x8000) : a = .ofRaw n := by
  rw [← ofRaw_mod, ← h, Scroll.Address.ofRaw_raw]

/-- The registers are read exactly where they are spelled. -/
theorem readRegisters_eq_ok_iff {body : List UInt8} {r : Registers} :
    (∃ rest, readRegisters body = .ok (r, rest))
      ↔ Spelled [0x52, 0x45, 0x47, 0] body (.registers r) := by
  simp only [readRegisters, Wire.bind_eq_ok_iff, Wire.readByte_eq_ok_iff, Wire.readNumber_eq_ok_iff,
    Wire.readTruth_eq_ok_iff]
  constructor
  · rintro ⟨rest, control, _, rfl, mask, _, rfl, flags, _, rfl, place, _, rfl, v, _, ⟨digits, address, rfl⟩,
      t, _, ⟨others, target, rfl⟩, column, _, rfl, second, _, ⟨toggle, half, rfl⟩, lines, _, rfl, buffer, _,
      rfl, made⟩
    cases made
    exact .registers control mask flags place column toggle lines buffer second (.ofRaw v) (.ofRaw t)
      (Scroll.Address.fine column.toNat) address target (Scroll.Address.raw_ofRaw v)
      (Scroll.Address.raw_ofRaw t) rfl half
  · intro spelled
    cases spelled with
    | registers control mask flags place column toggle lines buffer second current pending fineX address target
        low kept fine half =>
      have narrow : fineX = Scroll.Address.fine column.toNat := Fin.ext fine
      rw [eq_ofRaw low, eq_ofRaw kept, narrow]
      exact ⟨_, control, _, rfl, mask, _, rfl, flags, _, rfl, place, _, rfl, _, _, ⟨_, address, rfl⟩,
        _, _, ⟨_, target, rfl⟩, column, _, rfl, second, _, ⟨toggle, half, rfl⟩, lines, _, rfl, buffer, _,
        rfl, rfl⟩

/-- A block is read exactly where its size is spelled before it. -/
theorem readBlock_map_eq_ok_iff {size : Nat} {f : Block size → Section} (one : Function.Injective f)
    {body : List UInt8} {b : Block size} :
    (∃ rest, (f <$> Wire.readBlock size) body = .ok (f b, rest))
      ↔ ∃ digits rest, Wire.Spells ⟨10, 1⟩ digits size ∧ body = digits ++ (b.toList ++ rest) := by
  simp only [Wire.map_eq_ok_iff, Wire.readBlock_eq_ok_iff]
  constructor
  · rintro ⟨rest, a, ⟨digits, spells, rfl⟩, same⟩
    cases one same
    exact ⟨digits, rest, spells, rfl⟩
  · rintro ⟨digits, rest, spells, rfl⟩
    exact ⟨rest, b, ⟨digits, spells, rfl⟩, rfl⟩

/-- A section is read exactly where it is spelled. -/
theorem reader_eq_ok_iff {body : List UInt8} {s : Section} :
    (∃ rest, Section.reader s.kind body = .ok (s, rest)) ↔ Spelled s.kind.tag.toList body s := by
  cases s with
  | registers r =>
    simp only [Section.kind, Section.reader, Wire.map_eq_ok_iff, Section.registers.injEq]
    constructor
    · rintro ⟨rest, _, read, rfl⟩
      exact readRegisters_eq_ok_iff.mp ⟨rest, read⟩
    · intro spelled
      obtain ⟨rest, read⟩ := readRegisters_eq_ok_iff.mpr spelled
      exact ⟨rest, r, read, rfl⟩
  | palette entries =>
    refine (readBlock_map_eq_ok_iff fun _ _ => Section.palette.inj).trans ⟨?_, ?_⟩
    · rintro ⟨digits, rest, spells, rfl⟩
      exact .palette entries spells
    · intro spelled
      cases spelled with
      | palette _ spells => exact ⟨_, _, spells, rfl⟩
  | objects objects =>
    refine (readBlock_map_eq_ok_iff fun _ _ => Section.objects.inj).trans ⟨?_, ?_⟩
    · rintro ⟨digits, rest, spells, rfl⟩
      exact .objects objects spells
    · intro spelled
      cases spelled with
      | objects _ spells => exact ⟨_, _, spells, rfl⟩
  | nametables internal =>
    refine (readBlock_map_eq_ok_iff fun _ _ => Section.nametables.inj).trans ⟨?_, ?_⟩
    · rintro ⟨digits, rest, spells, rfl⟩
      exact .nametables internal spells
    · intro spelled
      cases spelled with
      | nametables _ spells => exact ⟨_, _, spells, rfl⟩
  | parity odd burst =>
    simp only [Section.kind, Section.reader, Wire.bind_eq_ok_iff, Wire.readTruth_eq_ok_iff,
      Wire.readByte_eq_ok_iff]
    constructor
    · rintro ⟨rest, _, _, ⟨truth, parity, rfl⟩, phase, _, rfl, same⟩
      cases same
      exact .parity odd _ truth phase parity rfl
    · intro spelled
      cases spelled with
      | parity _ _ truth phase parity thirds =>
        have burst_eq : burst = Burst.ofNat phase.toNat := Fin.ext thirds
        rw [burst_eq]
        exact ⟨_, odd, _, ⟨truth, parity, rfl⟩, phase, _, rfl, rfl⟩
  | warmUp pending =>
    simp only [Section.kind, Section.reader, Wire.map_eq_ok_iff, Wire.readTruth_eq_ok_iff,
      Section.warmUp.injEq]
    constructor
    · rintro ⟨rest, _, ⟨truth, waiting, rfl⟩, rfl⟩
      exact .warmUp pending truth waiting
    · intro spelled
      cases spelled with
      | warmUp _ truth waiting => exact ⟨_, pending, ⟨truth, waiting, rfl⟩, rfl⟩

theorem tag_of_ofTag? {tag : Tag} {kind : Kind} (h : Kind.ofTag? tag = some kind) :
    tag = kind.tag := by
  have found := List.find?_some h
  exact (eq_of_beq found).symm

/-- A reader reads sections of its kind. -/
theorem reader_kind {kind : Kind} {body rest : List UInt8} {s : Section}
    (h : Section.reader kind body = .ok (s, rest)) : s.kind = kind := by
  cases kind with
  | parity =>
    obtain ⟨odd, middle, -, h⟩ := Wire.bind_eq_ok_iff.mp h
    obtain ⟨burst, middle, -, h⟩ := Wire.bind_eq_ok_iff.mp h
    cases h
    rfl
  | registers | palette | objects | nametables | warmUp =>
    simp only [Section.reader, map_eq_pure_bind] at h
    obtain ⟨a, middle, -, h⟩ := Wire.bind_eq_ok_iff.mp h
    cases h
    rfl

/-- A chunk is understood as what its body tells, if its tag is known and its version current. -/
theorem understand_eq_ok_iff {c : Chunk} {s : Section} :
    c.understand = .ok s ↔
      c.tag = s.kind.tag ∧ c.version = currentVersion
        ∧ Wire.front (Section.reader s.kind) c.body = .ok s := by
  unfold Chunk.understand
  constructor
  · intro h
    split at h
    · cases h
    · next kind found =>
      split at h
      · next version =>
        split at h
        · next read =>
          cases h
          obtain ⟨rest, taken⟩ := Wire.front_eq_ok_iff.mp read
          cases reader_kind taken
          exact ⟨tag_of_ofTag? found, version, read⟩
        · cases h
      · cases h
  · rintro ⟨tagged, version, read⟩
    rw [tagged, Kind.ofTag?_tag, version]
    simp only [if_true, read]

theorem Spelled.tag {tag body : List UInt8} {s : Section} (h : Spelled tag body s) :
    tag = s.kind.tag.toList := by
  cases h <;> rfl

/-- A chunk is understood exactly as what it tells. -/
theorem understand_iff_tells {c : Chunk} {s : Section} : c.understand = .ok s ↔ c.Tells s := by
  rw [understand_eq_ok_iff, Wire.front_eq_ok_iff, reader_eq_ok_iff]
  constructor
  · rintro ⟨tagged, version, spelled⟩
    exact ⟨version, tagged ▸ spelled⟩
  · rintro ⟨version, spelled⟩
    have tagged : c.tag = s.kind.tag := Vector.toList_inj.mp spelled.tag
    exact ⟨tagged, version, tagged ▸ spelled⟩

end PictureUnit.Snapshot
