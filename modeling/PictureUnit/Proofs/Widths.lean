import PictureUnit.Proofs.Contents
import PictureUnit.Proofs.Story

/-!
# Bits that do not exist

The scroll addresses have fifteen bits, the fine column three, palette entries six; the status has
its three flags and nothing below them. Three bits in the attributes of an object do not exist either,
and whatever writes to object memory drops them. But a load takes the memory as the stream has it: so
an object shows such bits exactly when a stream brought them and nothing was stored over them since.
-/

set_option autoImplicit false

namespace PictureUnit

/-- The attribute bits that do not exist in object memory. -/
def Object.strayAttributes : UInt8 := 0x1C

theorem Object.stored_stray (value : UInt8) :
    value &&& storedAttributes &&& strayAttributes = 0 := by
  rw [UInt8.and_assoc]
  exact UInt8.and_zero

theorem Palette.load_lt {p : Palette} (h : p.Stored) (i : Nat) : p.entries.load i < 0x40 := by
  by_cases inside : i < paletteSize
  · have kept := congrArg (·[i]) h
    simp only [Vector.getElem_map] at kept
    have value : p.entries.load i = p.entries[i] := by simp [Block.load, inside]
    rw [value, ← kept, UInt8.lt_iff_toNat_lt, UInt8.toNat_and]
    exact Nat.lt_succ_of_le Nat.and_le_right
  · have value : p.entries.load i = 0 := by simp [Block.load, inside]
    rw [value]
    decide

/-- The flags fill the top of the status byte only. -/
theorem Status.bits_low (s : Status) : s.bits &&& 0x1F = 0 := by
  obtain ⟨overflow, zeroHit, vblank⟩ := s
  cases overflow <;> cases zeroHit <;> cases vblank <;> rfl

namespace Machine

variable {κ : Type} {m n : Machine κ}

/-- The attribute byte of an object. -/
def attributes (k : Nat) (m : Machine κ) : UInt8 := m.circuit.objects.load (k * 4 + 2)

/-- Object memory is as it was, or one byte was stored, without bits that do not exist. -/
inductive Stores (m n : Machine κ) : Prop where
  | nothing (h : n.circuit.objects = m.circuit.objects)
  | byte (address : Nat) (value : UInt8)
      (clean : address % 4 = 2 → value &&& Object.strayAttributes = 0)
      (h : n.circuit.objects = m.circuit.objects.store address value)

theorem writeObjectData_stores (byte : UInt8) (m : Machine κ) : m.Stores (m.writeObjectData byte) := by
  unfold writeObjectData
  dsimp only
  split
  · exact .nothing rfl
  · refine .byte m.circuit.registers.objectAddress.toNat _ (fun third => ?_) rfl
    rw [if_pos third]
    exact Object.stored_stray byte

variable [Cartridge κ]

theorem readRegister_objects (register : Register) (cycle : Nat) (m : Machine κ) :
    (m.readRegister register cycle).2.circuit.objects = m.circuit.objects := by
  cases register with
  | status =>
    unfold readRegister readStatus
    dsimp only
    split
    · have kept := congrArg Circuit.objects (suppressVblank_circuit m)
      exact kept
    · rfl
  | data =>
    unfold readRegister readData
    dsimp only
    split
    · rfl
    · have read := (m.circuit.expose m.circuit.registers.scroll.current.bus cycle).readVideo_settings
        (if paletteBase ≤ m.circuit.registers.scroll.current.bus then
          m.circuit.registers.scroll.current.bus - 0x1000 else m.circuit.registers.scroll.current.bus)
      exact congrArg Settings.objects read
  | control | mask | objectAddress | objectData | scroll | address => rfl

theorem writeRegister_stores (register : Register) (byte : UInt8) (cycle : Nat) (m : Machine κ) :
    m.Stores (m.writeRegister register byte cycle) := by
  cases register with
  | objectData => exact writeObjectData_stores byte m
  | control =>
    refine .nothing ?_
    unfold writeRegister writeControl
    dsimp only
    split
    · rfl
    · rw [switchInterrupt_circuit]
      rfl
  | address =>
    refine .nothing ?_
    unfold writeRegister writeAddress withCircuit
    dsimp only
    split <;> rfl
  | data =>
    refine .nothing ?_
    unfold writeRegister writeData
    dsimp only
    split
    · rfl
    · have written := (m.circuit.expose m.circuit.registers.scroll.current.bus cycle).writeVideo_settings
        m.circuit.registers.scroll.current.bus byte
      unfold writeVideo advanceAddress withCircuit
      dsimp only
      split
      · rfl
      · exact congrArg Settings.objects written
  | mask | status | objectAddress | scroll => exact .nothing rfl

theorem Between.stores (small : m.Between n) : m.Stores n := by
  cases small with
  | blank target => exact .nothing (congrArg Settings.objects (passBlank_settings target m))
  | looked register cycle => exact .nothing (readRegister_objects register cycle m)
  | written register byte cycle => exact writeRegister_stores register byte cycle m
  | opened h =>
    rw [eq_of_beginFrame h]
    exact .nothing (congrArg Circuit.objects (openFrame_circuit m))
  | mapped map =>
    refine .nothing ?_
    simp only [setColorMap, withCircuit]
  | served | latched | closed | swapped | banked | inserted => exact .nothing rfl

omit [Cartridge κ] in
/-- Bits that do not exist are only ever left where they are. -/
theorem Stores.attributes (h : m.Stores n) {k : Nat}
    (stray : n.attributes k &&& Object.strayAttributes ≠ 0) : n.attributes k = m.attributes k := by
  unfold Machine.attributes at *
  cases h with
  | nothing h => rw [h]
  | byte address value clean h =>
    rw [h] at stray ⊢
    by_cases own : address = k * 4 + 2
    · subst own
      by_cases inside : k * 4 + 2 < 256
      · rw [Block.load_store_same _ _ _ inside] at stray
        exact absurd (clean (by omega)) stray
      · have outside : (m.circuit.objects.store (k * 4 + 2) value).load (k * 4 + 2) = 0 := by
          simp [Block.load, inside]
        rw [outside] at stray
        exact absurd UInt8.zero_and stray
    · exact Block.load_store_ne _ _ _ _ own

omit [Cartridge κ] in
theorem not_stray_of_blank (h : m.circuit.objects = .filled 256 0) (k : Nat) :
    m.attributes k &&& Object.strayAttributes = 0 := by
  have blank : m.attributes k = 0 := by
    rw [Machine.attributes, h]
    by_cases inside : k * 4 + 2 < 256
    · exact Block.load_filled 0 _ inside
    · simp [Block.load, inside]
  rw [blank]
  exact UInt8.zero_and

theorem Leads.attributes (h : m.Leads n) {k : Nat}
    (stray : n.attributes k &&& Object.strayAttributes ≠ 0) : n.attributes k = m.attributes k := by
  obtain ⟨past, story⟩ := h
  refine story.keeps (P := fun p => p.attributes k &&& Object.strayAttributes ≠ 0 →
    p.attributes k = m.attributes k) (fun p line dot _ kept stray => ?_) (fun p q small kept stray => ?_)
    (fun _ kept => kept) (fun _ => rfl) stray
  · have same : (p.step line dot).attributes k = p.attributes k :=
      congrArg (fun s => s.objects.load (k * 4 + 2)) (step_settings line dot p)
    rw [same] at stray ⊢
    exact kept stray
  · have same := small.stores.attributes stray
    rw [same] at stray ⊢
    exact kept stray

/-- A session goes on from one machine to the other. -/
inductive Later (m : Machine κ) : Machine κ → Prop where
  | now : Later m m
  | move {n p : Machine κ} (h : Later m n) (step : n.Moves p) : Later m p

/-- The attributes of an object as some stream brought them. -/
def Imported (k : Nat) (m : Machine κ) : Prop :=
  ∃ (b n : Machine κ) (data : List UInt8) (chunks : List Snapshot.Chunk)
    (warnings : List Snapshot.Warning) (memory : Block 256),
    b.Reachable ∧ b.load data = .ok (.ok (n, warnings)) ∧ Snapshot.parse data = .ok chunks
    ∧ Snapshot.latest? .objects (Snapshot.understood chunks) = some (.objects memory)
    ∧ memory.load (k * 4 + 2) = m.attributes k ∧ Later n m

omit [Cartridge κ] in
/-- A load takes object memory as the last section has it. -/
theorem load_objects {data : List UInt8} {warnings : List Snapshot.Warning}
    (h : m.load data = .ok (.ok (n, warnings))) : ∃ chunks, Snapshot.parse data = .ok chunks
      ∧ .objects n.circuit.objects = (Snapshot.latest? .objects (Snapshot.understood chunks)).getD
        (.objects (.filled 256 0)) := by
  obtain ⟨chunks, parsed, rfl⟩ := load_eq_restore h
  rw [restore_eq]
  exact ⟨chunks, parsed, Snapshot.Contents.ofSections_part _ .objects⟩

theorem load_imported {data : List UInt8} {warnings : List Snapshot.Warning} (hm : m.Reachable)
    (h : m.load data = .ok (.ok (n, warnings))) {k : Nat}
    (stray : n.attributes k &&& Object.strayAttributes ≠ 0) : n.Imported k := by
  obtain ⟨chunks, parsed, held⟩ := load_objects h
  cases last : Snapshot.latest? .objects (Snapshot.understood chunks) with
  | none =>
    rw [last, Option.getD_none, Snapshot.Section.objects.injEq] at held
    exact absurd (not_stray_of_blank held k) stray
  | some s =>
    rw [last, Option.getD_some] at held
    subst held
    exact ⟨m, n, data, chunks, warnings, _, hm, h, parsed, last, rfl, .now⟩

theorem Imported.move {k : Nat} (h : m.Imported k) (step : m.Moves n)
    (same : n.attributes k = m.attributes k) : n.Imported k := by
  obtain ⟨b, loaded, data, chunks, warnings, memory, reached, load, parsed, last, byte, later⟩ := h
  exact ⟨b, loaded, data, chunks, warnings, memory, reached, load, parsed, last,
    byte.trans same.symm, later.move step⟩

/-- Bits that do not exist come from a stream. -/
theorem Reachable.imported (h : m.Reachable) {k : Nat}
    (stray : m.attributes k &&& Object.strayAttributes ≠ 0) : m.Imported k := by
  induction h with
  | new config banks cartridge host => exact absurd (not_stray_of_blank rfl k) stray
  | @move m n hm step ih =>
    have kept (same : n.attributes k = m.attributes k) : n.Imported k := by
      rw [same] at stray
      exact (ih stray).move step same
    obtain leads | rfl | ⟨data, warnings, loaded⟩ := step.leads hm.onTime
    · exact kept (leads.attributes stray)
    · exact absurd (not_stray_of_blank rfl k) stray
    · exact load_imported hm loaded stray

omit [Cartridge κ] in
/-- A byte read from object memory. -/
theorem readObjectData_of_not_searching (hs : m.searching = false)
    (third : m.circuit.registers.objectAddress.toNat % 4 = 2) :
    m.readObjectData = m.attributes (m.circuit.registers.objectAddress.toNat / 4) := by
  have place : m.circuit.registers.objectAddress.toNat / 4 * 4 + 2
      = m.circuit.registers.objectAddress.toNat := by omega
  rw [readObjectData, hs, attributes, place]
  rfl

/-- Every field has its width, but for the attributes of an object, which may show bits that do not exist
where a stream brought them; a load takes object memory as it is. Outside the drawn lines an object's
attributes are read with such bits only if they are held. -/
theorem Reachable.widths (h : m.Reachable) :
    m.circuit.registers.scroll.current.raw < 0x8000
    ∧ m.circuit.registers.scroll.pending.raw < 0x8000
    ∧ m.circuit.registers.scroll.fineX.val < 8
    ∧ m.burst.val < 3
    ∧ (∀ i, m.circuit.palette.entries.load i < 0x40)
    ∧ m.circuit.registers.status.bits &&& 0x1F = 0
    ∧ (∀ k, m.attributes k &&& Object.strayAttributes ≠ 0 → m.Imported k)
    ∧ (∀ n data warnings, m.load data = .ok (.ok (n, warnings)) →
      ∃ chunks, Snapshot.parse data = .ok chunks
        ∧ .objects n.circuit.objects = (Snapshot.latest? .objects (Snapshot.understood chunks)).getD
          (.objects (.filled 256 0)))
    ∧ (∀ address, Register.ofAddress address = .objectData →
      let n := m.advanceTo m.host.cycle
      let place := n.circuit.registers.objectAddress.toNat
      n.searching = false → place % 4 = 2 →
        (m.read address).1 = n.attributes (place / 4)
          ∧ ((m.read address).1 &&& Object.strayAttributes ≠ 0 → n.Imported (place / 4))) := by
  refine ⟨Scroll.Address.raw_lt _, Scroll.Address.raw_lt _, Fin.isLt _, Fin.isLt _, ?entries, ?status,
    fun k stray => h.imported stray, fun n data warnings loaded => load_objects loaded, ?read⟩
  case entries => exact Palette.load_lt h.derived.sound.stored
  case status => exact Status.bits_low _
  case read =>
    intro address data n place blind third
    have value : (m.read address).1 = n.attributes (place / 4) := by
      have read : (m.read address).1 = n.readObjectData := by
        unfold read
        rw [data]
        rfl
      rw [read, readObjectData_of_not_searching blind third]
    have reached : n.Reachable := by
      have caught := h.turn ⟨m.host.cycle, m.host.memory, .catchUp m.host.cycle⟩
      exact caught
    refine ⟨value, fun stray => ?_⟩
    rw [value] at stray
    exact reached.imported stray

/-- A stream of object memory that is all ones: its attributes stay so. -/
theorem Reachable.widths_allOnes : ∃ n : Machine (Option Unit), n.Reachable
    ∧ n.attributes 0 &&& Object.strayAttributes = Object.strayAttributes ∧ n.Imported 0 := by
  let m := Machine.new ⟨.ntsc, .hardware⟩ .new (none : Option Unit) (.new fun _ => 0)
  have loaded := load_join (m := m) rfl [.objects (.filled 256 0xFF)]
  have start : m.Reachable := .new ⟨.ntsc, .hardware⟩ .new none (.new fun _ => 0)
  have reached := start.move (.loaded loaded)
  generalize held : (List.foldl apply (m.reset .cold) [.objects (.filled 256 0xFF)]).withCircuit
    (fun c => c.setMask c.registers.mask) = n at reached
  have ones : n.attributes 0 = 0xFF := by
    rw [← held]
    exact Block.load_filled 0xFF 2 (by decide)
  have stray : n.attributes 0 &&& Object.strayAttributes = Object.strayAttributes := by
    rw [ones]
    rfl
  exact ⟨n, reached, stray, (Reachable.widths reached).2.2.2.2.2.2.1 0 (by rw [stray]; decide)⟩

end Machine

end PictureUnit
