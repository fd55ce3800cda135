import PictureUnit.Proofs.Eager
import PictureUnit.Proofs.Lockstep
import PictureUnit.Proofs.Ports

/-!
# The machine behind the ports

As long as nothing is rendered when a visit comes, nothing is rendered until it lands, and every access
does to the machine's memories what it does to those of its ports.
-/

set_option autoImplicit false

namespace PictureUnit

namespace Ports

variable {p : Ports}

theorem entry_eq_fold (address : Nat) : entry address = Palette.fold address := by
  have small : address % 32 < 32 := Nat.mod_lt _ (by decide)
  unfold entry Palette.fold
  generalize address % 32 = i at small
  revert i
  decide

theorem increment_eq (c : Control) :
    (if c.bits.toNat / 4 % 2 = 1 then 32 else 1) = c.increment := by
  simp [Control.increment, Nat.testBit_eq_decide_div_mod_eq]

theorem top_eq (flags : Status) : top flags = flags.bits := by
  obtain ⟨_ | _, _ | _, _ | _⟩ := flags <;> decide

theorem coloring_eq (m : Mask) : (if m.bits.toNat % 2 = 1 then 0x30 else 0x3F) = m.coloring := by
  simp [Mask.coloring, Mask.greys, Nat.testBit_eq_decide_div_mod_eq]

end Ports

/-- A stored byte is read where it was stored, and nowhere else. -/
theorem Block.load_store {size : Nat} (b : Block size) {i : Nat} (value : UInt8) (h : i < size) :
    (b.store i value).load = Function.update b.load i value := by
  funext j
  by_cases same : j = i
  · rw [same, Function.update_self, load_store_same b i value h]
  · rw [Function.update_of_ne same, load_store_ne b i j value (Ne.symm same)]

namespace Works

variable {κ : Type} {w : Works κ}

theorem ports_load (w : Works κ) (c : Cell) : w.ports.load c = w.banks.load c := by
  cases c <;> rfl

theorem ports_store (byte : UInt8) {c : Cell} (h : w.banks.Holds c) :
    { w with banks := w.banks.store byte c }.ports = w.ports.store byte c := by
  have cells (b : Banks) : { w with banks := b }.ports = { w.ports with cells := b.load } :=
    congrArg (fun cells => { w.ports with cells := cells }) b.load_eq_content.symm
  have own : w.ports.cells = w.banks.load := w.banks.load_eq_content.symm
  rw [cells]
  cases c with
  | internal i => rw [Banks.load_store_internal byte h, Ports.store, own]
  | ram i => rw [Banks.load_store_ram byte h, Ports.store, own]
  | rom i | cartridge | missing => exact (cells w.banks).symm

end Works

namespace Circuit

variable {κ : Type}

theorem advance_ports (c : Circuit κ) :
    (c.withCurrent fun a => a.advance c.registers.control.increment).ports = c.ports.advance := by
  have moved := c.registers.scroll.current.raw_advance c.registers.control.increment
  rw [← Ports.increment_eq] at moved
  change { c.ports with
    current := (c.registers.scroll.current.advance c.registers.control.increment).raw } = _
  rw [Ports.advance, ← Ports.increment_eq, moved]
  rfl

theorem writeControl_ports (byte : UInt8) (c : Circuit κ) :
    (c.withRegisters fun r => { r with
      control := ⟨byte⟩, scroll := r.scroll.selectNametable byte }).ports = c.ports.writeControl byte := by
  have pending : (c.registers.scroll.pending.withNametable byte.toNat).raw
      = c.ports.pending % 0x400 + byte.toNat % 4 * 0x400 + c.ports.pending / 0x1000 * 0x1000 := by
    change _ = c.registers.scroll.pending.raw % 0x400 + _ + c.registers.scroll.pending.raw / 0x1000 * 0x1000
    generalize c.registers.scroll.pending = a
    simp only [Scroll.Address.withNametable, Scroll.Address.raw, Scroll.Address.nametable,
      Scroll.Address.table, wrap]
    omega
  rw [Ports.writeControl, ← pending]
  rfl

theorem withScroll_ports (f : Scroll.Latch → Scroll.Latch) (c : Circuit κ) :
    (c.withScroll f).ports = { c.ports with
      current := (f c.registers.scroll).current.raw
      pending := (f c.registers.scroll).pending.raw
      fine := (f c.registers.scroll).fineX.val
      second := (f c.registers.scroll).second } := rfl

theorem writeScroll_ports (byte : UInt8) (c : Circuit κ) :
    (c.withScroll (·.writeScroll byte)).ports = c.ports.writeScroll byte := by
  have value := byte.toNat_lt
  have shown : c.ports.pending = c.registers.scroll.pending.raw := rfl
  have toggle : c.ports.second = c.registers.scroll.second := rfl
  rw [withScroll_ports, Scroll.Latch.writeScroll, Ports.writeScroll, toggle]
  split
  · have pending : ((c.registers.scroll.pending.withCoarseY (byte.toNat / 8)).withFineY byte.toNat).raw
        = c.ports.pending % 0x20 + byte.toNat / 8 * 0x20 + c.ports.pending / 0x400 % 4 * 0x400
          + byte.toNat % 8 * 0x1000 := by
      rw [shown]
      generalize c.registers.scroll.pending = a
      simp only [Scroll.Address.withCoarseY, Scroll.Address.withFineY, Scroll.Address.raw,
        Scroll.Address.nametable, Scroll.Address.coarse, Scroll.Address.fine, wrap]
      omega
    rw [← pending]
    rfl
  · have pending : (c.registers.scroll.pending.withCoarseX (byte.toNat / 8)).raw
        = c.ports.pending / 0x20 * 0x20 + byte.toNat / 8 := by
      rw [shown]
      generalize c.registers.scroll.pending = a
      simp only [Scroll.Address.withCoarseX, Scroll.Address.raw, Scroll.Address.nametable,
        Scroll.Address.coarse, wrap]
      omega
    rw [← pending]
    rfl

theorem writeAddress_ports (byte : UInt8) (c : Circuit κ) :
    (c.withScroll (·.writeAddress byte)).ports = c.ports.writeAddress byte := by
  have value := byte.toNat_lt
  have small := c.registers.scroll.pending.raw_lt
  have shown : c.ports.pending = c.registers.scroll.pending.raw := rfl
  have toggle : c.ports.second = c.registers.scroll.second := rfl
  rw [withScroll_ports, Scroll.Latch.writeAddress, Ports.writeAddress, toggle]
  split
  · have pending : (Scroll.Address.ofRaw
        (c.registers.scroll.pending.raw / 0x100 * 0x100 + byte.toNat)).raw
        = c.ports.pending / 0x100 * 0x100 + byte.toNat := by
      rw [Scroll.Address.raw_ofRaw, shown, Nat.mod_eq_of_lt (by omega)]
    rw [← pending]
    rfl
  · have pending : (Scroll.Address.ofRaw
        (byte.toNat % 0x40 * 0x100 + c.registers.scroll.pending.raw % 0x100)).raw
        = byte.toNat % 0x40 * 0x100 + c.ports.pending % 0x100 := by
      rw [Scroll.Address.raw_ofRaw, shown, Nat.mod_eq_of_lt (by omega)]
    rw [← pending]
    rfl

theorem setMask_ports (mask : Mask) (c : Circuit κ) :
    (c.setMask mask).ports = { c.ports with mask := mask.bits } := by
  simp only [ports, Works.ports, works, settings, setMask, pipe, (c.palette.setMask_keeps mask).1]

/-- The address whose byte a data read keeps. -/
theorem source_eq (c : Circuit κ) : (if paletteBase ≤ c.registers.scroll.current.bus then
    c.registers.scroll.current.bus - 0x1000 else c.registers.scroll.current.bus)
      = if c.ports.bus < 0x3F00 then c.ports.bus else c.ports.bus - 0x1000 := by
  have bus : c.ports.bus = c.registers.scroll.current.bus := rfl
  rw [bus, paletteBase]
  split
  · rw [if_neg (by omega)]
  · rw [if_pos (by omega)]

/-- What a data read does, but for the step. -/
theorem buffered_ports (c : Circuit κ) : c.buffered.ports = { c.ports with
    buffer := c.ports.load
      (c.banks.decode (if c.ports.bus < 0x3F00 then c.ports.bus else c.ports.bus - 0x1000)) } := by
  rw [← Banks.cell_eq_decode]
  have byte := c.works.ports_load
    (c.banks.cell (if c.ports.bus < 0x3F00 then c.ports.bus else c.ports.bus - 0x1000))
  rw [buffered, source_eq]
  exact congrArg (fun byte => { c.ports with buffer := byte }) byte.symm

/-- What a data write does, but for the step. -/
theorem stored_ports (byte : UInt8) (c : Circuit κ) : (c.stored byte).ports
    = if c.ports.bus < 0x3F00 then c.ports.store byte (c.banks.decode c.ports.bus)
      else { c.ports with
        entries := Function.update c.ports.entries (Ports.entry c.ports.bus) (byte &&& 0x3F) } := by
  rw [← Banks.cell_eq_decode]
  unfold stored
  dsimp only
  by_cases below : c.ports.bus < 0x3F00
  · have memory : ¬ paletteBase ≤ c.registers.scroll.current.bus := Nat.not_le.mpr below
    rw [if_pos below, if_neg memory]
    exact Works.ports_store (w := c.works) byte (c.banks.holds_cell _)
  · have palette : paletteBase ≤ c.registers.scroll.current.bus := Nat.not_lt.mp below
    have entries : (c.palette.write c.registers.scroll.current.bus byte).entries.load
        = Function.update c.ports.entries (Ports.entry c.ports.bus) (byte &&& 0x3F) := by
      rw [Palette.write_entries, Block.load_store _ _ (Palette.fold_lt _), Ports.entry_eq_fold]
      rfl
    rw [if_neg below, if_pos palette, ← entries]
    rfl

end Circuit

namespace Machine

variable {κ : Type} [Cartridge κ] {m : Machine κ}

omit [Cartridge κ] in
theorem advanceAddress_ports (m : Machine κ) : m.advanceAddress.ports = m.ports.advance :=
  m.circuit.advance_ports

theorem readData_ports (hi : Cartridge.Idle m.circuit.cartridge) (derived : m.circuit.Derived)
    (quiet : m.fetching = false) (cycle : Nat) :
    (m.readData cycle).1 = (m.ports.readData m.map).1
      ∧ (m.readData cycle).2.ports = (m.ports.readData m.map).2 := by
  have buffered := m.circuit.buffered_ports
  have tint : m.circuit.palette.coloring = m.ports.tint :=
    derived.coloring.trans (Ports.coloring_eq _).symm
  rw [readData, quiet, if_neg Bool.false_ne_true, readVideo_idle hi]
  dsimp only
  rw [advanceAddress_ports, Ports.readData]
  by_cases below : m.ports.bus < 0x3F00
  · have memory : ¬ paletteBase ≤ m.circuit.registers.scroll.current.bus := Nat.not_le.mpr below
    rw [if_pos (by exact below)] at buffered
    rw [if_pos below, if_neg memory]
    exact ⟨rfl, congrArg Ports.advance buffered⟩
  · have palette : paletteBase ≤ m.circuit.registers.scroll.current.bus := Nat.not_lt.mp below
    rw [if_neg (by exact below)] at buffered
    rw [if_neg below, if_pos palette, Palette.read, tint, Ports.entry_eq_fold]
    exact ⟨rfl, congrArg Ports.advance buffered⟩

theorem writeData_ports (hi : Cartridge.Idle m.circuit.cartridge) (quiet : m.fetching = false)
    (byte : UInt8) (cycle : Nat) :
    (m.writeData byte cycle).ports = m.ports.writeData m.map byte := by
  have stored := m.circuit.stored_ports byte
  rw [writeData, quiet, if_neg Bool.false_ne_true, writeVideo_idle hi, advanceAddress_ports,
    Ports.writeData]
  have kept : (m.withCircuit (Circuit.stored byte)).ports = (m.circuit.stored byte).ports := rfl
  rw [kept, stored]
  exact apply_ite Ports.advance _ _ _

omit [Cartridge κ] in
theorem writeObjectData_ports (quiet : m.fetching = false) (byte : UInt8) :
    (m.writeObjectData byte).ports = m.ports.writeObject byte := by
  have place := m.circuit.registers.objectAddress.toNat_lt
  have objects (value : UInt8) : (m.circuit.objects.store
      m.circuit.registers.objectAddress.toNat value).load
      = Function.update m.ports.objects m.ports.objectAddress.toNat value :=
    Block.load_store m.circuit.objects value place
  rw [writeObjectData, quiet, if_neg Bool.false_ne_true, Ports.writeObject, ← objects]
  rfl

omit [Cartridge κ] in
theorem searching_of_quiet (quiet : m.fetching = false) : m.searching = false := by
  rw [fetching] at quiet
  rw [searching]
  cases hr : m.rendering with
  | false => rfl
  | true =>
    cases hp : m.clock.position with
    | blank => rfl
    | raster line dot =>
      rw [hr, hp] at quiet
      cases quiet

/-- What a quiet register answers, and what that does to the ports. -/
theorem readRegister_ports (hi : Cartridge.Idle m.circuit.cartridge) (derived : m.circuit.Derived)
    (quiet : m.fetching = false) (register : Register) (cycle : Nat) :
    (m.readRegister register cycle).1
        = (m.ports.read m.map m.circuit.registers.status register.index).1
      ∧ (m.readRegister register cycle).2.ports
        = (m.ports.read m.map m.circuit.registers.status register.index).2 := by
  cases register with
  | status =>
    obtain ⟨value, circuit⟩ := readStatus_eq cycle m
    rw [Register.index, Ports.read, Ports.top_eq]
    exact ⟨value, congrArg Circuit.ports circuit⟩
  | objectData =>
    rw [readRegister, readObjectData, searching_of_quiet quiet]
    exact ⟨rfl, rfl⟩
  | data => exact readData_ports hi derived quiet cycle
  | control | mask | objectAddress | scroll | address => exact ⟨rfl, rfl⟩

theorem writeRegister_ports (hi : Cartridge.Idle m.circuit.cartridge) (quiet : m.fetching = false)
    (register : Register) (byte : UInt8) (cycle : Nat) :
    (m.writeRegister register byte cycle).ports = m.ports.write m.map register.index byte := by
  cases register with
  | control =>
    exact (congrArg Circuit.ports (writeControl_circuit byte cycle m)).trans
      (m.circuit.writeControl_ports byte)
  | mask => exact m.circuit.setMask_ports ⟨byte⟩
  | status | objectAddress => rfl
  | objectData => exact writeObjectData_ports quiet byte
  | scroll => exact m.circuit.writeScroll_ports byte
  | address =>
    exact (congrArg Circuit.ports (writeAddress_idle hi byte cycle)).trans
      (m.circuit.writeAddress_ports byte)
  | data => exact writeData_ports hi quiet byte cycle

/-- No access moves a slot. -/
theorem writeRegister_map (hi : Cartridge.Idle m.circuit.cartridge) (register : Register)
    (byte : UInt8) (cycle : Nat) : (m.writeRegister register byte cycle).map = m.map := by
  cases register with
  | control =>
    have circuit := writeControl_circuit byte cycle m
    exact congrArg (·.banks.decode) circuit
  | mask | status | objectAddress | scroll => rfl
  | objectData =>
    rw [writeRegister, writeObjectData]
    dsimp only
    split <;> rfl
  | address =>
    have circuit := writeAddress_idle hi byte cycle
    exact congrArg (·.banks.decode) circuit
  | data =>
    have stored : (m.circuit.stored byte).banks.decode = m.map := by
      unfold map Circuit.stored
      dsimp only
      split
      · rfl
      · rw [← Banks.cell_eq_decode, ← Banks.cell_eq_decode, Banks.store_cell]
    rw [writeRegister, writeData, writeVideo_idle hi]
    split
    · rfl
    · exact stored

theorem readRegister_map (hi : Cartridge.Idle m.circuit.cartridge) (register : Register)
    (cycle : Nat) : (m.readRegister register cycle).2.map = m.map := by
  cases register with
  | status => exact congrArg (·.banks.decode) (readStatus_eq cycle m).2
  | data =>
    rw [readRegister, readData, readVideo_idle hi]
    split <;> rfl
  | control | mask | objectAddress | objectData | scroll | address => rfl

/-- Nothing is rendered before the next visit lands. -/
theorem advanceTo_quiet (hs : Cartridge.Silent m.circuit.cartridge) (quiet : m.fetching = false)
    (target : Nat) : (m.advanceTo target).circuit.works = m.circuit.works
      ∧ (m.advanceTo target).fetching = false := by
  fun_induction advanceTo target m with
  | case1 m _ blank =>
    refine ⟨passBlank_works target m, ?_⟩
    rw [fetching, passBlank_position, blank]
    exact Bool.and_false _
  | case2 m _ line dot standing ih =>
    have off : m.rendering = false := by
      rw [fetching, standing] at quiet
      exact (Bool.and_true _).symm.trans quiet
    have works : (m.step line dot).circuit.works = m.circuit.works := by
      rw [step_circuit]
      exact Circuit.dot_works_off hs (.inr off) line _ _
    have cartridge : (m.step line dot).circuit.cartridge = m.circuit.cartridge :=
      congrArg Works.cartridge works
    have still : (m.step line dot).fetching = false := by
      rw [fetching, step_rendering, off]
      exact Bool.false_and _
    obtain ⟨kept, late⟩ := ih (by rwa [cartridge]) still
    exact ⟨kept.trans works, late⟩
  | case3 => exact ⟨rfl, quiet⟩

/-- The access itself, on a quiet machine. -/
theorem land_ports (hi : Cartridge.Idle m.circuit.cartridge) (derived : m.circuit.Derived)
    (quiet : m.fetching = false) (ready : m.warmingUp = false) (v : Visit) :
    (m.land v).1 = (m.ports.visit m.map m.circuit.registers.status v).1
      ∧ (m.land v).2.ports = (m.ports.visit m.map m.circuit.registers.status v).2
      ∧ (m.land v).2.map = m.map := by
  cases hb : v.byte with
  | none =>
    let met := m.meet v.turn
    obtain ⟨value, ports⟩ := readRegister_ports (m := met) hi derived quiet v.register v.cycle
    have map := readRegister_map (m := met) hi v.register v.cycle
    have landed : m.land v = (some (met.readRegister v.register v.cycle).1,
        (met.readRegister v.register v.cycle).2.setLines (met.readRegister v.register v.cycle).1) := by
      rw [land, hb]
    have visited : m.ports.visit m.map m.circuit.registers.status v
        = (some (met.ports.read met.map met.circuit.registers.status v.register.index).1,
          { (met.ports.read met.map met.circuit.registers.status v.register.index).2 with
            lines := (met.ports.read met.map met.circuit.registers.status v.register.index).1 }) := by
      rw [Ports.visit, hb, v.register_index]
      rfl
    rw [landed, visited, ← value, ← ports]
    exact ⟨rfl, rfl, map⟩
  | some byte =>
    let met := (m.meet v.turn).setLines byte
    have ports := writeRegister_ports (m := met) hi quiet v.register byte (v.landing m.timing)
    have map := writeRegister_map (m := met) hi v.register byte (v.landing m.timing)
    have landed : m.land v = (none, met.writeRegister v.register byte (v.landing m.timing)) := by
      have warm : met.warmingUp = false := ready
      have put_ : (m.meet v.turn).put v.register byte (v.landing m.timing)
          = met.writeRegister v.register byte (v.landing m.timing) := by
        rw [put]
        exact if_neg (by simp [met, warm])
      rw [land, hb, ← put_]
      rfl
    have visited : m.ports.visit m.map m.circuit.registers.status v
        = (none, met.ports.write met.map v.register.index byte) := by
      rw [Ports.visit, hb, v.register_index]
      rfl
    rw [landed, visited]
    exact ⟨rfl, ports, map⟩

/-- Before each visit rendering is off or the raster is over, so no dot is rendered until it lands. -/
def Quiet : List Visit → Machine κ → Prop
  | [], _ => True
  | v :: rest, m => m.fetching = false ∧ Quiet rest (m.turn v.turn).2

/-- The visits, each with the flags that it finds. -/
def flagged : List Visit → Machine κ → List (Status × Visit)
  | [], _ => []
  | v :: rest, m =>
    ((m.advanceTo (v.landing m.timing)).circuit.registers.status, v) :: flagged rest (m.turn v.turn).2

/-- A visit to a quiet machine does to its ports what it does to a machine that is nothing but ports. -/
theorem turn_ports (hi : Cartridge.Idle m.circuit.cartridge) (hm : m.Reachable)
    (quiet : m.fetching = false) (ready : m.warmingUp = false) (v : Visit) {n : Machine κ}
    (hn : n = m.advanceTo (v.landing m.timing)) :
    (m.turn v.turn).1 = (m.ports.visit m.map n.circuit.registers.status v).1
      ∧ (m.turn v.turn).2.ports = (m.ports.visit m.map n.circuit.registers.status v).2
      ∧ (m.turn v.turn).2.map = m.map
      ∧ (m.turn v.turn).2.circuit.cartridge = m.circuit.cartridge
      ∧ (m.turn v.turn).2.warmingUp = false := by
  obtain ⟨works, still⟩ := advanceTo_quiet hi.toSilent quiet (v.landing m.timing)
  obtain ⟨ds, l, passes⟩ := advanceTo_passes (v.landing m.timing) m
  have derived := advanceTo_derived hm.derived (v.landing m.timing)
  rw [turn_visit]
  rw [← hn] at works still passes derived ⊢
  have cartridge : n.circuit.cartridge = m.circuit.cartridge := congrArg Works.cartridge works
  have ports : n.ports = m.ports := congrArg Works.ports works
  have map : n.map = m.map := congrArg (·.banks.decode) works
  have warm : n.warmingUp = false := (congrArg Ledger.warmingUp passes.ledger).trans ready
  have idle : Cartridge.Idle n.circuit.cartridge := by rwa [cartridge]
  have landed := land_still v n
  obtain ⟨value, after, kept⟩ := land_ports idle derived still warm v
  rw [ports, map] at value after
  exact ⟨value, after, kept.trans map, (idle.served landed.circuit.served).trans cartridge,
    (congrArg Ledger.warmingUp landed.ledger).trans warm⟩

theorem advanceTo_position_of_blank (h : m.clock.position = .blank) (target : Nat) :
    (m.advanceTo target).clock.position = .blank := by
  fun_induction advanceTo target m with
  | case1 m _ blank => rwa [passBlank_position]
  | case2 m _ line dot standing _ =>
    rw [h] at standing
    cases standing
  | case3 => exact h

/-- After the raster every script is quiet. -/
theorem quiet_of_blank (h : m.clock.position = .blank) (vs : List Visit) : m.Quiet vs := by
  induction vs generalizing m with
  | nil => trivial
  | cons v rest ih =>
    have still : (m.turn v.turn).2.clock.position = .blank := by
      rw [turn_visit, (land_still v _).clock]
      exact advanceTo_position_of_blank h _
    refine ⟨?_, ih still⟩
    rw [fetching, h]
    exact Bool.and_false _

/-- Outside rendering a machine with an empty slot answers as its ports do, given the flags, and in the
end holds in its memories what they hold. -/
theorem visits_refine_ports {m : Machine (Option κ)} (hm : m.Reachable)
    (slot : m.circuit.cartridge = none) (ready : m.warmingUp = false) (vs : List Visit)
    (quiet : m.Quiet vs) :
    let ts := vs.map Visit.turn
    let through := m.ports.visits m.map (m.flagged vs)
    m.answers ts = through.1 ∧ (m.afterTurns ts).ports = through.2 ∧ (m.afterTurns ts).map = m.map := by
  induction vs generalizing m with
  | nil => exact ⟨rfl, rfl, rfl⟩
  | cons v rest ih =>
    have idle : Cartridge.Idle m.circuit.cartridge := by
      rw [slot]
      exact Cartridge.idle_none
    obtain ⟨value, ports, map, cartridge, warm⟩ := turn_ports idle hm quiet.1 ready v rfl
    obtain ⟨values, after, kept⟩ := ih (hm.turn v.turn) (cartridge.trans slot) warm quiet.2
    rw [ports, map] at values after
    refine ⟨?_, after, kept.trans map⟩
    rw [List.map_cons, answers, value, values]
    rfl

/-- Sets the address, and then writes a byte there or reads it. -/
def visitAt (high low : UInt8) (byte : Option UInt8) : List Visit :=
  [⟨100, fun _ => 0, 0x2006, some high, by decide⟩, ⟨100, fun _ => 0, 0x2006, some low, by decide⟩,
    ⟨100, fun _ => 0, 0x2007, byte, by decide⟩]

/-- A name is written to a memory of a hundred bytes, past its end, and read as a pattern, each time by the
next read; another one is read in another nametable, through the upper copy of the four; then there is no
memory; and a palette entry is read at its other address. -/
def aliasScript : List Visit :=
  visitAt 0x20 0x00 (some 0x5A) ++ visitAt 0x00 0x48 none
    ++ visitAt 0x24 0x00 (some 0x33) ++ visitAt 0x38 0x00 none ++ visitAt 0x2C 0x00 none
    ++ visitAt 0x3F 0x10 (some 0x7A) ++ visitAt 0x3F 0x00 none

theorem visits_refine_ports_aliased : ∃ m : Machine (Option Unit), m.Quiet aliasScript
    ∧ m.answers (aliasScript.map Visit.turn) = [0x00, 0x5A, 0x33, 0x3A]
    ∧ (m.afterTurns (aliasScript.map Visit.turn)).ports
      = (m.ports.visits m.map (m.flagged aliasScript)).2 := by
  let names : Vector NameSource 4 := #v[.ram 3, .internal 0, .internal 0, .rom 0]
  let m : Machine (Option Unit) := .new ⟨.ntsc, .hardware⟩
    { Banks.new with ram := Array.replicate 100 7, names := names } none (.new fun _ => 0)
  have quiet : m.Quiet aliasScript := quiet_of_blank rfl aliasScript
  obtain ⟨answers, ports, -⟩ := visits_refine_ports (m := m) (.new _ _ _ _) rfl rfl aliasScript quiet
  refine ⟨m, quiet, answers.trans ?_, ports⟩
  decide +kernel

end Machine

end PictureUnit
