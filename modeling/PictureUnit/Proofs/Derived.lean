import PictureUnit.Proofs.Session

/-!
# What is kept beside the mask byte and the palette

The chip keeps which layers a column shows, and the index drawn for every palette entry, so that
no dot has to work them out. In every state that a session comes to they are what the mask byte, the
entries and the colour map stand for, and the entries have the six bits of a colour.
-/

set_option autoImplicit false

namespace PictureUnit

namespace Palette

theorem refresh_drawn (i : Nat) (p : Palette) {k : Nat} (hk : k < paletteSize) :
    (p.refresh i).drawn[k]? = if i = k then some (p.resolve k) else p.drawn[k]? := by
  rw [refresh, Vector.getElem?_setIfInBounds]
  split
  · next h => rw [if_pos (h ▸ hk), h]
  · rfl

/-- An entry is drawn at its own index, and at the object's index above it. -/
theorem fold_eq_iff {i k : Nat} (hk : k < paletteSize) :
    fold k = fold i ↔ fold i = k ∨ fold i % 4 = 0 ∧ fold i + 16 = k := by
  unfold fold
  simp only [paletteSize] at *
  grind

theorem write_coherent {p : Palette} (h : p.Coherent) (address : Nat) (value : UInt8) :
    (p.write address value).Coherent := by
  intro k hk
  let stored := { p with entries := p.entries.store (fold address) (value &&& 0x3F) }
  have resolved : (p.write address value).resolve k = stored.resolve k := by
    unfold write
    dsimp only
    split <;> rfl
  have drawn : (p.write address value).drawn[k]?
      = if fold k = fold address then some (stored.resolve k) else p.drawn[k]? := by
    rw [write]
    simp only [fold_eq_iff hk]
    by_cases shared : fold address % 4 = 0
    · rw [if_pos shared, refresh_drawn _ _ hk, refresh_drawn _ _ hk]
      by_cases own : fold address = k
      · have apart : fold address + 16 ≠ k := by omega
        rw [if_neg apart, if_pos own, if_pos (.inl own)]
      · by_cases above : fold address + 16 = k
        · rw [if_pos above, if_pos (.inr ⟨shared, above⟩)]
          rfl
        · rw [if_neg above, if_neg own, if_neg (by omega)]
    · rw [if_neg shared, refresh_drawn _ _ hk]
      simp only [shared, false_and, or_false]
      rfl
  rw [drawn, resolved]
  split
  · rfl
  · next other =>
    rw [h k hk, resolve, resolve, Block.load_store_ne _ _ _ _ fun same => other same.symm]

/-- Every entry is a colour of six bits. -/
def Stored (p : Palette) : Prop := p.entries.map (· &&& 0x3F) = p.entries

theorem low_low (value : UInt8) : value &&& 0x3F &&& 0x3F = value &&& 0x3F := by
  rw [UInt8.and_assoc]
  rfl

theorem write_entries (p : Palette) (address : Nat) (value : UInt8) :
    (p.write address value).entries = p.entries.store (fold address) (value &&& 0x3F) := by
  unfold write
  dsimp only
  split <;> rfl

theorem write_stored {p : Palette} (h : p.Stored) (address : Nat) (value : UInt8) :
    (p.write address value).Stored := by
  rw [Stored, write_entries]
  apply Vector.ext
  intro i hi
  have kept := congrArg (·[i]) h
  simp only [Vector.getElem_map] at kept ⊢
  simp only [Block.store, Vector.getElem_setIfInBounds]
  split
  · exact low_low value
  · exact kept

/-- What a palette keeps beside its entries follows from them, and they are colours. -/
structure Sound (p : Palette) : Prop where
  coherent : p.Coherent
  stored : p.Stored

theorem write_sound {p : Palette} (h : p.Sound) (address : Nat) (value : UInt8) :
    (p.write address value).Sound :=
  ⟨write_coherent h.coherent address value, write_stored h.stored address value⟩

theorem refreshAll_stored {p : Palette} (h : p.Stored) : p.refreshAll.Stored := by
  rw [Stored] at h ⊢
  simp only [refreshAll, h]

theorem load_sound (bytes : Block paletteSize) (p : Palette) : (p.load bytes).Sound := by
  refine ⟨refreshAll_coherent _, refreshAll_stored ?_⟩
  rw [Stored, Vector.map_map]
  exact congrArg (bytes.map ·) (funext low_low)

theorem setMap_sound {p : Palette} (h : p.Sound) (map : Option ColorMap) : (p.setMap map).Sound := by
  have stored := h.stored
  rw [Stored] at stored
  refine ⟨refreshAll_coherent _, refreshAll_stored ?_⟩
  rw [Stored]
  exact stored

theorem setMap_keeps (map : Option ColorMap) (p : Palette) :
    (p.setMap map).coloring = p.coloring ∧ (p.setMap map).emphasis = p.emphasis := by
  simp only [setMap, refreshAll, and_self]

theorem setMask_sound {p : Palette} (h : p.Sound) (mask : Mask) : (p.setMask mask).Sound := by
  unfold setMask
  split
  · exact h
  · refine ⟨refreshAll_coherent _, refreshAll_stored ?_⟩
    have stored := h.stored
    rw [Stored] at stored ⊢
    exact stored

theorem setMask_mask (p : Palette) (mask : Mask) :
    (p.setMask mask).coloring = mask.coloring ∧ (p.setMask mask).emphasis = mask.emphasis := by
  unfold setMask
  split
  · assumption
  · exact ⟨rfl, rfl⟩

theorem setMask_keeps (mask : Mask) (p : Palette) :
    (p.setMask mask).entries = p.entries ∧ (p.setMask mask).map = p.map := by
  unfold setMask
  split
  · exact ⟨rfl, rfl⟩
  · simp only [refreshAll, and_self]

theorem write_keeps (p : Palette) (address : Nat) (value : UInt8) :
    (p.write address value).coloring = p.coloring ∧ (p.write address value).emphasis = p.emphasis := by
  unfold write
  dsimp only
  split <;> exact ⟨rfl, rfl⟩

theorem output_of_coherent {p : Palette} (h : p.Coherent) (i : Nat) : p.output i = p.resolve i := by
  have inside : i % paletteSize < paletteSize := Nat.mod_lt _ (by decide)
  have drawn := h _ inside
  have same : p.resolve (i % paletteSize) = p.resolve i := by
    rw [resolve, resolve, fold, fold, Nat.mod_mod]
  rw [Vector.getElem?_eq_getElem inside, same] at drawn
  exact Option.some.inj drawn

end Palette

/-- What is kept is what it stands for. -/
structure Settings.Derived (s : Settings) : Prop where
  visibility : s.visibility = s.mask.visibility
  coloring : s.palette.coloring = s.mask.coloring
  emphasis : s.palette.emphasis = s.mask.emphasis
  sound : s.palette.Sound

theorem Settings.Derived.coherent {s : Settings} (h : s.Derived) : s.palette.Coherent :=
  h.sound.coherent

namespace Circuit

variable {κ : Type}

abbrev Derived (c : Circuit κ) : Prop := c.settings.Derived

variable {c d : Circuit κ}

theorem Derived.of_settings (h : c.Derived) (hs : d.settings = c.settings) : d.Derived := by
  rw [Derived, hs]
  exact h

theorem Derived.of_eq (h : c.Derived) (mask : d.registers.mask = c.registers.mask)
    (visibility : d.visibility = c.visibility) (palette : d.palette = c.palette) : d.Derived where
  visibility := visibility.trans (h.visibility.trans (congrArg Mask.visibility mask.symm))
  coloring := (congrArg Palette.coloring palette).trans
    (h.coloring.trans (congrArg Mask.coloring mask.symm))
  emphasis := (congrArg Palette.emphasis palette).trans
    (h.emphasis.trans (congrArg Mask.emphasis mask.symm))
  sound := by
    have sound := h.sound
    rwa [settings, ← palette] at sound

theorem Derived.withPalette (h : c.Derived) {p : Palette} (sound : p.Sound)
    (kept : p.coloring = c.palette.coloring ∧ p.emphasis = c.palette.emphasis) :
    Derived { c with palette := p } :=
  ⟨h.visibility, kept.1.trans h.coloring, kept.2.trans h.emphasis, sound⟩

theorem setMask_derived (h : c.palette.Sound) (mask : Mask) : (c.setMask mask).Derived := by
  obtain ⟨coloring, emphasis⟩ := c.palette.setMask_mask mask
  exact ⟨rfl, coloring, emphasis, Palette.setMask_sound h mask⟩

theorem restart_derived (h : c.palette.Sound) : c.restart.Derived := by
  apply setMask_derived
  exact h

theorem coldReset_derived (c : Circuit κ) : c.coldReset.Derived := by
  unfold coldReset
  exact restart_derived (Palette.load_sound _ _)

theorem softReset_derived (h : c.palette.Sound) : c.softReset.Derived := by
  unfold softReset
  exact restart_derived h

variable [Cartridge κ]

theorem readVideo_settings (address : Nat) (c : Circuit κ) :
    (c.readVideo address).2.settings = c.settings := by
  unfold readVideo
  split
  · exact readPattern_settings address c
  · exact readName_settings address c

theorem writeVideo_settings (address : Nat) (byte : UInt8) (c : Circuit κ) :
    (c.writeVideo address byte).settings = c.settings := by
  unfold writeVideo writePattern writeName
  split
  · split <;> rfl
  · split <;> rfl

end Circuit

namespace Machine

variable {κ : Type} {m : Machine κ}

@[simp]
theorem passBlank_settings (target : Nat) (m : Machine κ) :
    (m.passBlank target).circuit.settings = m.circuit.settings := by
  unfold passBlank
  dsimp only
  split
  · exact raiseVblank_settings m
  · rfl

theorem setLines_derived (h : m.circuit.Derived) (byte : UInt8) : (m.setLines byte).circuit.Derived :=
  h.of_eq rfl rfl rfl

theorem suppressVblank_circuit (m : Machine κ) : m.suppressVblank.circuit = m.circuit := by
  unfold suppressVblank
  dsimp only
  split <;> rfl

theorem readStatus_derived (h : m.circuit.Derived) (cycle : Nat) :
    (m.readStatus cycle).2.circuit.Derived := by
  have raced : (if m.racesVblank cycle then m.suppressVblank else m).circuit = m.circuit := by
    split
    · exact suppressVblank_circuit m
    · rfl
  unfold readStatus
  dsimp only
  generalize (if m.racesVblank cycle then m.suppressVblank else m) = n at raced
  rw [← raced] at h
  exact h.of_eq rfl rfl rfl

theorem switchInterrupt_circuit (enabled : Bool) (cycle : Nat) (m : Machine κ) :
    (m.switchInterrupt enabled cycle).circuit = m.circuit := by
  unfold switchInterrupt
  split
  · split
    · rfl
    · split <;> rfl
  · split
    · split <;> rfl
    · rfl

theorem writeControl_derived (h : m.circuit.Derived) (byte : UInt8) (cycle : Nat) :
    (m.writeControl byte cycle).circuit.Derived := by
  unfold writeControl
  dsimp only
  split
  · exact h.of_eq rfl rfl rfl
  · rw [switchInterrupt_circuit]
    exact h.of_eq rfl rfl rfl

theorem writeObjectData_derived (h : m.circuit.Derived) (byte : UInt8) :
    (m.writeObjectData byte).circuit.Derived := by
  unfold writeObjectData
  dsimp only
  split <;> exact h.of_eq rfl rfl rfl

theorem stall_derived (h : m.circuit.Derived) (cycles : Nat) : (m.stall cycles).circuit.Derived := h

theorem copyPage_derived (h : m.circuit.Derived) (page : UInt8) :
    (m.copyPage page).circuit.Derived := by
  refine copyPage_keeps (P := fun n => n.circuit.Derived) (fun n address hn => ?_)
    (fun n cycles hn => stall_derived hn cycles) h page
  exact writeObjectData_derived (setLines_derived (m := (n.takeByte address).2) hn _) _

@[simp]
theorem openFrame_circuit (m : Machine κ) : m.openFrame.circuit = m.circuit := by
  unfold openFrame
  dsimp only
  split <;> rfl

@[simp]
theorem openFrame_rendering (m : Machine κ) : m.openFrame.rendering = m.rendering := by
  rw [rendering, openFrame_circuit]
  rfl

theorem reset_derived (h : m.circuit.palette.Sound) (kind : ResetKind) :
    (m.reset kind).circuit.Derived := by
  cases kind with
  | cold => exact m.circuit.coldReset_derived
  | soft => exact Circuit.softReset_derived h

theorem applyChunks_sound (chunks : List Snapshot.Chunk) (h : m.circuit.palette.Sound) :
    (m.applyChunks chunks).1.circuit.palette.Sound := by
  refine applyChunks_keeps (P := fun n => n.circuit.palette.Sound) (fun n s sound => ?_) chunks h
  cases s with
  | palette entries => exact Palette.load_sound _ _
  | registers | objects | nametables | parity | warmUp => exact sound

theorem load_derived (h : m.circuit.palette.Sound) {data : List UInt8} {n : Machine κ}
    {warnings : List Snapshot.Warning} (hl : m.load data = .ok (.ok (n, warnings))) :
    n.circuit.Derived := by
  obtain ⟨chunks, -, rfl⟩ := load_eq_restore hl
  exact Circuit.setMask_derived (applyChunks_sound chunks (reset_derived h .cold).sound) _

theorem setColorMap_derived (h : m.circuit.Derived) (map : Option ColorMap) :
    (m.setColorMap map).circuit.Derived :=
  h.withPalette (Palette.setMap_sound h.sound map) (m.circuit.palette.setMap_keeps map)

variable [Cartridge κ]

@[simp]
theorem advanceTo_settings (target : Nat) (m : Machine κ) :
    (m.advanceTo target).circuit.settings = m.circuit.settings := by
  fun_induction advanceTo target m with
  | case1 => exact passBlank_settings _ _
  | case2 m _ line dot _ ih => rw [ih, step_settings]
  | case3 => rfl

theorem advanceTo_derived (h : m.circuit.Derived) (target : Nat) :
    (m.advanceTo target).circuit.Derived := h.of_settings (advanceTo_settings target m)

/-- A data read only buffers a byte. -/
theorem readData_settings (cycle : Nat) (m : Machine κ) : ∃ buffer,
    (m.readData cycle).2.circuit.settings = { m.circuit.settings with buffer := buffer } := by
  unfold readData
  split
  · exact ⟨m.circuit.registers.buffer, rfl⟩
  · unfold readVideo advanceAddress
    dsimp only
    let answer := (m.circuit.expose m.circuit.registers.scroll.current.bus cycle).readVideo
      (if paletteBase ≤ m.circuit.registers.scroll.current.bus then
        m.circuit.registers.scroll.current.bus - 0x1000 else m.circuit.registers.scroll.current.bus)
    have read : answer.2.settings = m.circuit.settings := Circuit.readVideo_settings _ _
    exact ⟨answer.1, congrArg (fun s : Settings => { s with buffer := answer.1 }) read⟩

theorem readData_derived (h : m.circuit.Derived) (cycle : Nat) :
    (m.readData cycle).2.circuit.Derived := by
  obtain ⟨_, read⟩ := m.readData_settings cycle
  exact h.of_eq (congrArg (·.mask) read) (congrArg (·.visibility) read) (congrArg (·.palette) read)

theorem readRegister_derived (h : m.circuit.Derived) (register : Register) (cycle : Nat) :
    (m.readRegister register cycle).2.circuit.Derived := by
  cases register with
  | status => exact readStatus_derived h cycle
  | data => exact readData_derived h cycle
  | control | mask | objectAddress | objectData | scroll | address => exact h

theorem writeAddress_derived (h : m.circuit.Derived) (byte : UInt8) (cycle : Nat) :
    (m.writeAddress byte cycle).circuit.Derived := by
  unfold writeAddress withCircuit
  dsimp only
  split <;> exact h.of_eq rfl rfl rfl

/-- A data write reaches no setting but the palette, and that as a write to an entry. -/
theorem writeData_settings (byte : UInt8) (cycle : Nat) (m : Machine κ) :
    (m.writeData byte cycle).circuit.settings = m.circuit.settings
      ∨ ∃ address, (m.writeData byte cycle).circuit.settings
        = { m.circuit.settings with palette := m.circuit.palette.write address byte } := by
  unfold writeData
  split
  · exact .inl rfl
  · unfold writeVideo advanceAddress withCircuit
    dsimp only
    split
    · exact .inr ⟨m.circuit.registers.scroll.current.bus, rfl⟩
    · exact .inl ((m.circuit.expose m.circuit.registers.scroll.current.bus cycle).writeVideo_settings
        m.circuit.registers.scroll.current.bus byte)

theorem writeData_derived (h : m.circuit.Derived) (byte : UInt8) (cycle : Nat) :
    (m.writeData byte cycle).circuit.Derived := by
  obtain same | ⟨address, written⟩ := m.writeData_settings byte cycle
  · exact h.of_settings same
  · have entry := h.withPalette (Palette.write_sound h.sound address byte)
      (m.circuit.palette.write_keeps address byte)
    exact entry.of_settings written

theorem writeRegister_derived (h : m.circuit.Derived) (register : Register) (byte : UInt8)
    (cycle : Nat) : (m.writeRegister register byte cycle).circuit.Derived := by
  cases register with
  | control => exact writeControl_derived h byte cycle
  | mask => exact Circuit.setMask_derived h.sound _
  | status => exact h
  | objectAddress => exact h.of_eq rfl rfl rfl
  | objectData => exact writeObjectData_derived h byte
  | scroll => exact h.of_eq rfl rfl rfl
  | address => exact writeAddress_derived h byte cycle
  | data => exact writeData_derived h byte cycle

theorem writeInto_derived (h : m.circuit.Derived) (register : Register) (byte : UInt8) :
    (m.writeInto register byte).circuit.Derived := by
  have latched := setLines_derived (advanceTo_derived h (m.landing register)) byte
  rw [writeInto_eq, put]
  split
  · exact latched
  · exact writeRegister_derived latched register byte _

theorem moveByte_derived (h : m.circuit.Derived) (address : Nat) :
    (m.moveByte address).circuit.Derived := by
  have taken : (((m.stall 1).takeByte address).2.stall 1).circuit.Derived := stall_derived h 1
  exact writeObjectData_derived (setLines_derived (advanceTo_derived taken _) _) _

theorem transferPage_derived (h : m.circuit.Derived) (page : UInt8) :
    (m.transferPage page).circuit.Derived := by
  have aligned : m.align.circuit.Derived := advanceTo_derived (stall_derived h m.alignment) _
  exact transferPage_keeps (P := fun n => n.circuit.Derived) aligned
    (fun _ hn => copyPage_derived hn page) fun _ address hn => moveByte_derived hn address

theorem turn_derived (h : m.circuit.Derived) (t : Turn) : (m.turn t).2.circuit.Derived := by
  have met : (m.meet t).circuit.Derived := h
  exact turn_keeps (P := fun n => n.circuit.Derived) met
    (fun _ target hn => advanceTo_derived hn target)
    (fun _ register cycle hn => readRegister_derived hn register cycle)
    (fun _ byte hn => setLines_derived hn byte)
    (fun _ register byte hn => writeInto_derived hn register byte)
    fun _ page hn => transferPage_derived hn page

/-- Whatever the processor does, what is kept stays what it stands for. -/
theorem Moves.derived {n : Machine κ} (step : m.Moves n) (h : m.circuit.Derived) :
    n.circuit.Derived := by
  cases step with
  | turn t => exact turn_derived h t
  | opened ho =>
    rw [eq_of_beginFrame ho, openFrame_circuit]
    exact h
  | closed hc =>
    obtain ⟨-, rfl⟩ := eq_of_endFrame hc
    exact advanceTo_derived h _
  | reset kind => exact reset_derived h.sound kind
  | loaded hl => exact load_derived h.sound hl
  | swapped hs =>
    obtain ⟨-, rfl⟩ := eq_of_swapScreen hs
    exact h.of_eq rfl rfl rfl
  | mapped map => exact setColorMap_derived h map
  | banked | inserted => exact h.of_eq rfl rfl rfl

theorem Reachable.derived (h : m.Reachable) : m.circuit.Derived := by
  induction h with
  | new config banks cartridge host =>
    apply reset_derived
    exact Palette.load_sound _ _
  | move _ step ih => exact step.derived ih

end Machine

end PictureUnit
