import PictureUnit.Proofs.Deeds
import PictureUnit.Proofs.Refined
import PictureUnit.Proofs.Rendered
import PictureUnit.Proofs.Widths

/-!
# The colours of a session

The drawn indices are worked out again in part when an entry is written, and in whole when grey or the
emphasis changes, when a colour map is installed, and after a load. In whatever order all this comes, they
are the colours of the entries through the map installed last, as the mask byte wants them. So whatever is
drawn has nine bits.
-/

set_option autoImplicit false

namespace PictureUnit

/-- The colour map after a deed. Neither a reset nor a load takes it away. -/
def Deed.mapAfter {κ : Type} (held : Option ColorMap) : Deed κ → Option ColorMap
  | .recolor map => map
  | .act _ | .reset _ | .load _ | .swap _ | .bank _ | .insert _ => held

/-- The colour map that some deeds leave on a machine just switched on. -/
def installed {κ : Type} (ds : List (Deed κ)) : Option ColorMap := ds.foldl Deed.mapAfter none

namespace Palette

def recolored (map : Option ColorMap) (entry : UInt8) : UInt8 :=
  match map with
  | some map => map.load entry.toNat
  | none => entry

/-- The index drawn for an entry: its colour through the map, of which a grey picture keeps two bits, under
the three bits of the emphasis. -/
def shade (map : Option ColorMap) (mask : Mask) (entry : UInt8) : Nat :=
  (recolored map entry &&& if mask.bits.toNat % 2 = 1 then 0x30 else 0x3F).toNat
    ||| mask.bits.toNat / 32 * 64

variable {p : Palette}

theorem shade_lt (map : Option ColorMap) (mask : Mask) (entry : UInt8) : shade map mask entry < 512 := by
  have bits := mask.bits.toNat_lt
  have small (color : UInt8) :
      (color &&& if mask.bits.toNat % 2 = 1 then 0x30 else 0x3F).toNat < 2 ^ 9 := by
    have byte := (color &&& if mask.bits.toNat % 2 = 1 then 0x30 else 0x3F).toNat_lt
    omega
  exact Nat.or_lt_two_pow (small _) (by omega)

/-- What a sound palette draws is the shade of the entry behind the index. -/
theorem Sound.output_toNat (h : p.Sound) {mask : Mask} (coloring : p.coloring = mask.coloring)
    (emphasis : p.emphasis = mask.emphasis) (i : Nat) :
    (p.output i).toNat = shade p.map mask (p.entries.load (Ports.entry i)) := by
  have bits := mask.bits.toNat_lt
  have low := load_lt h.stored (fold i)
  have index : (p.entries.load (fold i)).toNat % 64 = (p.entries.load (fold i)).toNat :=
    Nat.mod_eq_of_lt low
  have high : (UInt16.ofNat (mask.bits.toNat / 32 * 64)).toNat = mask.bits.toNat / 32 * 64 := by
    rw [UInt16.toNat_ofNat']
    exact Nat.mod_eq_of_lt (by omega)
  have color : p.resolve i = (recolored p.map (p.entries.load (fold i)) &&& p.coloring).toUInt16
      ||| p.emphasis := by
    cases map : p.map with
    | none => simp only [resolve, recolored, map]
    | some colors => simp only [resolve, recolored, map, index]
  rw [output_of_coherent h.coherent, color, coloring, emphasis, Ports.entry_eq_fold, shade,
    Ports.coloring_eq, UInt16.toNat_or, Mask.emphasis, high, UInt8.toNat_toUInt16]

/-- Grey and the first bit of the emphasis, with a map that turns the colours round. -/
example : ((((Palette.new.write 0x3F02 1).setMap (some (.ofFn fun i => UInt8.ofNat (63 - i)))).setMask
    ⟨0x21⟩).output 2).toNat = 0x70 := by decide +kernel

theorem write_map (address : Nat) (value : UInt8) (p : Palette) : (p.write address value).map = p.map := by
  unfold write
  dsimp only
  split <;> rfl

end Palette

namespace Screen

variable {s t : Screen}

/-- Every pixel is the one before, or a colour of nine bits. -/
def Under (s t : Screen) : Prop := ∀ i : Nat, t.pixels[i]? = s.pixels[i]?
  ∨ ∃ color : UInt16, color.toNat < 512 ∧ t.pixels[i]? = some color

theorem Under.refl (s : Screen) : s.Under s := fun _ => .inl rfl

theorem Under.draw (h : s.Under t) (x y : Nat) {color : UInt16} (low : color.toNat < 512) :
    s.Under (t.draw x y color) := by
  intro i
  rw [Screen.draw, Vector.getElem?_setIfInBounds]
  split
  · split
    · exact .inr ⟨color, low, rfl⟩
    · next outside =>
      have none : t.pixels[i]? = none := Vector.getElem?_eq_none (by omega)
      rw [← none]
      exact h i
  · exact h i

theorem Under.inks (h : s.Under t) {l : List Ink} (low : ∀ i ∈ l, i.color.toNat < 512) :
    s.Under (t.inks l) := by
  induction l generalizing t with
  | nil => exact h
  | cons i rest ih =>
    rw [List.forall_mem_cons] at low
    exact ih (h.draw i.x i.y low.1) low.2

end Screen

namespace Circuit

variable {κ : Type} {c : Circuit κ}

theorem Derived.output_toNat (h : c.Derived) (i : Nat) : (c.palette.output i).toNat
    = Palette.shade c.palette.map c.registers.mask (c.palette.entries.load (Ports.entry i)) :=
  h.sound.output_toNat h.coloring h.emphasis i

theorem Derived.output_lt (h : c.Derived) (i : Nat) : (c.palette.output i).toNat < 512 := by
  rw [h.output_toNat]
  exact Palette.shade_lt _ _ _

/-- No dot draws more than nine bits. -/
theorem Derived.inks_lt (h : c.Derived) (line : Line) (dot : Nat) :
    ∀ i ∈ c.inks line dot, i.color.toNat < 512 := by
  intro i hi
  obtain ⟨_, -, rfl⟩ := List.mem_map.mp hi
  exact h.output_lt _

end Circuit

namespace Machine

variable {κ : Type} {m : Machine κ}

/-- What is kept is right, nothing but colours of nine bits was drawn over a screen, and no dot so far had
another ink. -/
structure Tinted [Cartridge κ] (s : Screen) (past : List (Moment κ)) (m : Machine κ) : Prop where
  derived : m.circuit.Derived
  under : s.Under m.circuit.screen
  inks : ∀ x ∈ past, ∀ ink ∈ x.before.circuit.inks x.line x.dot, ink.color.toNat < 512

theorem reset_screen (kind : ResetKind) (m : Machine κ) :
    (m.reset kind).circuit.screen = m.circuit.screen := by
  cases kind <;> rfl

theorem reset_installed (kind : ResetKind) (m : Machine κ) :
    (m.reset kind).circuit.palette.map = m.circuit.palette.map := by
  cases kind with
  | cold => exact (Palette.setMask_keeps _ _).2
  | soft => exact (Palette.setMask_keeps _ _).2

theorem restore_screen (chunks : List Snapshot.Chunk) (m : Machine κ) :
    (m.restore chunks).1.circuit.screen = m.circuit.screen := by
  have applied : ((m.reset .cold).applyChunks chunks).1.circuit.screen = m.circuit.screen :=
    applyChunks_keeps (P := fun n => n.circuit.screen = m.circuit.screen)
      (fun n part kept => by cases part <;> exact kept) chunks (m.reset_screen .cold)
  exact applied

theorem restore_installed (chunks : List Snapshot.Chunk) (m : Machine κ) :
    (m.restore chunks).1.circuit.palette.map = m.circuit.palette.map := by
  have applied : ((m.reset .cold).applyChunks chunks).1.circuit.palette.map = m.circuit.palette.map :=
    applyChunks_keeps (P := fun n => n.circuit.palette.map = m.circuit.palette.map)
      (fun n part kept => by cases part <;> exact kept) chunks (m.reset_installed .cold)
  exact (Palette.setMask_keeps _ _).2.trans applied

variable [Cartridge κ]

theorem tinted_telling (s : Screen) : Telling (Tinted (κ := κ) s) where
  dot {_ n line dot} h _ := by
    have low := h.derived.inks_lt line dot
    refine ⟨h.derived.of_settings (step_settings line dot n), ?_, List.forall_mem_cons.mpr ⟨low, h.inks⟩⟩
    rw [step_screen]
    exact h.under.inks low
  blank {_ n} target h _ := by
    refine ⟨h.derived.of_settings (passBlank_settings target n), ?_, h.inks⟩
    rw [passBlank_screen]
    exact h.under
  served _ h := ⟨h.derived, h.under, h.inks⟩
  latched byte h := ⟨setLines_derived h.derived byte, h.under, h.inks⟩
  looked {_ n} register cycle h := by
    refine ⟨readRegister_derived h.derived register cycle, ?_, h.inks⟩
    rw [(readRegister_still register cycle n).circuit.screen]
    exact h.under
  written {_ n} register byte cycle h := by
    refine ⟨writeRegister_derived h.derived register byte cycle, ?_, h.inks⟩
    rw [(writeRegister_still register byte cycle n).circuit.screen]
    exact h.under

theorem Tinted.act {s : Screen} {past : List (Moment κ)} (h : m.Tinted s past) (a : Act) :
    (m.act a).Tinted s ((m.trailOfAct a).reverse ++ past) :=
  (tinted_telling s).act
    (fun _ n hn => ⟨by rw [openFrame_circuit]; exact hn.derived, by rw [openFrame_circuit]; exact hn.under,
      hn.inks⟩)
    (fun _ _ hn => ⟨hn.derived, hn.under, hn.inks⟩) h a

theorem Reachable.tinted (hm : m.Reachable) {s : Screen} (under : s.Under m.circuit.screen) :
    m.Tinted s [] := ⟨hm.derived, under, List.forall_mem_nil _⟩

/-- Every dot of a session draws colours of nine bits. -/
theorem trail_inks (hm : m.Reachable) (acts : List Act) : ∀ x ∈ trail acts m,
    ∀ ink ∈ x.before.circuit.inks x.line x.dot, ink.color.toNat < 512 := by
  induction acts generalizing m with
  | nil => exact List.forall_mem_nil _
  | cons a rest ih =>
    have first := ((hm.tinted (.refl _)).act a).inks
    rw [trail, List.forall_mem_append]
    refine ⟨fun x hx => first x ?_, ih (hm.act a)⟩
    exact List.mem_append_left _ (List.mem_reverse.mpr hx)

/-- Only a screen is exchanged for what was drawn. -/
theorem deed_under (hm : m.Reachable) {s : Screen} (h : s.Under m.circuit.screen) {d : Deed κ}
    (own : ∀ given, d ≠ .swap given) : s.Under (m.deed d).circuit.screen := by
  cases d with
  | act a => exact ((hm.tinted h).act a).under
  | reset kind =>
    rw [deed, reset_screen]
    exact h
  | load data =>
    obtain same | ⟨chunks, restored⟩ := m.deed_load data
    · rwa [same]
    · rwa [restored, restore_screen]
  | swap given => exact absurd rfl (own given)
  | recolor map =>
    simp only [deed, setColorMap, withCircuit]
    exact h
  | bank | insert => exact h

theorem afterDeeds_under (hm : m.Reachable) {s : Screen} (h : s.Under m.circuit.screen)
    {ds : List (Deed κ)} (own : ∀ d ∈ ds, ∀ given, d ≠ .swap given) :
    s.Under (m.afterDeeds ds).circuit.screen := by
  induction ds generalizing m with
  | nil => exact h
  | cons d rest ih =>
    rw [List.forall_mem_cons] at own
    exact ih (hm.deed d) (deed_under hm h own.1) own.2

theorem readRegister_palette (register : Register) (cycle : Nat) (m : Machine κ) :
    (m.readRegister register cycle).2.circuit.palette = m.circuit.palette := by
  cases register with
  | status => exact congrArg (·.palette) (readStatus_eq cycle m).2
  | data =>
    obtain ⟨buffer, read⟩ := m.readData_settings cycle
    exact congrArg (·.palette) read
  | control | mask | objectAddress | objectData | scroll | address => rfl

theorem writeRegister_installed (register : Register) (byte : UInt8) (cycle : Nat) (m : Machine κ) :
    (m.writeRegister register byte cycle).circuit.palette.map = m.circuit.palette.map := by
  cases register with
  | control => exact congrArg (·.palette.map) (writeControl_circuit byte cycle m)
  | mask => exact (m.circuit.palette.setMask_keeps ⟨byte⟩).2
  | objectData =>
    rw [writeRegister, writeObjectData]
    dsimp only
    split <;> rfl
  | address =>
    rw [writeRegister, writeAddress, withCircuit]
    dsimp only
    split <;> rfl
  | data =>
    obtain same | ⟨address, written⟩ := m.writeData_settings byte cycle
    · exact congrArg (·.palette.map) same
    · exact (congrArg (·.palette.map) written).trans (Palette.write_map address byte _)
  | status | objectAddress | scroll => rfl

theorem installed_telling (held : Option ColorMap) :
    Telling fun (_ : List (Moment κ)) n => n.circuit.palette.map = held where
  dot {_ n line dot} h _ := (congrArg (·.palette.map) (step_settings line dot n)).trans h
  blank {_ n} target h _ := (congrArg (·.palette.map) (passBlank_settings target n)).trans h
  served _ h := h
  latched _ h := h
  looked {_ n} register cycle h := (congrArg (·.map) (readRegister_palette register cycle n)).trans h
  written {_ n} register byte cycle h := (writeRegister_installed register byte cycle n).trans h

theorem deed_installed (m : Machine κ) (d : Deed κ) :
    (m.deed d).circuit.palette.map = d.mapAfter m.circuit.palette.map := by
  cases d with
  | act a =>
    exact act_keeps (installed_telling m.circuit.palette.map)
      (fun n hn => (congrArg (·.palette.map) (openFrame_circuit n)).trans hn) (fun n hn => hn) rfl a
  | reset kind => exact m.reset_installed kind
  | load data =>
    obtain same | ⟨chunks, restored⟩ := m.deed_load data
    · rw [same]
      rfl
    · rw [restored]
      exact m.restore_installed chunks
  | swap given => exact congrArg (·.palette.map) (m.deed_settings (d := .swap given) trivial)
  | recolor map => rfl
  | bank change => rfl
  | insert cartridge => rfl

theorem afterDeeds_installed (ds : List (Deed κ)) (m : Machine κ) :
    (m.afterDeeds ds).circuit.palette.map = ds.foldl Deed.mapAfter m.circuit.palette.map := by
  induction ds generalizing m with
  | nil => rfl
  | cons d rest ih => exact (ih (m.deed d)).trans (congrArg (rest.foldl _) (m.deed_installed d))

/-- After any deeds, what is kept beside the palette and the mask byte follows from them and from the map
installed last. So nothing drawn has more than nine bits: whatever the processor does next, no dot puts
another ink on the screen, and until the screen is exchanged, a pixel that is not as it was is such a
colour. -/
theorem colors_follow (config : Config) (banks : Banks) (cartridge : κ) (host : Host)
    (ds : List (Deed κ)) :
    let m := (new config banks cartridge host).afterDeeds ds
    let c := m.circuit
    (∀ i, (c.palette.output i).toNat
      = Palette.shade (installed ds) c.registers.mask (c.palette.entries.load (Ports.entry i)))
    ∧ c.visibility = c.registers.mask.visibility
    ∧ (∀ i, (c.palette.output i).toNat < 512)
    ∧ (∀ i, c.palette.output (Ports.entry i) = c.palette.output i)
    ∧ (∀ acts, ∀ x ∈ trail acts m,
      x.after.circuit.screen = x.before.circuit.screen.inks (x.before.circuit.inks x.line x.dot)
        ∧ ∀ ink ∈ x.before.circuit.inks x.line x.dot, ink.color.toNat < 512)
    ∧ ∀ more : List (Deed κ), (∀ d ∈ more, ∀ given, d ≠ .swap given) →
      c.screen.Under (m.afterDeeds more).circuit.screen := by
  intro m c
  have reached : m.Reachable := (Reachable.new config banks cartridge host).afterDeeds ds
  have derived : c.Derived := reached.derived
  have fresh : (new config banks cartridge host).circuit.palette.map = none := reset_installed .cold _
  have map : c.palette.map = installed ds :=
    (afterDeeds_installed ds _).trans (congrArg (ds.foldl Deed.mapAfter) fresh)
  refine ⟨fun i => ?output, derived.visibility, derived.output_lt, fun i => ?folded, fun acts x hx => ?inks,
    fun more own => afterDeeds_under reached (.refl _) own⟩
  case output =>
    rw [← map]
    exact derived.output_toNat i
  case folded =>
    apply UInt16.toNat_inj.mp
    rw [derived.output_toNat, derived.output_toNat, Ports.entry_eq_fold, Ports.entry_eq_fold,
      Palette.fold_fold]
  case inks => exact ⟨step_screen x.line x.dot x.before, trail_inks reached acts x hx⟩

end Machine

end PictureUnit
