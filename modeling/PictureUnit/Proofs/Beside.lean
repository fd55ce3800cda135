import PictureUnit.Proofs.Hooks
import PictureUnit.Proofs.Dots

/-!
# Circuits side by side

The cartridge sees what a circuit does with the bus, but neither what the search found, nor the
strips, nor the picture, nor the two flags that come from them. Circuits that differ in no more than
that put the same addresses on the bus and read and write the same cells, as long as the object whose row
is fetched is the same.
-/

set_option autoImplicit false

namespace PictureUnit

/-- Related cartridges answer alike, and the same call leaves them related. -/
structure Cartridge.Coupling {κ : Type} [Cartridge κ] (Q : κ → κ → Prop) : Prop where
  activeStart {k l : κ} (h : Q k l) (line : Line) (rendering : Bool) (banks : Banks) :
    (Cartridge.activeStart line rendering banks l).1 = (Cartridge.activeStart line rendering banks k).1
      ∧ Q (Cartridge.activeStart line rendering banks k).2 (Cartridge.activeStart line rendering banks l).2
  blankStart {k l : κ} (h : Q k l) (line : Line) (rendering : Bool) (banks : Banks) :
    (Cartridge.blankStart line rendering banks l).1 = (Cartridge.blankStart line rendering banks k).1
      ∧ Q (Cartridge.blankStart line rendering banks k).2 (Cartridge.blankStart line rendering banks l).2
  observe {k l : κ} (h : Q k l) (address cycle : Nat) :
    Q (Cartridge.observe address cycle k) (Cartridge.observe address cycle l)
  readPattern {k l : κ} (h : Q k l) (address : Nat) :
    (Cartridge.readPattern address l).1 = (Cartridge.readPattern address k).1
      ∧ Q (Cartridge.readPattern address k).2 (Cartridge.readPattern address l).2
  writePattern {k l : κ} (h : Q k l) (address : Nat) (byte : UInt8) :
    Q (Cartridge.writePattern address byte k) (Cartridge.writePattern address byte l)
  readName {k l : κ} (h : Q k l) (address : Nat) :
    (Cartridge.readName address l).1 = (Cartridge.readName address k).1
      ∧ Q (Cartridge.readName address k).2 (Cartridge.readName address l).2
  writeName {k l : κ} (h : Q k l) (address : Nat) (byte : UInt8) :
    Q (Cartridge.writeName address byte k) (Cartridge.writeName address byte l)

/-- A relation that counts how many reads the second cartridge alone has answered. -/
def Cartridge.Tolerant {κ : Type} [Cartridge κ] (Q : Nat → κ → κ → Prop) : Prop :=
  ∀ ⦃n : Nat⦄ ⦃k l : κ⦄, Q n k l → ∀ address, Q (n + 1) k (Cartridge.readPattern address l).2

/-- What the bus does not show of a circuit, and the cartridge. -/
structure Hidden (κ : Type) where
  overflow : Bool
  zeroHit : Bool
  lines : UInt8
  evaluation : Evaluation
  strips : Strips
  screen : Screen
  cartridge : κ

namespace Circuit

variable {κ : Type}

def hidden (c : Circuit κ) : Hidden κ where
  overflow := c.registers.status.overflow
  zeroHit := c.registers.status.zeroHit
  lines := c.registers.lines
  evaluation := c.evaluation
  strips := c.strips
  screen := c.screen
  cartridge := c.cartridge

/-- The same circuit with something else hidden. -/
def concealing (u : Hidden κ) (c : Circuit κ) : Circuit κ :=
  { c with
    registers :=
      { c.registers with
        status := ⟨u.overflow, u.zeroHit, c.registers.status.vblank⟩
        lines := u.lines }
    evaluation := u.evaluation
    strips := u.strips
    screen := u.screen
    cartridge := u.cartridge }

/-- Circuits that differ only in what is hidden, with related cartridges. -/
def Beside (Q : κ → κ → Prop) (c d : Circuit κ) : Prop :=
  ∃ u, d = c.concealing u ∧ Q c.cartridge u.cartridge

/-- Only what is hidden changes from one circuit to the other. -/
def Apart (c d : Circuit κ) : Prop := d = c.concealing d.hidden

theorem Apart.refl (c : Circuit κ) : c.Apart c := rfl

theorem Apart.trans {c d e : Circuit κ} (h : c.Apart d) (h' : d.Apart e) : c.Apart e := by
  rw [Apart, h', h]
  rfl

theorem Apart.banks {c d : Circuit κ} (h : c.Apart d) : d.banks = c.banks := by
  rw [h]
  rfl

variable {Q : κ → κ → Prop} {c d : Circuit κ}

theorem Beside.cartridge (h : c.Beside Q d) : Q c.cartridge d.cartridge := by
  obtain ⟨u, rfl, q⟩ := h
  exact q

/-- Both circuits may change what they hide. -/
theorem Beside.change (h : c.Beside Q d) {R : κ → κ → Prop} {c' d' : Circuit κ} (hc : c.Apart c')
    (hd : d.Apart d') (q : R c'.cartridge d'.cartridge) : c'.Beside R d' := by
  obtain ⟨u, rfl, -⟩ := h
  refine ⟨d'.hidden, ?_, q⟩
  rw [hc, hd]
  rfl

theorem Beside.rendering (h : c.Beside Q d) :
    d.registers.mask.rendering = c.registers.mask.rendering := by
  obtain ⟨u, rfl, -⟩ := h
  rfl

/-- What puts an address on the bus is the same in both circuits. -/
theorem Beside.front (h : c.Beside Q d) : d.registers.scroll = c.registers.scroll ∧ d.bus = c.bus
    ∧ d.registers.control = c.registers.control ∧ d.background = c.background := by
  obtain ⟨u, rfl, -⟩ := h
  exact ⟨rfl, rfl, rfl, rfl⟩

theorem Beside.withScroll (h : c.Beside Q d) (f : Scroll.Latch → Scroll.Latch) :
    (c.withScroll f).Beside Q (d.withScroll f) := by
  obtain ⟨u, rfl, q⟩ := h
  exact ⟨u, rfl, q⟩

theorem Beside.withBackground (h : c.Beside Q d) (f : Background → Background) :
    Beside Q { c with background := f c.background } { d with background := f d.background } := by
  obtain ⟨u, rfl, q⟩ := h
  exact ⟨u, rfl, q⟩

/-! Steps of a dot that change only what is hidden. -/

theorem draw_apart (x y entry : Nat) (c : Circuit κ) : c.Apart (c.draw x y entry) := rfl

theorem drawPixel_apart (x y : Nat) (c : Circuit κ) : c.Apart (c.drawPixel x y) := by
  unfold drawPixel drawRendered
  split
  · dsimp only
    split
    · rfl
    · exact draw_apart _ _ _ c
  · exact draw_apart _ _ _ c

theorem drawDot_apart (line : Line) (dot : Nat) (c : Circuit κ) : c.Apart (c.drawDot line dot) := by
  unfold drawDot
  split
  · exact .refl c
  · split
    · exact drawPixel_apart _ _ c
    · exact .refl c

theorem concludeSearch_apart (result : Evaluation × Bool) (c : Circuit κ) :
    c.Apart (c.concludeSearch result) := by
  unfold concludeSearch
  dsimp only
  split <;> rfl

theorem evaluate_apart (y dot : Nat) (limit : SpriteLimit) (c : Circuit κ) :
    c.Apart (c.evaluate y dot limit) := by
  have begun : c.Apart (if dot = 65 then
      { c with evaluation := c.evaluation.start c.registers.objectAddress } else c) := by
    split <;> rfl
  unfold evaluate
  split
  · exact .refl c
  split
  · rfl
  dsimp only
  split
  · exact begun.trans (concludeSearch_apart _ _)
  split
  · exact begun.trans (concludeSearch_apart _ _)
  · exact begun

theorem searching_apart (line : Line) (dot : Nat) (limit : SpriteLimit) (c : Circuit κ) :
    c.Apart (c.searching line dot limit) := by
  cases line with
  | preRender => exact .refl c
  | visible y => exact evaluate_apart _ _ _ c

theorem prepareStrips_apart (line : Line) (c : Circuit κ) : c.Apart (c.prepareStrips line) := rfl

theorem latchSlot_apart (dot : Nat) (c : Circuit κ) : c.Apart (c.latchSlot dot) := by
  simp only [Apart, latchSlot, concealing, Circuit.hidden]

theorem Beside.clearFlags (h : c.Beside Q d) (line : Line) (dot : Nat) :
    (c.clearFlags line dot).Beside Q (d.clearFlags line dot) := by
  unfold Circuit.clearFlags
  split
  · obtain ⟨u, rfl, q⟩ := h
    exact ⟨{ u with overflow := false, zeroHit := false }, rfl, q⟩
  · exact h

theorem Beside.drawDot (h : c.Beside Q d) (line : Line) (dot : Nat) :
    (c.drawDot line dot).Beside Q (d.drawDot line dot) := by
  refine h.change (drawDot_apart line dot c) (drawDot_apart line dot d) ?_
  rw [drawDot_cartridge, drawDot_cartridge]
  exact h.cartridge

/-- The search goes on, and is handed over to the fetches. -/
theorem Beside.handed (h : c.Beside Q d) (line : Line) (dot : Nat) (limit limit' : SpriteLimit) :
    (if dot = objectFetchStart then (c.searching line dot limit).prepareStrips line
      else c.searching line dot limit).Beside Q
    (if dot = objectFetchStart then (d.searching line dot limit').prepareStrips line
      else d.searching line dot limit') := by
  have own := searching_apart line dot limit c
  have other := searching_apart line dot limit' d
  have q : Q (c.searching line dot limit).cartridge (d.searching line dot limit').cartridge := by
    rw [searching_cartridge, searching_cartridge]
    exact h.cartridge
  split
  · exact h.change (own.trans (prepareStrips_apart line _)) (other.trans (prepareStrips_apart line _)) q
  · exact h.change own other q

theorem Beside.rewindAddress (h : c.Beside Q d) (line : Line) (dot : Nat) :
    (c.rewindAddress line dot).Beside Q (d.rewindAddress line dot) := by
  unfold Circuit.rewindAddress
  split
  · exact h.withScroll _
  split
  · exact h.withScroll _
  · exact h

theorem Beside.clearObjectAddress (h : c.Beside Q d) (dot : Nat) :
    (c.clearObjectAddress dot).Beside Q (d.clearObjectAddress dot) := by
  unfold Circuit.clearObjectAddress
  split
  · obtain ⟨u, rfl, q⟩ := h
    exact ⟨u, rfl, q⟩
  · exact h

variable [Cartridge κ]

open Cartridge (Coupling)

theorem Beside.activeStart (co : Coupling Q) (h : c.Beside Q d) (line : Line) :
    (c.activeStart line).Beside Q (d.activeStart line) := by
  obtain ⟨u, rfl, q⟩ := h
  obtain ⟨banks, q⟩ := co.activeStart q line c.registers.mask.rendering c.banks
  refine ⟨{ u with cartridge :=
    (Cartridge.activeStart line c.registers.mask.rendering c.banks u.cartridge).2 }, ?_, q⟩
  simp only [Circuit.activeStart, concealing, banks]

theorem Beside.blankStart (co : Coupling Q) (h : c.Beside Q d) (line : Line) :
    (c.blankStart line).Beside Q (d.blankStart line) := by
  obtain ⟨u, rfl, q⟩ := h
  obtain ⟨banks, q⟩ := co.blankStart q line c.registers.mask.rendering c.banks
  refine ⟨{ u with cartridge :=
    (Cartridge.blankStart line c.registers.mask.rendering c.banks u.cartridge).2 }, ?_, q⟩
  simp only [Circuit.blankStart, concealing, banks]

theorem Beside.expose (co : Coupling Q) (h : c.Beside Q d) (address cycle : Nat) :
    (c.expose address cycle).Beside Q (d.expose address cycle) := by
  obtain ⟨u, rfl, q⟩ := h
  exact ⟨{ u with cartridge := Cartridge.observe address cycle u.cartridge }, rfl,
    co.observe q address cycle⟩

theorem Beside.drive (co : Coupling Q) (h : c.Beside Q d) (address cycle : Nat) :
    (c.drive address cycle).Beside Q (d.drive address cycle) := by
  obtain ⟨u, rfl, q⟩ := h
  exact ⟨{ u with cartridge := Cartridge.observe address cycle u.cartridge }, rfl,
    co.observe q address cycle⟩

theorem Beside.readPattern (co : Coupling Q) (h : c.Beside Q d) (address : Nat) :
    (d.readPattern address).1 = (c.readPattern address).1
      ∧ (c.readPattern address).2.Beside Q (d.readPattern address).2 := by
  obtain ⟨u, rfl, q⟩ := h
  have banks : (c.concealing u).banks = c.banks := rfl
  unfold Circuit.readPattern
  rw [banks]
  cases c.banks.patternCell address with
  | cartridge =>
    obtain ⟨byte, q⟩ := co.readPattern q (address % patternSpace)
    exact ⟨byte, { u with cartridge := _ }, rfl, q⟩
  | internal | ram | rom | missing => exact ⟨rfl, u, rfl, q⟩

theorem Beside.readName (co : Coupling Q) (h : c.Beside Q d) (address : Nat) :
    (d.readName address).1 = (c.readName address).1
      ∧ (c.readName address).2.Beside Q (d.readName address).2 := by
  obtain ⟨u, rfl, q⟩ := h
  have banks : (c.concealing u).banks = c.banks := rfl
  unfold Circuit.readName
  rw [banks]
  cases c.banks.nameCell address with
  | cartridge =>
    obtain ⟨byte, q⟩ := co.readName q address
    exact ⟨byte, { u with cartridge := _ }, rfl, q⟩
  | internal | ram | rom | missing => exact ⟨rfl, u, rfl, q⟩

theorem Beside.readVideo (co : Coupling Q) (h : c.Beside Q d) (address : Nat) :
    (d.readVideo address).1 = (c.readVideo address).1
      ∧ (c.readVideo address).2.Beside Q (d.readVideo address).2 := by
  unfold Circuit.readVideo
  split
  · exact h.readPattern co address
  · exact h.readName co address

theorem Beside.writePattern (co : Coupling Q) (h : c.Beside Q d) (address : Nat) (byte : UInt8) :
    (c.writePattern address byte).Beside Q (d.writePattern address byte) := by
  obtain ⟨u, rfl, q⟩ := h
  have banks : (c.concealing u).banks = c.banks := rfl
  unfold Circuit.writePattern
  rw [banks]
  cases c.banks.patternCell address with
  | cartridge => exact ⟨{ u with cartridge := _ }, rfl, co.writePattern q _ byte⟩
  | internal | ram | rom | missing => exact ⟨u, rfl, q⟩

theorem Beside.writeName (co : Coupling Q) (h : c.Beside Q d) (address : Nat) (byte : UInt8) :
    (c.writeName address byte).Beside Q (d.writeName address byte) := by
  obtain ⟨u, rfl, q⟩ := h
  have banks : (c.concealing u).banks = c.banks := rfl
  unfold Circuit.writeName
  rw [banks]
  cases c.banks.nameCell address with
  | cartridge => exact ⟨{ u with cartridge := _ }, rfl, co.writeName q _ byte⟩
  | internal | ram | rom | missing => exact ⟨u, rfl, q⟩

theorem Beside.writeVideo (co : Coupling Q) (h : c.Beside Q d) (address : Nat) (byte : UInt8) :
    (c.writeVideo address byte).Beside Q (d.writeVideo address byte) := by
  unfold Circuit.writeVideo
  split
  · exact h.writePattern co address byte
  · exact h.writeName co address byte

theorem Beside.fetchTile (co : Coupling Q) (h : c.Beside Q d) (phase : Phase) (dot cycle : Nat) :
    (c.fetchTile phase dot cycle).Beside Q (d.fetchTile phase dot cycle) := by
  obtain ⟨scroll, bus, control, background⟩ := h.front
  have name := h.readName co c.bus
  have pattern := h.readPattern co c.bus
  cases phase with
  | openName | openAttributes | openLow | openHigh =>
    simp only [Circuit.fetchTile, scroll, bus, control, background]
    exact h.drive co _ cycle
  | name | attributes =>
    simp only [Circuit.fetchTile, scroll, bus, name.1]
    exact name.2.withBackground _
  | low =>
    simp only [Circuit.fetchTile, bus, pattern.1]
    exact pattern.2.withBackground _
  | high =>
    simp only [Circuit.fetchTile, bus, pattern.1]
    exact (pattern.2.withBackground fun b => (b.latchHigh _).keep dot).withScroll _

/-- The object fetches drive the same addresses when the object is the same. -/
theorem Beside.fetchObject (co : Coupling Q) (h : c.Beside Q d) (line : Line) (slot : Nat)
    {phase : Phase} (object : phase = .openLow → d.strips.object = c.strips.object) (cycle : Nat) :
    (c.fetchObject line slot phase cycle).Beside Q (d.fetchObject line slot phase cycle) := by
  obtain ⟨scroll, bus, control, -⟩ := h.front
  have name := h.readName co c.bus
  have pattern := h.readPattern co c.bus
  cases phase with
  | openName =>
    have selected : Beside Q { c with strips := c.strips.select slot c.evaluation.secondary }
        { d with strips := d.strips.select slot d.evaluation.secondary } :=
      h.change rfl rfl h.cartridge
    simp only [Circuit.fetchObject, scroll]
    exact selected.drive co _ cycle
  | openLow =>
    simp only [Circuit.fetchObject, control, object rfl]
    exact h.drive co _ cycle
  | openAttributes | openHigh =>
    simp only [Circuit.fetchObject, scroll, bus]
    exact h.drive co _ cycle
  | name | attributes =>
    simp only [Circuit.fetchObject, bus]
    exact name.2
  | low | high =>
    simp only [Circuit.fetchObject, bus]
    exact pattern.2.change rfl rfl pattern.2.cartridge

end Circuit

end PictureUnit
