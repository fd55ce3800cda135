import PictureUnit.Proofs.Alone
import PictureUnit.Proofs.Secondary

/-!
# What the object fetches decode

The fetches of a line turn the objects that the search has found into strips, one for each, in the order
in which they were found. What a strip shows is spelled out by the bytes of its object and the two planes
of the row that the line cuts out of its pattern.
-/

set_option autoImplicit false

namespace PictureUnit

/-- Where a row of an object's pattern begins. Tall objects go on in the tile after an even one. -/
def Object.rowAddress (c : Control) (row : Nat) (o : Object) : Nat :=
  if c.objectHeight = 8 then c.objectTable + 16 * o.tile.toNat + row
  else
    let tile := (o.tile &&& 0xFE).toNat + if 8 ≤ row then 1 else 0
    Control.patternTable (o.tile.toNat.testBit 0) + 16 * tile + row % 8

/-- The palette entry of a column of an object on a line, or zero where it is transparent. -/
def Object.entry (b : Banks) (c : Control) (line column : Nat) (o : Object) : Nat :=
  let down := line - o.y.toNat
  let row := if o.attributes.toNat.testBit 7 then c.objectHeight - 1 - down else down
  let low := b.load (b.patternCell (o.rowAddress c row))
  let high := b.load (b.patternCell (o.rowAddress c row + 8))
  let bit := if o.attributes.toNat.testBit 6 then column else 7 - column
  let color := (low.toNat.testBit bit).toNat + 2 * (high.toNat.testBit bit).toNat
  if color = 0 then 0 else 0x10 ||| (o.attributes.toNat % 4 * 4) ||| color

namespace Scene

end Scene

namespace Scene

end Scene

/-- A search that is over left objects in range. -/
theorem Evaluation.Sought.covers {i : Inputs} {s : Nat} {e : Evaluation} (h : Sought i s e) {slot : Nat}
    (inside : slot < e.found) : (e.secondary.load (4 * slot)).toNat ≤ i.line
      ∧ i.line - (e.secondary.load (4 * slot)).toNat < i.height := by
  have there : slot < (i.covering s objectCount).length := by
    have := h.found
    omega
  have first := h.copied slot _ inside (List.getElem?_eq_getElem there) 0 (by decide)
  rw [Nat.add_zero, Nat.add_zero, Nat.mul_comm] at first
  rw [first]
  exact (Inputs.mem_covering_iff.mp (List.getElem_mem there)).2

namespace Machine

variable {κ : Type} [Cartridge κ] {m : Machine κ} {line : Line}

theorem sweeps_slots (place : m.clock.position = .raster line 257) : m.Sweeps line 257 321 where
  place := place
  start := .inr (.inl rfl)
  reach d lower upper := reaches_of_le place ⟨lower, by omega⟩
  hooks := by decide

/-- What the object fetches of a line expect, and the scene they fetch from. -/
theorem later_list (came : m.Reachable) (place : m.clock.position = .raster line 257)
    (on : m.rendering = true) (own : (m.step line 257).circuit.banks.OwnPatterns) :
    let w := m.circuit.alone.works.withBanks (m.step line 257).circuit.banks
    let strips := (w.prepare line).strips
    (m.later 64).circuit.strips.list = (List.range strips.pending).map fun slot =>
      (w.scene m.config.limit).stripOf line (Strips.objectIn m.circuit.evaluation.secondary slot)
        (slot == 0 && strips.zeroInRange) := by
  intro w strips
  have passing := (sweeps_slots place).passing on fun d after before =>
    Fetch.own_slots own ⟨by omega, by omega⟩
  have few : strips.pending ≤ objectCount := by
    obtain ⟨past, told⟩ := came.chronicle
    have found := told.roomy.found
    have room := Evaluation.perLine_le m.config.limit
    cases line with
    | preRender => exact Nat.zero_le _
    | visible y => exact found.trans room
  have first : m.worksAt line 257 257 = w := worksAt_first m line 257
  have list := passing.list (by rw [first]; exact few)
  rw [passing.strips, (Scene.fetchSlots_pending _ _ _ _ _).2, ← passing.strips, first] at list
  exact list

/-- A line that is rendered from before the search on has its objects when the fetches begin. -/
theorem later_sought (onTime : m.OnTime) (on : m.rendering = true) (limit : m.config.limit = .hardware)
    {y : Fin screenHeight} {d : Nat} (place : m.clock.position = .raster (.visible y) d)
    (early : d ≤ 65) : (m.later (257 - d)).circuit.evaluation.Sought
      ⟨m.circuit.objects, y.val, m.circuit.registers.control.objectHeight, .hardware⟩
      ((m.later (65 - d)).circuit.registers.objectAddress.toNat / 4) := by
  obtain ⟨past, story, all⟩ := story_later (k := 256 - d) place (by omega)
  have same := later_settings (256 - d) m
  have reaches := reaches_of_le place (e := 256) ⟨by omega, by decide⟩
  have searches (moment : Moment κ) (mem : moment ∈ past) :
      moment.Searches m.circuit.objects m.circuit.registers.control.objectHeight := by
    obtain ⟨j, -, rfl⟩ := all moment mem
    have kept := later_settings j m
    exact ⟨(congrArg (·.mask.rendering) kept).trans on, congrArg Settings.objects kept,
      congrArg (·.control.objectHeight) kept⟩
  have drawn (moment : Moment κ) (mem : moment ∈ past) : moment.line = .visible y := by
    obtain ⟨j, -, rfl⟩ := all moment mem
    rfl
  cases story.seeking onTime limit place early _ _ drawn (fun moment mem _ _ => searches moment mem)
    256 reaches.place with
  | before hd => omega
  | after hd => omega
  | @inside opening found hd mem start ends =>
    have next := ends.onDot rfl (by decide) (m.later (256 - d)).circuit.registers.objectAddress
    have inputs : (m.later (256 - d)).circuit.searchInputs y.val (m.later (256 - d)).config.limit
        = ⟨m.circuit.objects, y.val, m.circuit.registers.control.objectHeight, .hardware⟩ := by
      rw [later_config, limit, Circuit.searchInputs]
      exact congrArg (fun s : Settings =>
        (⟨s.objects, y.val, s.control.objectHeight, .hardware⟩ : Evaluation.Inputs)) same
    have rendering : (m.later (256 - d)).rendering = true := (advanceTo_rendering _ m).trans on
    rw [← inputs, ← Circuit.dot_evaluation rendering y (by decide), ← step_circuit, ← reaches.later_succ,
      inputs] at next
    have first : opening.firstObject
        = (m.later (65 - d)).circuit.registers.objectAddress.toNat / 4 := by
      obtain ⟨j, -, rfl⟩ := all opening mem
      have begun : j = 65 - d := by
        change d + j = 65 at start
        omega
      rw [begun]
      rfl
    rw [← first, show 257 - d = 256 - d + 1 by omega]
    exact (next.sought opening.firstObject_lt).1

/-- Line 0 shows eight of the objects that lie at the top of the screen. -/
theorem Dawn.sought {m : Machine (Option Unit)} (h : m.Dawn) :
    (m.later 256).circuit.evaluation.Sought ⟨.filled 256 0, 0, 8, .hardware⟩ 0
      ∧ (m.later 256).circuit.evaluation.found = 8 := by
  have sought := later_sought h.onTime h.on h.limit h.place (by decide)
  rw [show 65 - 1 = 64 from rfl, h.later_objectAddress (by decide), h.objects, h.control] at sought
  refine ⟨sought, ?_⟩
  rw [sought.found, show UInt8.toNat 0 / 4 = 0 from rfl,
    Evaluation.length_covering_filled rfl (by decide) (by decide)]
  rfl

end Machine

end PictureUnit
