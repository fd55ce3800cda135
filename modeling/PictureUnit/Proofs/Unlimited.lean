import PictureUnit.Proofs.Alongside
import PictureUnit.Proofs.Rendered

/-!
# Lifting the limit

Without the limit of eight objects on a line the chip reads the rows of all others too, and puts no address
on the bus for that. What the cartridge is told and asked for stays the same, in the same order, but
for one thing: a row that lies in a slot of the cartridge is read from the cartridge. All of this holds
while rendering is switched on at no moment at which a line is under way.
-/

set_option autoImplicit false

namespace PictureUnit

open Cartridge (Coupling Tolerant)

variable {κ : Type} [Cartridge κ]

def Cartridge.Call.readsPattern : Cartridge.Call → Bool
  | .readPattern _ _ => true
  | .activeStart _ _ | .blankStart _ _ | .observe _ _ | .writePattern _ _ | .readName _ _
  | .writeName _ _ => false

/-- Equal cartridges stay equal. -/
theorem Cartridge.coupling_eq : Coupling (κ := κ) (· = ·) where
  activeStart h _ _ _ := by
    cases h
    exact ⟨rfl, rfl⟩
  blankStart h _ _ _ := by
    cases h
    exact ⟨rfl, rfl⟩
  observe h _ _ := by rw [h]
  readPattern h _ := by
    cases h
    exact ⟨rfl, rfl⟩
  writePattern h _ _ := by rw [h]
  readName h _ := by
    cases h
    exact ⟨rfl, rfl⟩
  writeName h _ _ := by rw [h]

namespace Recorded

/-- The second record has all calls of the first one in their order, and besides them only `n` reads
of patterns. -/
structure Thins (n : Nat) (r s : Recorded κ) : Prop where
  inner : s.inner = r.inner
  kept : r.calls.Sublist s.calls
  others : s.calls.filter (fun c => !c.readsPattern) = r.calls.filter fun c => !c.readsPattern
  count : s.calls.length = r.calls.length + n

variable {n : Nat} {r s : Recorded κ}

omit [Cartridge κ] in
theorem Thins.refl (r : Recorded κ) : Thins 0 r r := ⟨rfl, .refl _, rfl, rfl⟩

omit [Cartridge κ] in
theorem Thins.call (h : Thins n r s) (k : κ) (c : Cartridge.Call) :
    Thins n ⟨k, c :: r.calls⟩ ⟨k, c :: s.calls⟩ := by
  refine ⟨rfl, h.kept.cons_cons c, ?_, ?_⟩
  · rw [List.filter_cons, List.filter_cons, h.others]
  · rw [List.length_cons, List.length_cons, h.count]
    omega

theorem coupling_thins (n : Nat) : Coupling (κ := Recorded κ) (Thins n) where
  activeStart {r s} h line rendering banks := by
    obtain ⟨k, calls⟩ := s
    cases h.inner
    exact ⟨rfl, h.call _ _⟩
  blankStart {r s} h line rendering banks := by
    obtain ⟨k, calls⟩ := s
    cases h.inner
    exact ⟨rfl, h.call _ _⟩
  observe {r s} h address cycle := by
    obtain ⟨k, calls⟩ := s
    cases h.inner
    exact h.call _ _
  readPattern {r s} h address := by
    obtain ⟨k, calls⟩ := s
    cases h.inner
    exact ⟨rfl, h.call _ _⟩
  writePattern {r s} h address byte := by
    obtain ⟨k, calls⟩ := s
    cases h.inner
    exact h.call _ _
  readName {r s} h address := by
    obtain ⟨k, calls⟩ := s
    cases h.inner
    exact ⟨rfl, h.call _ _⟩
  writeName {r s} h address byte := by
    obtain ⟨k, calls⟩ := s
    cases h.inner
    exact h.call _ _

/-- A cartridge that does not change when a pattern is read does not mind being read more often. -/
theorem tolerant_thins (pure : ∀ address (k : κ), (Cartridge.readPattern address k).2 = k) :
    Tolerant (κ := Recorded κ) Thins := by
  intro n r s h address
  exact ⟨(pure address s.inner).trans h.inner, h.kept.cons _, h.others, congrArg (· + 1) h.count⟩

end Recorded

/-! Slots that stay as they are. -/

/-- The cartridge changes no slot. -/
structure Cartridge.Fixed (κ : Type) [Cartridge κ] : Prop where
  activeStart (line : Line) (rendering : Bool) (banks : Banks) (k : κ) :
    (Cartridge.activeStart line rendering banks k).1 = banks
  blankStart (line : Line) (rendering : Bool) (banks : Banks) (k : κ) :
    (Cartridge.blankStart line rendering banks k).1 = banks

namespace Circuit

variable {c d : Circuit κ}

theorem readName_banks (address : Nat) (c : Circuit κ) : (c.readName address).2.banks = c.banks := by
  unfold readName
  split <;> rfl

theorem fetchTile_banks (phase : Phase) (dot cycle : Nat) (c : Circuit κ) :
    (c.fetchTile phase dot cycle).banks = c.banks := by
  have name := readName_banks c.bus c
  have pattern := (readPattern_apart c.bus c).banks
  cases phase with
  | openName | openAttributes | openLow | openHigh => rfl
  | name | attributes => exact name
  | low | high => exact pattern

theorem fetchObject_banks (line : Line) (slot : Nat) (phase : Phase) (cycle : Nat) (c : Circuit κ) :
    (c.fetchObject line slot phase cycle).banks = c.banks := by
  have name := readName_banks c.bus c
  have pattern := (readPattern_apart c.bus c).banks
  cases phase with
  | openName | openAttributes | openLow | openHigh => rfl
  | name | attributes => exact name
  | low | high => exact pattern

theorem fetchExtras_banks (line : Line) (c : Circuit κ) : (c.fetchExtras line).banks = c.banks := by
  refine List.foldlRecOn (motive := fun d : Circuit κ => d.banks = c.banks) _ _ rfl ?_
  exact fun d same slot _ => ((fetchExtra_apart line slot d).banks).trans same

theorem fetch_banks (line : Line) (dot cycle : Nat) (c : Circuit κ) :
    (c.fetch line dot cycle).banks = c.banks := by
  unfold fetch
  cases Fetch.ofDot dot with
  | idle | openUnused => rfl
  | tile phase => exact fetchTile_banks phase dot cycle c
  | unused => exact readName_banks c.bus c
  | object slot phase =>
    have fetched := fetchObject_banks line slot phase cycle c
    dsimp only
    rw [(latchSlot_apart dot _).banks]
    split
    · rw [fetchExtras_banks, fetched]
    · exact fetched

theorem render_banks (line : Line) (dot cycle : Nat) (limit : SpriteLimit) (c : Circuit κ) :
    (c.render line dot cycle limit).banks = c.banks := by
  have rewound (e : Circuit κ) :
      ((e.rewindAddress line dot).clearObjectAddress dot).banks = e.banks := by
    have first := congrArg Works.banks (rewindAddress_works line dot e)
    exact (congrArg Works.banks (clearObjectAddress_works dot (e.rewindAddress line dot))).trans first
  have searched := (searching_apart line dot limit c).banks
  rw [render_eq, rewound, fetch_banks]
  split
  · exact searched
  · exact searched

/-- A dot changes no slot either. -/
theorem dot_banks (fixed : Cartridge.Fixed κ) (line : Line) (dot cycle : Nat) (limit : SpriteLimit)
    (c : Circuit κ) : (c.dot line dot cycle limit).banks = c.banks := by
  have drawn : ((c.clearFlags line dot).drawDot line dot).banks = c.banks :=
    congrArg Works.banks (drawn_works line dot c)
  unfold Circuit.dot
  split
  · exact fixed.activeStart line _ _ _
  · dsimp only
    split
    all_goals split
    all_goals simp only [Circuit.blankStart, fixed.blankStart, render_banks, drawn]

omit [Cartridge κ] in
/-- Nothing strays where no slot is the cartridge's. -/
theorem strayReadsAt_elsewhere (h : ∀ slot, c.banks.pattern slot ≠ .cartridge) (line : Line)
    (dot : Nat) : c.strayReadsAt line dot = 0 := by
  have none : c.strayReads line = 0 := by
    have count : (List.range' 8 (c.strips.pending - 8)).countP (fun slot => c.Strays line slot) = 0 :=
      List.countP_eq_zero.mpr fun slot _ strays => h _ (of_decide_eq_true strays)
    rw [strayReads, count]
  unfold strayReadsAt
  split
  · exact none
  · rfl

end Circuit

namespace Machine

def withLimit (limit : SpriteLimit) (m : Machine κ) : Machine κ :=
  { m with config := { m.config with limit := limit } }

theorem step_banks (fixed : Cartridge.Fixed κ) (line : Line) (dot : Nat) (m : Machine κ) :
    (m.step line dot).circuit.banks = m.circuit.banks := by
  rw [step_circuit, Circuit.dot_banks fixed]

omit [Cartridge κ] in
/-- Machines that differ only in the limit start side by side. -/
theorem alongside_withLimit {Q : κ → κ → Prop} {m : Machine κ}
    (related : Q m.circuit.cartridge m.circuit.cartridge) :
    (m.withLimit .hardware).Alongside Q false (m.withLimit .unlimited) :=
  ⟨⟨m.circuit.hidden, rfl, related⟩, rfl, fun rendered => absurd rendered (by decide)⟩

variable {m o : Machine κ}

/-- A frame that is rendered from its first dot on is steady. -/
theorem frame_steady (opened : m.beginFrame = .ok o) (on : m.rendering = true) :
    Steady false (trail [.opening, .closing] m) := by
  obtain rfl := eq_of_beginFrame opened
  have start : m.openFrame.clock.position = .raster .preRender 0 := openFrame_position m
  have shown : m.openFrame.rendering = true := by rwa [openFrame_rendering]
  rw [trail_frame opened]
  refine steady_of_rendering ?rendered ?first
  case rendered =>
    exact trailTo_keeps (P := fun n => n.rendering = true)
      (fun n line dot _ on => (step_rendering line dot n).trans on) _ shown
  case first =>
    intro x hx underway
    by_cases late : m.openFrame.clock.count < m.openFrame.clock.frameEnd
    · rw [trailTo_raster start late] at hx
      cases hx
      exact absurd underway.1 (Nat.not_lt_zero _)
    · rw [trailTo_of_le (Nat.not_lt.mp late)] at hx
      cases hx

/-- Without slots of the cartridge nothing strays in a frame. -/
theorem frame_strayReads (fixed : Cartridge.Fixed κ) (opened : m.beginFrame = .ok o)
    (elsewhere : ∀ slot, m.circuit.banks.pattern slot ≠ .cartridge) :
    strayReads (trail [.opening, .closing] m) = 0 := by
  obtain rfl := eq_of_beginFrame opened
  rw [trail_frame opened, strayReads, List.sum_eq_zero_iff_forall_eq_nat]
  intro reads counted
  obtain ⟨x, hx, rfl⟩ := List.mem_map.mp counted
  have kept := trailTo_keeps (P := fun n => n.circuit.banks = m.circuit.banks)
    (fun n line dot _ same => (step_banks fixed line dot n).trans same) _
    (congrArg Circuit.banks (openFrame_circuit m)) x hx
  exact Circuit.strayReadsAt_elsewhere (fun slot => kept ▸ elsewhere slot) x.line x.dot

/-- Under a script that switches rendering on at no moment at which a line is under way, lifting the
limit changes nothing for the cartridge but this: a row past the eighth that lies in a slot of the
cartridge asks it for two reads more. -/
theorem calls_withLimit (m : Machine (Recorded κ)) (acts : List Act)
    (steady : Steady false (trail acts (m.withLimit .unlimited))) :
    (strayReads (trail acts (m.withLimit .unlimited)) = 0 →
      (run acts (m.withLimit .unlimited)).circuit.cartridge
        = (run acts (m.withLimit .hardware)).circuit.cartridge)
    ∧ ((∀ address (k : κ), (Cartridge.readPattern address k).2 = k) →
      Recorded.Thins (strayReads (trail acts (m.withLimit .unlimited)))
        (run acts (m.withLimit .hardware)).circuit.cartridge
        (run acts (m.withLimit .unlimited)).circuit.cartridge) := by
  constructor
  · intro none
    have start : (m.withLimit .hardware).Alongside (· = ·) false (m.withLimit .unlimited) :=
      alongside_withLimit rfl
    have ran := start.run (Q := fun _ => (· = ·)) (k := 0) (fun _ => Cartridge.coupling_eq) acts
      ⟨steady, fun some => absurd none some⟩
    exact ran.beside.circuit.cartridge.symm
  · intro pure
    have start : (m.withLimit .hardware).Alongside (Recorded.Thins 0) false (m.withLimit .unlimited) :=
      alongside_withLimit (.refl _)
    have ran := start.run Recorded.coupling_thins acts ⟨steady, fun _ => Recorded.tolerant_thins pure⟩
    have thins := ran.beside.circuit.cartridge
    rwa [Nat.zero_add] at thins

/-- All objects lie on the top lines, and rendering is switched on before the first frame. -/
def crowdedMachine : Machine (Recorded Unit) :=
  ((Machine.new ⟨.ntsc, .hardware⟩ .new ⟨(), []⟩ (.new fun _ => 0)).turn
    ⟨100, fun _ => 0, .write 0x2001 0x18⟩).2

theorem crowdedMachine_eq : crowdedMachine
    = (((Machine.new ⟨.ntsc, .hardware⟩ .new ⟨(), []⟩ (.new fun _ => 0)).meet
      ⟨100, fun _ => 0, .write 0x2001 0x18⟩).setLines 0x18).withCircuit (·.setMask ⟨0x18⟩) :=
  turn_mask rfl (Nat.le_refl _) rfl rfl 100 0x18

/-- In a frame with lines of sixty-four objects the cartridge hears the same with the limit and
without. -/
theorem calls_withLimit_crowded :
    (run [.opening, .closing] (crowdedMachine.withLimit .unlimited)).circuit.cartridge
      = (run [.opening, .closing] (crowdedMachine.withLimit .hardware)).circuit.cartridge := by
  have opened : (crowdedMachine.withLimit .unlimited).beginFrame
      = .ok (crowdedMachine.withLimit .unlimited).openFrame := by
    rw [crowdedMachine_eq]
    rfl
  have on : (crowdedMachine.withLimit .unlimited).rendering = true := by
    rw [crowdedMachine_eq]
    decide
  have elsewhere (slot : Nat) :
      (crowdedMachine.withLimit .unlimited).circuit.banks.pattern slot ≠ .cartridge := by
    have banks : (crowdedMachine.withLimit .unlimited).circuit.banks.patterns = Banks.new.patterns := by
      rw [crowdedMachine_eq]
      rfl
    rw [Banks.pattern, banks]
    have none : ∀ i : Fin 8, Banks.new.patterns[i] ≠ .cartridge := by decide
    exact none ⟨slot % 8, Nat.mod_lt _ (by decide)⟩
  exact (calls_withLimit crowdedMachine [.opening, .closing] (frame_steady opened on)).1
    (frame_strayReads ⟨fun _ _ _ _ => rfl, fun _ _ _ _ => rfl⟩ opened elsewhere)

end Machine

end PictureUnit
