import PictureUnit.Proofs.Lockstep
import PictureUnit.Proofs.RoundTrip

/-!
# What a saved state restores

Between frames a machine waits in the blank, with nothing left to raise. All that a saved state lacks
is then either on the board, which another machine may share, or in the works, which are renewed. So a
machine that loads the state is alike, as far as anything is trusted between frames.
-/

set_option autoImplicit false

namespace PictureUnit

/-- A palette is made of its entries, the colour map and the mask byte. -/
theorem Palette.Coherent.ext {p q : Palette} (hp : p.Coherent) (hq : q.Coherent)
    (entries : q.entries = p.entries) (coloring : q.coloring = p.coloring)
    (emphasis : q.emphasis = p.emphasis) (map : q.map = p.map) : q = p := by
  have resolved (i : Nat) : q.resolve i = p.resolve i := by
    rw [resolve, resolve, entries, coloring, emphasis, map]
  have drawn : q.drawn = p.drawn := by
    apply Vector.ext
    intro i hi
    have own := hp i hi
    have other := hq i hi
    rw [Vector.getElem?_eq_getElem hi, Option.some.injEq] at own other
    rw [own, other, resolved]
  obtain ⟨pe, pd, pc, pm, pk⟩ := p
  obtain ⟨qe, qd, qc, qm, qk⟩ := q
  cases entries
  cases drawn
  cases coloring
  cases emphasis
  cases map
  rfl

theorem Palette.load_keeps (bytes : Block paletteSize) (p : Palette) :
    (p.load bytes).entries = bytes.map (· &&& 0x3F) ∧ (p.load bytes).map = p.map := by
  simp only [load, refreshAll, and_self]

/-- Entries that are loaded under the same mask byte and colour map make the same palette. -/
theorem Palette.Sound.reloaded {p q : Palette} {mask : Mask} (h : p.Sound)
    (coloring : p.coloring = mask.coloring) (emphasis : p.emphasis = mask.emphasis)
    (map : q.map = p.map) : (q.load p.entries).setMask mask = p := by
  obtain ⟨masked, faded⟩ := (q.load p.entries).setMask_mask mask
  obtain ⟨kept, mapped⟩ := (q.load p.entries).setMask_keeps mask
  obtain ⟨loaded, held⟩ := q.load_keeps p.entries
  have stored : p.entries.map (· &&& 0x3F) = p.entries := h.stored
  exact h.coherent.ext (setMask_sound (load_sound _ _) _).coherent
    (kept.trans (loaded.trans stored)) (masked.trans coloring.symm) (faded.trans emphasis.symm)
    (mapped.trans (held.trans map))

namespace Machine

variable {κ : Type} {m n b : Machine κ}

/-- What a saved state leaves out on purpose: the chip's make, the memories and slots of the board, the
colour map, and what is in the cartridge slot. -/
structure SameBoard (m b : Machine κ) : Prop where
  config : b.config = m.config
  rom : b.circuit.banks.rom = m.circuit.banks.rom
  ram : b.circuit.banks.ram = m.circuit.banks.ram
  patterns : b.circuit.banks.patterns = m.circuit.banks.patterns
  names : b.circuit.banks.names = m.circuit.banks.names
  map : b.circuit.palette.map = m.circuit.palette.map
  cartridge : b.circuit.cartridge = m.circuit.cartridge

theorem SameBoard.symm (h : m.SameBoard b) : b.SameBoard m :=
  ⟨h.config.symm, h.rom.symm, h.ram.symm, h.patterns.symm, h.names.symm, h.map.symm, h.cartridge.symm⟩

theorem SameBoard.trans (h : m.SameBoard n) (h' : n.SameBoard b) : m.SameBoard b where
  config := h'.config.trans h.config
  rom := h'.rom.trans h.rom
  ram := h'.ram.trans h.ram
  patterns := h'.patterns.trans h.patterns
  names := h'.names.trans h.names
  map := h'.map.trans h.map
  cartridge := h'.cartridge.trans h.cartridge

theorem sameBoard_of_eq (config : b.config = m.config) (banks : b.circuit.banks = m.circuit.banks)
    (map : b.circuit.palette.map = m.circuit.palette.map)
    (cartridge : b.circuit.cartridge = m.circuit.cartridge) : m.SameBoard b where
  config := config
  rom := congrArg Banks.rom banks
  ram := congrArg Banks.ram banks
  patterns := congrArg Banks.patterns banks
  names := congrArg Banks.names banks
  map := map
  cartridge := cartridge

theorem SameBoard.timing (h : m.SameBoard b) : b.timing = m.timing := congrArg Config.timing h.config

/-- In the blank, with nothing left to raise. -/
structure Waiting (m : Machine κ) : Prop where
  blank : m.clock.position = .blank
  raised : m.vblank.raised = true

theorem reset_waiting (kind : ResetKind) (m : Machine κ) : (m.reset kind).Waiting := by
  cases kind <;> exact ⟨rfl, rfl⟩

theorem Waiting.of_eq (h : m.Waiting) (clock : n.clock = m.clock)
    (raised : n.vblank.raised = m.vblank.raised) : n.Waiting :=
  ⟨(congrArg Clock.position clock).trans h.blank, raised.trans h.raised⟩

theorem withCircuit_waiting (f : Circuit κ → Circuit κ) (h : m.inFrame = false → m.Waiting)
    (hn : (m.withCircuit f).inFrame = false) : (m.withCircuit f).Waiting := (h hn).of_eq rfl rfl

theorem restore_waiting (chunks : List Snapshot.Chunk) (m : Machine κ) :
    (m.restore chunks).1.Waiting := by
  have applied : ((m.reset .cold).applyChunks chunks).1.Waiting :=
    applyChunks_keeps (fun _ s h => by cases s <;> exact h.of_eq rfl rfl) chunks (reset_waiting _ m)
  exact ⟨applied.blank, applied.raised⟩

theorem SameBoard.reset (same : m.SameBoard b) : m.SameBoard (b.reset .cold) where
  config := same.config
  rom := same.rom
  ram := same.ram
  patterns := same.patterns
  names := same.names
  map := by
    refine Eq.trans ?_ same.map
    simp only [Machine.reset, withCircuit, Circuit.coldReset, Circuit.restart, Circuit.setMask,
      Palette.setMask_keeps, Palette.load_keeps]
    rfl
  cartridge := same.cartridge

/-- All sections applied, one by one. -/
theorem foldl_sections (m b : Machine κ) :
    ((m.sections.foldl apply b).withCircuit fun c => c.setMask c.registers.mask)
      = { b with
          circuit := { b.circuit with
            registers := m.circuit.registers
            objects := m.circuit.objects
            visibility := m.circuit.registers.mask.visibility
            palette := (b.circuit.palette.load m.circuit.palette.entries).setMask
              m.circuit.registers.mask
            banks := { b.circuit.banks with internal := m.circuit.banks.internal } }
          oddFrame := m.oddFrame
          burst := m.burst
          warmingUp := m.warmingUp } := by
  simp only [sections, List.foldl_cons, List.foldl_nil, apply, withCircuit, Circuit.setMask]

variable [Cartridge κ]

theorem Passes.waiting {ds : List (Line × Nat)} {l : List Ink} (h : Passes ds l m n)
    (hm : m.Waiting) : n.Waiting := by
  induction h with
  | refl => exact hm
  | still hs _ ih => exact ih (hm.of_eq hs.clock hs.raised)
  | blank target _ _ ih =>
    refine ih ⟨(passBlank_position _ _).trans hm.blank, ?_⟩
    rw [passBlank_raised, hm.raised, Bool.true_or]
  | dot hd _ _ =>
    rw [hm.blank] at hd
    cases hd

theorem Moves.waiting (step : m.Moves n) (hm : m.inFrame = true → m.OnTime)
    (h : m.inFrame = false → m.Waiting) (hn : n.inFrame = false) : n.Waiting := by
  cases step with
  | turn t =>
    obtain ⟨ds, l, drawn⟩ := turn_draws t m
    have inFrame : (m.turn t).2.inFrame = m.inFrame := congrArg Ledger.inFrame drawn.passes.ledger
    exact drawn.passes.waiting (h (inFrame ▸ hn))
  | opened ho =>
    rw [eq_of_beginFrame ho, openFrame_inFrame] at hn
    cases hn
  | closed hc =>
    obtain ⟨open_, rfl⟩ := eq_of_endFrame hc
    have onTime := hm open_
    exact ⟨(advanceTo_frameEnd onTime).1, advanceTo_frameEnd_raised onTime⟩
  | reset kind => exact reset_waiting kind m
  | loaded hl =>
    obtain ⟨chunks, -, rfl⟩ := load_eq_restore hl
    exact restore_waiting chunks m
  | swapped hs =>
    obtain ⟨-, rfl⟩ := eq_of_swapScreen hs
    exact withCircuit_waiting _ h hn
  | mapped | banked | inserted => exact withCircuit_waiting _ h hn

/-- Between frames every machine waits. -/
theorem Reachable.waiting (h : m.Reachable) : m.inFrame = false → m.Waiting := by
  induction h with
  | new config banks cartridge host => exact fun _ => reset_waiting .cold _
  | move hm step ih => exact step.waiting hm.onTime ih

/-- What the sections of a machine make of another one on the same board. -/
theorem Alike.sections (derived : m.circuit.Derived) (bounded : m.Bounded) (hf : m.inFrame = false)
    (waiting : m.Waiting) (hi : Cartridge.Idle m.circuit.cartridge) (same : m.SameBoard b)
    (other : b.Bounded) (closed : b.inFrame = false) (waits : b.Waiting) :
    m.Alike .saved ((m.sections.foldl apply b).withCircuit fun c => c.setMask c.registers.mask) := by
  have palette : (b.circuit.palette.load m.circuit.palette.entries).setMask m.circuit.registers.mask
      = m.circuit.palette :=
    derived.sound.reloaded derived.coloring derived.emphasis same.map
  have banks : { b.circuit.banks with internal := m.circuit.banks.internal } = m.circuit.banks := by
    rw [Banks.mk.injEq]
    exact ⟨same.rom, same.ram, rfl, same.patterns, same.names⟩
  have visibility : m.circuit.registers.mask.visibility = m.circuit.visibility :=
    derived.visibility.symm
  have within : b.circuit.evaluation.Bounded m.config.limit := by
    rw [← same.config]
    exact other
  rw [foldl_sections, palette, banks, visibility]
  refine ⟨same.config, waits.blank.trans waiting.blank.symm, waits.raised.trans waiting.raised.symm,
    rfl, rfl, rfl, closed.trans hf.symm, ?_⟩
  rw [waiting.blank]
  refine ⟨Works.Level.alike ?_ ⟨bounded, within⟩, rfl, fun _ => rfl, fun _ => rfl, .refl _ _, hi⟩
  exact ⟨rfl, rfl, same.cartridge, rfl, rfl⟩

/-- A machine on the same board that loads a saved state is alike. -/
theorem Reachable.load_save (hm : m.Reachable) (hf : m.inFrame = false)
    (hi : Cartridge.Idle m.circuit.cartridge) (hb : b.Reachable) (closed : b.inFrame = false)
    (same : m.SameBoard b) :
    ∃ n, b.load m.save = .ok (.ok (n, [])) ∧ m.Alike .saved n ∧ n.Reachable
      ∧ n.clock.betweenFrames = true := by
  have loaded := load_join closed m.sections
  have reached : Reachable _ := hb.move (.loaded loaded)
  have fresh : (b.reset .cold).Bounded := by
    rw [Bounded, reset_evaluation]
    exact Evaluation.resting_bounded _
  refine ⟨_, loaded, ?_, reached, ?_⟩
  · exact .sections hm.derived hm.bounded hf (hm.waiting hf) hi same.reset fresh rfl
      (reset_waiting .cold b)
  · exact Clock.betweenFrames_parked b.clock.count

end Machine

end PictureUnit
