import PictureUnit.Proofs.Derived
import PictureUnit.Proofs.Dots

/-!
# How far the search reaches

The search writes into the slots that a line may show and into no others, so the rest of the
secondary memory stays as it was when the chip was switched on. This holds in every state that a
session comes to, whatever the cartridge does.
-/

set_option autoImplicit false

namespace PictureUnit

/-- Whether the next step copies a byte. -/
def Search.copies : Search → Bool
  | .comparing | .copyingTile | .copyingAttributes | .copyingX => true
  | .resting | .scanning | .skipping _ | .finished => false

namespace Circuit

variable {κ : Type} [Cartridge κ]

theorem fetchTile_evaluation (phase : Phase) (dot cycle : Nat) (c : Circuit κ) :
    (c.fetchTile phase dot cycle).evaluation = c.evaluation := by
  have name := (readName_still c.bus c).evaluation
  have pattern := (readPattern_still c.bus c).evaluation
  cases phase with
  | openName | openAttributes | openLow | openHigh => rfl
  | name | attributes => exact name
  | low | high => exact pattern

theorem fetchObject_evaluation (line : Line) (slot : Nat) (phase : Phase) (cycle : Nat)
    (c : Circuit κ) : (c.fetchObject line slot phase cycle).evaluation = c.evaluation := by
  have name := (readName_still c.bus c).evaluation
  have pattern := (readPattern_still c.bus c).evaluation
  cases phase with
  | openName | openAttributes | openLow | openHigh => rfl
  | name | attributes => exact name
  | low | high => exact pattern

theorem fetchExtras_evaluation (line : Line) (c : Circuit κ) :
    (c.fetchExtras line).evaluation = c.evaluation :=
  List.foldlRecOn (motive := fun e : Circuit κ => e.evaluation = c.evaluation) _ _ rfl fun _ kept _ _ =>
    ((readPattern_still _ _).evaluation.trans (readPattern_still _ _).evaluation).trans kept

end Circuit

namespace Evaluation

/-- Every operation on the evaluation keeps this. -/
structure Invariant (limit : SpriteLimit) (P : Evaluation → Prop) : Prop where
  clearStep {e : Evaluation} (h : P e) (dot : Nat) : P (e.clearStep dot limit)
  start {e : Evaluation} (h : P e) (address : UInt8) : P (e.start address)
  step {i : Inputs} {e : Evaluation} (hi : i.limit = limit) (h : P e) : P (e.step i)
  stop {e : Evaluation} (h : P e) : P e.stop
  latch {e : Evaluation} (h : P e) (value : UInt8) : P { e with latch := value }

namespace Invariant

variable {limit : SpriteLimit} {P : Evaluation → Prop} {i : Inputs} {e : Evaluation}

theorem steps (inv : Invariant limit P) (hi : i.limit = limit) (n : Nat) (h : P e) :
    P (e.steps i n).1 := by
  induction n generalizing e with
  | zero => exact h
  | succ n ih =>
    rw [Evaluation.steps]
    split
    · exact h
    · exact ih (inv.step hi h)

theorem onDot (inv : Invariant limit P) (hi : i.limit = limit) (h : P e) (address : UInt8)
    (dot : Nat) : P (e.onDot i address dot) := by
  have begun : P (if dot = 65 then e.start address else e) := by
    split
    · exact inv.start h address
    · exact h
  unfold Evaluation.onDot
  split
  · exact h
  split
  · rw [hi]
    exact inv.clearStep h dot
  dsimp only
  split
  · exact inv.step hi begun
  split
  · exact inv.steps hi _ begun
  · exact begun

variable {κ : Type} {c : Circuit κ}

theorem searching (inv : Invariant limit P) (h : P c.evaluation) (line : Line) (dot : Nat) :
    P (c.searching line dot limit).evaluation := by
  have searched := congrArg Works.evaluation (Circuit.searching_works line dot limit c)
  change (c.searching line dot limit).evaluation = _ at searched
  rw [searched]
  cases line with
  | preRender => exact h
  | visible y => exact inv.onDot (i := (c.works.scene limit).inputs y.val) rfl h _ _

variable [Cartridge κ]

theorem fetch (inv : Invariant limit P) (h : P c.evaluation) (line : Line) (dot cycle : Nat) :
    P (c.fetch line dot cycle).evaluation := by
  unfold Circuit.fetch
  split
  · exact h
  · rw [Circuit.fetchTile_evaluation]
    exact h
  · dsimp only
    refine inv.latch ?_ _
    split
    · rw [Circuit.fetchExtras_evaluation, Circuit.fetchObject_evaluation]
      exact h
    · rw [Circuit.fetchObject_evaluation]
      exact h
  · exact h
  · rw [(Circuit.readName_still _ c).evaluation]
    exact h

theorem render (inv : Invariant limit P) (h : P c.evaluation) (line : Line) (dot cycle : Nat) :
    P (c.render line dot cycle limit).evaluation := by
  have searched := inv.searching h line dot
  have handed : P (if dot = objectFetchStart then (c.searching line dot limit).prepareStrips line
      else c.searching line dot limit).evaluation := by
    split
    · exact inv.stop searched
    · exact searched
  have kept (d : Circuit κ) : ((d.rewindAddress line dot).clearObjectAddress dot).evaluation
      = d.evaluation := by
    unfold Circuit.clearObjectAddress Circuit.rewindAddress
    split
    · split
      · rfl
      · split <;> rfl
    · split
      · rfl
      · split <;> rfl
  rw [Circuit.render_eq, kept]
  exact inv.fetch handed line dot cycle

theorem dot (inv : Invariant limit P) (h : P c.evaluation) (line : Line) (dot cycle : Nat) :
    P (c.dot line dot cycle limit).evaluation := by
  have drawn : ((c.clearFlags line dot).drawDot line dot).evaluation = c.evaluation :=
    congrArg Works.evaluation (Circuit.drawn_works line dot c)
  unfold Circuit.dot
  split
  · exact h
  · generalize (c.clearFlags line dot).drawDot line dot = d at drawn
    rw [← drawn] at h
    have rendered : P (if d.registers.mask.rendering then d.render line dot cycle limit
        else d).evaluation := by
      split
      · exact inv.render h line dot cycle
      · exact h
    dsimp only
    split <;> exact rendered

end Invariant

/-- Nothing was written past the slots of a line. -/
structure Bounded (limit : SpriteLimit) (e : Evaluation) : Prop where
  byte : e.byte < 4
  room : e.search.copies = true → e.found < limit.perLine
  rest : ∀ i, 4 * limit.perLine ≤ i → i < 256 → e.secondary.load i = 0xFF

variable {limit : SpriteLimit} {i : Inputs} {e : Evaluation}

theorem resting_bounded (limit : SpriteLimit) : resting.Bounded limit where
  byte := by decide
  room := by
    intro h
    cases h
  rest k _ hk := Block.load_filled 0xFF k hk

theorem stop_bounded (h : e.Bounded limit) : e.stop.Bounded limit where
  byte := h.byte
  room := by
    intro h
    cases h
  rest := h.rest

theorem latch_bounded (h : e.Bounded limit) (value : UInt8) :
    Bounded limit { e with latch := value } := ⟨h.byte, h.room, h.rest⟩

theorem clearStep_bounded (h : e.Bounded limit) (dot : Nat) :
    (e.clearStep dot limit).Bounded limit := by
  unfold clearStep
  split
  · exact latch_bounded h _
  · split
    · exact ⟨h.byte, h.room, fun k _ hk => Block.load_filled 0xFF k hk⟩
    · refine ⟨h.byte, h.room, fun k hl hk => ?_⟩
      have before := h.rest k hl hk
      grind

theorem start_bounded (h : e.Bounded limit) (address : UInt8) :
    (e.start address).Bounded limit := by
  have room : 0 < limit.perLine := by cases limit <;> decide
  exact ⟨Nat.zero_lt_succ 3, fun _ => room, h.rest⟩

/-- A byte is copied into a slot of the line. -/
theorem copy_rest (h : e.Bounded limit) (hc : e.search.copies = true) :
    ∀ k, 4 * limit.perLine ≤ k → k < 256 → (e.copy i).secondary.load k = 0xFF := by
  intro k hl hk
  have room := h.room hc
  have byte := h.byte
  have apart : e.found * 4 + e.byte ≠ k := by omega
  exact (Block.load_store_ne _ _ _ _ apart).trans (h.rest k hl hk)

/-- The search that goes on is the one asked for, or none. -/
theorem advance_copies {search : Search} (h : (e.advance search).search.copies = true) :
    search.copies = true := by
  simp only [advance] at h
  split at h
  · exact h
  · cases h

theorem compare_bounded (h : e.Bounded limit) (hs : e.search.copies = true) :
    (e.compare i).Bounded limit := by
  have rest := copy_rest (i := i) h hs
  have room := h.room hs
  unfold compare
  dsimp only
  split
  · exact ⟨Nat.succ_lt_succ (Nat.zero_lt_succ 2), fun _ => room, rest⟩
  · exact ⟨h.byte, fun _ => room, rest⟩

theorem complete_bounded (h : e.Bounded i.limit) (hs : e.search.copies = true) :
    (e.complete i).Bounded i.limit := by
  refine ⟨Nat.zero_lt_succ 3, fun going => ?_, copy_rest h hs⟩
  have kept := advance_copies going
  change e.found + 1 < i.limit.perLine
  by_contra full
  have scanning : i.limit.perLine ≤ e.found + 1 := Nat.not_lt.mp full
  rw [if_pos (by exact scanning)] at kept
  cases kept

theorem scan_bounded (h : e.Bounded limit) : (e.scan i).Bounded limit := by
  unfold scan
  split
  · exact ⟨h.byte, fun going => (by cases going), h.rest⟩
  · refine ⟨Nat.mod_lt _ (Nat.zero_lt_succ 3), fun going => ?_, h.rest⟩
    cases advance_copies going

theorem skip_bounded (h : e.Bounded limit) (remaining : Nat) :
    (e.skip remaining i).Bounded limit := by
  have byte := h.byte
  unfold skip
  by_cases last : e.byte = 3
  · rw [if_pos last]
    dsimp only
    split
    · exact ⟨Nat.zero_lt_succ 3, fun going => (by cases going), h.rest⟩
    · exact ⟨Nat.zero_lt_succ 3, fun going => (by cases going), h.rest⟩
  · have next : e.byte + 1 < 4 := by omega
    rw [if_neg last]
    dsimp only
    split
    · exact ⟨next, fun going => (by cases going), h.rest⟩
    · exact ⟨Nat.zero_lt_succ 3, fun going => (by cases going), h.rest⟩

theorem step_bounded (h : e.Bounded i.limit) : (e.step i).Bounded i.limit := by
  unfold step
  split
  · exact h
  · next hs => exact compare_bounded h (by rw [hs]; rfl)
  · next hs =>
    have copies : e.search.copies = true := by rw [hs]; rfl
    exact ⟨Nat.lt_succ_of_lt (Nat.lt_succ_self 2), fun _ => h.room copies, copy_rest h copies⟩
  · next hs =>
    have copies : e.search.copies = true := by rw [hs]; rfl
    exact ⟨Nat.lt_succ_self 3, fun _ => h.room copies, copy_rest h copies⟩
  · next hs => exact complete_bounded h (by rw [hs]; rfl)
  · exact scan_bounded h
  · exact skip_bounded h _
  · next hs =>
    refine ⟨Nat.zero_lt_succ 3, fun going => ?_, h.rest⟩
    change e.search.copies = true at going
    rw [hs] at going
    cases going

/-- The search, its end and the latch write nothing past the slots of a line. -/
theorem bounded_invariant (limit : SpriteLimit) : Invariant limit (Bounded limit) where
  clearStep h dot := clearStep_bounded h dot
  start h address := start_bounded h address
  step hi h := by
    subst hi
    exact step_bounded h
  stop h := stop_bounded h
  latch h value := latch_bounded h value

end Evaluation

/-- The search rests, no strip and no tile was fetched, and no fetch has driven the bus. -/
structure Circuit.Emptied {κ : Type} (c : Circuit κ) : Prop where
  evaluation : c.evaluation = .resting
  strips : c.strips = .empty
  background : c.background = .empty
  bus : c.bus = 0

namespace Machine

variable {κ : Type}

/-- Nothing was written past the slots of a line. -/
def Bounded (m : Machine κ) : Prop := m.circuit.evaluation.Bounded m.config.limit

theorem Bounded.of_eq {m n : Machine κ} (h : m.Bounded)
    (evaluation : n.circuit.evaluation = m.circuit.evaluation) (config : n.config = m.config) :
    n.Bounded := by
  rw [Bounded, evaluation, config]
  exact h

/-- A machine that has loaded a state starts with empty pipelines. -/
theorem load_emptied {m n : Machine κ} {data : List UInt8} {warnings : List Snapshot.Warning}
    (h : m.load data = .ok (.ok (n, warnings))) : n.circuit.Emptied := by
  obtain ⟨chunks, -, rfl⟩ := load_eq_restore h
  have reset : (m.reset .cold).circuit.Emptied := ⟨rfl, rfl, rfl, rfl⟩
  have applied : ((m.reset .cold).applyChunks chunks).1.circuit.Emptied := by
    refine applyChunks_keeps (P := fun n => n.circuit.Emptied) (fun u s kept => ?_) chunks reset
    cases s <;> exact ⟨kept.evaluation, kept.strips, kept.background, kept.bus⟩
  exact ⟨applied.evaluation, applied.strips, applied.background, applied.bus⟩

theorem reset_evaluation (kind : ResetKind) (m : Machine κ) :
    (m.reset kind).circuit.evaluation = .resting := by
  cases kind <;> rfl

variable [Cartridge κ]

theorem Passes.bounded {ds : List (Line × Nat)} {l : List Ink} {m n : Machine κ}
    (h : Passes ds l m n) (hm : m.Bounded) : n.Bounded := by
  induction h with
  | refl => exact hm
  | @still _ _ m n _ hs _ ih =>
    apply ih
    exact hm.of_eq hs.circuit.evaluation (congrArg Ledger.config hs.ledger)
  | @blank _ _ m _ target _ _ ih =>
    apply ih
    have kept : (m.passBlank target).circuit.evaluation = m.circuit.evaluation := by
      unfold passBlank raiseVblank
      dsimp only
      split
      · split <;> rfl
      · rfl
    exact hm.of_eq kept (passBlank_config target m)
  | @dot _ _ m _ line dot _ _ ih =>
    apply ih
    rw [Bounded, step_circuit, step_config]
    exact (Evaluation.bounded_invariant _).dot hm line dot _

theorem Moves.bounded {m n : Machine κ} (step : m.Moves n) (h : m.Bounded) : n.Bounded := by
  cases step with
  | turn t =>
    obtain ⟨ds, l, drawn⟩ := turn_draws t m
    exact drawn.passes.bounded h
  | opened ho =>
    rw [eq_of_beginFrame ho]
    exact h.of_eq (congrArg Circuit.evaluation (openFrame_circuit m)) (openFrame_config m)
  | closed hc =>
    obtain ⟨-, rfl⟩ := eq_of_endFrame hc
    obtain ⟨ds, l, passes⟩ := advanceTo_passes m.clock.frameEnd m
    exact passes.bounded h
  | reset kind =>
    rw [Bounded, reset_evaluation]
    exact Evaluation.resting_bounded _
  | loaded hl =>
    rw [Bounded, (load_emptied hl).evaluation]
    exact Evaluation.resting_bounded _
  | swapped hs =>
    obtain ⟨-, rfl⟩ := eq_of_swapScreen hs
    exact h.of_eq rfl rfl
  | mapped map =>
    unfold setColorMap withCircuit
    exact h.of_eq rfl rfl
  | banked change => exact h.of_eq rfl rfl
  | inserted cartridge => exact h.of_eq rfl rfl

/-- In every state of a session nothing was written past the slots of a line. -/
theorem Reachable.bounded {m : Machine κ} (h : m.Reachable) : m.Bounded := by
  induction h with
  | new config banks cartridge host =>
    rw [Bounded, Machine.new, reset_evaluation]
    exact Evaluation.resting_bounded _
  | move _ step ih => exact step.bounded ih

end Machine

end PictureUnit
