import PictureUnit.Proofs.Bond
import PictureUnit.Proofs.Handover

/-!
# A script on machines side by side

A script keeps machines side by side. In every line that is rendered without a break from the start of the
search on, the first machine finds the first eight of the objects that the second one finds, and a steady
trail has no other lines in which this matters. The second machine alone reads the rows past the eighth,
and those that lie in slots of the cartridge stray to it. The relation between the cartridges counts them.
-/

set_option autoImplicit false

namespace PictureUnit

open Cartridge (Coupling Tolerant)

/-- The reads that stray at this moment. -/
def Moment.strayReads {κ : Type} (x : Moment κ) : Nat := x.before.circuit.strayReadsAt x.line x.dot

/-- The reads that stray at these moments. -/
def strayReads {κ : Type} (xs : List (Moment κ)) : Nat := (xs.map Moment.strayReads).sum

theorem strayReads_append {κ : Type} (xs ys : List (Moment κ)) :
    strayReads (xs ++ ys) = strayReads xs + strayReads ys := by
  rw [strayReads, List.map_append, List.sum_append]
  rfl

section

variable {κ : Type} [Cartridge κ] {Q : Nat → κ → κ → Prop} {on : Bool} {xs ys : List (Moment κ)}

/-- The trail is steady, and nothing strays to a cartridge that minds. -/
structure Harmless (Q : Nat → κ → κ → Prop) (on : Bool) (xs : List (Moment κ)) : Prop where
  steady : Steady on xs
  tolerant : strayReads xs ≠ 0 → Tolerant Q

theorem Harmless.left (h : Harmless Q on (xs ++ ys)) : Harmless Q on xs := by
  refine ⟨(steady_append.mp h.steady).1, fun some => h.tolerant ?_⟩
  rw [strayReads_append]
  omega

theorem Harmless.right (h : Harmless Q on (xs ++ ys)) : Harmless Q (renderedAfter on xs) ys := by
  refine ⟨(steady_append.mp h.steady).2, fun some => h.tolerant ?_⟩
  rw [strayReads_append]
  omega

end

/-- Before its search begins a line asks for nothing. -/
theorem Circuit.apace_of_not_underway {κ : Type} {c d : Circuit κ} {x : Moment κ} (h : ¬ x.Underway) :
    c.Apace x.line x.dot d := by
  constructor
  · intro y hy started last
    refine absurd ⟨?_, Nat.le_trans last (by decide)⟩ h
    rw [hy]
    exact started
  · intro late last
    refine absurd ⟨?_, last⟩ h
    cases x.line with
    | preRender => exact late
    | visible y =>
      dsimp only
      omega

/-- Only the search and the strips count. -/
theorem Circuit.Apace.of_eq {κ : Type} {c d c' d' : Circuit κ} {line : Line} {dot : Nat}
    (h : c.Apace line dot d) (own : c'.evaluation = c.evaluation ∧ c'.strips = c.strips)
    (other : d'.evaluation = d.evaluation ∧ d'.strips = d.strips) : c'.Apace line dot d' := by
  constructor
  · rw [own.1, other.1]
    exact h.search
  · intro late last
    have handed := h.slots late last
    refine ⟨handed.toExpects.of_eq ⟨?_, ?_⟩ ⟨?_, ?_⟩, ?_⟩
    · rw [own.2]
    · rw [other.2]
    · rw [own.1]
    · rw [other.1]
    · rw [own.2, other.2]
      exact handed.object

namespace Machine

variable {κ : Type} [Cartridge κ]

/-- Machines side by side, the first of them with the limit, whose search and fetches go alike since the
last dot, if that was rendered. -/
structure Alongside (Q : κ → κ → Prop) (on : Bool) (m n : Machine κ) : Prop where
  beside : m.Beside Q n
  limit : m.config.limit = .hardware
  apace : on = true → ∀ line dot, m.clock.position = .raster line dot →
    m.circuit.Apace line dot n.circuit

variable {Q : κ → κ → Prop} {on : Bool} {m n m' n' : Machine κ}

omit [Cartridge κ] in
/-- What keeps the place and the pipelines keeps machines so. -/
theorem Alongside.keep (h : m.Alongside Q on n) (beside : m'.Beside Q n')
    (config : m'.config = m.config) (position : m'.clock.position = m.clock.position)
    (own : m'.circuit.evaluation = m.circuit.evaluation ∧ m'.circuit.strips = m.circuit.strips)
    (other : n'.circuit.evaluation = n.circuit.evaluation ∧ n'.circuit.strips = n.circuit.strips) :
    m'.Alongside Q on n' := by
  refine ⟨beside, config ▸ h.limit, fun rendered line dot place => ?_⟩
  exact Circuit.Apace.of_eq (h.apace rendered line dot (position ▸ place)) own other

/-- What happens between two dots keeps machines alongside. -/
theorem Alongside.between (h : m.Alongside Q on n) (own : m.Between m') (other : n.Between n')
    (beside : m'.Beside Q n') : m'.Alongside Q on n' := by
  obtain rfl | position := own.position
  · refine ⟨beside, own.config.symm ▸ h.limit, fun _ line dot place => ?_⟩
    rw [openFrame_position] at place
    cases place
    exact ⟨fun _ _ late => absurd late (by decide), fun late => absurd late (by decide)⟩
  · exact h.keep beside own.config position own.pipelines.symm other.pipelines.symm

/-- A dot leads to the next one of its line, or to the start of another line. -/
theorem step_follows (line : Line) (dot : Nat) (hp : m.clock.position = .raster line dot) :
    (m.step line dot).clock.position.Follows line dot := by
  have settled : ((m.runDot line dot).settleAt line dot).clock.position = .raster line dot := by
    rw [← hp]
    unfold settleAt settleLength
    split
    · split
      · rfl
      · dsimp only
        split <;> rfl
    · rfl
  have next : (m.step line dot).clock.position
      = (Position.raster line dot).next ((m.runDot line dot).settleAt line dot).clock.short := by
    rw [← settled]
    rfl
  rw [next]
  exact next_follows _ _ _

end Machine

namespace Machine

variable {κ : Type} [Cartridge κ] {Q : Nat → κ → κ → Prop} {k : Nat} {on : Bool} {m n : Machine κ}

/-- Machines alongside once these moments have passed, and what strayed has been counted. -/
def AlongsideAfter (Q : Nat → κ → κ → Prop) (k : Nat) (on : Bool) (xs : List (Moment κ))
    (m n : Machine κ) : Prop :=
  m.Alongside (Q (k + strayReads xs)) (renderedAfter on xs) n

omit [Cartridge κ] in
/-- What comes later is counted on top. -/
theorem alongsideAfter_append {xs ys : List (Moment κ)} :
    m.AlongsideAfter Q k on (xs ++ ys) n
      ↔ m.AlongsideAfter Q (k + strayReads xs) (renderedAfter on xs) ys n := by
  rw [AlongsideAfter, AlongsideAfter, strayReads_append, renderedAfter_append, Nat.add_assoc]

/-- A dot keeps machines alongside. -/
theorem Alongside.step (co : ∀ k, Coupling (Q k)) (h : m.Alongside (Q k) on n) {line : Line} {dot : Nat}
    (hp : m.clock.position = .raster line dot) (harmless : Harmless Q on [⟨n, line, dot⟩]) :
    (m.step line dot).AlongsideAfter Q k on [⟨n, line, dot⟩] (n.step line dot) := by
  have circuits := h.beside.circuit
  have apace (rendered : n.rendering = true) : m.circuit.Apace line dot n.circuit := by
    by_cases underway : (⟨n, line, dot⟩ : Moment κ).Underway
    · exact h.apace (harmless.steady.1 underway rendered) line dot hp
    · exact Circuit.apace_of_not_underway underway
  have rendering : m.circuit.registers.mask.rendering = true → n.rendering = true :=
    fun on => h.beside.rendering.trans on
  have passed : (m.circuit.dot line dot m.clock.count m.config.limit).Beside
      (Q (k + strayReads [(⟨n, line, dot⟩ : Moment κ)]))
      (n.circuit.dot line dot n.clock.count n.config.limit) := by
    rw [h.beside.count]
    exact circuits.dot co (fun on => (apace (rendering on)).slots) harmless.tolerant _ _ _
  refine ⟨h.beside.step passed, (step_config line dot m).symm ▸ h.limit, fun rendered l d place => ?_⟩
  have on : m.circuit.registers.mask.rendering = true := h.beside.rendering.symm.trans rendered
  rw [step_circuit, step_circuit, h.limit, h.beside.lifted]
  obtain rfl | ⟨rfl, rfl⟩ := step_follows line dot hp l d place
  · exact ⟨fun _ _ early => absurd early (by decide), fun early => absurd early (by decide)⟩
  · exact (apace rendered).dot circuits on _ _

/-- Machines alongside are bound to stay so while nothing strays to a cartridge that minds. -/
theorem alongside_bond (co : ∀ k, Coupling (Q k)) (k : Nat) (on : Bool) :
    Bond (fun xs => Q (k + strayReads xs)) (Harmless Q on) fun xs m n => m.AlongsideAfter Q k on xs n where
  coupling _ := co _
  left fair := fair.left
  beside h := h.beside
  step h place fair := alongsideAfter_append.mpr (h.step co place fair.right)
  between h own other beside := h.between own other beside
  closed h := h.keep h.beside.closeFrame rfl rfl ⟨rfl, rfl⟩ ⟨rfl, rfl⟩

/-- A script keeps machines alongside. -/
theorem Alongside.run (co : ∀ k, Coupling (Q k)) (h : m.Alongside (Q k) on n) (acts : List Act)
    (harmless : Harmless Q on (trail acts n)) :
    (run acts m).AlongsideAfter Q k on (trail acts n) (run acts n) := by
  have start : m.AlongsideAfter Q k on [] n := h
  exact (alongside_bond co k on).run start acts harmless

end Machine

end PictureUnit
