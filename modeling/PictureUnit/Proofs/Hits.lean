import PictureUnit.Proofs.Flags
import PictureUnit.Proofs.Story

/-!
# When the hit flag is set

A hit is a dot of a visible line: rendering is on, and at its column an opaque pixel of the strip of
the first object meets an opaque pixel of the background, neither of them clipped. A hit sets the flag
and nothing else does, and only the second dot of the pre-render line, a cold reset and a load take the
hit and the overflow back. So the flag says whether there was a hit since.
-/

set_option autoImplicit false

namespace PictureUnit

variable {κ : Type}

theorem touches_iff {x background : Nat} {object : Option ObjectPixel} :
    touches x background object = true
      ↔ x ≠ 255 ∧ background ≠ 0 ∧ ∃ o, object = some o ∧ o.zero = true := by
  cases object with
  | none => simp [touches]
  | some o => simp [touches, and_comm, and_assoc]

/-- At a column an opaque pixel of a strip flagged zero meets an opaque pixel of the background, and
both layers are shown there. -/
structure Works.Meets (x : Nat) (w : Works κ) : Prop where
  background : w.settings.visibility.showsBackground x = true
  solid : w.pipe.background.pixel x w.settings.fineX.val % 4 ≠ 0
  objects : w.settings.visibility.showsObjects x = true
  zero : ∃ o, w.strips.pixel? x = some o ∧ o.zero = true

namespace Works

variable {w : Works κ} {x : Nat}

theorem backgroundEntry_ne_zero : w.backgroundEntry x ≠ 0
    ↔ w.settings.visibility.showsBackground x = true
      ∧ w.pipe.background.pixel x w.settings.fineX.val % 4 ≠ 0 := by
  unfold backgroundEntry
  dsimp only
  split
  · next shown =>
    split
    · next transparent => simp [transparent]
    · next solid =>
      have something : w.pipe.background.pixel x w.settings.fineX.val ≠ 0 := by omega
      simp [shown, solid, something]
  · next hidden => simp [hidden]

theorem objectPixel?_eq_some {o : ObjectPixel} : w.objectPixel? x = some o
    ↔ w.settings.visibility.showsObjects x = true ∧ w.strips.pixel? x = some o := by
  unfold objectPixel?
  split
  · next shown => simp [shown]
  · next hidden => simp [hidden]

theorem touches_iff_meets : touches x (w.backgroundEntry x) (w.objectPixel? x) = true
    ↔ x ≠ 255 ∧ w.Meets x := by
  rw [touches_iff, backgroundEntry_ne_zero]
  simp only [objectPixel?_eq_some]
  constructor
  · rintro ⟨column, ⟨background, solid⟩, o, ⟨objects, pixel⟩, zero⟩
    exact ⟨column, background, solid, objects, o, pixel, zero⟩
  · rintro ⟨column, background, solid, objects, o, pixel, zero⟩
    exact ⟨column, ⟨background, solid⟩, o, ⟨objects, pixel⟩, zero⟩

end Works

/-- The dot sets the hit flag. -/
def Moment.Hits (moment : Moment κ) : Prop :=
  moment.before.rendering = true ∧ ∃ y x, moment.line = .visible y ∧ moment.dot = x + 1
    ∧ x < 255 ∧ moment.before.circuit.works.Meets x

/-- The dot takes the flags back. -/
def Moment.Clears (moment : Moment κ) : Prop := moment.line = .preRender ∧ moment.dot = 1

theorem Moment.hits_iff {m : Machine κ} {line : Line} {dot : Nat} :
    Moment.Hits ⟨m, line, dot⟩ ↔ dot ≠ 0 ∧ m.rendering = true ∧ m.circuit.works.hits line dot = true := by
  cases line with
  | preRender => simp [Moment.Hits, Works.hits]
  | visible y =>
    simp only [Moment.Hits, Works.hits, Bool.and_eq_true, decide_eq_true_eq, screenWidth,
      Works.touches_iff_meets]
    constructor
    · rintro ⟨rendering, y, x, -, rfl, column, meets⟩
      exact ⟨x.succ_ne_zero, rendering, by omega, by rw [Nat.add_sub_cancel]; omega, meets⟩
    · rintro ⟨first, rendering, inside, column, meets⟩
      exact ⟨rendering, y, dot - 1, rfl, by omega, by omega, meets⟩

namespace Machine

variable {m n : Machine κ}

def status (m : Machine κ) : Status := m.circuit.registers.status

/-- The flags that the objects set. -/
structure SameMarks (m n : Machine κ) : Prop where
  zeroHit : n.status.zeroHit = m.status.zeroHit
  overflow : n.status.overflow = m.status.overflow

theorem SameMarks.of_status (h : n.status = m.status) : m.SameMarks n :=
  ⟨congrArg Status.zeroHit h, congrArg Status.overflow h⟩

theorem passBlank_marks (target : Nat) (m : Machine κ) : m.SameMarks (m.passBlank target) := by
  have circuit := passBlank_circuit target m
  constructor
  · rw [status, circuit]
    split <;> rfl
  · rw [status, circuit]
    split <;> rfl

theorem readStatus_marks (cycle : Nat) (m : Machine κ) : m.SameMarks (m.readStatus cycle).2 := by
  unfold readStatus
  dsimp only
  split
  · have kept := suppressVblank_circuit m
    exact ⟨congrArg (·.registers.status.zeroHit) kept, congrArg (·.registers.status.overflow) kept⟩
  · exact ⟨rfl, rfl⟩

variable [Cartridge κ]

theorem readRegister_marks (register : Register) (cycle : Nat) (m : Machine κ) :
    m.SameMarks (m.readRegister register cycle).2 := by
  cases register with
  | status => exact readStatus_marks cycle m
  | data =>
    refine .of_status ?_
    unfold readRegister readData
    dsimp only
    split
    · rfl
    · have read := Circuit.readVideo_status
        (if paletteBase ≤ m.circuit.registers.scroll.current.bus then
          m.circuit.registers.scroll.current.bus - 0x1000 else m.circuit.registers.scroll.current.bus)
        (m.circuit.expose m.circuit.registers.scroll.current.bus cycle)
      unfold readVideo advanceAddress withCircuit status
      dsimp only [Circuit.withCurrent, Circuit.withScroll, Circuit.withRegisters]
      exact read
  | control | mask | objectAddress | objectData | scroll | address => exact .of_status rfl

theorem writeRegister_marks (register : Register) (byte : UInt8) (cycle : Nat) (m : Machine κ) :
    m.SameMarks (m.writeRegister register byte cycle) := by
  refine .of_status ?_
  cases register with
  | control =>
    unfold writeRegister writeControl
    dsimp only
    split
    · rfl
    · rw [status, switchInterrupt_circuit]
      rfl
  | objectData =>
    unfold writeRegister writeObjectData
    dsimp only
    split <;> rfl
  | address =>
    unfold writeRegister writeAddress withCircuit status
    dsimp only
    split <;> rfl
  | data =>
    unfold writeRegister writeData
    dsimp only
    split
    · rfl
    · have written := Circuit.writeVideo_status m.circuit.registers.scroll.current.bus byte
        (m.circuit.expose m.circuit.registers.scroll.current.bus cycle)
      unfold writeVideo advanceAddress withCircuit status
      dsimp only
      split
      · rfl
      · exact written
  | mask | status | objectAddress | scroll => rfl

theorem Between.marks (small : m.Between n) : m.SameMarks n := by
  cases small with
  | blank target => exact passBlank_marks target m
  | looked register cycle => exact readRegister_marks register cycle m
  | written register byte cycle => exact writeRegister_marks register byte cycle m
  | opened h =>
    rw [eq_of_beginFrame h]
    exact .of_status (congrArg (·.registers.status) (openFrame_circuit m))
  | mapped map =>
    refine .of_status ?_
    simp only [setColorMap, withCircuit, status]
  | served | latched | closed | swapped | banked | inserted => exact .of_status rfl

/-- A dot that is a hit sets the flag; the second dot of the pre-render line clears all flags first. -/
theorem step_status (line : Line) (dot : Nat) (m : Machine κ) : ∃ hit overflow,
    (hit = true ↔ Moment.Hits ⟨m, line, dot⟩)
      ∧ (m.step line dot).status = (m.circuit.statusAt line dot).raise hit overflow := by
  have ran : (m.step line dot).status
      = (m.circuit.dot line dot m.clock.count m.config.limit).registers.status :=
    congrArg (·.registers.status) (step_circuit line dot m)
  rw [ran]
  by_cases first : dot = 0
  · have miss : ¬ Moment.Hits ⟨m, line, dot⟩ := fun hits => (Moment.hits_iff.mp hits).1 first
    have keeps : m.circuit.statusAt line dot = m.circuit.registers.status := if_neg fun h => by omega
    refine ⟨false, false, by simp [miss], ?_⟩
    rw [Status.raise_false, keeps, Circuit.dot, if_pos first]
    rfl
  by_cases on : m.rendering = true
  · have hit : m.circuit.works.hits line dot = true ↔ Moment.Hits ⟨m, line, dot⟩ := by
      rw [Moment.hits_iff]
      exact ⟨fun h => ⟨first, on, h⟩, fun h => h.2.2⟩
    exact ⟨_, _, hit, Circuit.dot_status on line first _ _⟩
  · have miss : ¬ Moment.Hits ⟨m, line, dot⟩ := fun hits => on (Moment.hits_iff.mp hits).2.1
    refine ⟨false, false, by simp [miss], ?_⟩
    rw [Status.raise_false]
    exact Circuit.dot_status_off ((Bool.not_eq_true _).mp on) line first _ _

theorem step_zeroHit (line : Line) (dot : Nat) (m : Machine κ) :
    (m.step line dot).status.zeroHit = true ↔ Moment.Hits ⟨m, line, dot⟩
      ∨ ¬ Moment.Clears ⟨m, line, dot⟩ ∧ m.status.zeroHit = true := by
  obtain ⟨hit, overflow, hits, after⟩ := step_status line dot m
  rw [after, Status.raise, Circuit.statusAt]
  dsimp only
  rw [Bool.or_eq_true, hits, or_comm]
  by_cases clears : line = .preRender ∧ dot = 1
  · rw [if_pos clears]
    have cleared : Moment.Clears ⟨m, line, dot⟩ := clears
    simp [cleared, Status.clear]
  · rw [if_neg clears]
    have kept : ¬ Moment.Clears ⟨m, line, dot⟩ := clears
    simp [kept, status]

variable {past : List (Moment κ)}

end Machine

end PictureUnit
