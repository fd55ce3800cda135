import PictureUnit.Proofs.VblankFlag

/-!
# The other flags

A rendered dot sets the hit flag when its pixel is a hit, and the overflow flag when its step of the
search finds an object too many. Both follow from the works alone. A dot that renders nothing leaves
the flags as they are, or clears them.
-/

set_option autoImplicit false

namespace PictureUnit

/-- Whether one dot of the search finds an object too many. -/
def Evaluation.overflowsOn (i : Evaluation.Inputs) (address : UInt8) (dot : Nat) (e : Evaluation) :
    Bool :=
  if 256 < dot ∨ dot ≤ 64 then false
  else
    let e := if dot = 65 then e.start address else e
    if dot % 2 = 1 then e.overflows i
    else if dot = 256 ∧ i.limit = .unlimited then (e.finish i).2
    else false

namespace Works

variable {κ : Type}

/-- The background's palette entry at a column, zero where it is hidden or transparent. -/
def backgroundEntry (x : Nat) (w : Works κ) : Nat :=
  if w.settings.visibility.showsBackground x then
    let entry := w.pipe.background.pixel x w.settings.fineX.val
    if entry % 4 = 0 then 0 else entry
  else 0

def objectPixel? (x : Nat) (w : Works κ) : Option ObjectPixel :=
  if w.settings.visibility.showsObjects x then w.strips.pixel? x else none

/-- Whether a dot draws a hit. -/
def hits (line : Line) (dot : Nat) (w : Works κ) : Bool :=
  match line with
  | .preRender => false
  | .visible _ => decide (dot ≤ screenWidth)
    && touches (dot - 1) (w.backgroundEntry (dot - 1)) (w.objectPixel? (dot - 1))

/-- Whether a dot finds an object too many. -/
def overflows (line : Line) (dot : Nat) (limit : SpriteLimit) (w : Works κ) : Bool :=
  match line with
  | .preRender => false
  | .visible y => w.evaluation.overflowsOn ((w.scene limit).inputs y.val) w.objectAddress dot

end Works

/-- The flags after a dot that hits, or finds an object too many. -/
def Status.raise (hit overflow : Bool) (s : Status) : Status :=
  { s with zeroHit := s.zeroHit || hit, overflow := s.overflow || overflow }

theorem Status.raise_false (s : Status) : s.raise false false = s := by
  simp [raise]

namespace Circuit

variable {κ : Type}

/-- The flags once the pre-render line has cleared them. -/
def statusAt (line : Line) (dot : Nat) (c : Circuit κ) : Status :=
  if line = .preRender ∧ dot = 1 then .clear else c.registers.status

theorem clearFlags_status (line : Line) (dot : Nat) (c : Circuit κ) :
    (c.clearFlags line dot).registers.status = c.statusAt line dot := by
  unfold clearFlags statusAt
  split <;> rfl

theorem drawDot_status {c : Circuit κ} (hr : c.registers.mask.rendering = true) (line : Line)
    (dot : Nat) : (c.drawDot line dot).registers.status
      = c.registers.status.raise (c.works.hits line dot) false := by
  cases line with
  | preRender => exact (Status.raise_false _).symm
  | visible y =>
    by_cases inside : dot ≤ screenWidth
    · have hits : c.works.hits (.visible y) dot
          = touches (dot - 1) (c.backgroundEntry (dot - 1)) (c.objectPixel? (dot - 1)) := by
        rw [Works.hits, decide_eq_true inside, Bool.true_and]
        rfl
      rw [drawDot, if_pos inside, drawPixel, if_pos hr, drawRendered, hits]
      split
      · next hit =>
        rw [hit]
        simp [Status.raise, withStatus, withRegisters, draw]
      · next miss =>
        rw [Bool.not_eq_true] at miss
        rw [miss, Status.raise_false]
        rfl
    · rw [drawDot, if_neg inside, Works.hits, decide_eq_false inside, Bool.false_and,
        Status.raise_false]

theorem drawDot_status_off {c : Circuit κ} (hr : c.registers.mask.rendering = false) (line : Line)
    (dot : Nat) : (c.drawDot line dot).registers.status = c.registers.status := by
  cases line with
  | preRender => rfl
  | visible y =>
    rw [drawDot, drawPixel, hr]
    split <;> rfl

theorem concludeSearch_status (result : Evaluation × Bool) (c : Circuit κ) :
    (c.concludeSearch result).registers.status = c.registers.status.raise false result.2 := by
  obtain ⟨e, overflow⟩ := result
  cases overflow <;> simp [concludeSearch, Status.raise, withStatus, withRegisters]

theorem searching_status (line : Line) (dot : Nat) (limit : SpriteLimit) (c : Circuit κ) :
    (c.searching line dot limit).registers.status
      = c.registers.status.raise false (c.works.overflows line dot limit) := by
  cases line with
  | preRender => exact (Status.raise_false _).symm
  | visible y =>
    unfold searching evaluate Works.overflows Evaluation.overflowsOn
    dsimp only
    by_cases after : 256 < dot
    · rw [if_pos after, if_pos (.inl after), Status.raise_false]
    by_cases before : dot ≤ 64
    · rw [if_neg after, if_pos before, if_pos (.inr before), Status.raise_false]
    have inside : ¬ (256 < dot ∨ dot ≤ 64) := fun h => h.elim after before
    rw [if_neg after, if_neg before, if_neg inside]
    by_cases first : dot = 65
    · subst first
      exact concludeSearch_status _ _
    rw [if_neg first, if_neg first]
    by_cases odd : dot % 2 = 1
    · rw [if_pos odd, if_pos odd]
      exact concludeSearch_status _ c
    rw [if_neg odd, if_neg odd]
    by_cases last : dot = 256 ∧ limit = .unlimited
    · rw [if_pos last, if_pos (by exact last)]
      exact concludeSearch_status _ c
    · rw [if_neg last, if_neg (by exact last), Status.raise_false]

variable [Cartridge κ]

theorem blankStart_status (line : Line) (dot : Nat) (c : Circuit κ) :
    (if dot = objectFetchStart then c.blankStart line else c).registers.status
      = c.registers.status := by
  split <;> rfl

/-- The flags after a rendered dot. -/
theorem dot_status {c : Circuit κ} (hr : c.registers.mask.rendering = true) (line : Line)
    {dot : Nat} (hd : dot ≠ 0) (cycle : Nat) (limit : SpriteLimit) :
    (c.dot line dot cycle limit).registers.status
      = (c.statusAt line dot).raise (c.works.hits line dot) (c.works.overflows line dot limit) := by
  have cleared := clearFlags_works line dot c
  have drawn := drawn_works line dot c
  have rendering : (c.clearFlags line dot).registers.mask.rendering = true := by
    have kept := congrArg (·.settings.mask.rendering) cleared
    exact kept.trans hr
  have still : ((c.clearFlags line dot).drawDot line dot).registers.mask.rendering = true := by
    have kept := congrArg (·.settings.mask.rendering) drawn
    exact kept.trans hr
  rw [Circuit.dot, if_neg hd]
  dsimp only
  rw [blankStart_status, if_pos still, render_status, searching_status, drawDot_status rendering,
    clearFlags_status, drawn, cleared]
  simp only [Status.raise, Bool.or_false]

/-- The flags after a dot that renders nothing. -/
theorem dot_status_off {c : Circuit κ} (hr : c.registers.mask.rendering = false) (line : Line)
    {dot : Nat} (hd : dot ≠ 0) (cycle : Nat) (limit : SpriteLimit) :
    (c.dot line dot cycle limit).registers.status = c.statusAt line dot := by
  have cleared := clearFlags_works line dot c
  have drawn := drawn_works line dot c
  have off : (c.clearFlags line dot).registers.mask.rendering = false := by
    have kept := congrArg (·.settings.mask.rendering) cleared
    exact kept.trans hr
  have still : ¬ ((c.clearFlags line dot).drawDot line dot).registers.mask.rendering = true := by
    have kept := congrArg (·.settings.mask.rendering) drawn
    exact Bool.not_eq_true _ ▸ kept.trans hr
  rw [Circuit.dot, if_neg hd]
  dsimp only
  rw [blankStart_status, if_neg still, drawDot_status_off off, clearFlags_status]

end Circuit

end PictureUnit
