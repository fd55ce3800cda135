import PictureUnit.Proofs.Flags
import PictureUnit.Proofs.Secondary

/-!
# The works are renewed

The works forget. An unbroken run of rendered dots fetches the strips and the tiles anew from the
object fetches to the end of a line, and another one, from the start of a visible line, begins the
search anew in a memory that it has cleared. So two works that agree in all that is saved come to
agree in everything: what is still left of before is told by how far they have been renewed.
-/

set_option autoImplicit false

namespace PictureUnit

/-- How much of the works owes nothing to what was left in them. -/
structure Trust where
  /-- The dot of the present line since which all were rendered. -/
  since : Nat
  /-- The byte that the object data register shows was latched anew. -/
  latch : Bool
  /-- A search has begun, so where it stands is known. -/
  walk : Bool
  /-- It has begun in a memory that was cleared, so what it finds is known. -/
  search : Bool
  /-- The strips and the tiles were fetched after that, or there are no strips. -/
  pixels : Bool
  /-- The overflow flag comes from known searches alone. -/
  overflow : Bool
  /-- The hit flag comes from such pixels alone. -/
  hit : Bool
  /-- The bits on the data lines that owe nothing to what was left. -/
  lines : UInt8
  deriving DecidableEq, Repr

namespace Trust

/-- Between two frames nothing is left in the flags. -/
def saved : Trust := ⟨0, false, false, false, false, true, true, 0xFF⟩

/-- All flags are trusted. -/
def flags (t : Trust) : Bool := t.overflow && t.hit

/-- Whether it is known where the search stands, when a dot is done. -/
def walkAfter (line : Line) (dot : Nat) (t : Trust) : Bool :=
  t.walk || decide (line ≠ .preRender ∧ dot = 65)

/-- Whether the search has begun anew, when a dot is done. -/
def searchAfter (line : Line) (dot : Nat) (t : Trust) : Bool :=
  t.search || decide (line ≠ .preRender ∧ dot = 65 ∧ t.since ≤ 1)

/-- Whether the latch is known, when a dot is done: the clearing and the search put their own bytes
into it, and the object fetches those of the secondary memory. -/
def latchAfter (line : Line) (dot : Nat) (t : Trust) : Bool :=
  if objectFetchStart ≤ dot ∧ dot ≤ objectFetchEnd then t.search
  else if line = .preRender ∨ objectFetchEnd < dot then t.latch
  else if dot ≤ 64 then t.latch || decide (dot % 2 = 1)
  else t.walkAfter line dot && (t.latch || decide (dot = 65))

/-- What a rendered dot adds, and what it mixes with what is left. -/
def render (line : Line) (dot : Nat) (t : Trust) : Trust :=
  let search := t.searchAfter line dot
  let fetched := decide (line = .preRender) || search
  { t with
    latch := t.latchAfter line dot
    walk := t.walkAfter line dot
    search := search
    pixels := if dot = objectFetchStart ∧ fetched = false then false
      else t.pixels || (fetched && decide (dot = 336 ∧ t.since ≤ objectFetchStart))
    overflow := t.overflow
      && (decide (line = .preRender ∨ dot ≤ 64 ∨ 256 < dot) || t.walkAfter line dot)
    hit := t.hit && (decide (line = .preRender ∨ 256 < dot) || t.pixels) }

/-- What a dot of a line changes. -/
def dot (line : Line) (dot : Nat) (rendering : Bool) (t : Trust) : Trust :=
  let t := if line = .preRender ∧ dot = 1 then { t with overflow := true, hit := true } else t
  if dot = 0 then { t with since := 0 }
  else if rendering then t.render line dot
  else { t with since := dot + 1 }

end Trust

theorem Block.eq_filled {size : Nat} {b : Block size} {value : UInt8}
    (h : ∀ i < size, b.load i = value) : b = .filled size value := by
  apply Vector.ext
  intro i hi
  have here := h i hi
  rw [load, Vector.getElem?_eq_getElem hi, Option.getD_some] at here
  rw [here, filled, Vector.getElem_replicate]

namespace Evaluation

/-- The clearing of a line has come to a dot. -/
structure Cleared (limit : SpriteLimit) (d : Nat) (e : Evaluation) : Prop where
  inside : d ≤ 65
  latch : 2 ≤ d → e.latch = 0xFF
  bytes : ∀ i < (d - 1) / 2, e.secondary.load i = 0xFF
  all : d = 65 → limit = .unlimited → e.secondary = .filled 256 0xFF

variable {limit : SpriteLimit} {d : Nat} {e : Evaluation}

theorem cleared_zero (limit : SpriteLimit) (e : Evaluation) : e.Cleared limit 0 :=
  ⟨Nat.zero_le _, fun h => absurd h (by decide), fun i hi => (by omega), fun h => (by cases h)⟩

theorem cleared_one (limit : SpriteLimit) (e : Evaluation) : e.Cleared limit 1 :=
  ⟨by decide, fun h => absurd h (by decide), fun i hi => (by omega), fun h => (by cases h)⟩

theorem Cleared.next (h : e.Cleared limit d) (hd : 1 ≤ d ∧ d ≤ 64) :
    (e.clearStep d limit).Cleared limit (d + 1) := by
  unfold clearStep
  by_cases odd : d % 2 = 1
  · rw [if_pos odd]
    refine ⟨by omega, fun _ => rfl, fun i hi => h.bytes i (by omega), fun last => by omega⟩
  · have latch := h.latch (by omega)
    rw [if_neg odd]
    by_cases last : d = 64 ∧ limit = .unlimited
    · rw [if_pos last]
      exact ⟨by omega, fun _ => latch, fun i hi => Block.load_filled 0xFF i (by omega),
        fun _ _ => rfl⟩
    · rw [if_neg last]
      refine ⟨by omega, fun _ => latch, fun i hi => ?_, fun hd hl => absurd ⟨by omega, hl⟩ last⟩
      have before := h.bytes i
      grind

/-- The whole secondary memory is clear when the search begins. -/
theorem Cleared.filled (h : e.Cleared limit 65) (hb : e.Bounded limit) :
    e.secondary = .filled 256 0xFF := by
  cases limit with
  | unlimited => exact h.all rfl rfl
  | hardware =>
    apply Block.eq_filled
    intro i hi
    by_cases low : i < 32
    · exact h.bytes i low
    · exact hb.rest i (Nat.not_lt.mp low) hi

/-- A search that begins in a cleared memory owes nothing to the one before. -/
theorem start_congr {f : Evaluation} (address : UInt8) (hl : f.latch = e.latch)
    (hs : f.secondary = e.secondary) : f.start address = e.start address := by
  rw [start, start, hl, hs]

variable {f : Evaluation}

/-- Two searches that stand at the same place. What they have latched and written may differ. -/
def Walks (e f : Evaluation) : Prop := f = { e with latch := f.latch, secondary := f.secondary }

theorem walks_of_eq (h : f = e) : e.Walks f := by
  subst h
  rfl

theorem Walks.search (h : e.Walks f) : f.search = e.search := by
  rw [Walks] at h
  rw [h]

/-- A search begins where the object address says. -/
theorem start_walks (address : UInt8) (e f : Evaluation) :
    (e.start address).Walks (f.start address) := rfl

theorem Walks.stop (h : e.Walks f) : e.stop.Walks f.stop := by
  rw [Walks] at h ⊢
  rw [h]
  rfl

theorem Walks.latched (h : e.Walks f) (own other : UInt8) :
    Walks { e with latch := own } { f with latch := other } := by
  rw [Walks] at h ⊢
  rw [h]

theorem Walks.clearStep (h : e.Walks f) (d : Nat) (limit : SpriteLimit) :
    (e.clearStep d limit).Walks (f.clearStep d limit) := by
  rw [Walks] at h ⊢
  rw [h]
  unfold Evaluation.clearStep
  split
  · rfl
  · split <;> rfl

/-- Each step looks at object memory alone, and latches what it finds there. -/
theorem Walks.step (h : e.Walks f) (i : Inputs) :
    (e.step i).Walks (f.step i)
      ∧ (f.latch = e.latch ∨ e.search ≠ .resting → (f.step i).latch = (e.step i).latch) := by
  rw [Walks] at h
  generalize f.latch = latch at h ⊢
  generalize f.secondary = secondary at h
  subst h
  have hits : e.hits i = Evaluation.hits i { e with latch := latch, secondary := secondary } := rfl
  cases hs : e.search with
  | resting =>
    simp only [Evaluation.step, hs]
    exact ⟨by rw [Walks, hs], fun same => same.resolve_right fun moves => moves rfl⟩
  | copyingTile | copyingAttributes | copyingX | finished =>
    simp only [Evaluation.step, hs]
    exact ⟨rfl, fun _ => rfl⟩
  | comparing =>
    simp only [Evaluation.step, hs, compare, hits]
    split <;> exact ⟨rfl, fun _ => rfl⟩
  | scanning =>
    simp only [Evaluation.step, hs, scan, hits]
    split <;> exact ⟨rfl, fun _ => rfl⟩
  | skipping remaining =>
    simp only [Evaluation.step, hs, skip]
    by_cases last : e.byte = 3
    · simp only [last, if_true]
      split <;> exact ⟨rfl, fun _ => rfl⟩
    · simp only [last, if_false]
      split <;> exact ⟨rfl, fun _ => rfl⟩

theorem Walks.overflows (h : e.Walks f) (i : Inputs) : f.overflows i = e.overflows i := by
  rw [Walks] at h
  rw [h]
  rfl

theorem Walks.steps (h : e.Walks f) (i : Inputs) (n : Nat) :
    (e.steps i n).1.Walks (f.steps i n).1 ∧ (f.steps i n).2 = (e.steps i n).2
      ∧ (f.latch = e.latch → (f.steps i n).1.latch = (e.steps i n).1.latch) := by
  induction n generalizing e f with
  | zero => exact ⟨h, rfl, id⟩
  | succ n ih =>
    have done : f.isDone = e.isDone := by rw [isDone, isDone, h.search]
    rw [Evaluation.steps, Evaluation.steps, done]
    split
    · exact ⟨h, rfl, id⟩
    · obtain ⟨walks, overflow, latch⟩ := ih (h.step i).1
      dsimp only
      rw [h.overflows i, overflow]
      exact ⟨walks, rfl, fun same => latch ((h.step i).2 (.inl same))⟩

/-- A dot of the search. -/
theorem Walks.onDot {d : Nat} (hd : 65 ≤ d ∧ d ≤ 256) (h : d = 65 ∨ e.Walks f) (i : Inputs)
    (address : UInt8) : (e.onDot i address d).Walks (f.onDot i address d)
      ∧ f.overflowsOn i address d = e.overflowsOn i address d
      ∧ (d = 65 ∨ f.latch = e.latch →
        (f.onDot i address d).latch = (e.onDot i address d).latch) := by
  rcases Nat.eq_or_lt_of_le hd.1 with rfl | later
  · have begun := start_walks address e f
    exact ⟨(begun.step i).1, begun.overflows i, fun _ => (begun.step i).2 (.inr Search.noConfusion)⟩
  have other : d ≠ 65 := Nat.ne_of_gt later
  have walks := h.resolve_left other
  have inside : ¬ (256 < d ∨ d ≤ 64) := by omega
  rw [onDot_searching i ⟨later, hd.2⟩, onDot_searching i ⟨later, hd.2⟩]
  rw [or_iff_right other]
  simp only [overflowsOn, if_neg inside, if_neg other]
  split
  · exact ⟨(walks.step i).1, walks.overflows i, fun same => (walks.step i).2 (.inl same)⟩
  split
  · exact walks.steps i (objectCount * 4)
  · exact ⟨walks, rfl, id⟩
end Evaluation

namespace Scene

variable (s : Scene) (line : Line)

/-- The secondary memory is only read for slots that are pending. -/
theorem select_congr {a b : Block 256} {strips : Strips} (h : b = a ∨ strips.pending = 0)
    (slot : Nat) : strips.select slot b = strips.select slot a := by
  rcases h with rfl | none
  · rfl
  · have outside : ¬ slot < strips.pending := by omega
    rw [Strips.select, Strips.select, if_neg outside, if_neg outside]

theorem slotDot_congr {a b : Block 256} {strips : Strips} (h : b = a ∨ strips.pending = 0)
    (tile slot : Nat) (phase : Phase) (bus : Nat) :
    s.slotDot line b tile slot phase (strips, bus) = s.slotDot line a tile slot phase (strips, bus) := by
  cases phase with
  | openName =>
    rw [slotDot, slotDot]
    exact congrArg (·, tile) (select_congr h slot)
  | _ => rfl

theorem slotDot_pending (a : Block 256) (tile slot : Nat) (phase : Phase) (p : Strips × Nat) :
    (s.slotDot line a tile slot phase p).1.pending = p.1.pending := by
  cases phase with
  | high =>
    simp only [slotDot, Strips.commit]
    split <;> rfl
  | _ => rfl

theorem fetchExtras_congr {a b : Block 256} {strips : Strips} (h : b = a ∨ strips.pending = 0) :
    s.fetchExtras line b strips = s.fetchExtras line a strips := by
  rcases h with rfl | none
  · rfl
  · have few : strips.pending - SpriteLimit.hardware.perLine = 0 := by omega
    simp only [fetchExtras, few]
    rfl

theorem fetchExtras_pending (a : Block 256) (strips : Strips) :
    (s.fetchExtras line a strips).pending = strips.pending :=
  List.foldlRecOn (motive := fun t : Strips => t.pending = strips.pending) _ _ rfl fun t kept slot _ =>
    (s.fetchSlot_pending line a t slot).1.trans kept

end Scene

namespace Works

variable {κ : Type} {limit : SpriteLimit} {line : Line} {d : Nat} {v w : Works κ}

theorem dot_tile (hd : 1 ≤ d ∧ d ≤ 256 ∨ 321 ≤ d ∧ d ≤ 336) (w : Works κ) :
    w.dot line d limit = w.tileDot line d limit := by
  rw [Works.dot, if_neg (by omega), if_pos (by omega)]

theorem dot_slot (hd : 257 ≤ d ∧ d ≤ 320) (w : Works κ) :
    w.dot line d limit = (w.handed line d).slotDot line d limit := by
  rw [Works.dot, if_neg (by omega), if_neg (by omega), if_pos (by omega)]

theorem dot_rest (hd : 337 ≤ d) (w : Works κ) : w.dot line d limit = w.restDot d := by
  rw [Works.dot, if_neg (by omega), if_neg (by omega), if_neg (by omega)]

/-- The four kinds of dots. -/
theorem dot_kinds (d : Nat) :
    d = 0 ∨ (1 ≤ d ∧ d ≤ 256 ∨ 321 ≤ d ∧ d ≤ 336) ∨ (257 ≤ d ∧ d ≤ 320) ∨ 337 ≤ d := by
  omega

/-- What the processor sets up, and what the fetches have made of it, is the same. Only the byte on
the data lines may be another one. -/
structure Level (v w : Works κ) : Prop where
  settings : w.settings = { v.settings with lines := w.settings.lines }
  banks : w.banks = v.banks
  cartridge : w.cartridge = v.cartridge
  objectAddress : w.objectAddress = v.objectAddress
  current : w.pipe.current = v.pipe.current

theorem Level.scene (h : v.Level w) (limit : SpriteLimit) : w.scene limit = v.scene limit := by
  rw [Works.scene, Works.scene, h.settings, h.banks]

theorem tile_current {s : Scene} {p q : Pipe} (h : q.current = p.current) (phase : Phase) (d : Nat) :
    (q.tile s phase d).current = (p.tile s phase d).current := by
  cases phase with
  | high => simp only [Pipe.tile, h]
  | _ => exact h

theorem handed_keeps (line : Line) (d : Nat) (w : Works κ) :
    (w.handed line d).settings = w.settings ∧ (w.handed line d).banks = w.banks
      ∧ (w.handed line d).evaluation.secondary = w.evaluation.secondary := by
  unfold handed
  split <;> exact ⟨rfl, rfl, rfl⟩

theorem Level.dot (h : v.Level w) (line : Line) (d : Nat) (limit : SpriteLimit) :
    (v.dot line d limit).Level (w.dot line d limit) := by
  obtain ⟨vs, vb, vc⟩ := v.dot_keeps line d limit
  obtain ⟨ws, wb, wc⟩ := w.dot_keeps line d limit
  refine ⟨by rw [vs, ws]; exact h.settings, by rw [vb, wb, h.banks], by rw [vc, wc, h.cartridge],
    ?_, ?_⟩
  · rcases dot_kinds d with rfl | tile | slot | rest
    · exact h.objectAddress
    · rw [dot_tile tile, dot_tile tile]
      exact (w.search_keeps line d limit).2.trans
        (h.objectAddress.trans (v.search_keeps line d limit).2.symm)
    · rw [dot_slot slot, dot_slot slot]
      rfl
    · rw [dot_rest rest, dot_rest rest]
      unfold restDot
      split <;> exact h.objectAddress
  · rcases dot_kinds d with rfl | tile | slot | rest
    · exact h.current
    · rw [dot_tile tile, dot_tile tile, tileDot, tileDot, h.scene]
      exact tile_current h.current _ d
    · rw [dot_slot slot, dot_slot slot]
      have pending : w.settings.pending = v.settings.pending := by rw [h.settings]
      simp only [slotDot, handed_pipe, handed_keeps, pending, h.current]
    · rw [dot_rest rest, dot_rest rest]
      unfold restDot
      split <;> exact h.current

/-- The search over one dot, up to the object fetches. -/
theorem dot_evaluation_of_le (hd : 1 ≤ d ∧ d ≤ 256) (w : Works κ) :
    (w.dot line d limit).evaluation = (w.search line d limit).evaluation := by
  rw [dot_tile (.inl hd)]
  rfl

theorem dot_evaluation_of_slot (hd : 257 ≤ d ∧ d ≤ 320) (w : Works κ) :
    (w.dot line d limit).evaluation = { (w.handed line d).evaluation with
      latch := w.evaluation.secondary.load (slotPlace d) } := by
  rw [dot_slot hd, slotDot, (handed_keeps line d w).2.2]

theorem search_of_lt (hd : 256 < d) (w : Works κ) :
    (w.search line d limit).evaluation = w.evaluation := by
  cases line with
  | preRender => rfl
  | visible y => exact if_pos hd

theorem dot_evaluation_of_lt (hd : 320 < d) (w : Works κ) :
    (w.dot line d limit).evaluation = w.evaluation := by
  rcases dot_kinds d with rfl | tile | slot | rest
  · omega
  · rw [dot_tile tile]
    exact search_of_lt (by omega) w
  · omega
  · rw [dot_rest rest]
    unfold restDot
    split <;> rfl

/-- Where neither a search nor an object fetch is, the search stands still. -/
theorem dot_evaluation_of_rest (hl : line = .preRender ∨ 320 < d) (hd : d < 257 ∨ 320 < d)
    (w : Works κ) : (w.dot line d limit).evaluation = w.evaluation := by
  rcases hl with rfl | late
  · rcases Nat.eq_zero_or_pos d with rfl | pos
    · rfl
    rcases hd with early | late
    · exact dot_evaluation_of_le ⟨pos, Nat.le_of_lt_succ early⟩ w
    · exact dot_evaluation_of_lt late w
  · exact dot_evaluation_of_lt late w

theorem handed_evaluation (line : Line) (d : Nat) (w : Works κ) :
    (w.handed line d).evaluation
      = if d = objectFetchStart then w.evaluation.stop else w.evaluation := by
  unfold handed
  split <;> rfl

theorem dot_bounded (h : w.evaluation.Bounded limit) (line : Line) (d : Nat) :
    (w.dot line d limit).evaluation.Bounded limit := by
  rcases Nat.eq_zero_or_pos d with rfl | pos
  · exact h
  by_cases low : d ≤ 256
  · rw [dot_evaluation_of_le ⟨pos, low⟩]
    cases line with
    | preRender => exact h
    | visible y =>
      exact (Evaluation.bounded_invariant limit).onDot (i := (w.scene limit).inputs y.val) rfl h _ _
  by_cases slot : d ≤ 320
  · rw [dot_evaluation_of_slot ⟨by omega, slot⟩, handed_evaluation]
    refine Evaluation.latch_bounded ?_ _
    split
    · exact Evaluation.stop_bounded h
    · exact h
  · rw [dot_evaluation_of_lt (by omega)]
    exact h

/-- Equal searches stay equal. -/
theorem dot_evaluation (h : v.Level w) (he : w.evaluation = v.evaluation) (line : Line) (d : Nat)
    (limit : SpriteLimit) :
    (w.dot line d limit).evaluation = (v.dot line d limit).evaluation := by
  rcases Nat.eq_zero_or_pos d with rfl | pos
  · exact he
  by_cases low : d ≤ 256
  · rw [dot_evaluation_of_le ⟨pos, low⟩, dot_evaluation_of_le ⟨pos, low⟩]
    cases line with
    | preRender => exact he
    | visible y => simp only [search, he, h.scene, h.objectAddress]
  by_cases slot : d ≤ 320
  · rw [dot_evaluation_of_slot ⟨by omega, slot⟩, dot_evaluation_of_slot ⟨by omega, slot⟩,
      handed_evaluation, handed_evaluation, he]
  · rw [dot_evaluation_of_lt (by omega), dot_evaluation_of_lt (by omega), he]

theorem search_visible (y : Fin screenHeight) (d : Nat) (limit : SpriteLimit) (w : Works κ) :
    (w.search (.visible y) d limit).evaluation
      = w.evaluation.onDot ((w.scene limit).inputs y.val) w.objectAddress d := rfl

theorem dot_evaluation_clear {y : Fin screenHeight} (hd : 1 ≤ d ∧ d ≤ 64) (w : Works κ) :
    (w.dot (.visible y) d limit).evaluation = w.evaluation.clearStep d limit := by
  have inner : ¬ 256 < d := by omega
  rw [dot_evaluation_of_le (by omega), search_visible, Evaluation.onDot, if_neg inner, if_pos hd.2]
  rfl

/-- The search goes on from the same place, or begins. -/
theorem dot_searching (h : v.Level w) {y : Fin screenHeight} (hd : 65 ≤ d ∧ d ≤ 256)
    (walks : d = 65 ∨ v.evaluation.Walks w.evaluation) :
    (v.dot (.visible y) d limit).evaluation.Walks (w.dot (.visible y) d limit).evaluation
      ∧ w.overflows (.visible y) d limit = v.overflows (.visible y) d limit
      ∧ (d = 65 ∨ w.evaluation.latch = v.evaluation.latch →
        (w.dot (.visible y) d limit).evaluation.latch
          = (v.dot (.visible y) d limit).evaluation.latch) := by
  have inside : 1 ≤ d ∧ d ≤ 256 := by omega
  rw [dot_evaluation_of_le inside, dot_evaluation_of_le inside, search_visible, search_visible,
    Works.overflows, Works.overflows, h.scene, h.objectAddress]
  exact Evaluation.Walks.onDot hd walks _ _

/-- Searches that stand at the same place go on to the same place. -/
theorem dot_walks (h : v.Level w) (line : Line) (d : Nat) (limit : SpriteLimit)
    (walks : v.evaluation.Walks w.evaluation ∨ line ≠ .preRender ∧ d = 65) :
    (v.dot line d limit).evaluation.Walks (w.dot line d limit).evaluation := by
  rcases Nat.eq_zero_or_pos d with rfl | pos
  · exact walks.resolve_right fun begins => absurd begins.2 (by decide)
  by_cases low : d ≤ 256
  · cases line with
    | preRender =>
      rw [dot_evaluation_of_le ⟨pos, low⟩, dot_evaluation_of_le ⟨pos, low⟩]
      exact walks.resolve_right fun begins => begins.1 rfl
    | visible y =>
      by_cases clears : d ≤ 64
      · rw [dot_evaluation_clear ⟨pos, clears⟩, dot_evaluation_clear ⟨pos, clears⟩]
        exact (walks.resolve_right fun begins => by omega).clearStep d limit
      · exact (dot_searching h ⟨by omega, low⟩ (walks.symm.imp_left And.right)).1
  have going := walks.resolve_right fun begins => by omega
  by_cases slot : d ≤ 320
  · rw [dot_evaluation_of_slot ⟨by omega, slot⟩, dot_evaluation_of_slot ⟨by omega, slot⟩,
      handed_evaluation, handed_evaluation]
    apply Evaluation.Walks.latched
    split
    · exact going.stop
    · exact going
  · rw [dot_evaluation_of_lt (by omega), dot_evaluation_of_lt (by omega)]
    exact going

/-- On the first dot of the search two cleared memories become one search. -/
theorem dot_evaluation_of_cleared (h : v.Level w) (y : Fin screenHeight)
    (hv : v.evaluation.Cleared limit 65) (hw : w.evaluation.Cleared limit 65)
    (bv : v.evaluation.Bounded limit) (bw : w.evaluation.Bounded limit) :
    (w.dot (.visible y) 65 limit).evaluation = (v.dot (.visible y) 65 limit).evaluation := by
  have latch : w.evaluation.latch = v.evaluation.latch := by
    rw [hw.latch (by decide), hv.latch (by decide)]
  have secondary : w.evaluation.secondary = v.evaluation.secondary := by
    rw [hw.filled bw, hv.filled bv]
  have started := Evaluation.start_congr v.objectAddress latch secondary
  have searched (u : Works κ) : (u.dot (.visible y) 65 limit).evaluation
      = (u.evaluation.start u.objectAddress).step ((u.scene limit).inputs y.val) := by
    rw [dot_evaluation_of_le (by decide)]
    rfl
  rw [searched, searched, h.objectAddress, started, h.scene]

end Works

end PictureUnit
