import Mathlib.Tactic.IntervalCases
import PictureUnit.Proofs.Renewal

/-!
# Works that are alike

Two works are alike when they differ only in what the one at hand has not yet renewed. A dot keeps them
alike: what a fetch reads has been fetched before in the same run, so what was left in the latches is
never looked at.
-/

set_option autoImplicit false

namespace PictureUnit

namespace Trust

variable {line : Line} {d : Nat}

/-- A dot that is not rendered ends the unbroken run. -/
theorem dot_idle (line : Line) {rendering : Bool} (hr : d = 0 ∨ rendering = false) (t : Trust) :
    (t.dot line d rendering).latch = t.latch ∧ (t.dot line d rendering).walk = t.walk
      ∧ (t.dot line d rendering).search = t.search ∧ (t.dot line d rendering).pixels = t.pixels
      ∧ (t.dot line d rendering).since = if d = 0 then 0 else d + 1 := by
  by_cases first : d = 0
  · subst first
    simp [dot]
  · have off : rendering = false := hr.resolve_left first
    subst off
    simp only [dot, if_neg first, Bool.false_eq_true, if_false]
    split <;> exact ⟨rfl, rfl, rfl, rfl, trivial⟩

theorem dot_rendered (line : Line) (hd : d ≠ 0) (t : Trust) :
    (t.dot line d true).latch = t.latchAfter line d
      ∧ (t.dot line d true).walk = t.walkAfter line d
      ∧ (t.dot line d true).search = t.searchAfter line d
      ∧ (t.dot line d true).since = t.since
      ∧ (t.dot line d true).pixels
        = if d = objectFetchStart ∧ (decide (line = .preRender) || t.searchAfter line d) = false
          then false
          else t.pixels || ((decide (line = .preRender) || t.searchAfter line d)
            && decide (d = 336 ∧ t.since ≤ objectFetchStart)) := by
  simp only [dot, if_neg hd, if_true]
  split <;> exact ⟨rfl, rfl, rfl, rfl, rfl⟩

end Trust

namespace Pipe

/-- What the tile fetches at the end of a line have filled before a dot. -/
def filled (d : Nat) (p : Pipe) : Pipe :=
  { p with
    background :=
      { name := if 323 ≤ d then p.background.name else 0
        palette := if 325 ≤ d then p.background.palette else 0
        row :=
          ⟨if 327 ≤ d then p.background.row.low else 0, if 329 ≤ d then p.background.row.high else 0⟩
        even := if 329 ≤ d then p.background.even else .empty
        odd := if 337 ≤ d then p.background.odd else .empty } }

theorem filled_of_le {d : Nat} (hd : 337 ≤ d) (p : Pipe) : p.filled d = p := by
  have far {n : Nat} (hn : n ≤ 337) : n ≤ d := Nat.le_trans hn hd
  simp only [filled, if_pos (far (n := 323) (by decide)), if_pos (far (n := 325) (by decide)),
    if_pos (far (n := 327) (by decide)), if_pos (far (n := 329) (by decide)), if_pos hd]

theorem filled_of_lt {d : Nat} (hd : d < 323) (p : Pipe) : p.filled d = ⟨.empty, p.current, p.bus⟩ := by
  have near {n : Nat} (hn : 323 ≤ n) : ¬ n ≤ d := by omega
  simp only [filled, if_neg (near (n := 323) (by decide)), if_neg (near (n := 325) (by decide)),
    if_neg (near (n := 327) (by decide)), if_neg (near (n := 329) (by decide)),
    if_neg (near (n := 337) (by decide))]
  rfl

/-- A tile fetch at the end of a line reads nothing that it has not filled. -/
theorem tile_filled (s : Scene) {d : Nat} (hd : 321 ≤ d ∧ d ≤ 336) (p : Pipe) :
    ((p.filled d).tile s (.ofIndex (d - 1)) d).filled (d + 1)
      = (p.tile s (.ofIndex (d - 1)) d).filled (d + 1) := by
  obtain ⟨first, last⟩ := hd
  interval_cases d <;> rfl

theorem tile_filled_congr {s : Scene} {d : Nat} (hd : 321 ≤ d ∧ d ≤ 336) {p q : Pipe}
    (h : q.filled d = p.filled d) :
    (q.tile s (.ofIndex (d - 1)) d).filled (d + 1)
      = (p.tile s (.ofIndex (d - 1)) d).filled (d + 1) := by
  rw [← tile_filled s hd q, h, tile_filled s hd p]

end Pipe

namespace Strips

/-- What the object fetches have filled before a dot. -/
def filled (d : Nat) (s : Strips) : Strips := { s with low := if 263 ≤ d then s.low else 0 }

theorem filled_of_le {d : Nat} (hd : 263 ≤ d) (s : Strips) : s.filled d = s := by
  rw [filled, if_pos hd]

end Strips

namespace Scene

/-- An object fetch reads nothing that it has not filled. -/
theorem slotDot_filled (s : Scene) (line : Line) (a : Block 256) (tile slot : Nat) {d : Nat}
    (hd : 258 ≤ d) (p : Strips × Nat) :
    let fetched := s.slotDot line a tile slot (.ofIndex (d - 257)) p
    let again := s.slotDot line a tile slot (.ofIndex (d - 257)) (p.1.filled d, p.2)
    again.1.filled (d + 1) = fetched.1.filled (d + 1) ∧ again.2 = fetched.2 := by
  by_cases late : 263 ≤ d
  · rw [Strips.filled_of_le late]
    exact ⟨rfl, rfl⟩
  · have early : d ≤ 262 := by omega
    interval_cases d <;> exact ⟨rfl, rfl⟩

end Scene

namespace Works

variable {κ : Type} {limit : SpriteLimit} {line : Line} {d : Nat} {t : Trust} {p : Position}
  {v w : Works κ}

/-- Two works that differ only in what is not yet renewed. -/
structure Alike (limit : SpriteLimit) (t : Trust) (p : Position) (v w : Works κ) : Prop where
  level : v.Level w
  bounded : v.evaluation.Bounded limit ∧ w.evaluation.Bounded limit
  latch : t.latch = true → w.evaluation.latch = v.evaluation.latch
  walk : t.walk = true → v.evaluation.Walks w.evaluation
  search : t.search = true → w.evaluation = v.evaluation
  clearing : ∀ y d, p = .raster (.visible y) d → t.search = false → t.since ≤ 1 →
    v.evaluation.Cleared limit d ∧ w.evaluation.Cleared limit d
  pixels : t.pixels = true → w.strips = v.strips ∧ w.pipe = v.pipe
    ∧ (t.search = false → v.strips.pending = 0)
  fetching : ∀ line d, p = .raster line d → 257 < d → d ≤ 336 → t.since ≤ 257 →
    line = .preRender ∨ t.search = true →
      w.strips.filled d = v.strips.filled d ∧ w.pipe.filled d = v.pipe.filled d
        ∧ (t.search = false → v.strips.pending = 0)

/-- In the blank, works that agree in all that is saved are alike. -/
theorem Level.alike (h : v.Level w)
    (bounded : v.evaluation.Bounded limit ∧ w.evaluation.Bounded limit) :
    Alike limit .saved .blank v w where
  level := h
  bounded := bounded
  latch trusted := by cases trusted
  walk trusted := by cases trusted
  search trusted := by cases trusted
  clearing _ _ here := by cases here
  pixels trusted := by cases trusted
  fetching _ _ here := by cases here

/-- The slots read from one secondary memory, or none of them is pending. -/
theorem Alike.held (h : Alike limit t p v w) (pending : t.search = false → v.strips.pending = 0) :
    w.evaluation.secondary = v.evaluation.secondary ∨ v.strips.pending = 0 := by
  cases searched : t.search with
  | true => exact .inl (congrArg Evaluation.secondary (h.search searched))
  | false => exact .inr (pending searched)

theorem Level.handed (h : v.Level w) (line : Line) (d : Nat) :
    (v.handed line d).Level (w.handed line d) := by
  unfold Works.handed
  split
  · exact ⟨h.settings, h.banks, h.cartridge, h.objectAddress, h.current⟩
  · exact h

/-- Equal strips stay equal while the slots are fetched. -/
theorem Level.slotDot_same (h : v.Level w) (line : Line) (d : Nat) (limit : SpriteLimit)
    (strips : w.strips = v.strips) (bus : w.pipe.bus = v.pipe.bus)
    (held : w.evaluation.secondary = v.evaluation.secondary ∨ v.strips.pending = 0) :
    (w.slotDot line d limit).strips = (v.slotDot line d limit).strips
      ∧ (w.slotDot line d limit).pipe.bus = (v.slotDot line d limit).pipe.bus := by
  have fetched := (v.scene limit).slotDot_congr line held v.pipe.current.tileAddress (objectSlot d)
    (.ofIndex (d - 257)) v.pipe.bus
  have kept := (v.scene limit).slotDot_pending line v.evaluation.secondary
    v.pipe.current.tileAddress (objectSlot d) (.ofIndex (d - 257)) (v.strips, v.pipe.bus)
  simp only [Works.slotDot, h.scene, h.current, bus, strips, fetched]
  rw [(v.scene limit).fetchExtras_congr line (held.imp_right kept.trans)]
  exact ⟨rfl, trivial⟩

/-- The slots are fetched alike from strips that are alike. -/
theorem Level.slotDot_filled (h : v.Level w) (line : Line) (limit : SpriteLimit) (hd : 258 ≤ d)
    (strips : w.strips.filled d = v.strips.filled d) (bus : w.pipe.bus = v.pipe.bus)
    (held : w.evaluation.secondary = v.evaluation.secondary ∨ v.strips.pending = 0) :
    (w.slotDot line d limit).strips.filled (d + 1) = (v.slotDot line d limit).strips.filled (d + 1)
      ∧ (w.slotDot line d limit).pipe.bus = (v.slotDot line d limit).pipe.bus := by
  by_cases late : 263 ≤ d
  · rw [Strips.filled_of_le late, Strips.filled_of_le late] at strips
    obtain ⟨same, driven⟩ := h.slotDot_same line d limit strips bus held
    exact ⟨congrArg (Strips.filled (d + 1)) same, driven⟩
  · have inner : d ≠ objectFetchEnd := by
      simp only [objectFetchEnd]
      omega
    have pending : w.strips.pending = v.strips.pending := by
      have kept := congrArg Strips.pending strips
      exact kept
    have own := (v.scene limit).slotDot_filled line v.evaluation.secondary v.pipe.current.tileAddress
      (objectSlot d) hd (v.strips, v.pipe.bus)
    have other := (v.scene limit).slotDot_filled line v.evaluation.secondary
      v.pipe.current.tileAddress (objectSlot d) hd (w.strips, v.pipe.bus)
    dsimp only at own other
    rw [strips] at other
    simp only [Works.slotDot, if_neg inner, h.scene, h.current, bus]
    rw [Scene.slotDot_congr _ _ (held.imp_right pending.trans)]
    exact ⟨other.1.symm.trans own.1, other.2.symm.trans own.2⟩

/-- On the first dot of the object fetches nothing is read that was left. -/
theorem Level.slotDot_first (h : v.Level w) (limit : SpriteLimit)
    (fetched : line = .preRender ∨ w.evaluation = v.evaluation) :
    ((w.handed line 257).slotDot line 257 limit).strips.filled 258
        = ((v.handed line 257).slotDot line 257 limit).strips.filled 258
      ∧ ((w.handed line 257).slotDot line 257 limit).pipe.bus
        = ((v.handed line 257).slotDot line 257 limit).pipe.bus := by
  have selected (u : Works κ) :
      ((u.handed line 257).slotDot line 257 limit).strips.filled 258
          = ((u.prepare line).strips.select (objectSlot 257) u.evaluation.secondary).filled 258
        ∧ ((u.handed line 257).slotDot line 257 limit).pipe.bus = u.pipe.current.tileAddress :=
    ⟨rfl, rfl⟩
  rw [(selected v).1, (selected v).2, (selected w).1, (selected w).2, h.current]
  refine ⟨?_, rfl⟩
  rcases fetched with rfl | searched
  · rfl
  · cases line with
    | preRender => rfl
    | visible y =>
      simp only [prepare, searched]
      rfl

theorem slotDot_pending (line : Line) (d : Nat) (limit : SpriteLimit) (w : Works κ) :
    (w.slotDot line d limit).strips.pending = w.strips.pending := by
  have fetched := (w.scene limit).slotDot_pending line w.evaluation.secondary
    w.pipe.current.tileAddress (objectSlot d) (.ofIndex (d - 257)) (w.strips, w.pipe.bus)
  simp only [slotDot]
  split
  · rw [Scene.fetchExtras_pending]
    exact fetched
  · exact fetched

/-- Only the first dot of the object fetches changes how many slots are pending. -/
theorem dot_pending (hd : d ≠ 257) (w : Works κ) :
    (w.dot line d limit).strips.pending = w.strips.pending := by
  rcases dot_kinds d with rfl | tile | slot | rest
  · rfl
  · rw [dot_tile tile]
    exact congrArg Strips.pending (w.search_keeps line d limit).1
  · rw [dot_slot slot, handed_of_ne hd, slotDot_pending]
  · rw [dot_rest rest]
    unfold restDot
    split <;> rfl

theorem dot_pending_preRender (w : Works κ) :
    (w.dot .preRender 257 limit).strips.pending = 0 := by
  rw [dot_slot (by decide), slotDot_pending]
  rfl

/-- A dot that renders nothing leaves alike what was alike. -/
theorem Alike.idle (h : Alike limit t (.raster line d) v w) (hp : p.Follows line d)
    {rendering : Bool} (hr : d = 0 ∨ rendering = false) :
    Alike limit (t.dot line d rendering) p v w := by
  obtain ⟨latch, walk, search, pixels, since⟩ := t.dot_idle line hr
  refine ⟨h.level, h.bounded, ?_, ?_, ?_, ?_, ?_, ?_⟩
  · rw [latch]
    exact h.latch
  · rw [walk]
    exact h.walk
  · rw [search]
    exact h.search
  · rintro y d' rfl - recent
    rcases hp _ _ rfl with rfl | ⟨-, rfl⟩
    · exact ⟨Evaluation.cleared_zero _ _, Evaluation.cleared_zero _ _⟩
    · rw [since] at recent
      split at recent
      · next first =>
        subst first
        exact ⟨Evaluation.cleared_one _ _, Evaluation.cleared_one _ _⟩
      · omega
  · rw [search, pixels]
    exact h.pixels
  · rintro line' d' rfl late - recent -
    rcases hp _ _ rfl with rfl | ⟨-, rfl⟩
    · omega
    · rw [since] at recent
      split at recent
      · omega
      · omega

/-- The search stands at the same place, or it begins. -/
theorem Alike.walks (h : Alike limit t (.raster line d) v w) (known : t.walkAfter line d = true) :
    v.evaluation.Walks w.evaluation ∨ line ≠ .preRender ∧ d = 65 := by
  rw [Trust.walkAfter, Bool.or_eq_true, decide_eq_true_eq] at known
  exact known.imp_left h.walk

/-- What a dot latches comes from the clearing, from object memory or from the slots found. -/
theorem Alike.dot_latch (h : Alike limit t (.raster line d) v w) (hd : d ≠ 0)
    (known : t.latchAfter line d = true) :
    (w.dot line d limit).evaluation.latch = (v.dot line d limit).evaluation.latch := by
  unfold Trust.latchAfter at known
  split at known
  · exact congrArg Evaluation.latch (dot_evaluation h.level (h.search known) line d limit)
  next slot =>
  have outside : ¬ (257 ≤ d ∧ d ≤ 320) := slot
  split at known
  · next rests =>
    have still : line = .preRender ∨ 320 < d := rests
    rw [dot_evaluation_of_rest still (by omega), dot_evaluation_of_rest still (by omega)]
    exact h.latch known
  next runs =>
  cases line with
  | preRender => exact absurd (.inl rfl) runs
  | visible y =>
  have early : ¬ 320 < d := fun late => runs (.inr late)
  have inside : 1 ≤ d ∧ d ≤ 256 := by omega
  split at known
  · next clears =>
    rw [Bool.or_eq_true, decide_eq_true_eq] at known
    rw [dot_evaluation_clear ⟨inside.1, clears⟩, dot_evaluation_clear ⟨inside.1, clears⟩]
    unfold Evaluation.clearStep
    split
    · rfl
    · next even =>
      have kept := h.latch (known.resolve_right even)
      split <;> exact kept
  · next searches =>
    rw [Bool.and_eq_true, Bool.or_eq_true, decide_eq_true_eq] at known
    have walks := (h.walks known.1).symm.imp_left And.right
    exact (dot_searching h.level ⟨by omega, inside.2⟩ walks).2.2 (known.2.symm.imp_right h.latch)

/-- The search begins anew in a memory that was cleared, or goes on. -/
theorem Alike.dot_search (h : Alike limit t (.raster line d) v w)
    (searched : t.searchAfter line d = true) :
    (w.dot line d limit).evaluation = (v.dot line d limit).evaluation := by
  by_cases before : t.search = true
  · exact dot_evaluation h.level (h.search before) line d limit
  · have fresh : t.search = false := Bool.eq_false_iff.mpr before
    simp only [Trust.searchAfter, fresh, Bool.false_or, decide_eq_true_eq] at searched
    obtain ⟨drawn, rfl, recent⟩ := searched
    cases line with
    | preRender => exact absurd rfl drawn
    | visible y =>
      obtain ⟨cv, cw⟩ := h.clearing y 65 rfl fresh recent
      exact dot_evaluation_of_cleared h.level y cv cw h.bounded.1 h.bounded.2

theorem Alike.dot_clearing (h : Alike limit t (.raster line d) v w) (hp : p.Follows line d)
    (hd : d ≠ 0) {y : Fin screenHeight} {d' : Nat} (hy : p = .raster (.visible y) d')
    (fresh : t.searchAfter line d = false) (recent : t.since ≤ 1) :
    (v.dot line d limit).evaluation.Cleared limit d'
      ∧ (w.dot line d limit).evaluation.Cleared limit d' := by
  rcases hp _ _ hy with rfl | ⟨rfl, rfl⟩
  · exact ⟨Evaluation.cleared_zero _ _, Evaluation.cleared_zero _ _⟩
  · simp only [Trust.searchAfter, Bool.or_eq_false_iff, decide_eq_false_iff_not] at fresh
    obtain ⟨cv, cw⟩ := h.clearing y d rfl fresh.1 recent
    have other : d ≠ 65 := fun same => fresh.2 ⟨Line.noConfusion, same, recent⟩
    have inside := cv.inside
    have here : 1 ≤ d ∧ d ≤ 64 := by omega
    rw [dot_evaluation_clear here, dot_evaluation_clear here]
    exact ⟨cv.next here, cw.next here⟩

/-- The strips that the slots are fetched into await none that could differ. -/
theorem Alike.handed_pending (pending : t.search = false → v.strips.pending = 0)
    (fetched : d = 257 → line = .preRender ∨ t.search = true) (fresh : t.search = false) :
    (v.handed line d).strips.pending = 0 := by
  unfold handed
  split
  · next first =>
    rcases fetched first with rfl | searched
    · rfl
    · rw [fresh] at searched
      cases searched
  · exact pending fresh

/-- What is the same is fetched on alike. -/
theorem Alike.dot_pixels (h : Alike limit t (.raster line d) v w) (hs : w.strips = v.strips)
    (hp : w.pipe = v.pipe) (pending : t.search = false → v.strips.pending = 0)
    (fetched : d = 257 → line = .preRender ∨ t.search = true) :
    (w.dot line d limit).strips = (v.dot line d limit).strips
      ∧ (w.dot line d limit).pipe = (v.dot line d limit).pipe := by
  rcases dot_kinds d with rfl | tile | slot | rest
  · exact ⟨hs, hp⟩
  · rw [dot_tile tile, dot_tile tile, tileDot, tileDot, h.level.scene, hp]
    exact ⟨(w.search_keeps line d limit).1.trans (hs.trans (v.search_keeps line d limit).1.symm),
      rfl⟩
  · -- Only dot 257 takes slots from the search, and the pre-render line has none to take.
    have strips : (w.handed line d).strips = (v.handed line d).strips := by
      unfold handed
      split
      · next first =>
        rcases fetched first with rfl | searched
        · simp only [prepare, hs]
        · simp only [prepare, hs, h.search searched]
      · exact hs
    have bus : (w.handed line d).pipe.bus = (v.handed line d).pipe.bus := by
      rw [handed_pipe, handed_pipe, hp]
    have held : (w.handed line d).evaluation.secondary = (v.handed line d).evaluation.secondary
        ∨ (v.handed line d).strips.pending = 0 := by
      rw [(handed_keeps line d w).2.2, (handed_keeps line d v).2.2]
      cases searched : t.search with
      | true => exact .inl (congrArg Evaluation.secondary (h.search searched))
      | false => exact .inr (handed_pending pending fetched searched)
    obtain ⟨same, driven⟩ := (h.level.handed line d).slotDot_same line d limit strips
      bus held
    have current := (h.level.dot line d limit).current
    rw [dot_slot slot, dot_slot slot] at current ⊢
    have parts (u : Works κ) : ((u.handed line d).slotDot line d limit).pipe
        = ⟨u.pipe.background, ((u.handed line d).slotDot line d limit).pipe.current,
          ((u.handed line d).slotDot line d limit).pipe.bus⟩ := by
      simp only [Works.slotDot, handed_pipe]
    rw [parts w, parts v, current, driven, hp]
    exact ⟨same, rfl⟩
  · rw [dot_rest rest, dot_rest rest]
    unfold restDot
    rw [hp]
    split
    · exact ⟨hs, rfl⟩
    · exact ⟨hs, hp⟩

/-- What has been fetched anew goes on to be. -/
theorem Alike.dot_fetching (h : Alike limit t (.raster line d) v w) (hd : 257 ≤ d ∧ d ≤ 336)
    (recent : t.since ≤ 257) (fetched : line = .preRender ∨ t.search = true) :
    (w.dot line d limit).strips.filled (d + 1) = (v.dot line d limit).strips.filled (d + 1)
      ∧ (w.dot line d limit).pipe.filled (d + 1) = (v.dot line d limit).pipe.filled (d + 1)
      ∧ (t.search = false → (v.dot line d limit).strips.pending = 0) := by
  have current := (h.level.dot line d limit).current
  rcases Nat.eq_or_lt_of_le hd.1 with rfl | later
  · have searched : line = .preRender ∨ w.evaluation = v.evaluation := fetched.imp_right h.search
    obtain ⟨strips, bus⟩ := h.level.slotDot_first limit searched
    rw [Pipe.filled_of_lt (by decide), Pipe.filled_of_lt (by decide), current]
    rw [dot_slot (by decide), dot_slot (by decide), bus]
    refine ⟨strips, rfl, fun fresh => ?_⟩
    rcases fetched with rfl | done
    · rw [slotDot_pending]
      rfl
    · rw [fresh] at done
      cases done
  · obtain ⟨strips, pipe, pending⟩ := h.fetching line d rfl later hd.2 recent fetched
    have same : (w.dot line d limit).strips.filled (d + 1) = (v.dot line d limit).strips.filled (d + 1)
        ∧ (w.dot line d limit).pipe.filled (d + 1) = (v.dot line d limit).pipe.filled (d + 1) := by
      by_cases slot : d ≤ 320
      · have bus : w.pipe.bus = v.pipe.bus := by
          have kept := congrArg Pipe.bus pipe
          exact kept
        obtain ⟨filled, driven⟩ := h.level.slotDot_filled line limit later strips bus
          (h.held pending)
        have inner : d ≠ objectFetchStart := Nat.ne_of_gt later
        rw [Pipe.filled_of_lt (by omega), Pipe.filled_of_lt (by omega), current]
        rw [dot_slot ⟨hd.1, slot⟩, dot_slot ⟨hd.1, slot⟩, handed_of_ne inner, handed_of_ne inner,
          driven]
        exact ⟨filled, rfl⟩
      · have tile : 321 ≤ d ∧ d ≤ 336 := by omega
        rw [Strips.filled_of_le (by omega), Strips.filled_of_le (by omega)] at strips ⊢
        rw [dot_tile (.inr tile), dot_tile (.inr tile), tileDot, tileDot, h.level.scene]
        exact ⟨(w.search_keeps line d limit).1.trans (strips.trans
          (v.search_keeps line d limit).1.symm), Pipe.tile_filled_congr tile pipe⟩
    exact ⟨same.1, same.2, fun fresh => (dot_pending (by omega) v).trans (pending fresh)⟩

theorem searchAfter_of_ne (hd : d ≠ 65) (t : Trust) : t.searchAfter line d = t.search := by
  rw [Trust.searchAfter, decide_eq_false fun h => hd h.2.1, Bool.or_false]

/-- A rendered dot leaves alike what was alike, and renews what it fetches. -/
theorem Alike.rendered (h : Alike limit t (.raster line d) v w) (hp : p.Follows line d) (hd : d ≠ 0) :
    Alike limit (t.dot line d true) p (v.dot line d limit) (w.dot line d limit) := by
  obtain ⟨latch, walk, search, since, pixels⟩ := t.dot_rendered line hd
  refine ⟨h.level.dot line d limit, ⟨dot_bounded h.bounded.1 line d, dot_bounded h.bounded.2 line d⟩,
    ?_, ?_, ?_, ?_, ?_, ?_⟩
  · rw [latch]
    exact h.dot_latch hd
  · rw [walk]
    exact fun known => dot_walks h.level line d limit (h.walks known)
  · rw [search]
    exact h.dot_search
  · rintro y d' here fresh recent
    rw [search] at fresh
    rw [since] at recent
    exact h.dot_clearing hp hd here fresh recent
  · rw [search, pixels]
    intro trusted
    split at trusted
    · cases trusted
    next kept =>
    rw [Bool.or_eq_true, Bool.and_eq_true, decide_eq_true_eq] at trusted
    rcases trusted with before | ⟨fetched, last, recent⟩
    · -- They were the same before, and dot 257 has not handed over slots that may differ.
      obtain ⟨strips, pipe, pending⟩ := h.pixels before
      have fetched (first : d = 257) : line = .preRender ∨ t.search = true := by
        have known : ¬ (decide (line = .preRender) || t.searchAfter line d) = false :=
          fun none => kept ⟨first, none⟩
        rwa [searchAfter_of_ne (by omega), Bool.not_eq_false, Bool.or_eq_true,
          decide_eq_true_eq] at known
      obtain ⟨same, piped⟩ := h.dot_pixels strips pipe pending fetched
      refine ⟨same, piped, fun fresh => ?_⟩
      simp only [Trust.searchAfter, Bool.or_eq_false_iff] at fresh
      by_cases first : d = 257
      · subst first
        rcases fetched rfl with rfl | searched
        · exact dot_pending_preRender v
        · rw [fresh.1] at searched
          cases searched
      · exact (dot_pending first v).trans (pending fresh.1)
    · -- At the last tile fetch all has been fetched anew.
      subst last
      rw [searchAfter_of_ne (by decide)] at fetched ⊢
      rw [Bool.or_eq_true, decide_eq_true_eq] at fetched
      obtain ⟨strips, pipe, pending⟩ := h.dot_fetching (by decide) recent fetched
      rw [Strips.filled_of_le (by decide), Strips.filled_of_le (by decide)] at strips
      rw [Pipe.filled_of_le (by decide), Pipe.filled_of_le (by decide)] at pipe
      exact ⟨strips, pipe, pending⟩
  · rintro line' d' here late early recent fetched
    rcases hp _ _ here with rfl | ⟨rfl, rfl⟩
    · omega
    · rw [search, searchAfter_of_ne (by omega)] at fetched ⊢
      rw [since] at recent
      exact h.dot_fetching (by omega) recent fetched

end Works

end PictureUnit
