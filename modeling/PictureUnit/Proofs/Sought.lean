import PictureUnit.Proofs.Diagonal
import PictureUnit.Proofs.Hits
import PictureUnit.Proofs.Later

/-!
# The search of a line

Whatever else happens during a line, as long as it is rendered and the object memory and the height of
the objects stay, dot 65 starts the search, every second dot after it takes a step, and after dot 256
the search has finished. Then the line below has its objects, and the line has raised the overflow flag
if it overran.
-/

set_option autoImplicit false

namespace PictureUnit

namespace Evaluation

/-- A search from `s` that is over: the first objects in range are in their slots, and whether the
object it started at is among them. -/
structure Sought (i : Inputs) (s : Nat) (e : Evaluation) : Prop where
  search : e.search = .finished
  found : e.found = min i.limit.perLine (i.covering s objectCount).length
  copied : ∀ slot k, slot < e.found → (i.covering s objectCount)[slot]? = some k →
    ∀ b < 4, e.secondary.load (slot * 4 + b) = i.memory.load (k * 4 + b)
  zero : e.zeroInRange = true ↔ s ∈ i.covering s objectCount

variable {i : Inputs} {s n d : Nat} {e : Evaluation} {found : Bool}

theorem mem_covering (h : s < objectCount) : s ∈ i.covering s objectCount ↔ i.hit s = true := by
  rw [Inputs.covering, List.mem_filter, List.mem_range'_1]
  exact ⟨fun h => h.2, fun hit => ⟨by omega, hit⟩⟩

theorem Done.sought (done : Done i s e) (search : e.search = .finished) (h : s < objectCount) :
    Sought i s e := by
  have count : e.found = min i.limit.perLine (i.covering s objectCount).length := by
    rw [done.found, Inputs.shown, List.length_take]
  refine ⟨search, count, fun slot k inside at_ => done.copied slot k ?_, ?_⟩
  · rw [Inputs.shown, List.getElem?_take, if_pos (by omega)]
    exact at_
  · rw [done.zero, mem_covering h]

theorem Ends.sought (h : Ends i s 0 e found) (hs : s < objectCount) :
    Sought i s e ∧ (found = true ↔ i.Overruns s) := by
  obtain ⟨search, done, found_iff⟩ := h.done
  exact ⟨done.sought search hs, found_iff⟩

/-- The steps that are left before a dot. -/
def stepsLeft (d : Nat) : Nat := 91 - (d - 64) / 2

theorem onDot_start (limit : i.limit = .hardware) (address : UInt8) (e : Evaluation) :
    Ends i (address.toNat / 4) (stepsLeft 66) (e.onDot i address 65)
      (e.overflowsOn i address 65) := by
  have next := (start_ends limit address e).next limit
  rw [Bool.false_or] at next
  exact next

/-- After the dot that starts the search, every second dot takes a step. -/
theorem onDot_of_started (limit : i.limit = .hardware) (hd : 65 < d ∧ d ≤ 256) (address : UInt8)
    (e : Evaluation) : e.onDot i address d = (if d % 2 = 1 then e.step i else e)
      ∧ e.overflowsOn i address d = (if d % 2 = 1 then e.overflows i else false) := by
  have later : d ≠ 65 := by omega
  have kept : ¬ (d = 256 ∧ i.limit = .unlimited) := by
    rw [limit]
    exact fun both => SpriteLimit.noConfusion both.2
  have inside : ¬ (256 < d ∨ d ≤ 64) := by omega
  rw [onDot_searching i hd, overflowsOn, if_neg inside, if_neg kept]
  dsimp only
  rw [if_neg later, if_neg kept]
  exact ⟨rfl, rfl⟩

theorem Ends.onDot (h : Ends i s (stepsLeft d) e found) (limit : i.limit = .hardware)
    (hd : 65 < d ∧ d ≤ 256) (address : UInt8) :
    Ends i s (stepsLeft (d + 1)) (e.onDot i address d) (found || e.overflowsOn i address d) := by
  obtain ⟨taken, raised⟩ := onDot_of_started limit hd address e
  rw [taken, raised]
  by_cases odd : d % 2 = 1
  · have fewer : stepsLeft (d + 1) = stepsLeft d - 1 := by
      unfold stepsLeft
      omega
    rw [if_pos odd, if_pos odd, fewer]
    exact h.next limit
  · have same : stepsLeft (d + 1) = stepsLeft d := by
      unfold stepsLeft
      omega
    rw [if_neg odd, if_neg odd, same, Bool.or_false]
    exact h

end Evaluation

/-- Two dots that follow each other on one line. -/
theorem Position.eq_of_next {line : Line} {d d' : Nat} {short : Bool}
    (h : (Position.raster line d).next short = .raster line d') : d' = d + 1 := by
  have moves : line.next ≠ some line := fun same => by
    have := index_of_next same
    omega
  rw [Position.next] at h
  split at h
  · exact ((Position.raster.inj h).2).symm
  · split at h
    · next below =>
      obtain rfl := (Position.raster.inj h).1
      exact absurd below moves
    · cases h

namespace Circuit

variable {κ : Type} [Cartridge κ] {c : Circuit κ}

/-- A rendered dot of a line's visible part takes one dot of the search. -/
theorem dot_evaluation (hr : c.registers.mask.rendering = true) (y : Fin screenHeight) {dot : Nat}
    (hd : 1 ≤ dot ∧ dot ≤ 256) (cycle : Nat) (limit : SpriteLimit) :
    (c.dot (.visible y) dot cycle limit).evaluation
      = c.evaluation.onDot (c.searchInputs y.val limit) c.registers.objectAddress dot := by
  have drawn := drawn_works (.visible y) dot c
  have inside : dot ≠ objectFetchStart := by
    simp only [objectFetchStart]
    omega
  have outside : ¬ (objectFetchStart ≤ dot ∧ dot ≤ objectFetchEnd) := by
    simp only [objectFetchStart]
    omega
  rw [Circuit.dot, if_neg (by omega)]
  generalize (c.clearFlags (.visible y) dot).drawDot (.visible y) dot = d at drawn
  have rendering : d.registers.mask.rendering = true :=
    (congrArg (·.settings.mask.rendering) drawn).trans hr
  dsimp only
  rw [if_neg inside, if_pos rendering, render_eq, if_neg inside, fetch, ofDot_tile (.inl hd)]
  have searched := congrArg Works.evaluation (searching_works (.visible y) dot limit d)
  rw [drawn] at searched
  rw [clearObjectAddress, if_neg outside, rewindAddress, if_neg inside,
    if_neg fun h => Line.noConfusion h.1, fetchTile_evaluation]
  exact searched

end Circuit

namespace Machine

variable {κ : Type} [Cartridge κ] {m n : Machine κ} {past : List (Moment κ)} {y : Fin screenHeight}

/-- A rendered dot of a visible line raises the overflow flag when its step of the search finds an
object too many. -/
theorem step_overflow_on {dot : Nat} (hd : dot ≠ 0) (hr : m.rendering = true) :
    (m.step (.visible y) dot).status.overflow = (m.status.overflow
      || m.circuit.evaluation.overflowsOn (m.circuit.searchInputs y.val m.config.limit)
        m.circuit.registers.objectAddress dot) := by
  rw [status, step_circuit, Circuit.dot_status hr (.visible y) hd]
  rfl

/-- Only the dots of the search raise it. -/
theorem step_overflow_apart {dot : Nat} (hd : dot ≤ 64 ∨ 256 < dot) :
    (m.step (.visible y) dot).status.overflow = m.status.overflow := by
  by_cases first : dot = 0
  · rw [status, step_circuit, Circuit.dot, if_pos first]
    rfl
  cases hr : m.rendering with
  | true =>
    rw [step_overflow_on first hr, Evaluation.overflowsOn, if_pos (by omega), Bool.or_false]
  | false =>
    rw [status, step_circuit, Circuit.dot_status_off hr (.visible y) first]
    rfl

end Machine

/-- The dot is rendered, and searches this memory for objects of this height. -/
structure Moment.Searches {κ : Type} (objects : Block 256) (height : Nat) (moment : Moment κ) : Prop where
  rendering : moment.before.rendering = true
  objects : moment.before.circuit.objects = objects
  height : moment.before.circuit.registers.control.objectHeight = height

/-- The object that a search at this dot starts from. -/
def Moment.firstObject {κ : Type} (moment : Moment κ) : Nat :=
  moment.before.circuit.registers.objectAddress.toNat / 4

theorem Moment.firstObject_lt {κ : Type} (moment : Moment κ) : moment.firstObject < objectCount := by
  have small := moment.before.circuit.registers.objectAddress.toNat_lt
  simp only [firstObject, objectCount]
  omega

namespace Machine

variable {κ : Type} [Cartridge κ] {m n p : Machine κ} {past : List (Moment κ)} {y : Fin screenHeight}
  {i : Evaluation.Inputs} {d : Nat}

/-- How far the search of a line has come before dot `d`, since `m`. -/
inductive Seeking (i : Evaluation.Inputs) (m : Machine κ) (past : List (Moment κ)) (n : Machine κ)
    (d : Nat) : Prop where
  | before (hd : d ≤ 65) (overflow : n.status.overflow = m.status.overflow)
  | inside {opening : Moment κ} {found : Bool} (hd : 65 < d ∧ d ≤ 256) (mem : opening ∈ past)
      (start : opening.dot = 65)
      (ends : n.circuit.evaluation.Ends i opening.firstObject (Evaluation.stepsLeft d) found)
      (overflow : n.status.overflow = (m.status.overflow || found))
  | after {opening closing : Moment κ} (hd : 256 < d) (mem : opening ∈ past)
      (start : opening.dot = 65) (last : closing ∈ past) (stop : closing.dot = 256)
      (sought : closing.after.circuit.evaluation.Sought i opening.firstObject)
      (overflow : n.status.overflow = true
        ↔ m.status.overflow = true ∨ i.Overruns opening.firstObject)

theorem Seeking.step (limit : i.limit = .hardware) (h : Seeking i m past n d)
    (searches : 65 ≤ d ∧ d ≤ 256 → n.rendering = true ∧ n.circuit.searchInputs y.val n.config.limit = i) :
    Seeking i m (⟨n, .visible y, d⟩ :: past) (n.step (.visible y) d) (d + 1) := by
  have here : (⟨n, .visible y, d⟩ : Moment κ) ∈ ⟨n, .visible y, d⟩ :: past := List.mem_cons_self ..
  cases h with
  | before hd overflow =>
    obtain early | rfl := Nat.lt_or_eq_of_le hd
    · refine .before (by omega) ?_
      rw [step_overflow_apart (.inl (by omega)), overflow]
    · obtain ⟨on, inputs⟩ := searches ⟨by decide, by decide⟩
      have started : (n.step (.visible y) 65).circuit.evaluation.Ends i
          (Moment.firstObject ⟨n, .visible y, 65⟩) (Evaluation.stepsLeft 66)
          (n.circuit.evaluation.overflowsOn i n.circuit.registers.objectAddress 65) := by
        rw [step_circuit, Circuit.dot_evaluation on y (by decide), inputs]
        exact Evaluation.onDot_start limit _ _
      refine .inside ⟨by decide, by decide⟩ here rfl started ?_
      rw [step_overflow_on (by decide) on, inputs, overflow]
  | @inside opening found hd mem start ends overflow =>
    obtain ⟨on, inputs⟩ := searches ⟨by omega, hd.2⟩
    have next := ends.onDot limit hd n.circuit.registers.objectAddress
    have evaluation : (n.step (.visible y) d).circuit.evaluation
        = n.circuit.evaluation.onDot i n.circuit.registers.objectAddress d := by
      rw [step_circuit, Circuit.dot_evaluation on y (by omega), inputs]
    have raised : (n.step (.visible y) d).status.overflow = (m.status.overflow
        || (found || n.circuit.evaluation.overflowsOn i n.circuit.registers.objectAddress d)) := by
      rw [step_overflow_on (by omega) on, inputs, overflow, Bool.or_assoc]
    rw [← evaluation] at next
    obtain more | rfl := Nat.lt_or_eq_of_le hd.2
    · exact .inside (by omega) (List.mem_cons_of_mem _ mem) start next raised
    · obtain ⟨sought, found_iff⟩ := next.sought opening.firstObject_lt
      refine .after (by decide) (List.mem_cons_of_mem _ mem) start here rfl sought ?_
      rw [raised, Bool.or_eq_true, found_iff]
  | after hd mem start last stop sought overflow =>
    refine .after (by omega) (List.mem_cons_of_mem _ mem) start (List.mem_cons_of_mem _ last) stop
      sought ?_
    rw [step_overflow_apart (.inr hd), overflow]

/-- Between two dots of a line the search stands still. -/
theorem Seeking.between (small : n.Between p) (h : Seeking i m past n d) : Seeking i m past p d := by
  have evaluation := small.pipelines.2
  have overflow := small.marks.overflow
  cases h with
  | before hd kept => exact .before hd (overflow.trans kept)
  | inside hd mem start ends kept =>
    rw [← evaluation] at ends
    exact .inside hd mem start ends (overflow.trans kept)
  | after hd mem start last stop sought kept =>
    rw [← overflow] at kept
    exact .after hd mem start last stop sought kept

theorem Story.config (story : Story m past n) : n.config = m.config :=
  story.keeps (P := fun n => n.config = m.config)
    (fun _ line dot _ same => (step_config line dot _).trans same)
    (fun _ _ small same => small.config.trans same) (fun _ same => same) rfl

/-- On the raster a story that began there is on time. -/
theorem Story.onTime (story : Story m past n) (h : m.OnTime) :
    n.clock.position ≠ .blank → n.OnTime := by
  induction story with
  | refl => exact fun _ => h
  | dot _ standing ih =>
    intro _
    exact step_onTime (ih (by rw [standing]; exact Position.noConfusion)) standing
  | between _ small ih => exact small.onTime ih
  | softened _ _ => exact fun off => absurd rfl off

/-- The search of a line, followed over everything that happens during the line. -/
theorem Story.seeking (story : Story m past n) (onTime : m.OnTime) (limit : m.config.limit = .hardware)
    {d₀ : Nat} (begin_ : m.clock.position = .raster (.visible y) d₀) (early : d₀ ≤ 65)
    (objects : Block 256) (height : Nat) (line : ∀ moment ∈ past, moment.line = .visible y)
    (searches : ∀ moment ∈ past, 65 ≤ moment.dot → moment.dot ≤ 256 → moment.Searches objects height) :
    ∀ d, n.clock.position = .raster (.visible y) d →
      Seeking ⟨objects, y.val, height, .hardware⟩ m past n d := by
  induction story with
  | refl =>
    intro d standing
    rw [begin_, Position.raster.injEq] at standing
    exact .before (standing.2 ▸ early) rfl
  | @dot past n place d told here ih =>
    intro d' standing
    have moment : (⟨n, place, d⟩ : Moment κ) ∈ ⟨n, place, d⟩ :: past := List.mem_cons_self ..
    obtain rfl : place = .visible y := line _ moment
    have paced := (told.onTime onTime (by rw [here]; exact Position.noConfusion)).paced
    rw [step_position paced here] at standing
    have next := Position.eq_of_next standing
    have earlier := ih (fun moment mem => line moment (List.mem_cons_of_mem _ mem))
      (fun moment mem => searches moment (List.mem_cons_of_mem _ mem)) d here
    rw [next]
    refine earlier.step rfl fun hd => ?_
    have same : n.config.limit = .hardware := (congrArg Config.limit told.config).trans limit
    obtain ⟨on, memory, tall⟩ := searches _ moment hd.1 hd.2
    refine ⟨on, ?_⟩
    rw [Circuit.searchInputs, memory, tall, same]
  | between told small ih =>
    intro d standing
    obtain rfl | same := small.position
    · rw [openFrame_position] at standing
      cases standing
    · exact (ih line searches d (same ▸ standing)).between small
  | softened _ _ =>
    intro d standing
    cases standing

/-- However a line with a limit of eight is rendered: with `s` the object that dot 65 starts at, the
search is over after dot 256, the first of the objects in range from `s` on are in their slots, and the
line raises the overflow flag when the walk past the eighth finds a byte in range. -/
theorem Story.search_of_line (story : Story m past n) (onTime : m.OnTime)
    (limit : m.config.limit = .hardware) {d₀ d : Nat}
    (begin_ : m.clock.position = .raster (.visible y) d₀) (early : d₀ ≤ 65)
    (end_ : n.clock.position = .raster (.visible y) d) (late : 257 ≤ d)
    (objects : Block 256) (height : Nat) (line : ∀ moment ∈ past, moment.line = .visible y)
    (searches : ∀ moment ∈ past, 65 ≤ moment.dot → moment.dot ≤ 256 → moment.Searches objects height) :
    ∃ opening ∈ past, ∃ closing ∈ past, opening.dot = 65 ∧ closing.dot = 256
      ∧ let i : Evaluation.Inputs := ⟨objects, y.val, height, .hardware⟩
        let s := opening.firstObject
        closing.after.circuit.evaluation.Sought i s
          ∧ (n.status.overflow = true ↔ m.status.overflow = true ∨ i.Overruns s) := by
  cases story.seeking onTime limit begin_ early objects height line searches d end_ with
  | before hd => omega
  | inside hd => omega
  | after _ mem start last stop sought overflow =>
    exact ⟨_, mem, _, last, start, stop, sought, overflow⟩

/-- The first line that is rendered after rendering was switched on, with all objects at the top of the
screen: it copies eight of them, and the walk past the eighth finds the ninth. -/
theorem Story.search_of_line_switchedOn : ∃ (m n : Machine (Option Unit))
    (past : List (Moment (Option Unit))),
    m.Reachable ∧ Story m past n ∧ n.clock.position = .raster (.visible ⟨0, by decide⟩) 339
      ∧ n.status.overflow = true
      ∧ ∃ opening ∈ past, ∃ closing ∈ past, opening.dot = 65 ∧ closing.dot = 256
        ∧ opening.firstObject = 0 ∧ closing.after.circuit.evaluation.found = 8
        ∧ closing.after.circuit.evaluation.Sought ⟨.filled 256 0, 0, 8, .hardware⟩ 0 := by
  obtain ⟨m, lit⟩ := exists_dawn
  obtain ⟨past, story, all⟩ := story_later lit.place (k := 338) (by decide)
  have searches (moment : Moment (Option Unit)) (mem : moment ∈ past) :
      moment.line = .visible ⟨0, by decide⟩ ∧ moment.Searches (.filled 256 0) 8 := by
    obtain ⟨j, -, rfl⟩ := all moment mem
    have kept := later_settings j m
    refine ⟨rfl, (congrArg (·.mask.rendering) kept).trans lit.on,
      (congrArg Settings.objects kept).trans lit.objects, ?_⟩
    have control := (congrArg Settings.control kept).trans lit.control
    exact congrArg Control.objectHeight control
  have standing := (reaches_line lit.place (k := 338) (by decide)).place
  obtain ⟨opening, begins, closing, ends, start, last, sought, overflow⟩ :=
    story.search_of_line lit.onTime lit.limit lit.place (by decide) standing (by decide) _ _
      (fun moment mem => (searches moment mem).1) fun moment mem _ _ => (searches moment mem).2
  have first : opening.firstObject = 0 := by
    obtain ⟨j, -, rfl⟩ := all opening begins
    have begun : j = 64 := by
      change 1 + j = 65 at start
      omega
    rw [begun, Moment.firstObject, lit.later_objectAddress (by decide)]
    rfl
  rw [first] at sought overflow
  refine ⟨m, _, past, lit.came, story, standing, overflow.mpr (.inr ?_), opening, begins, closing, ends,
    start, last, first, ?_, sought⟩
  · refine ⟨7, ?_, 0, by decide, ?_⟩
    · rw [Evaluation.covering_filled rfl (by decide) (by decide)]
      rfl
    · rw [Evaluation.Inputs.diagonal, inRange_iff, Block.load_filled _ _ (by decide)]
      decide
  · rw [sought.found, Evaluation.length_covering_filled rfl (by decide) (by decide)]
    rfl

end Machine

end PictureUnit
