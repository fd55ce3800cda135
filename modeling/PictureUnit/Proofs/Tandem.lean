import PictureUnit.Proofs.Later
import PictureUnit.Proofs.Matched
import PictureUnit.Proofs.Unlimited

/-!
# A line with and without the limit

Two machines side by side search the same line, one with the limit of eight objects and one without. The
first finds the first eight of the objects that the second one finds, and fills its slots alike. If there
are no more than eight, both fetch the same strips, and show the same object pixels on the line below.
-/

set_option autoImplicit false

namespace PictureUnit

open Cartridge (Coupling Tolerant)

/-- After the object fetches of a line, and before those of the line below. -/
def Position.Shows (y : Fin screenHeight) : Position → Prop
  | .blank => False
  | .raster line d => line = .visible y ∧ 320 < d ∨ (Line.visible y).next = some line ∧ d ≤ 257

/-- Neither on a line nor on the line below, as far as that shows what was fetched. -/
def Position.Leaves (y : Fin screenHeight) : Position → Prop
  | .blank => True
  | .raster line d => line ≠ .visible y ∧ ((Line.visible y).next = some line → 257 < d)

theorem Position.Shows.late {y : Fin screenHeight} {d : Nat}
    (h : (Position.raster (.visible y) d).Shows y) : 320 < d := by
  obtain ⟨-, late⟩ | ⟨below, -⟩ := h
  · exact late
  · have := index_of_next below
    omega

theorem Position.Shows.not_leaves {y : Fin screenHeight} {p : Position} (h : p.Shows y) :
    ¬ p.Leaves y := by
  intro leaves
  cases p with
  | blank => exact h
  | raster line d =>
    obtain ⟨rfl, -⟩ | ⟨below, early⟩ := h
    · exact leaves.1 rfl
    · have := leaves.2 below
      omega

theorem Position.Shows.next {y : Fin screenHeight} {line : Line} {d : Nat} {short : Bool}
    (h : (Position.raster line d).Shows y) (early : line = .visible y ∨ d ≤ 256) :
    ((Position.raster line d).next short).Shows y ∨ ((Position.raster line d).next short).Leaves y := by
  obtain ⟨rfl, late⟩ | ⟨below, -⟩ := h
  · rw [Position.next]
    split
    · exact .inl (.inl ⟨rfl, by omega⟩)
    · cases below : (Line.visible y).next with
      | none => exact .inr trivial
      | some line => exact .inl (.inr ⟨below, Nat.zero_le _⟩)
  · have apart : line ≠ .visible y := by
      rintro rfl
      have := index_of_next below
      omega
    have before := early.resolve_left apart
    rw [Position.next_inside (by omega)]
    exact .inl (.inr ⟨below, by omega⟩)

section

variable {κ : Type}

/-- Moments of a line that is searched for these objects, and of the line below until its own fetches. -/
structure Spans (y : Fin screenHeight) (objects : Block 256) (height : Nat) (xs : List (Moment κ)) :
    Prop where
  line : ∀ x ∈ xs, x.line = .visible y ∨ (Line.visible y).next = some x.line ∧ x.dot ≤ 256
  searches : ∀ x ∈ xs, x.line = .visible y → 65 ≤ x.dot → x.dot ≤ 256 → x.Searches objects height

/-- If they go on to the fetches, no more than eight objects are in range. If the whole line is followed its
first dots are rendered, else all fetches are. -/
structure Sparse (y : Fin screenHeight) (objects : Block 256) (height : Nat) (whole : Prop)
    (xs : List (Moment κ)) : Prop extends Spans y objects height xs where
  few : (∃ x ∈ xs, 257 ≤ x.dot) → ∀ x ∈ xs, x.line = .visible y → x.dot = 65 →
    (Evaluation.Inputs.covering ⟨objects, y.val, height, .hardware⟩ x.firstObject objectCount).length ≤ 8
  clears : whole → ∀ x ∈ xs, x.line = .visible y → 1 ≤ x.dot → x.dot ≤ 64 → x.before.rendering = true
  fetches : ∀ x ∈ xs, x.line = .visible y → 257 ≤ x.dot → x.dot ≤ 320 → whole ∨ x.before.rendering = true

theorem Sparse.left {y : Fin screenHeight} {objects : Block 256} {height : Nat} {whole : Prop}
    {xs ys : List (Moment κ)} (h : Sparse y objects height whole (xs ++ ys)) :
    Sparse y objects height whole xs where
  line x hx := h.line x (List.mem_append_left ys hx)
  searches x hx := h.searches x (List.mem_append_left ys hx)
  few late x hx := by
    obtain ⟨z, hz, hd⟩ := late
    exact h.few ⟨z, List.mem_append_left ys hz, hd⟩ x (List.mem_append_left ys hx)
  clears all x hx := h.clears all x (List.mem_append_left ys hx)
  fetches x hx := h.fetches x (List.mem_append_left ys hx)

end

namespace Machine

variable {κ : Type} [Cartridge κ] {Q : κ → κ → Prop} {m n m' n' : Machine κ} {y : Fin screenHeight}
  {objects : Block 256} {height : Nat} {raised : Bool} {whole : Prop} {xs : List (Moment κ)} {line : Line}
  {d : Nat}

/-- How far both machines have come with a line, from its start on if the whole line is followed. -/
inductive Tandem (y : Fin screenHeight) (i : Evaluation.Inputs) (raised : Bool) (whole : Prop)
    (xs : List (Moment κ)) (m n : Machine κ) : Prop where
  | early {d : Nat} (place : m.clock.position = .raster (.visible y) d) (hd : d ≤ 65)
      (shared : whole → m.circuit.Shares d n.circuit) (overflow : n.status.overflow = raised)
  | searching {d : Nat} {opening : Moment κ} {found ninth : Bool}
      (place : m.clock.position = .raster (.visible y) d) (hd : 65 < d ∧ d ≤ 256)
      (shared : whole → m.circuit.Shares d n.circuit)
      (start : opening ∈ xs ∧ opening.line = .visible y ∧ opening.dot = 65)
      (ends : m.circuit.evaluation.Ends i opening.firstObject (Evaluation.stepsLeft d) found)
      (gathers : n.circuit.evaluation.Gathers i.lifted opening.firstObject ninth)
      (overflow : n.status.overflow = (raised || ninth))
  | searched {opening : Moment κ} (place : m.clock.position = .raster (.visible y) 257)
      (shared : whole → m.circuit.Shares 257 n.circuit)
      (start : opening ∈ xs ∧ opening.line = .visible y ∧ opening.dot = 65)
      (own : m.circuit.evaluation.Sought i opening.firstObject)
      (other : n.circuit.evaluation.Sought i.lifted opening.firstObject)
      (overflow : n.status.overflow = true
        ↔ raised = true ∨ 8 < (i.covering opening.firstObject objectCount).length)
  | fetching {d : Nat} (place : m.clock.position = .raster (.visible y) d) (hd : 257 < d ∧ d ≤ 320)
      (matched : m.circuit.Matched whole d n.circuit)
  | shown (place : m.clock.position.Shows y) (list : n.circuit.strips.list = m.circuit.strips.list)
  | left (place : m.clock.position.Leaves y)

omit [Cartridge κ] in
/-- What keeps the place and the pipelines keeps machines so. -/
theorem Tandem.keep {i : Evaluation.Inputs} (h : Tandem y i raised whole xs m n)
    (position : m'.clock.position = m.clock.position)
    (own : m'.circuit.strips = m.circuit.strips ∧ m'.circuit.evaluation = m.circuit.evaluation)
    (other : n'.circuit.strips = n.circuit.strips ∧ n'.circuit.evaluation = n.circuit.evaluation)
    (marks : n'.status.overflow = n.status.overflow) : Tandem y i raised whole xs m' n' := by
  cases h with
  | early place hd shared overflow =>
    exact .early (position.trans place) hd (fun all => (shared all).of_eq own other) (marks.trans overflow)
  | searching place hd shared start ends gathers overflow =>
    rw [← own.2] at ends
    rw [← other.2] at gathers
    exact .searching (position.trans place) hd (fun all => (shared all).of_eq own other) start ends gathers
      (marks.trans overflow)
  | searched place shared start sought sought' overflow =>
    rw [← own.2] at sought
    rw [← other.2] at sought'
    rw [← marks] at overflow
    exact .searched (position.trans place) (fun all => (shared all).of_eq own other) start sought sought'
      overflow
  | fetching place hd matched => exact .fetching (position.trans place) hd (matched.of_eq own other)
  | shown place list => exact .shown (position ▸ place) (by rw [own.1, other.1, list])
  | left place => exact .left (position ▸ place)

theorem Tandem.between {i : Evaluation.Inputs} (h : Tandem y i raised whole xs m n) (own : m.Between m')
    (other : n.Between n') : Tandem y i raised whole xs m' n' := by
  obtain rfl | position := own.position
  · apply Tandem.left
    rw [openFrame_position]
    exact ⟨Line.noConfusion, fun below => absurd (index_of_next below) (Nat.succ_ne_zero _).symm⟩
  · exact h.keep position own.pipelines other.pipelines other.marks.overflow

/-- A dot keeps machines side by side when nothing strays. -/
theorem Beside.step_few (co : Coupling Q) (h : m.Beside Q n)
    (slots : m.rendering = true → 257 < d → d ≤ 320 → m.circuit.Handed n.circuit)
    (few : d = 320 → n.circuit.strips.pending ≤ 8) : (m.step line d).Beside Q (n.step line d) := by
  have none : n.circuit.strayReadsAt line d = 0 := Circuit.strayReadsAt_few few
  apply h.step
  rw [h.count]
  exact Circuit.Beside.dot (Q := fun _ => Q) (n := 0) (fun _ => co) h.circuit slots
    (fun some => absurd none some) _ _ _

/-- Both machines take on the search of the same objects. -/
theorem Beside.step_search (h : m.Beside Q n) (limit : m.config.limit = .hardware) (hd : 65 ≤ d ∧ d ≤ 256)
    (searches : (⟨n, .visible y, d⟩ : Moment κ).Searches objects height) :
    let i : Evaluation.Inputs := ⟨objects, y.val, height, .hardware⟩
    let address := n.circuit.registers.objectAddress
    (m.step (.visible y) d).circuit.evaluation = m.circuit.evaluation.onDot i address d
      ∧ (n.step (.visible y) d).circuit.evaluation = n.circuit.evaluation.onDot i.lifted address d
      ∧ (n.step (.visible y) d).status.overflow
        = (n.status.overflow || n.circuit.evaluation.overflowsOn i.lifted address d) := by
  intro i address
  obtain ⟨on, memory, tall⟩ := searches
  have on' : m.rendering = true := h.rendering.symm.trans on
  have inside : 1 ≤ d ∧ d ≤ 256 := by omega
  have own : m.circuit.searchInputs y.val m.config.limit = i
      ∧ m.circuit.registers.objectAddress = address := by
    obtain ⟨u, rfl, -⟩ := h
    rw [Circuit.searchInputs, limit]
    simp only [i, address, ← memory, ← tall]
    exact ⟨rfl, rfl⟩
  have other : n.circuit.searchInputs y.val n.config.limit = i.lifted := by
    rw [Circuit.searchInputs, h.lifted]
    simp only [i, ← memory, ← tall]
    rfl
  rw [step_circuit, step_circuit, Circuit.dot_evaluation on' y inside, Circuit.dot_evaluation on y inside,
    step_overflow_on (by omega) on, own.1, own.2, other]
  exact ⟨rfl, rfl, rfl⟩

/-- What both share before the fetches, a rendered dot leaves shared. -/
theorem Beside.step_shares (h : m.Beside Q n) (limit : m.config.limit = .hardware) (hd : d ≤ 256)
    (on : 1 ≤ d → n.rendering = true) (shares : m.circuit.Shares d n.circuit) :
    (m.step (.visible y) d).circuit.Shares (d + 1) (n.step (.visible y) d).circuit := by
  rw [step_circuit, step_circuit, h.count, limit, h.lifted]
  exact h.circuit.dot_shares shares hd (fun started => h.rendering.symm.trans (on started)) _

/-! One lemma for each stage of a line. -/

theorem tandem_early (beside : m.Beside Q n) (limit : m.config.limit = .hardware)
    (place : m.clock.position = .raster (.visible y) d) (hd : d ≤ 65)
    (shared : whole → (m.step (.visible y) d).circuit.Shares (d + 1) (n.step (.visible y) d).circuit)
    (overflow : n.status.overflow = raised)
    (searches : 65 ≤ d → (⟨n, .visible y, d⟩ : Moment κ).Searches objects height) :
    Tandem y ⟨objects, y.val, height, .hardware⟩ raised whole (xs ++ [⟨n, .visible y, d⟩])
      (m.step (.visible y) d) (n.step (.visible y) d) := by
  have next := step_inside place (by omega)
  obtain before | rfl := Nat.lt_or_eq_of_le hd
  · apply Tandem.early next (by omega) shared
    rw [step_overflow_apart (.inl (by omega)), overflow]
  · obtain ⟨own, other, flag⟩ := beside.step_search limit (by decide) (searches le_rfl)
    have address : (Moment.mk n (.visible y) 65).firstObject
        = n.circuit.registers.objectAddress.toNat / 4 := rfl
    apply Tandem.searching next (by decide) shared
      ⟨List.mem_append_right xs (List.mem_singleton_self _), rfl, rfl⟩
    · rw [own, address]
      exact Evaluation.onDot_start rfl _ _
    · rw [other, address]
      exact Evaluation.onDot_gathers rfl _ _
    · rw [flag, overflow]

theorem tandem_searching (beside : m.Beside Q n) (limit : m.config.limit = .hardware)
    (place : m.clock.position = .raster (.visible y) d) (hd : 65 < d ∧ d ≤ 256)
    (shared : whole → (m.step (.visible y) d).circuit.Shares (d + 1) (n.step (.visible y) d).circuit)
    {opening : Moment κ} {found ninth : Bool}
    (start : opening ∈ xs ∧ opening.line = .visible y ∧ opening.dot = 65)
    (ends : m.circuit.evaluation.Ends ⟨objects, y.val, height, .hardware⟩ opening.firstObject
      (Evaluation.stepsLeft d) found)
    (gathers : n.circuit.evaluation.Gathers
      (Evaluation.Inputs.lifted ⟨objects, y.val, height, .hardware⟩) opening.firstObject ninth)
    (overflow : n.status.overflow = (raised || ninth))
    (searches : (⟨n, .visible y, d⟩ : Moment κ).Searches objects height) :
    Tandem y ⟨objects, y.val, height, .hardware⟩ raised whole (xs ++ [⟨n, .visible y, d⟩])
      (m.step (.visible y) d) (n.step (.visible y) d) := by
  obtain ⟨own, other, flag⟩ := beside.step_search limit (by omega) searches
  have next := step_inside place (by omega)
  have start' : opening ∈ xs ++ [⟨n, .visible y, d⟩] ∧ opening.line = .visible y ∧ opening.dot = 65 :=
    ⟨List.mem_append_left _ start.1, start.2⟩
  have ended := ends.onDot rfl hd n.circuit.registers.objectAddress
  rw [← own] at ended
  rw [overflow, Bool.or_assoc] at flag
  obtain more | rfl := Nat.lt_or_eq_of_le hd.2
  · have gathered := gathers.onDot rfl ⟨hd.1, more⟩ n.circuit.registers.objectAddress
    rw [← other] at gathered
    exact .searching next (by omega) shared start' ended gathered flag
  · obtain ⟨gathered, met⟩ := gathers.onDot_last rfl opening.firstObject_lt
      n.circuit.registers.objectAddress
    rw [← other] at gathered
    have found := (ended.sought opening.firstObject_lt).1
    apply Tandem.searched next shared start' found gathered
    rw [flag, Bool.or_eq_true, met]
    exact Iff.rfl

/-- What both have found is handed over, if there is not too much of it. -/
theorem tandem_searched (co : Coupling Q) (beside : m.Beside Q n)
    (place : m.clock.position = .raster (.visible y) 257)
    (shared : whole → m.circuit.Shares 257 n.circuit) {s : Nat}
    (own : m.circuit.evaluation.Sought ⟨objects, y.val, height, .hardware⟩ s)
    (other : n.circuit.evaluation.Sought
      (Evaluation.Inputs.lifted ⟨objects, y.val, height, .hardware⟩) s)
    (on : whole ∨ n.rendering = true)
    (few : (Evaluation.Inputs.covering ⟨objects, y.val, height, .hardware⟩ s objectCount).length ≤ 8) :
    Tandem y ⟨objects, y.val, height, .hardware⟩ raised whole (xs ++ [⟨n, .visible y, 257⟩])
      (m.step (.visible y) 257) (n.step (.visible y) 257) := by
  apply Tandem.fetching (step_inside place (by decide)) (by decide)
  rw [step_circuit, step_circuit, beside.count]
  cases rendered : n.rendering with
  | false =>
    have all : whole := on.resolve_right (by rw [rendered]; decide)
    have off : m.circuit.registers.mask.rendering = false := beside.rendering.symm.trans rendered
    exact ((shared all).matched whole 257).dot_off all ⟨off, rendered⟩ _ _ _ _
  | true =>
    exact beside.circuit.dot_matched co (beside.rendering.symm.trans rendered) (by decide)
      (Circuit.primed_matched own other rfl few (fun all => (shared all).strips) _ _) _

theorem tandem_fetching (co : Coupling Q) (beside : m.Beside Q n)
    (place : m.clock.position = .raster (.visible y) d) (hd : 257 < d ∧ d ≤ 320)
    (matched : m.circuit.Matched whole d n.circuit) (on : whole ∨ n.rendering = true)
    (i : Evaluation.Inputs) :
    Tandem y i raised whole (xs ++ [⟨n, .visible y, d⟩]) (m.step (.visible y) d)
      (n.step (.visible y) d) := by
  have on' : whole ∨ m.circuit.registers.mask.rendering = true := on.imp_right beside.rendering.symm.trans
  have next := step_inside place (by omega)
  obtain ⟨even, more⟩ := beside.circuit.dot_kept co matched on' hd (.visible y) m.clock.count
    m.config.limit n.config.limit
  obtain inner | rfl := Nat.lt_or_eq_of_le hd.2
  · apply Tandem.fetching next (by omega)
    rw [step_circuit, step_circuit, beside.count]
    exact more inner
  · apply Tandem.shown
    · rw [next]
      exact .inl ⟨rfl, by decide⟩
    · rw [step_circuit, step_circuit, beside.count]
      exact even.list

/-- What is fetched is shown until the next fetches. -/
theorem tandem_shown (place : m.clock.position = .raster line d) (shows : m.clock.position.Shows y)
    (list : n.circuit.strips.list = m.circuit.strips.list) (early : line = .visible y ∨ d ≤ 256)
    (i : Evaluation.Inputs) :
    Tandem y i raised whole (xs ++ [⟨n, line, d⟩]) (m.step line d) (n.step line d) := by
  have apart : d < 257 ∨ 320 < d := by
    rw [place] at shows
    obtain rfl | before := early
    · exact .inr shows.late
    · exact .inl (Nat.lt_succ_of_le before)
  have kept : (n.step line d).circuit.strips.list = (m.step line d).circuit.strips.list := by
    rw [step_circuit, step_circuit, Circuit.dot_strips line apart, Circuit.dot_strips line apart, list]
  rw [place] at shows
  have next := step_place line d m
  rw [place] at next
  have onward : (m.step line d).clock.position.Shows y ∨ (m.step line d).clock.position.Leaves y := by
    rw [next]
    exact shows.next early
  obtain stays | leaves := onward
  · exact .shown stays kept
  · exact .left leaves

/-- A dot of both machines leads to the next stage, and keeps them side by side. -/
theorem Tandem.step (co : Coupling Q) (beside : m.Beside Q n) (limit : m.config.limit = .hardware)
    (h : Tandem y ⟨objects, y.val, height, .hardware⟩ raised whole xs m n)
    (place : m.clock.position = .raster line d)
    (sparse : Sparse y objects height whole (xs ++ [⟨n, line, d⟩])) :
    (m.step line d).Beside Q (n.step line d)
      ∧ Tandem y ⟨objects, y.val, height, .hardware⟩ raised whole (xs ++ [⟨n, line, d⟩])
        (m.step line d) (n.step line d) := by
  have here : (⟨n, line, d⟩ : Moment κ) ∈ xs ++ [⟨n, line, d⟩] :=
    List.mem_append_right xs (List.mem_singleton_self _)
  have quiet (early : d ≤ 257 ∨ 320 < d) : (m.step line d).Beside Q (n.step line d) :=
    beside.step_few co (fun _ late last => by omega) fun last => by omega
  cases h with
  | early own hd shared overflow =>
    obtain ⟨rfl, rfl⟩ := Position.raster.inj (place.symm.trans own)
    have searches (late : 65 ≤ d) := sparse.searches _ here rfl late (by show d ≤ 256; omega)
    have clears (all : whole) := sparse.clears all _ here rfl
    have on (all : whole) (started : 1 ≤ d) : n.rendering = true := by
      obtain clearing | late := Nat.lt_or_ge d 65
      · exact clears all started (Nat.le_of_lt_succ clearing)
      · exact (searches late).1
    exact ⟨quiet (by omega), tandem_early beside limit own hd
      (fun all => beside.step_shares limit (by omega) (on all) (shared all)) overflow searches⟩
  | searching own hd shared start ends gathers overflow =>
    obtain ⟨rfl, rfl⟩ := Position.raster.inj (place.symm.trans own)
    have searches := sparse.searches _ here rfl (by show 65 ≤ d; omega) hd.2
    exact ⟨quiet (by omega), tandem_searching beside limit own hd
      (fun all => beside.step_shares limit hd.2 (fun _ => searches.1) (shared all)) start ends gathers
      overflow searches⟩
  | @searched opening own shared start sought sought' _ =>
    obtain ⟨rfl, now⟩ := Position.raster.inj (place.symm.trans own)
    obtain ⟨mem, at_, first⟩ := start
    have late : 257 ≤ d := Nat.le_of_eq now.symm
    have reached : ∃ x ∈ xs ++ [(⟨n, .visible y, d⟩ : Moment κ)], 257 ≤ x.dot := ⟨_, here, late⟩
    have few := sparse.few reached opening (List.mem_append_left _ mem) at_ first
    have on := sparse.fetches _ here rfl late (by show d ≤ 320; omega)
    refine ⟨quiet (by omega), ?_⟩
    rw [now]
    exact tandem_searched co beside own shared sought sought' on few
  | fetching own hd matched =>
    obtain ⟨rfl, rfl⟩ := Position.raster.inj (place.symm.trans own)
    have on := sparse.fetches _ here rfl (by show 257 ≤ d; omega) hd.2
    exact ⟨beside.step_few co (fun _ opened _ => matched.handed opened) fun _ => matched.few,
      tandem_fetching co beside own hd matched on _⟩
  | shown shows list =>
    have early : line = .visible y ∨ d ≤ 256 := (sparse.line _ here).imp_right And.right
    refine ⟨quiet ?_, tandem_shown place shows list early _⟩
    rw [place] at shows
    exact shows.symm.imp And.right And.right
  | left leaves =>
    rw [place] at leaves
    obtain own | ⟨below, early⟩ := sparse.line _ here
    · exact absurd own leaves.1
    · have late := leaves.2 below
      exact absurd (show d ≤ 256 from early) (by omega)

/-- Machines that go through a line in tandem are bound to go on. -/
theorem tandem_bond (co : Coupling Q) (y : Fin screenHeight) (objects : Block 256) (height : Nat)
    (raised : Bool) (whole : Prop) : Bond (fun _ => Q) (Sparse y objects height whole) fun xs m n =>
      m.Beside Q n ∧ m.config.limit = .hardware
        ∧ Tandem y ⟨objects, y.val, height, .hardware⟩ raised whole xs m n where
  coupling _ := co
  left fair := fair.left
  beside h := h.1
  step h place fair := by
    obtain ⟨beside, limit, tandem⟩ := h
    obtain ⟨beside', tandem'⟩ := tandem.step co beside limit place fair
    exact ⟨beside', (congrArg Config.limit (step_config _ _ _)).trans limit, tandem'⟩
  between h own other beside := by
    obtain ⟨-, limit, tandem⟩ := h
    exact ⟨beside, own.config.symm ▸ limit, tandem.between own other⟩
  closed h := by
    obtain ⟨beside, limit, tandem⟩ := h
    exact ⟨beside.closeFrame, limit, tandem.keep rfl ⟨rfl, rfl⟩ ⟨rfl, rfl⟩ rfl⟩

/-- A script takes both machines on from before the search of a line. -/
theorem tandem_run (co : Coupling Q) (beside : m.Beside Q n) (limit : m.config.limit = .hardware)
    (place : m.clock.position = .raster (.visible y) d) (hd : d ≤ 65)
    (shared : whole → m.circuit.Shares d n.circuit) {acts : List Act}
    (sparse : Sparse y objects height whole (trail acts n)) :
    (run acts m).Beside Q (run acts n)
      ∧ Tandem y ⟨objects, y.val, height, .hardware⟩ n.status.overflow whole (trail acts n) (run acts m)
        (run acts n) := by
  have start : m.Beside Q n ∧ m.config.limit = .hardware
      ∧ Tandem y ⟨objects, y.val, height, .hardware⟩ n.status.overflow whole [] m n :=
    ⟨beside, limit, .early place hd shared rfl⟩
  have bond := tandem_bond co y objects height n.status.overflow whole
  obtain ⟨beside', -, tandem⟩ := bond.run start acts sparse
  exact ⟨beside', tandem⟩

omit [Cartridge κ] in
theorem Tandem.searched_of_place {i : Evaluation.Inputs} (h : Tandem y i raised whole xs m n)
    (place : m.clock.position = .raster (.visible y) 257) :
    ∃ opening ∈ xs, opening.line = .visible y ∧ opening.dot = 65
      ∧ m.circuit.evaluation.Sought i opening.firstObject
      ∧ n.circuit.evaluation.Sought i.lifted opening.firstObject
      ∧ (n.status.overflow = true
        ↔ raised = true ∨ 8 < (i.covering opening.firstObject objectCount).length) := by
  have only {d : Nat} (own : m.clock.position = .raster (.visible y) d) : d = 257 :=
    (Position.raster.inj (own.symm.trans place)).2
  cases h with
  | early own hd | searching own hd | fetching own hd =>
    have := only own
    omega
  | searched _ _ start own other overflow =>
    exact ⟨_, start.1, start.2.1, start.2.2, own, other, overflow⟩
  | shown shows _ =>
    rw [place] at shows
    exact absurd shows.late (by decide)
  | left leaves =>
    rw [place] at leaves
    exact absurd rfl leaves.1

omit [Cartridge κ] in
theorem Tandem.shown_of_place {i : Evaluation.Inputs} (h : Tandem y i raised whole xs m n)
    (shows : m.clock.position.Shows y) : n.circuit.strips.list = m.circuit.strips.list := by
  have late {d : Nat} (own : m.clock.position = .raster (.visible y) d) : 320 < d := by
    rw [own] at shows
    exact shows.late
  cases h with
  | early own hd | searching own hd | fetching own hd =>
    have := late own
    omega
  | searched own => exact absurd (late own) (by decide)
  | shown _ list => exact list
  | left leaves => exact absurd leaves shows.not_leaves

omit [Cartridge κ] in
theorem Beside.objectPixel? (h : m.Beside Q n) (list : n.circuit.strips.list = m.circuit.strips.list)
    (x : Nat) : n.circuit.objectPixel? x = m.circuit.objectPixel? x := by
  have visible : n.circuit.visibility = m.circuit.visibility := by
    obtain ⟨u, rfl, -⟩ := h
    rfl
  rw [Circuit.objectPixel?, Circuit.objectPixel?, visible, Strips.pixel?, Strips.pixel?, list]

/-- Two machines side by side, one with the limit of eight objects and one without, search a line under
one script. Before the fetches the second one has all objects in range in its slots, and the line has
raised the overflow flag if it has nine of them; the first one has the first eight of them alike. If there
are no more, both have the same strips after the fetches, and show the same object pixels on the line
below: if all fetches are rendered, whatever the strips were, else if they were the same at its start. -/
theorem line_in_both_modes (co : Coupling Q) (beside : m.Beside Q n)
    (limit : m.config.limit = .hardware) {d₀ : Nat} (begin_ : m.clock.position = .raster (.visible y) d₀)
    (early : d₀ ≤ 65) (acts : List Act) (spans : Spans y objects height (trail acts n)) :
    let p := run acts m
    let q := run acts n
    let i : Evaluation.Inputs := ⟨objects, y.val, height, .unlimited⟩
    ((∀ x ∈ trail acts n, x.dot ≤ 256) → q.clock.position = .raster (.visible y) 257 →
      ∃ opening ∈ trail acts n, opening.line = .visible y ∧ opening.dot = 65
        ∧ let covering := i.covering opening.firstObject objectCount
          q.circuit.evaluation.found = covering.length
          ∧ (∀ slot k, covering[slot]? = some k → ∀ b < 4,
            q.circuit.evaluation.secondary.load (slot * 4 + b) = objects.load (k * 4 + b))
          ∧ (q.status.overflow = true ↔ n.status.overflow = true ∨ 9 ≤ covering.length)
          ∧ p.circuit.evaluation.zeroInRange = q.circuit.evaluation.zeroInRange
          ∧ p.circuit.evaluation.found = min 8 covering.length
          ∧ ∀ a < min 8 covering.length * 4,
            p.circuit.evaluation.secondary.load a = q.circuit.evaluation.secondary.load a)
    ∧ ((∀ opening ∈ trail acts n, opening.line = .visible y → opening.dot = 65 →
        (i.covering opening.firstObject objectCount).length ≤ 8) →
      (∀ x ∈ trail acts n, x.line = .visible y → 257 ≤ x.dot → x.dot ≤ 320 → x.before.rendering = true)
        ∨ (d₀ ≤ 1 ∧ n.circuit.strips = m.circuit.strips ∧ m.circuit.strips.pending ≤ 8
          ∧ ∀ x ∈ trail acts n, x.line = .visible y → 1 ≤ x.dot → x.dot ≤ 64 → x.before.rendering = true) →
      q.clock.position.Shows y →
        q.circuit.strips.list = p.circuit.strips.list
        ∧ ∀ x, q.circuit.objectPixel? x = p.circuit.objectPixel? x) := by
  intro p q i
  constructor
  · intro short place
    have sparse : Sparse y objects height False (trail acts n) :=
      { spans with
        few := fun ⟨x, hx, late⟩ => absurd (short x hx) (Nat.not_le.mpr late)
        clears := False.elim
        fetches := fun x hx _ late => absurd (short x hx) (Nat.not_le.mpr late) }
    obtain ⟨beside', tandem⟩ := tandem_run co beside limit begin_ early False.elim sparse
    obtain ⟨opening, mem, line, first, own, other, overflow⟩ :=
      tandem.searched_of_place ((congrArg Clock.position beside'.clock).symm.trans place)
    have all := Evaluation.Sought.found_all rfl other
    obtain ⟨found, zero, same⟩ := own.same other rfl
    rw [all] at found
    refine ⟨opening, mem, line, first, all, fun slot k at_ => ?_, overflow, zero.symm, found, fun a ha => ?_⟩
    · refine other.copied slot k ?_ at_
      rw [all]
      exact (List.getElem?_eq_some_iff.mp at_).1
    · have inside : a < (run acts m).circuit.evaluation.found * 4 := by
        rw [found]
        exact ha
      exact (same a inside).symm
  · intro few rendered shows
    have shown {whole : Prop} (shared : whole → m.circuit.Shares d₀ n.circuit)
        (sparse : Sparse y objects height whole (trail acts n)) :
        q.circuit.strips.list = p.circuit.strips.list
          ∧ ∀ x, q.circuit.objectPixel? x = p.circuit.objectPixel? x := by
      obtain ⟨beside', tandem⟩ := tandem_run co beside limit begin_ early shared sparse
      have position : p.clock.position = q.clock.position := (congrArg Clock.position beside'.clock).symm
      have list := tandem.shown_of_place (position.symm ▸ shows)
      exact ⟨list, beside'.objectPixel? list⟩
    obtain fetches | ⟨start, strips, pending, clears⟩ := rendered
    · have sparse : Sparse y objects height False (trail acts n) :=
        { spans with
          few := fun _ => few
          clears := False.elim
          fetches := fun x hx at_ first last => .inr (fetches x hx at_ first last) }
      exact shown False.elim sparse
    · have sparse : Sparse y objects height True (trail acts n) :=
        { spans with
          few := fun _ => few
          clears := fun _ => clears
          fetches := fun _ _ _ _ _ => .inl trivial }
      exact shown (fun _ => ⟨strips, pending, Evaluation.similar_of_le_one start _ _⟩) sparse

/-- A script that waits for some dots. -/
def waiting (k : Nat) (m : Machine κ) : List Act :=
  [.turn ⟨m.host.cycle, m.host.memory, .catchUp (m.clock.count + k * m.timing.dot)⟩]

theorem trail_waiting (k : Nat) (m : Machine κ) :
    trail (m.waiting k) m = m.trailTo (m.clock.count + k * m.timing.dot) := List.append_nil _

/-- The moments of waiting on a line. -/
theorem moments_waiting {k : Nat} (place : m.clock.position = .raster line d) (inside : d + k ≤ 339) :
    ∀ x ∈ trail (m.waiting k) m, x.line = line ∧ x.dot < d + k
      ∧ x.before.circuit.settings = m.circuit.settings := by
  rw [trail_waiting]
  induction k generalizing m d with
  | zero =>
    rw [trailTo_of_le (by omega)]
    exact List.forall_mem_nil _
  | succ k ih =>
    have dot : 0 < m.timing.dot := m.config.region.dot_pos
    have target : m.clock.count + (k + 1) * m.timing.dot
        = (m.step line d).clock.count + k * (m.step line d).timing.dot := by
      rw [step_count, step_timing, Nat.succ_mul]
      omega
    rw [trailTo_raster place (by rw [Nat.succ_mul]; omega), target]
    refine List.forall_mem_cons.mpr ⟨⟨rfl, by show d < d + (k + 1); omega, rfl⟩, fun x hx => ?_⟩
    obtain ⟨here, before, same⟩ := ih (step_inside place (by omega)) (by omega) x hx
    exact ⟨here, by omega, same.trans (step_settings line d m)⟩

theorem spans_waiting {k : Nat} (place : m.clock.position = .raster (.visible y) d)
    (inside : d + k ≤ 339) (on : m.rendering = true) :
    Spans y m.circuit.objects m.circuit.registers.control.objectHeight (trail (m.waiting k) m) where
  line x hx := .inl (moments_waiting place inside x hx).1
  searches x hx _ _ _ := by
    obtain ⟨-, -, same⟩ := moments_waiting place inside x hx
    exact ⟨(congrArg (·.mask.rendering) same).trans on, congrArg Settings.objects same,
      congrArg (·.control.objectHeight) same⟩

/-- The last object lies at the top, and all others below the screen. -/
def loneObject : Block 256 := (Block.filled 256 0xFF).store 252 0

theorem covering_lone {i : Evaluation.Inputs} (memory : i.memory = loneObject) (line : i.line = 0)
    (height : 0 < i.height) {s : Nat} (hs : s ≤ 63) : i.covering s objectCount = [63] := by
  have none : i.covering s 63 = [] := by
    rw [List.eq_nil_iff_forall_not_mem]
    intro k hk
    obtain ⟨⟨-, inside⟩, above, -⟩ := Evaluation.Inputs.mem_covering_iff.mp hk
    simp (disch := omega) [memory, loneObject, line] at above
  have one : (List.range' 63 (objectCount - 63)).filter i.hit = [63] := by
    have hit : i.hit 63 = true := by
      simpa [Evaluation.Inputs.hit, memory, line, loneObject] using height
    exact List.filter_eq_self.mpr (List.forall_mem_singleton.mpr hit)
  rw [Evaluation.covering_append hs (by decide), none, one, List.nil_append]

theorem exists_lit_with (objects : Block 256) : ∃ m : Machine (Option Unit),
    m.clock.position = .raster (.visible ⟨0, by decide⟩) 1 ∧ m.rendering = true
      ∧ m.circuit.objects = objects ∧ m.circuit.registers.control = ⟨0⟩ := by
  obtain ⟨lit, on⟩ := exists_dawn
  exact ⟨lit.withCircuit fun c => { c with objects := objects }, on.place, on.on, rfl, on.control⟩

/-- The first line that is rendered after rendering was switched on, with one object in range. -/
theorem line_in_both_modes_switchedOn : ∃ (m n : Machine (Option Unit)) (acts acts' : List Act),
    m.Beside (· = ·) n ∧ m.config.limit = .hardware
      ∧ (run acts n).clock.position = .raster (.visible ⟨0, by decide⟩) 257
      ∧ (run acts n).circuit.evaluation.found = 1 ∧ (run acts m).circuit.evaluation.found = 1
      ∧ (run acts' n).clock.position = .raster (.visible ⟨0, by decide⟩) 321
      ∧ (run acts' n).circuit.strips.list = (run acts' m).circuit.strips.list
      ∧ ∀ x, (run acts' n).circuit.objectPixel? x = (run acts' m).circuit.objectPixel? x := by
  obtain ⟨base, at_, shining, objects, control⟩ := exists_lit_with loneObject
  let n := base.withLimit .unlimited
  have place : n.clock.position = .raster (.visible ⟨0, by decide⟩) 1 := at_
  have rendering : n.rendering = true := shining
  have beside : (base.withLimit .hardware).Beside (· = ·) n := (alongside_withLimit rfl).beside
  have whole (k : Nat) (inside : 1 + k ≤ 339) := line_in_both_modes Cartridge.coupling_eq beside rfl place
    (by decide) (n.waiting k) (spans_waiting place inside rendering)
  have there (k : Nat) (inside : 1 + k ≤ 339) :
      (run (n.waiting k) n).clock.position = .raster (.visible ⟨0, by decide⟩) (1 + k) :=
    (reaches_line place inside).place
  have short (x : Moment (Option Unit)) (hx : x ∈ trail (n.waiting 256) n) : x.dot ≤ 256 := by
    have := (moments_waiting place (by decide) x hx).2.1
    omega
  have rendered (x : Moment (Option Unit)) (hx : x ∈ trail (n.waiting 320) n) :
      x.before.rendering = true := by
    obtain ⟨-, -, same⟩ := moments_waiting place (by decide) x hx
    exact (congrArg (·.mask.rendering) same).trans rendering
  have height : 0 < n.circuit.registers.control.objectHeight := by
    change 0 < base.circuit.registers.control.objectHeight
    rw [control]
    decide
  have lone (x : Moment (Option Unit)) : Evaluation.Inputs.covering
      ⟨n.circuit.objects, 0, n.circuit.registers.control.objectHeight, .unlimited⟩
      x.firstObject objectCount = [63] :=
    covering_lone objects rfl height (Nat.le_of_lt_succ x.firstObject_lt)
  obtain ⟨opening, -, -, -, found, -, -, -, limited, -⟩ :=
    (whole 256 (by decide)).1 short (there 256 (by decide))
  rw [lone opening] at found limited
  have shows : (run (n.waiting 320) n).clock.position.Shows ⟨0, by decide⟩ := by
    rw [there 320 (by decide)]
    exact .inl ⟨rfl, by decide⟩
  have few (x : Moment (Option Unit)) : (Evaluation.Inputs.covering
      ⟨n.circuit.objects, 0, n.circuit.registers.control.objectHeight, .unlimited⟩
      x.firstObject objectCount).length ≤ 8 := by
    rw [lone x]
    decide
  obtain ⟨list, pixel⟩ := (whole 320 (by decide)).2 (fun x _ _ _ => few x)
    (.inl fun x hx _ _ _ => rendered x hx) shows
  exact ⟨_, n, n.waiting 256, n.waiting 320, beside, rfl, there 256 (by decide),
    found, limited, there 320 (by decide), list, pixel⟩

end Machine

end PictureUnit
