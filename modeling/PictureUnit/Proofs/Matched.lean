import PictureUnit.Proofs.Gathered
import PictureUnit.Proofs.Handover
import PictureUnit.Proofs.Renewal

/-!
# Circuits that fetch the same objects

One of two circuits side by side shows eight objects on a line, the other one as many as there are. When
both expect the same objects, no more than eight, their fetches leave the same strips. What the latches
still hold of earlier lines may differ, as long as no fetch is left out; if they hold the same, fetches may
be left out.
-/

set_option autoImplicit false

namespace PictureUnit

open Cartridge (Coupling)

namespace Evaluation

variable {i : Inputs} {s d : Nat} {e f : Evaluation}

/-- Both searches look at the same objects in range, and remember alike whether the first is one. -/
theorem Sought.same (h : Sought i s e) (h' : Sought i.lifted s f) (limit : i.limit = .hardware) :
    e.found = min 8 f.found ∧ f.zeroInRange = e.zeroInRange ∧ SameTo (e.found * 4) e f := by
  have all : f.found = (i.covering s objectCount).length := Sought.found_all (i := i.lifted) rfl h'
  have found := h.found
  rw [limit, ← all] at found
  change e.found = min 8 f.found at found
  refine ⟨found, Bool.eq_iff_iff.mpr (h'.zero.trans h.zero.symm), fun p hp => ?_⟩
  have slot : p / 4 < e.found := by omega
  have there : p / 4 < (i.covering s objectCount).length := by omega
  have byte : p % 4 < 4 := Nat.mod_lt _ (by decide)
  have place : p / 4 * 4 + p % 4 = p := by omega
  have own := h.copied _ _ slot (List.getElem?_eq_getElem there) _ byte
  have other := h'.copied _ _ (by omega) (List.getElem?_eq_getElem there) _ byte
  rw [place] at own other
  exact other.trans own.symm

/-- Searches of one line, before a dot of it, that begin in cleared memories. -/
structure Similar (d : Nat) (e f : Evaluation) : Prop where
  clearing : d ≤ 65 → e.Cleared .hardware d ∧ f.Cleared .unlimited d
  searching : 65 < d → d ≤ 257 → Paired (oddDots d) e f ∧ SameTo 32 e f

theorem similar_of_le_one (hd : d ≤ 1) (e f : Evaluation) : Similar d e f := by
  refine ⟨fun _ => ?_, fun late => by omega⟩
  obtain rfl | rfl : d = 0 ∨ d = 1 := by omega
  · exact ⟨cleared_zero _ e, cleared_zero _ f⟩
  · exact ⟨cleared_one _ e, cleared_one _ f⟩

/-- A dot clears both memories, or takes both searches on. -/
theorem Similar.onDot (h : Similar d e f) (limit : i.limit = .hardware) (hd : 1 ≤ d ∧ d ≤ 256)
    (address : UInt8) : Similar (d + 1) (e.onDot i address d) (f.onDot i.lifted address d) := by
  constructor
  · intro early
    obtain ⟨own, other⟩ := h.clearing (by omega)
    rw [Evaluation.onDot, if_neg (by omega), if_pos (by omega), Evaluation.onDot, if_neg (by omega),
      if_pos (by omega), limit]
    exact ⟨own.next (by omega), other.next (by omega)⟩
  · intro late _
    obtain rfl | later := Nat.lt_or_eq_of_le (Nat.le_of_lt_succ late) |>.symm
    · obtain ⟨own, other⟩ := h.clearing le_rfl
      have same : SameTo 32 (e.start address) (f.start address) := fun p hp =>
        (other.bytes p hp).trans (own.bytes p hp).symm
      exact ⟨Paired.onDot_start limit address e f, (start_paired address e f).step_same same⟩
    · obtain ⟨paired, same⟩ := h.searching later (by omega)
      exact ⟨paired.onDot limit ⟨later, hd.2⟩ address, paired.onDot_same limit ⟨later, hd.2⟩ address same⟩

end Evaluation

namespace Strips

/-- Strips whose fetches have come to the same dot. If it is not known that the latches are the same, the
object in hand counts once one is opened, and its low plane once one is read. -/
structure Even (known : Prop) (dot : Nat) (s t : Strips) : Prop where
  list : t.list = s.list
  pending : t.pending = s.pending
  zeroInRange : t.zeroInRange = s.zeroInRange
  object : known ∨ 257 < dot → t.object = s.object
  low : known ∨ 262 < dot → t.low = s.low

variable {known : Prop} {dot : Nat} {s t : Strips}

theorem Even.refl (known : Prop) (dot : Nat) (s : Strips) : Even known dot s s :=
  ⟨rfl, rfl, rfl, fun _ => rfl, fun _ => rfl⟩

theorem Even.eq (h : Even known dot s t) (late : known ∨ 262 < dot) : t = s := by
  obtain ⟨list, pending, zero, object, low⟩ := s
  obtain ⟨list', pending', zero', object', low'⟩ := t
  obtain rfl := h.list
  obtain rfl := h.pending
  obtain rfl := h.zeroInRange
  obtain rfl := h.object (late.imp_right (by omega))
  obtain rfl := h.low late
  rfl

theorem Even.succ (h : Even known dot s t) (hd : dot ≠ 257 ∧ dot ≠ 262) : Even known (dot + 1) s t where
  list := h.list
  pending := h.pending
  zeroInRange := h.zeroInRange
  object late := h.object (late.imp_right (by omega))
  low late := h.low (late.imp_right (by omega))

theorem Even.select (h : Even known dot s t) (hd : dot ≠ 262) {slot : Nat} {a b : Block 256}
    (object : (t.select slot b).object = (s.select slot a).object) :
    Even known (dot + 1) (s.select slot a) (t.select slot b) where
  list := h.list
  pending := h.pending
  zeroInRange := h.zeroInRange
  object _ := object
  low late := h.low (late.imp_right (by omega))

theorem Even.latchLow (h : Even known dot s t) (opened : 257 < dot) (byte : UInt8) :
    Even known (dot + 1) (s.latchLow byte) (t.latchLow byte) where
  list := h.list
  pending := h.pending
  zeroInRange := h.zeroInRange
  object _ := h.object (.inr opened)
  low _ := rfl

theorem Even.commit (h : Even known dot s t) (late : 262 < dot) (slot : Nat) (high : UInt8) :
    Even known (dot + 1) (s.commit slot high) (t.commit slot high) := by
  rw [h.eq (.inr late)]
  exact .refl _ _ _

end Strips

namespace Circuit

variable {κ : Type} {Q : κ → κ → Prop} {c d : Circuit κ} {line : Line} {dot : Nat} {known : Prop}

/-- Circuits that fetch the same objects, no more than eight, and have come to the same dot. -/
structure Matched (known : Prop) (dot : Nat) (c d : Circuit κ) : Prop where
  even : Strips.Even known dot c.strips d.strips
  few : d.strips.pending ≤ 8
  same : Evaluation.SameTo (c.strips.pending * 4) c.evaluation d.evaluation

theorem Matched.expects (h : c.Matched known dot d) : c.Expects d := by
  refine ⟨?_, h.same⟩
  rw [← h.even.pending]
  exact (Nat.min_eq_left h.few).symm

theorem Matched.handed (h : c.Matched known dot d) (opened : 257 < dot) : c.Handed d :=
  ⟨h.expects, h.even.object (.inr opened)⟩

/-- Only the search and the strips count. -/
theorem Matched.of_eq {c' d' : Circuit κ} (h : c.Matched known dot d)
    (own : c'.strips = c.strips ∧ c'.evaluation = c.evaluation)
    (other : d'.strips = d.strips ∧ d'.evaluation = d.evaluation) : c'.Matched known dot d' := by
  constructor
  · rw [own.1, other.1]
    exact h.even
  · rw [other.1]
    exact h.few
  · rw [own.1, own.2, other.2]
    exact h.same

theorem primed_eq (hd : 257 < dot) (limit : SpriteLimit) (c : Circuit κ) :
    (c.primed line dot limit).strips = c.strips ∧ (c.primed line dot limit).evaluation = c.evaluation := by
  have works : (c.primed line dot limit).works = c.works := primed_of_lt hd limit c
  exact ⟨congrArg Works.strips works, congrArg Works.evaluation works⟩

/-- What two searches have found is handed over alike, if there is not too much of it. -/
theorem primed_matched {y : Fin screenHeight} {i : Evaluation.Inputs} {start : Nat}
    (own : c.evaluation.Sought i start) (other : d.evaluation.Sought i.lifted start)
    (limited : i.limit = .hardware) (few : (i.covering start objectCount).length ≤ 8)
    (strips : known → d.strips = c.strips) (limit limit' : SpriteLimit) :
    (c.primed (.visible y) 257 limit).Matched known 257 (d.primed (.visible y) 257 limit') := by
  obtain ⟨found, zero, same⟩ := own.same other limited
  have all : d.evaluation.found ≤ 8 := by
    rw [Evaluation.Sought.found_all (i := i.lifted) rfl other]
    exact few
  have pending : d.evaluation.found = c.evaluation.found := by omega
  have object (sure : known ∨ 257 < 257) : d.strips.object = c.strips.object := by
    rw [strips (sure.resolve_right (Nat.lt_irrefl 257))]
  have low (sure : known ∨ 262 < 257) : d.strips.low = c.strips.low := by
    rw [strips (sure.resolve_right (by decide))]
  obtain ⟨stopped, prepared⟩ := primed_start (.visible y) limit c
  obtain ⟨stopped', prepared'⟩ := primed_start (.visible y) limit' d
  rw [objectFetchStart] at stopped prepared stopped' prepared'
  constructor
  · rw [prepared, prepared']
    exact ⟨rfl, pending, zero, object, low⟩
  · rw [prepared']
    exact all
  · rw [prepared, stopped, stopped']
    exact same

/-- Without rows past the eighth nothing strays. -/
theorem strayReadsAt_few (few : dot = 320 → c.strips.pending ≤ 8) : c.strayReadsAt line dot = 0 := by
  unfold strayReadsAt
  split
  · next last =>
    have none : c.strips.pending - 8 = 0 := Nat.sub_eq_zero_of_le (few last.2)
    rw [strayReads, none]
    rfl
  · rfl

variable [Cartridge κ]

/-- The fetches of a slot keep strips even. -/
theorem Beside.fetchSlot_even (co : Coupling Q) (h : c.Beside Q d) (expects : c.Expects d)
    (even : Strips.Even known dot c.strips d.strips) (inside : 257 ≤ dot ∧ dot ≤ 320) (cycle : Nat) :
    Strips.Even known (dot + 1)
      (c.fetchObject line (objectSlot dot) (.ofIndex (dot - 257)) cycle).strips
      (d.fetchObject line (objectSlot dot) (.ofIndex (dot - 257)) cycle).strips := by
  have slot : objectSlot dot < 8 := by
    unfold objectSlot objectFetchStart
    omega
  have bus := h.front.2.1
  have byte := (h.readPattern co c.bus).1
  have still (address : Nat) (e : Circuit κ) : (e.readPattern address).2.strips = e.strips :=
    (readPattern_still address e).strips
  have named (address : Nat) (e : Circuit κ) : (e.readName address).2.strips = e.strips :=
    (readName_still address e).strips
  -- The first dot of all opens an object, and dot 262 reads the first low plane.
  have opens : dot = 257 → Phase.ofIndex (dot - 257) = .openName := by
    rintro rfl
    rfl
  have reads : dot = 262 → Phase.ofIndex (dot - 257) = .low := by
    rintro rfl
    rfl
  have high : Phase.ofIndex (dot - 257) = .high → 262 < dot := fun last => by
    have := mod_eq_of_high last
    omega
  generalize Phase.ofIndex (dot - 257) = phase at opens reads high
  have apart (other : phase ≠ .openName ∧ phase ≠ .low) : dot ≠ 257 ∧ dot ≠ 262 :=
    ⟨fun first => other.1 (opens first), fun third => other.2 (reads third)⟩
  cases phase with
  | openName =>
    exact even.select (fun third => Phase.noConfusion (reads third)) (expects.select slot)
  | openAttributes | openLow | openHigh => exact even.succ (apart (by decide))
  | name | attributes =>
    show Strips.Even known _ (c.readName c.bus).2.strips (d.readName d.bus).2.strips
    rw [named, named]
    exact even.succ (apart (by decide))
  | low =>
    show Strips.Even known _ ((c.readPattern c.bus).2.strips.latchLow (c.readPattern c.bus).1)
      ((d.readPattern d.bus).2.strips.latchLow (d.readPattern d.bus).1)
    rw [still, still, bus, byte]
    refine even.latchLow (Nat.lt_of_le_of_ne inside.1 fun first => ?_) _
    exact Phase.noConfusion (opens first.symm)
  | high =>
    show Strips.Even known _ ((c.readPattern c.bus).2.strips.commit _ (c.readPattern c.bus).1)
      ((d.readPattern d.bus).2.strips.commit _ (d.readPattern d.bus).1)
    rw [still, still, bus, byte]
    exact even.commit (high rfl) _ _

/-- A rendered dot of a slot keeps the strips of matched circuits even. -/
theorem Beside.dot_even (co : Coupling Q) (h : c.Beside Q d) (on : c.registers.mask.rendering = true)
    (hd : 257 ≤ dot ∧ dot ≤ 320) {limit limit' : SpriteLimit}
    (matched : (c.primed line dot limit).Matched known dot (d.primed line dot limit')) (cycle : Nat) :
    Strips.Even known (dot + 1) (c.dot line dot cycle limit).strips
      (d.dot line dot cycle limit').strips := by
  have few : (c.primed line dot limit).strips.pending ≤ 8 := matched.even.pending ▸ matched.few
  rw [dot_slot_few on line hd cycle limit few,
    dot_slot_few (h.rendering.trans on) line hd cycle limit' matched.few]
  exact (h.primed line dot limit limit').fetchSlot_even co matched.expects matched.even hd cycle

/-- A rendered dot of a slot but the last keeps circuits matched. -/
theorem Beside.dot_matched (co : Coupling Q) (h : c.Beside Q d) (on : c.registers.mask.rendering = true)
    (hd : 257 ≤ dot ∧ dot < 320) {limit limit' : SpriteLimit}
    (matched : (c.primed line dot limit).Matched known dot (d.primed line dot limit')) (cycle : Nat) :
    (c.dot line dot cycle limit).Matched known (dot + 1) (d.dot line dot cycle limit') := by
  have even := h.dot_even co on ⟨hd.1, Nat.le_of_lt hd.2⟩ matched cycle
  obtain ⟨strips, secondary⟩ := dot_slot on line hd cycle limit
  obtain ⟨strips', secondary'⟩ := dot_slot (h.rendering.trans on) line hd cycle limit'
  rw [fetchObject_evaluation] at secondary secondary'
  refine ⟨even, ?_, ?_⟩
  · rw [strips', fetchObject_pending]
    exact matched.few
  · unfold Evaluation.SameTo
    rw [strips, fetchObject_pending, secondary, secondary']
    exact matched.same

/-- A dot that renders nothing does so too, if the latches are known to hold the same. -/
theorem Matched.dot_off (h : c.Matched known dot d) (sure : known)
    (off : c.registers.mask.rendering = false ∧ d.registers.mask.rendering = false) (line : Line)
    (cycle : Nat) (limit limit' : SpriteLimit) :
    (c.dot line dot cycle limit).Matched known (dot + 1) (d.dot line dot cycle limit') := by
  have still : c.Matched known (dot + 1) d := by
    refine ⟨?_, h.few, h.same⟩
    rw [h.even.eq (.inl sure)]
    exact .refl _ _ _
  exact still.of_eq (Circuit.dot_off off.1 line dot cycle limit)
    (Circuit.dot_off off.2 line dot cycle limit')

/-- After the first dot of the slots, matched circuits stay so whether they render or not. -/
theorem Beside.dot_kept (co : Coupling Q) (h : c.Beside Q d) (matched : c.Matched known dot d)
    (on : known ∨ c.registers.mask.rendering = true) (hd : 257 < dot ∧ dot ≤ 320) (line : Line)
    (cycle : Nat) (limit limit' : SpriteLimit) :
    Strips.Even known (dot + 1) (c.dot line dot cycle limit).strips (d.dot line dot cycle limit').strips
      ∧ (dot < 320 → (c.dot line dot cycle limit).Matched known (dot + 1)
        (d.dot line dot cycle limit')) := by
  cases rendered : c.registers.mask.rendering with
  | false =>
    have sure : known := on.resolve_right (by rw [rendered]; decide)
    have kept := matched.dot_off sure ⟨rendered, h.rendering.trans rendered⟩ line cycle limit limit'
    exact ⟨kept.even, fun _ => kept⟩
  | true =>
    have ready : (c.primed line dot limit).Matched known dot (d.primed line dot limit') :=
      matched.of_eq (primed_eq hd.1 limit c) (primed_eq hd.1 limit' d)
    exact ⟨h.dot_even co rendered ⟨Nat.le_of_lt hd.1, hd.2⟩ ready cycle,
      fun inner => h.dot_matched co rendered ⟨Nat.le_of_lt hd.1, inner⟩ ready cycle⟩

/-- Circuits with the same strips that search one line from its start on. -/
structure Shares (dot : Nat) (c d : Circuit κ) : Prop where
  strips : d.strips = c.strips
  few : c.strips.pending ≤ 8
  similar : Evaluation.Similar dot c.evaluation d.evaluation

omit [Cartridge κ] in
/-- At the end of the search they match, even if its result is not handed over. -/
theorem Shares.matched (h : c.Shares 257 d) (known : Prop) (dot : Nat) : c.Matched known dot d := by
  obtain ⟨-, same⟩ := h.similar.searching (by decide) le_rfl
  have few := h.few
  refine ⟨h.strips ▸ .refl _ _ _, h.strips ▸ few, fun p hp => same p ?_⟩
  omega

omit [Cartridge κ] in
theorem Shares.of_eq {c' d' : Circuit κ} (h : c.Shares dot d)
    (own : c'.strips = c.strips ∧ c'.evaluation = c.evaluation)
    (other : d'.strips = d.strips ∧ d'.evaluation = d.evaluation) : c'.Shares dot d' := by
  constructor
  · rw [own.1, other.1]
    exact h.strips
  · rw [own.1]
    exact h.few
  · rw [own.2, other.2]
    exact h.similar

/-- A rendered dot before the fetches keeps them so. -/
theorem Beside.dot_shares {y : Fin screenHeight} (h : c.Beside Q d) (shares : c.Shares dot d)
    (hd : dot ≤ 256) (on : 1 ≤ dot → c.registers.mask.rendering = true) (cycle : Nat) :
    (c.dot (.visible y) dot cycle .hardware).Shares (dot + 1)
      (d.dot (.visible y) dot cycle .unlimited) := by
  have kept (e : Circuit κ) (limit : SpriteLimit) :
      (e.dot (.visible y) dot cycle limit).strips = e.strips :=
    dot_strips (.visible y) (.inl (Nat.lt_succ_of_le hd)) cycle limit e
  refine ⟨?_, ?_, ?_⟩
  · rw [kept, kept]
    exact shares.strips
  · rw [kept]
    exact shares.few
  · obtain rfl | started := Nat.eq_zero_or_pos dot
    · exact Evaluation.similar_of_le_one le_rfl _ _
    · have inputs : d.searchInputs y.val .unlimited = (c.searchInputs y.val .hardware).lifted
          ∧ d.registers.objectAddress = c.registers.objectAddress := by
        obtain ⟨u, rfl, -⟩ := h
        exact ⟨rfl, rfl⟩
      rw [dot_evaluation (on started) y ⟨started, hd⟩,
        dot_evaluation (h.rendering.trans (on started)) y ⟨started, hd⟩, inputs.1, inputs.2]
      exact shares.similar.onDot rfl ⟨started, hd⟩ _

end Circuit

end PictureUnit
