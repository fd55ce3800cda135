import PictureUnit.Proofs.Beside
import PictureUnit.Proofs.Lull
import PictureUnit.Proofs.Sought
import PictureUnit.Proofs.Uncapped

/-!
# The objects of circuits side by side

One of two circuits side by side shows eight objects on a line, the other one as many as there are. While
a line is rendered without a break from the start of the search on, both have the same objects in the
first eight slots, so they fetch the same rows. Then the second circuit fetches the rest without using the
bus. The cartridge learns of that only if such a row lies in one of its own slots.
-/

set_option autoImplicit false

namespace PictureUnit

/-- The second half of a row lies on the same page. -/
theorem highPlane_page (address : Nat) : highPlane address / pageSize = address / pageSize := by
  unfold highPlane pageSize
  split <;> omega

theorem Banks.patternCell_ne {b : Banks} {address : Nat}
    (h : b.pattern (address / pageSize) ≠ .cartridge) : b.patternCell address ≠ .cartridge := by
  unfold patternCell
  cases source : b.pattern (address / pageSize) with
  | cartridge => exact absurd source h
  | ram page =>
    simp only [ramCell]
    cases index? b.ram.size page.toNat (address % pageSize) <;> exact Cell.noConfusion
  | rom page =>
    simp only [romCell]
    cases index? b.rom.size page.toNat (address % pageSize) <;> exact Cell.noConfusion

namespace Strips

theorem commit_keeps (slot : Nat) (high : UInt8) (s : Strips) :
    (s.commit slot high).pending = s.pending ∧ (s.commit slot high).object = s.object := by
  unfold commit
  split <;> exact ⟨rfl, rfl⟩

end Strips

namespace Circuit

variable {κ : Type} {Q : κ → κ → Prop} {c d : Circuit κ} {line : Line} {slot : Nat}

/-- The row of the object in this slot lies in a slot of the cartridge. -/
def Strays (line : Line) (c : Circuit κ) (slot : Nat) : Prop := c.banks.pattern
  ((Strips.objectIn c.evaluation.secondary slot).lowAddress line c.registers.control / pageSize)
    = .cartridge

instance (line : Line) (c : Circuit κ) (slot : Nat) : Decidable (c.Strays line slot) :=
  inferInstanceAs (Decidable (_ = _))

/-- What the rows past the eighth ask of the cartridge: two reads for each that strays. -/
def strayReads (line : Line) (c : Circuit κ) : Nat :=
  2 * (List.range' 8 (c.strips.pending - 8)).countP fun slot => c.Strays line slot

theorem strays_of_apart (h : c.Apart d) (secondary : d.evaluation.secondary = c.evaluation.secondary) :
    d.Strays line slot ↔ c.Strays line slot := by
  unfold Strays
  rw [secondary, h]
  exact Iff.rfl

theorem strayReads_of_apart (h : c.Apart d) (secondary : d.evaluation.secondary = c.evaluation.secondary)
    (pending : d.strips.pending = c.strips.pending) : d.strayReads line = c.strayReads line := by
  unfold strayReads
  simp only [strays_of_apart h secondary, pending]

theorem strayReads_of_works (h : d.works = c.works) : d.strayReads line = c.strayReads line := by
  have banks : d.banks = c.banks := congrArg Works.banks h
  have control : d.registers.control = c.registers.control := congrArg (·.settings.control) h
  have evaluation : d.evaluation = c.evaluation := congrArg Works.evaluation h
  have strips : d.strips = c.strips := congrArg Works.strips h
  have strays (slot : Nat) : d.Strays line slot ↔ c.Strays line slot := by
    unfold Strays
    rw [banks, control, evaluation]
  unfold strayReads
  simp only [strays, strips]

/-- The first circuit expects the first eight of the objects that the second one expects. -/
structure Expects (c d : Circuit κ) : Prop where
  pending : c.strips.pending = min d.strips.pending 8
  same : Evaluation.SameTo (c.strips.pending * 4) c.evaluation d.evaluation

/-- Both stand at the same object. -/
structure Handed (c d : Circuit κ) : Prop extends Expects c d where
  object : d.strips.object = c.strips.object

theorem Expects.select (h : c.Expects d) (hs : slot < 8) :
    (d.strips.select slot d.evaluation.secondary).object
      = (c.strips.select slot c.evaluation.secondary).object := by
  have pending := h.pending
  unfold Strips.select
  dsimp only
  by_cases own : slot < c.strips.pending
  · have other : slot < d.strips.pending := by omega
    have byte (b : Nat) (hb : b < 4) := h.same (slot * 4 + b) (by omega)
    rw [if_pos own, if_pos other, Strips.objectIn, Strips.objectIn, byte 1 (by decide),
      byte 2 (by decide), byte 3 (by decide)]
    exact congrArg (Object.mk · _ _ _) (byte 0 (by decide))
  · have other : ¬ slot < d.strips.pending := by omega
    rw [if_neg own, if_neg other]

theorem Expects.of_eq {c' d' : Circuit κ} (h : c.Expects d)
    (pending : c'.strips.pending = c.strips.pending ∧ d'.strips.pending = d.strips.pending)
    (secondary : c'.evaluation.secondary = c.evaluation.secondary
      ∧ d'.evaluation.secondary = d.evaluation.secondary) : c'.Expects d' := by
  refine ⟨?_, ?_⟩
  · rw [pending.1, pending.2]
    exact h.pending
  · intro p hp
    rw [secondary.1, secondary.2]
    exact h.same p (pending.1 ▸ hp)

theorem Handed.of_works {c' d' : Circuit κ} (h : c.Handed d) (hc : c'.works = c.works)
    (hd : d'.works = d.works) : c'.Handed d' := by
  have strips : c'.strips = c.strips := congrArg Works.strips hc
  have strips' : d'.strips = d.strips := congrArg Works.strips hd
  have evaluation : c'.evaluation = c.evaluation := congrArg Works.evaluation hc
  have evaluation' : d'.evaluation = d.evaluation := congrArg Works.evaluation hd
  refine ⟨h.toExpects.of_eq ⟨congrArg _ strips, congrArg _ strips'⟩
    ⟨congrArg _ evaluation, congrArg _ evaluation'⟩, ?_⟩
  rw [strips, strips']
  exact h.object

/-- A circuit that is about to fetch, once it has drawn and searched. -/
def primed (line : Line) (dot : Nat) (limit : SpriteLimit) (c : Circuit κ) : Circuit κ :=
  let c := (c.clearFlags line dot).drawDot line dot
  if dot = objectFetchStart then (c.searching line dot limit).prepareStrips line
  else c.searching line dot limit

theorem primed_of_lt {dot : Nat} (hd : 257 < dot) (limit : SpriteLimit) (c : Circuit κ) :
    (c.primed line dot limit).works = c.works := by
  have later : dot ≠ objectFetchStart := by
    simp only [objectFetchStart]
    omega
  unfold Circuit.primed
  dsimp only
  rw [if_neg later, searching_of_lt line (by omega), drawn_works]

/-- What the search has found is expected. -/
theorem primed_start (line : Line) (limit : SpriteLimit) (c : Circuit κ) :
    (c.primed line objectFetchStart limit).evaluation = c.evaluation.stop
      ∧ (c.primed line objectFetchStart limit).strips = (c.prepareStrips line).strips := by
  have drawn := drawn_works line objectFetchStart c
  unfold Circuit.primed
  dsimp only
  rw [if_pos rfl, searching_of_lt line (by decide)]
  generalize (c.clearFlags line objectFetchStart).drawDot line objectFetchStart = e at drawn
  have evaluation : e.evaluation = c.evaluation := congrArg Works.evaluation drawn
  exact ⟨congrArg Evaluation.stop evaluation,
    prepareStrips_congr (congrArg Works.strips drawn) evaluation line⟩

theorem Beside.primed (h : c.Beside Q d) (line : Line) (dot : Nat) (limit limit' : SpriteLimit) :
    (c.primed line dot limit).Beside Q (d.primed line dot limit') :=
  ((h.clearFlags line dot).drawDot line dot).handed line dot limit limit'

variable [Cartridge κ]

open Cartridge (Coupling Tolerant)

theorem readPattern_apart (address : Nat) (c : Circuit κ) : c.Apart (c.readPattern address).2 := by
  unfold readPattern
  cases c.banks.patternCell address <;> rfl

theorem fetchExtra_apart (line : Line) (slot : Nat) (c : Circuit κ) :
    c.Apart (c.fetchExtra line slot) := by
  let d : Circuit κ := { c with strips := c.strips.select slot c.evaluation.secondary }
  let address := d.strips.object.lowAddress line d.registers.control
  have low := readPattern_apart address d
  have high := readPattern_apart (highPlane address) (d.readPattern address).2
  have selected : c.Apart d := rfl
  exact ((selected.trans low).trans high).trans rfl

/-- A read that does not concern the cartridge leaves it alone. -/
theorem readPattern_elsewhere {address : Nat} (h : c.banks.pattern (address / pageSize) ≠ .cartridge) :
    (c.readPattern address).2 = c := by
  have elsewhere := Banks.patternCell_ne h
  unfold readPattern
  cases cell : c.banks.patternCell address with
  | cartridge => exact absurd cell elsewhere
  | internal | ram | rom | missing => rfl

/-- A read of the cartridge's own counts. -/
theorem readPattern_counted {Q : Nat → κ → κ → Prop} (tolerant : Tolerant Q) {n : Nat} {k : κ}
    (h : Q n k c.cartridge) {address : Nat} (own : c.banks.pattern (address / pageSize) = .cartridge) :
    Q (n + 1) k (c.readPattern address).2.cartridge := by
  have cell : c.banks.patternCell address = .cartridge := by
    unfold Banks.patternCell
    dsimp only
    rw [own]
  unfold readPattern
  rw [cell]
  exact tolerant h _

/-- The fetch of an extra object counts when it strays. -/
theorem fetchExtra_counted {Q : Nat → κ → κ → Prop} {n : Nat} {k : κ} (h : Q n k c.cartridge)
    (inside : slot < c.strips.pending) (tolerant : c.Strays line slot → Tolerant Q) :
    Q (n + if c.Strays line slot then 2 else 0) k (c.fetchExtra line slot).cartridge := by
  let d : Circuit κ := { c with strips := c.strips.select slot c.evaluation.secondary }
  let address := d.strips.object.lowAddress line d.registers.control
  have object : d.strips.object = Strips.objectIn c.evaluation.secondary slot := if_pos inside
  have low : d.banks.pattern (address / pageSize) = .cartridge ↔ c.Strays line slot := by
    change c.banks.pattern (d.strips.object.lowAddress line c.registers.control / pageSize) = _ ↔ _
    rw [object]
    exact Iff.rfl
  change Q _ k ((d.readPattern address).2.readPattern (highPlane address)).2.cartridge
  split
  · next strays =>
    have own := low.mpr strays
    have first := readPattern_counted (c := d) (tolerant strays) h own
    refine readPattern_counted (tolerant strays) first ?_
    rw [highPlane_page, (readPattern_apart address d).banks]
    exact own
  · next spared =>
    have elsewhere : d.banks.pattern (address / pageSize) ≠ .cartridge := fun own => spared (low.mp own)
    have high : d.banks.pattern (highPlane address / pageSize) ≠ .cartridge := by
      rw [highPlane_page]
      exact elsewhere
    rw [readPattern_elsewhere elsewhere, readPattern_elsewhere high]
    exact h

theorem fetchExtra_pending (line : Line) (slot : Nat) (c : Circuit κ) :
    (c.fetchExtra line slot).strips.pending = c.strips.pending := by
  let d : Circuit κ := { c with strips := c.strips.select slot c.evaluation.secondary }
  let address := d.strips.object.lowAddress line d.registers.control
  let low := d.readPattern address
  let high := low.2.readPattern (highPlane address)
  have kept : high.2.strips.pending = d.strips.pending :=
    congrArg Strips.pending ((readPattern_still _ _).strips.trans (readPattern_still _ _).strips)
  change ((high.2.strips.latchLow low.1).commit slot high.1).pending = _
  rw [(Strips.commit_keeps _ _ _).1]
  exact kept

theorem fetchExtra_evaluation (line : Line) (slot : Nat) (c : Circuit κ) :
    (c.fetchExtra line slot).evaluation = c.evaluation :=
  (readPattern_still _ _).evaluation.trans (readPattern_still _ _).evaluation

theorem foldl_fetchExtra_counted {Q : Nat → κ → κ → Prop} {n : Nat} {k : κ} (slots : List Nat)
    (h : Q n k c.cartridge) (inside : ∀ slot ∈ slots, slot < c.strips.pending)
    (tolerant : ∀ slot ∈ slots, c.Strays line slot → Tolerant Q) :
    c.Apart (slots.foldl (fetchExtra line) c) ∧ Q (n + 2 * slots.countP fun slot => c.Strays line slot) k
      (slots.foldl (fetchExtra line) c).cartridge := by
  induction slots generalizing c n with
  | nil => exact ⟨.refl c, h⟩
  | cons slot rest ih =>
    rw [List.forall_mem_cons] at inside tolerant
    have apart := fetchExtra_apart line slot c
    have pending := fetchExtra_pending line slot c
    have strays (s : Nat) : (c.fetchExtra line slot).Strays line s ↔ c.Strays line s :=
      strays_of_apart apart (congrArg _ (fetchExtra_evaluation line slot c))
    obtain ⟨others, counted⟩ := ih (fetchExtra_counted h inside.1 tolerant.1)
      (fun s hs => pending ▸ inside.2 s hs) fun s hs own => tolerant.2 s hs ((strays s).mp own)
    refine ⟨apart.trans others, ?_⟩
    have count : n + 2 * (slot :: rest).countP (fun slot => c.Strays line slot)
        = n + (if c.Strays line slot then 2 else 0) + 2 * rest.countP fun slot => c.Strays line slot := by
      rw [List.countP_cons]
      simp only [decide_eq_true_eq]
      split <;> omega
    simp only [strays] at counted
    rw [count]
    exact counted

/-- The fetch of all extra objects counts those that stray. -/
theorem fetchExtras_counted {Q : Nat → κ → κ → Prop} {n : Nat} {k : κ} (h : Q n k c.cartridge)
    (tolerant : c.strayReads line ≠ 0 → Tolerant Q) : c.Apart (c.fetchExtras line)
      ∧ Q (n + c.strayReads line) k (c.fetchExtras line).cartridge := by
  refine foldl_fetchExtra_counted _ h (fun slot hs => ?_) fun slot hs strays => tolerant fun none => ?_
  · rw [List.mem_range'_1] at hs
    change 8 ≤ slot ∧ slot < 8 + (c.strips.pending - 8) at hs
    omega
  · have some : 0 < (List.range' 8 (c.strips.pending - 8)).countP fun slot => c.Strays line slot :=
      List.countP_pos_iff.mpr ⟨slot, hs, decide_eq_true strays⟩
    unfold strayReads at none
    omega

/-- A circuit that expects no more than eight objects has no extra ones. -/
theorem fetchExtras_of_le (h : c.strips.pending ≤ 8) : c.fetchExtras line = c := by
  have none : c.strips.pending - SpriteLimit.hardware.perLine = 0 := Nat.sub_eq_zero_of_le h
  rw [fetchExtras, none]
  rfl

theorem fetchObject_pending (line : Line) (slot : Nat) (phase : Phase) (cycle : Nat) (c : Circuit κ) :
    (c.fetchObject line slot phase cycle).strips.pending = c.strips.pending := by
  have name := congrArg Strips.pending (readName_still c.bus c).strips
  have pattern := congrArg Strips.pending (readPattern_still c.bus c).strips
  cases phase with
  | openName | openAttributes | openLow | openHigh => rfl
  | name | attributes => exact name
  | low => exact pattern
  | high => exact (Strips.commit_keeps _ _ _).1.trans pattern

/-- The object of a slot stays until the next one is opened. -/
theorem fetchObject_object (line : Line) (slot : Nat) {phase : Phase} (hp : phase ≠ .openName)
    (cycle : Nat) (c : Circuit κ) :
    (c.fetchObject line slot phase cycle).strips.object = c.strips.object := by
  have name := congrArg Strips.object (readName_still c.bus c).strips
  have pattern := congrArg Strips.object (readPattern_still c.bus c).strips
  cases phase with
  | openName => exact absurd rfl hp
  | openAttributes | openLow | openHigh => rfl
  | name | attributes => exact name
  | low => exact pattern
  | high => exact (Strips.commit_keeps _ _ _).2.trans pattern

theorem Expects.fetchObject (h : c.Expects d) (hs : slot < 8) {phase : Phase}
    (object : phase ≠ .openName → d.strips.object = c.strips.object) (line : Line) (cycle cycle' : Nat) :
    (c.fetchObject line slot phase cycle).Handed (d.fetchObject line slot phase cycle') := by
  have kept : (c.fetchObject line slot phase cycle).Expects (d.fetchObject line slot phase cycle') :=
    h.of_eq ⟨fetchObject_pending _ _ _ _ c, fetchObject_pending _ _ _ _ d⟩
    ⟨congrArg _ (fetchObject_evaluation _ _ _ _ c), congrArg _ (fetchObject_evaluation _ _ _ _ d)⟩
  refine ⟨kept, ?_⟩
  by_cases opens : phase = .openName
  · subst opens
    exact h.select hs
  · rw [fetchObject_object line slot opens, fetchObject_object line slot opens]
    exact object opens

/-- The slots that are fetched on the bus are fetched alike. -/
theorem Beside.fetchSlot {dot : Nat} (co : Coupling Q) (h : c.Beside Q d)
    (slots : 257 < dot → dot ≤ 320 → c.Handed d) (inside : 257 ≤ dot ∧ dot ≤ 320) (cycle : Nat) :
    (c.fetchObject line (objectSlot dot) (.ofIndex (dot - 257)) cycle).Beside Q
      (d.fetchObject line (objectSlot dot) (.ofIndex (dot - 257)) cycle) := by
  refine h.fetchObject co line (objectSlot dot) (fun low => ?_) cycle
  have opened : 257 < dot := by
    refine Nat.lt_of_le_of_ne inside.1 fun first => ?_
    rw [← first] at low
    cases low
  exact (slots opened inside.2).object

omit [Cartridge κ] in
theorem Beside.latchSlot (h : c.Beside Q d) (dot : Nat) :
    (c.latchSlot dot).Beside Q (d.latchSlot dot) := by
  refine h.change (latchSlot_apart dot c) (latchSlot_apart dot d) ?_
  simp only [Circuit.latchSlot]
  exact h.cartridge

theorem Beside.fetch {dot : Nat} (co : Coupling Q) (h : c.Beside Q d)
    (slots : 257 < dot → dot ≤ 320 → c.Handed d) (inner : dot ≠ objectFetchEnd) (cycle : Nat) :
    (c.fetch line dot cycle).Beside Q (d.fetch line dot cycle) := by
  obtain ⟨scroll, bus, -, -⟩ := h.front
  unfold Circuit.fetch
  cases fetch : Fetch.ofDot dot with
  | idle => exact h
  | tile phase => exact h.fetchTile co phase dot cycle
  | openUnused =>
    simp only [scroll]
    exact h.drive co _ cycle
  | unused =>
    simp only [bus]
    exact (h.readName co c.bus).2
  | object slot phase =>
    have inside := bounds_of_ofDot fetch
    rw [ofDot_slot inside] at fetch
    cases fetch
    dsimp only
    rw [if_neg inner, if_neg inner]
    exact (h.fetchSlot co slots inside cycle).latchSlot dot

/-- With the last slot the second circuit fetches its extra objects. -/
theorem Beside.fetch_last {Q : Nat → κ → κ → Prop} {n : Nat} (co : Coupling (Q n)) (h : c.Beside (Q n) d)
    (handed : c.Handed d) (tolerant : d.strayReads line ≠ 0 → Tolerant Q) (cycle : Nat) :
    (c.fetch line objectFetchEnd cycle).Beside (Q (n + d.strayReads line))
      (d.fetch line objectFetchEnd cycle) := by
  have fetched : (c.fetchObject line (objectSlot 320) (.ofIndex (320 - 257)) cycle).Beside (Q n)
      (d.fetchObject line (objectSlot 320) (.ofIndex (320 - 257)) cycle) :=
    h.fetchSlot co (fun _ _ => handed) (by decide) cycle
  change (c.fetchObject line 7 .high cycle).Beside (Q n) (d.fetchObject line 7 .high cycle) at fetched
  have few : (c.fetchObject line 7 .high cycle).strips.pending ≤ 8 := by
    rw [fetchObject_pending, handed.pending]
    exact Nat.min_le_right _ _
  have apart : d.Apart (d.fetchObject line 7 .high cycle) := (readPattern_apart d.bus d).trans rfl
  have reads : (d.fetchObject line 7 .high cycle).strayReads line = d.strayReads line :=
    strayReads_of_apart apart (congrArg _ (fetchObject_evaluation _ _ _ _ d))
      (fetchObject_pending _ _ _ _ d)
  have minds : (d.fetchObject line 7 .high cycle).strayReads line ≠ 0 → Tolerant Q := reads ▸ tolerant
  obtain ⟨extra, counted⟩ := fetchExtras_counted fetched.cartridge minds
  rw [reads] at counted
  change ((c.fetchObject line 7 .high cycle).fetchExtras line).latchSlot objectFetchEnd |>.Beside _
    (((d.fetchObject line 7 .high cycle).fetchExtras line).latchSlot objectFetchEnd)
  rw [fetchExtras_of_le few]
  exact (fetched.change (.refl _) extra counted).latchSlot objectFetchEnd

/-- The reads that stray at a dot. -/
def strayReadsAt (line : Line) (dot : Nat) (c : Circuit κ) : Nat :=
  if c.registers.mask.rendering = true ∧ dot = objectFetchEnd then c.strayReads line else 0

theorem Beside.render {Q : Nat → κ → κ → Prop} {n dot : Nat} (co : Coupling (Q n)) (h : c.Beside (Q n) d)
    (slots : 257 < dot → dot ≤ 320 → c.Handed d)
    (tolerant : dot = objectFetchEnd → d.strayReads line ≠ 0 → Tolerant Q) (cycle : Nat)
    (limit limit' : SpriteLimit) :
    (((c.clearFlags line dot).drawDot line dot).render line dot cycle limit).Beside
      (Q (n + if dot = objectFetchEnd then d.strayReads line else 0))
      (((d.clearFlags line dot).drawDot line dot).render line dot cycle limit') := by
  have primed := h.primed line dot limit limit'
  have handed (late : 257 < dot) (last : dot ≤ 320) :
      (c.primed line dot limit).Handed (d.primed line dot limit') :=
    (slots late last).of_works (primed_of_lt late limit c) (primed_of_lt late limit' d)
  have fetched : ((c.primed line dot limit).fetch line dot cycle).Beside
      (Q (n + if dot = objectFetchEnd then d.strayReads line else 0))
      ((d.primed line dot limit').fetch line dot cycle) := by
    split
    · next last =>
      subst last
      have reads : (d.primed line objectFetchEnd limit').strayReads line = d.strayReads line :=
        strayReads_of_works (primed_of_lt (by decide) limit' d)
      rw [← reads]
      exact primed.fetch_last co (handed (by decide) (by decide)) (reads ▸ tolerant rfl) cycle
    · next inner => exact primed.fetch co handed inner cycle
  exact (fetched.rewindAddress line dot).clearObjectAddress dot

/-- A dot keeps circuits side by side, as long as they fetch the same objects. -/
theorem Beside.dot {Q : Nat → κ → κ → Prop} {n dot : Nat} (co : ∀ n, Coupling (Q n))
    (h : c.Beside (Q n) d)
    (slots : c.registers.mask.rendering = true → 257 < dot → dot ≤ 320 → c.Handed d)
    (tolerant : d.strayReadsAt line dot ≠ 0 → Tolerant Q) (cycle : Nat) (limit limit' : SpriteLimit) :
    (c.dot line dot cycle limit).Beside (Q (n + d.strayReadsAt line dot))
      (d.dot line dot cycle limit') := by
  have drawn := (h.clearFlags line dot).drawDot line dot
  have own : ((c.clearFlags line dot).drawDot line dot).registers.mask.rendering
      = c.registers.mask.rendering := congrArg (·.settings.mask.rendering) (drawn_works line dot c)
  have rendering : d.registers.mask.rendering = c.registers.mask.rendering := h.rendering
  unfold strayReadsAt at tolerant ⊢
  rw [rendering] at tolerant ⊢
  have passed : (if c.registers.mask.rendering then
        ((c.clearFlags line dot).drawDot line dot).render line dot cycle limit
      else (c.clearFlags line dot).drawDot line dot).Beside
      (Q (n + if c.registers.mask.rendering = true ∧ dot = objectFetchEnd then d.strayReads line else 0))
      (if c.registers.mask.rendering then
        ((d.clearFlags line dot).drawDot line dot).render line dot cycle limit'
      else (d.clearFlags line dot).drawDot line dot) := by
    by_cases on : c.registers.mask.rendering = true
    · simp only [on, true_and, if_true] at tolerant ⊢
      refine h.render (co n) (slots on) (fun last strays => tolerant ?_) cycle limit limit'
      rwa [if_pos last]
    · rw [if_neg on, if_neg on, if_neg fun both => on both.1]
      exact drawn
  by_cases first : dot = 0
  · have none : ¬ (c.registers.mask.rendering = true ∧ dot = objectFetchEnd) := by
      rw [first]
      exact fun both => absurd both.2 (by decide)
    rw [Circuit.dot, Circuit.dot, if_pos first, if_pos first, if_neg none]
    exact h.activeStart (co n) line
  · rw [Circuit.dot, Circuit.dot, if_neg first, if_neg first]
    dsimp only
    rw [drawn.rendering, own]
    by_cases told : dot = objectFetchStart
    · rw [if_pos told, if_pos told]
      exact passed.blankStart (co _) line
    · rw [if_neg told, if_neg told]
      exact passed

/-- A rendered dot leaves the strips and the search as its fetch leaves them. -/
theorem dot_fetched (on : c.registers.mask.rendering = true) (line : Line) {dot : Nat} (hd : dot ≠ 0)
    (cycle : Nat) (limit : SpriteLimit) :
    (c.dot line dot cycle limit).strips = ((c.primed line dot limit).fetch line dot cycle).strips
      ∧ (c.dot line dot cycle limit).evaluation
        = ((c.primed line dot limit).fetch line dot cycle).evaluation := by
  have own : ((c.clearFlags line dot).drawDot line dot).registers.mask.rendering
      = c.registers.mask.rendering := congrArg (·.settings.mask.rendering) (drawn_works line dot c)
  have told (e : Circuit κ) : (if dot = objectFetchStart then e.blankStart line else e).strips = e.strips
      ∧ (if dot = objectFetchStart then e.blankStart line else e).evaluation = e.evaluation := by
    split <;> exact ⟨rfl, rfl⟩
  have rewound (e : Circuit κ) :
      ((e.rewindAddress line dot).clearObjectAddress dot).evaluation = e.evaluation := by
    have first := congrArg Works.evaluation (rewindAddress_works line dot e)
    exact (congrArg Works.evaluation (clearObjectAddress_works dot (e.rewindAddress line dot))).trans first
  rw [Circuit.dot, if_neg hd]
  dsimp only
  rw [own, if_pos on, (told _).1, (told _).2, render_eq, rewindAddress_strips, rewound]
  exact ⟨rfl, rfl⟩

/-- A rendered dot of a slot leaves the strips as the fetch leaves them, and the found objects as they
are. -/
theorem dot_slot (on : c.registers.mask.rendering = true) (line : Line) {dot : Nat}
    (hd : 257 ≤ dot ∧ dot < 320) (cycle : Nat) (limit : SpriteLimit) :
    let fetched := (c.primed line dot limit).fetchObject line (objectSlot dot) (.ofIndex (dot - 257)) cycle
    (c.dot line dot cycle limit).strips = fetched.strips
      ∧ (c.dot line dot cycle limit).evaluation.secondary = fetched.evaluation.secondary := by
  have started : dot ≠ 0 := by omega
  have inner : dot ≠ objectFetchEnd := Nat.ne_of_lt hd.2
  obtain ⟨strips, evaluation⟩ := dot_fetched on line started cycle limit
  rw [strips, evaluation, Circuit.fetch, ofDot_slot ⟨hd.1, Nat.le_of_lt hd.2⟩]
  dsimp only
  rw [if_neg inner]
  simp only [latchSlot, and_self]

/-- The last one does so when no objects are left. -/
theorem dot_slot_few (on : c.registers.mask.rendering = true) (line : Line) {dot : Nat}
    (hd : 257 ≤ dot ∧ dot ≤ 320) (cycle : Nat) (limit : SpriteLimit)
    (few : (c.primed line dot limit).strips.pending ≤ 8) : (c.dot line dot cycle limit).strips
      = ((c.primed line dot limit).fetchObject line (objectSlot dot) (.ofIndex (dot - 257)) cycle).strips := by
  rw [(dot_fetched on line (by omega) cycle limit).1, Circuit.fetch, ofDot_slot hd]
  dsimp only
  rw [latchSlot_strips]
  split
  · rw [fetchExtras_of_le]
    rw [fetchObject_pending]
    exact few
  · rfl

/-- A dot that renders nothing leaves the strips and the search. -/
theorem dot_off (off : c.registers.mask.rendering = false) (line : Line) (dot cycle : Nat)
    (limit : SpriteLimit) : (c.dot line dot cycle limit).strips = c.strips
      ∧ (c.dot line dot cycle limit).evaluation = c.evaluation := by
  have told : (c.dot line dot cycle limit).works = _ := dot_told (.inr off) line cycle limit
  exact ⟨congrArg Works.strips told, congrArg Works.evaluation told⟩

/-- Apart from the dots of the slots the strips stay. -/
theorem dot_strips (line : Line) {dot : Nat} (hd : dot < 257 ∨ 320 < dot) (cycle : Nat)
    (limit : SpriteLimit) (c : Circuit κ) : (c.dot line dot cycle limit).strips = c.strips := by
  have inner : dot ≠ objectFetchStart := by
    simp only [objectFetchStart]
    omega
  by_cases first : dot = 0
  · rw [Circuit.dot, if_pos first]
    rfl
  cases on : c.registers.mask.rendering with
  | false => exact (dot_off on line dot cycle limit).1
  | true =>
    rw [(dot_fetched on line first cycle limit).1, fetch_strips line (by omega), primed, if_neg inner,
      searching_strips]
    exact congrArg Works.strips (drawn_works line dot c)

/-- While a line is rendered without a break, both search alike and then fetch alike. -/
structure Apace (line : Line) (dot : Nat) (c d : Circuit κ) : Prop where
  search : ∀ y, line = .visible y → 65 < dot → dot ≤ 257 →
    Evaluation.Paired (Evaluation.oddDots dot) c.evaluation d.evaluation
  slots : 257 < dot → dot ≤ 320 → c.Handed d

omit [Cartridge κ] in
/-- The fetches of a slot start with the same objects in the first eight slots. -/
theorem Apace.expects {dot : Nat} (h : c.Apace line dot d) (hd : 257 ≤ dot ∧ dot ≤ 320) :
    (c.primed line dot .hardware).Expects (d.primed line dot .unlimited) := by
  by_cases start : dot = 257
  · subst start
    obtain ⟨own, strips⟩ := primed_start line .hardware c
    obtain ⟨other, strips'⟩ := primed_start line .unlimited d
    change (c.primed line objectFetchStart .hardware).Expects (d.primed line objectFetchStart .unlimited)
    refine ⟨?_, ?_⟩
    all_goals rw [strips]
    · rw [strips']
      cases line with
      | preRender => rfl
      | visible y => exact (h.search y rfl (by decide) (by decide)).ended.1
    · rw [own, other]
      cases line with
      | preRender => exact fun p hp => absurd hp (Nat.not_lt_zero p)
      | visible y => exact (h.search y rfl (by decide) (by decide)).ended.2
  · have late : 257 < dot := by omega
    exact ((h.slots late hd.2).of_works (primed_of_lt late _ c) (primed_of_lt late _ d)).toExpects

/-- A rendered dot keeps them so. -/
theorem Apace.dot {dot : Nat} (h : c.Apace line dot d) (beside : c.Beside Q d)
    (on : c.registers.mask.rendering = true) (cycle cycle' : Nat) :
    (c.dot line dot cycle .hardware).Apace line (dot + 1) (d.dot line dot cycle' .unlimited) := by
  have on' : d.registers.mask.rendering = true := beside.rendering.trans on
  constructor
  · rintro y rfl started last
    have inside : 1 ≤ dot ∧ dot ≤ 256 := by omega
    have inputs : d.searchInputs y.val .unlimited = (c.searchInputs y.val .hardware).lifted
        ∧ d.registers.objectAddress = c.registers.objectAddress := by
      obtain ⟨u, rfl, -⟩ := beside
      exact ⟨rfl, rfl⟩
    rw [dot_evaluation on y inside, dot_evaluation on' y inside, inputs.1, inputs.2]
    by_cases start : dot = 65
    · subst start
      exact Evaluation.Paired.onDot_start rfl _ _ _
    · exact (h.search y rfl (by omega) (by omega)).onDot rfl (by omega) _
  · intro late last
    have inside : 257 ≤ dot ∧ dot < 320 := by omega
    have slot : objectSlot dot < 8 := by
      unfold objectSlot objectFetchStart
      omega
    obtain ⟨strips, secondary⟩ := dot_slot on line inside cycle .hardware
    obtain ⟨strips', secondary'⟩ := dot_slot on' line inside cycle' .unlimited
    have ready := h.expects ⟨inside.1, Nat.le_of_lt inside.2⟩
    have open_ (opened : Phase.ofIndex (dot - 257) ≠ .openName) :
        (d.primed line dot .unlimited).strips.object = (c.primed line dot .hardware).strips.object := by
      have past : 257 < dot := by
        refine Nat.lt_of_le_of_ne inside.1 fun first => opened ?_
        rw [← first]
        rfl
      exact ((h.slots past (Nat.le_of_lt inside.2)).of_works (primed_of_lt past _ c)
        (primed_of_lt past _ d)).object
    have fetched := ready.fetchObject slot open_ line cycle cycle'
    refine ⟨fetched.toExpects.of_eq ⟨congrArg _ strips, congrArg _ strips'⟩ ⟨secondary, secondary'⟩, ?_⟩
    rw [strips, strips']
    exact fetched.object

end Circuit

end PictureUnit
