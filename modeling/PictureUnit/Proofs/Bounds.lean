import PictureUnit.Proofs.Later
import PictureUnit.Proofs.Sought

/-!
# The search stays in bounds

The counters of the search hold eight bits, and its memories have an end. When rendering is switched off
in the middle of an object the search halts there, and it may go on on another line without a new start;
its test for the last object asks for that very number. What keeps it in bounds is where it can stand in
each phase, which no switching and no writing changes. So no step leaves a memory or a counter, and from
wherever the search is hurried to its end it gets there.
-/

set_option autoImplicit false

namespace PictureUnit

namespace Evaluation

/-- Where the search can stand in a phase. While it skips bytes these may reach past the last object, but
not past the place of one more. -/
def Stands (e : Evaluation) : Prop :=
  match e.search with
  | .resting | .finished => e.object ≤ objectCount
  | .comparing => e.object < objectCount ∧ e.byte = 0
  | .copyingTile => e.object < objectCount ∧ e.byte = 1
  | .copyingAttributes => e.object < objectCount ∧ e.byte = 2
  | .copyingX => e.object < objectCount ∧ e.byte = 3
  | .scanning => e.object < objectCount
  | .skipping remaining => 0 < remaining ∧ remaining ≤ 3
    ∧ e.object * 4 + e.byte + remaining < (objectCount + 1) * 4

/-- Steps that the search may still take. -/
def stepsToGo (e : Evaluation) : Nat :=
  match e.search with
  | .resting | .finished => 0
  | .comparing | .scanning => (objectCount - e.object) * 4
  | .copyingTile => (objectCount - e.object) * 4 - 1
  | .copyingAttributes => (objectCount - e.object) * 4 - 2
  | .copyingX => (objectCount - e.object) * 4 - 3
  | .skipping remaining => remaining

variable {i : Inputs} {e : Evaluation} {n : Nat}

theorem Stands.object_le (h : e.Stands) : e.object ≤ objectCount := by
  unfold Stands at h
  split at h <;> omega

/-- The next object is looked at in the same way, or there is none. -/
theorem advance_stands {search : Search} (inside : e.object < objectCount)
    (next : e.object + 1 < objectCount →
      Stands { e with object := e.object + 1, search := search }) : (e.advance search).Stands := by
  unfold advance
  split
  · next more => exact next more
  · exact inside

theorem compare_stands (inside : e.object < objectCount) (first : e.byte = 0) :
    (e.compare i).Stands := by
  unfold compare
  dsimp only
  split
  · exact ⟨inside, rfl⟩
  · exact advance_stands inside fun more => ⟨more, first⟩

theorem complete_stands (inside : e.object < objectCount) : (e.complete i).Stands := by
  refine advance_stands inside fun more => ?_
  split
  · exact more
  · exact ⟨more, rfl⟩

theorem scan_stands (inside : e.object < objectCount) (byte : e.byte < 4) : (e.scan i).Stands := by
  unfold scan
  split
  · refine ⟨by decide, Nat.le_refl 3, ?_⟩
    change e.object * 4 + e.byte + 3 < _
    omega
  · exact advance_stands inside fun more => more

theorem skip_stands {remaining : Nat} (some_ : 0 < remaining) (few : remaining ≤ 3)
    (inside : e.object * 4 + e.byte + remaining < (objectCount + 1) * 4) :
    (e.skip remaining i).Stands := by
  unfold skip
  split
  · next last =>
    dsimp only
    split
    · refine ⟨by omega, by omega, ?_⟩
      change (e.object + 1) * 4 + 0 + (remaining - 1) < _
      omega
    · show e.object + 1 ≤ objectCount
      omega
  · dsimp only
    split
    · refine ⟨by omega, by omega, ?_⟩
      change e.object * 4 + (e.byte + 1) + (remaining - 1) < _
      omega
    · show e.object ≤ objectCount
      omega

theorem step_stands (h : e.Stands) (byte : e.byte < 4) : (e.step i).Stands := by
  have whole := h
  unfold Stands at h
  unfold step
  cases hs : e.search with
  | resting => exact whole
  | comparing =>
    rw [hs] at h
    exact compare_stands h.1 h.2
  | copyingTile | copyingAttributes =>
    rw [hs] at h
    exact ⟨h.1, rfl⟩
  | copyingX =>
    rw [hs] at h
    exact complete_stands h.1
  | scanning =>
    rw [hs] at h
    exact scan_stands h byte
  | skipping remaining =>
    rw [hs] at h
    exact skip_stands h.1 h.2.1 h.2.2
  | finished =>
    simp only [Stands, read]
    exact (Nat.mod_lt _ (by decide)).le

/-! Every step brings the end nearer. -/

theorem advance_stepsToGo_lt {search : Search} {bound : Nat} (some_ : 0 < bound)
    (next : e.object + 1 < objectCount →
      stepsToGo { e with object := e.object + 1, search := search } < bound) :
    (e.advance search).stepsToGo < bound := by
  unfold advance
  split
  · next more => exact next more
  · exact some_

theorem compare_stepsToGo_lt (inside : e.object < objectCount) :
    (e.compare i).stepsToGo < (objectCount - e.object) * 4 := by
  unfold compare
  dsimp only
  split
  · show (objectCount - e.object) * 4 - 1 < _
    omega
  · refine advance_stepsToGo_lt (by omega) fun _ => ?_
    show (objectCount - (e.object + 1)) * 4 < _
    omega

theorem complete_stepsToGo_lt (inside : e.object < objectCount) :
    (e.complete i).stepsToGo < (objectCount - e.object) * 4 - 3 := by
  refine advance_stepsToGo_lt (by omega) fun more => ?_
  have fewer : (objectCount - (e.object + 1)) * 4 < (objectCount - e.object) * 4 - 3 := by
    change e.object + 1 < objectCount at more
    omega
  split <;> exact fewer

theorem scan_stepsToGo_lt (inside : e.object < objectCount) :
    (e.scan i).stepsToGo < (objectCount - e.object) * 4 := by
  unfold scan
  split
  · show 3 < _
    omega
  · refine advance_stepsToGo_lt (by omega) fun _ => ?_
    show (objectCount - (e.object + 1)) * 4 < _
    omega

theorem skip_stepsToGo_lt {remaining : Nat} (some_ : 0 < remaining) :
    (e.skip remaining i).stepsToGo < remaining := by
  unfold skip
  dsimp only
  split
  · show remaining - 1 < remaining
    omega
  · exact some_

theorem step_stepsToGo_lt (h : e.Stands) (going : e.isDone = false) :
    (e.step i).stepsToGo < e.stepsToGo := by
  unfold Stands at h
  unfold step stepsToGo
  cases hs : e.search with
  | resting | finished =>
    rw [isDone, hs] at going
    cases going
  | comparing =>
    rw [hs] at h
    exact compare_stepsToGo_lt h.1
  | copyingTile =>
    rw [hs] at h
    show (objectCount - e.object) * 4 - 2 < (objectCount - e.object) * 4 - 1
    omega
  | copyingAttributes =>
    rw [hs] at h
    show (objectCount - e.object) * 4 - 3 < (objectCount - e.object) * 4 - 2
    omega
  | copyingX =>
    rw [hs] at h
    exact complete_stepsToGo_lt h.1
  | scanning =>
    rw [hs] at h
    exact scan_stepsToGo_lt h
  | skipping remaining =>
    rw [hs] at h
    exact skip_stepsToGo_lt h.1

theorem stepsToGo_le (h : e.Stands) : e.stepsToGo ≤ objectCount * 4 := by
  unfold Stands at h
  unfold stepsToGo
  cases hs : e.search with
  | skipping remaining =>
    rw [hs] at h
    exact Nat.le_trans h.2.1 (by decide)
  | resting | comparing | copyingTile | copyingAttributes | copyingX | scanning | finished =>
    dsimp only
    omega

/-! The same operations, refusing whatever leaves a memory or a counter. -/

/-- Where the search of a line may stand at all. -/
structure InBounds (limit : SpriteLimit) (e : Evaluation) : Prop where
  object : e.object ≤ objectCount
  byte : e.byte ≤ 3
  found : e.found ≤ limit.perLine

/-- A counter of eight bits. -/
def counted (n : Nat) : Option Nat := if n ≤ 0xFF then some n else none

def readChecked (i : Inputs) (e : Evaluation) : Option Evaluation :=
  i.memory[e.address]?.map fun value => { e with latch := value }

/-- Only the slots of a line may be written. -/
def storeChecked (limit : SpriteLimit) (place : Nat) (value : UInt8) (e : Evaluation) :
    Option Evaluation :=
  if place < 4 * limit.perLine then some { e with secondary := e.secondary.store place value }
  else none

/-- The end is met by that very number. -/
def advanceChecked (search : Search) (e : Evaluation) : Option Evaluation :=
  (counted (e.object + 1)).map fun next =>
    { e with object := next, search := if next = objectCount then .finished else search }

def copyChecked (i : Inputs) (e : Evaluation) : Option Evaluation := do
  let e ← e.readChecked i
  e.storeChecked i.limit (e.found * 4 + e.byte) e.latch

def compareChecked (i : Inputs) (e : Evaluation) : Option Evaluation := do
  let read ← e.readChecked i
  let e ← read.storeChecked i.limit (read.found * 4) read.latch
  let hit := inRange i.line i.height e.latch
  let e := { e with first := false, zeroInRange := e.zeroInRange || (e.first && hit) }
  if hit then some { e with search := .copyingTile, byte := 1 } else e.advanceChecked .comparing

def completeChecked (i : Inputs) (e : Evaluation) : Option Evaluation := do
  let e ← e.copyChecked i
  let found ← counted (e.found + 1)
  advanceChecked (if i.limit.perLine ≤ found then .scanning else .comparing)
    { e with byte := 0, found := found }

def scanChecked (i : Inputs) (e : Evaluation) : Option Evaluation := do
  let e ← e.readChecked i
  if inRange i.line i.height e.latch then some { e with search := .skipping 3 }
  else
    let byte ← counted (e.byte + 1)
    advanceChecked .scanning { e with byte := byte % 4 }

/-- On to the next byte, which may be one of the next object. -/
def moveChecked (e : Evaluation) : Option Evaluation := do
  let byte ← counted (e.byte + 1)
  if byte = 4 then (counted (e.object + 1)).map fun next => { e with byte := 0, object := next }
  else some { e with byte := byte }

def skipChecked (remaining : Nat) (i : Inputs) (e : Evaluation) : Option Evaluation := do
  let e ← e.moveChecked
  let e ← e.readChecked i
  if 1 < remaining then some { e with search := .skipping (remaining - 1) }
  else some { e with search := .finished, byte := 0 }

def stepChecked (i : Inputs) (e : Evaluation) : Option Evaluation :=
  match e.search with
  | .resting => some e
  | .comparing => e.compareChecked i
  | .copyingTile => (e.copyChecked i).map fun e => { e with search := .copyingAttributes, byte := 2 }
  | .copyingAttributes => (e.copyChecked i).map fun e => { e with search := .copyingX, byte := 3 }
  | .copyingX => e.completeChecked i
  | .scanning => e.scanChecked i
  | .skipping remaining => e.skipChecked remaining i
  | .finished => do
    let e ← readChecked i { e with byte := 0 }
    let next ← counted (e.object + 1)
    some { e with object := next % objectCount }

/-- Steps until the search is over, refusing when that takes more than `n`. -/
def finishChecked (i : Inputs) : Nat → Evaluation → Option Evaluation
  | 0, e => if e.isDone then some e else none
  | n + 1, e => if e.isDone then some e else (e.stepChecked i).bind (finishChecked i n)

def clearChecked (dot : Nat) (limit : SpriteLimit) (e : Evaluation) : Option Evaluation :=
  if dot % 2 = 1 then some { e with latch := 0xFF }
  else (e.storeChecked limit (dot / 2 - 1) 0xFF).map fun e =>
    if dot = 64 ∧ limit = .unlimited then { e with secondary := .filled 256 0xFF } else e

/-- One dot of the search on a visible line. -/
def dotChecked (i : Inputs) (address : UInt8) (dot : Nat) (e : Evaluation) : Option Evaluation :=
  if dot ≤ 64 then e.clearChecked dot i.limit
  else
    let e := if dot = 65 then e.start address else e
    if dot % 2 = 1 then e.stepChecked i
    else if dot = 256 ∧ i.limit = .unlimited then e.finishChecked i (objectCount * 4)
    else some e

variable {limit : SpriteLimit}

theorem counted_eq (h : n ≤ 0xFF) : counted n = some n := if_pos h

theorem address_lt (byte : e.byte < 4) : e.address < 256 := by
  have object := Nat.mod_lt e.object (by decide : 0 < objectCount)
  simp only [address, objectCount] at object ⊢
  omega

theorem readChecked_eq (byte : e.byte < 4) : e.readChecked i = some (e.read i) := by
  have inside := address_lt byte
  simp only [readChecked, read, current, Block.load, Vector.getElem?_eq_getElem inside, Option.map_some,
    Option.getD_some]

theorem storeChecked_eq {place : Nat} {value : UInt8} (h : place < 4 * limit.perLine) :
    e.storeChecked limit place value = some { e with secondary := e.secondary.store place value } :=
  if_pos h

theorem advanceChecked_eq (search : Search) (inside : e.object < objectCount) :
    e.advanceChecked search = some (e.advance search) := by
  have small : e.object + 1 ≤ 0xFF := by
    simp only [objectCount] at inside
    omega
  rw [advanceChecked, counted_eq small, Option.map_some, advance]
  congr 2
  by_cases last : e.object + 1 = objectCount
  · rw [if_pos last, if_neg (by omega)]
  · rw [if_neg last, if_pos (by omega)]

theorem copyChecked_eq (h : e.Bounded i.limit) (copies : e.search.copies = true) :
    e.copyChecked i = some (e.copy i) := by
  have room := h.room copies
  have byte := h.byte
  have place : e.found * 4 + e.byte < 4 * i.limit.perLine := by omega
  rw [copyChecked, readChecked_eq byte]
  exact storeChecked_eq place

theorem compareChecked_eq (h : e.Bounded i.limit) (copies : e.search.copies = true)
    (inside : e.object < objectCount) (first : e.byte = 0) :
    e.compareChecked i = some (e.compare i) := by
  have room := h.room copies
  have place : e.found * 4 < 4 * i.limit.perLine := by omega
  have copied : (e.read i).storeChecked i.limit ((e.read i).found * 4) (e.read i).latch
      = some (e.copy i) := by
    rw [storeChecked_eq (by exact place), copy, write, read, first]
    rfl
  rw [compareChecked, readChecked_eq h.byte, Option.bind_eq_bind, Option.bind_some, copied,
    Option.bind_some, compare]
  dsimp only
  by_cases hit : e.hits i = true
  · rw [if_pos hit]
    exact if_pos hit
  · rw [if_neg hit]
    exact (if_neg hit).trans (advanceChecked_eq _ inside)

theorem completeChecked_eq (h : e.Bounded i.limit) (copies : e.search.copies = true)
    (inside : e.object < objectCount) : e.completeChecked i = some (e.complete i) := by
  have room := h.room copies
  have small : (e.copy i).found + 1 ≤ 0xFF := by
    have := perLine_le i.limit
    change e.found + 1 ≤ 0xFF
    simp only [objectCount] at this
    omega
  rw [completeChecked, copyChecked_eq h copies, Option.bind_eq_bind, Option.bind_some, counted_eq small]
  exact advanceChecked_eq _ inside

theorem scanChecked_eq (byte : e.byte < 4) (inside : e.object < objectCount) :
    e.scanChecked i = some (e.scan i) := by
  rw [scanChecked, readChecked_eq byte, Option.bind_eq_bind, Option.bind_some, scan]
  by_cases hit : e.hits i = true
  · rw [if_pos hit]
    exact if_pos hit
  · rw [if_neg hit]
    refine (if_neg hit).trans ?_
    rw [counted_eq (by change e.byte + 1 ≤ _; omega)]
    exact advanceChecked_eq _ inside

theorem moveChecked_eq (byte : e.byte < 4) (inside : e.object ≤ objectCount) :
    e.moveChecked = some (if e.byte = 3 then { e with byte := 0, object := e.object + 1 }
      else { e with byte := e.byte + 1 }) := by
  have small : e.object + 1 ≤ 0xFF := by
    simp only [objectCount] at inside
    omega
  rw [moveChecked, counted_eq (by omega), Option.bind_eq_bind, Option.bind_some]
  by_cases last : e.byte = 3
  · rw [if_pos (by omega), if_pos last, counted_eq small, Option.map_some]
  · rw [if_neg (by omega), if_neg last]

theorem skipChecked_eq {remaining : Nat} (byte : e.byte < 4) (inside : e.object ≤ objectCount) :
    e.skipChecked remaining i = some (e.skip remaining i) := by
  have next : (if e.byte = 3 then { e with byte := 0, object := e.object + 1 }
      else { e with byte := e.byte + 1 }).byte < 4 := by
    split
    · exact Nat.zero_lt_succ 3
    · show e.byte + 1 < 4
      omega
  rw [skipChecked, moveChecked_eq byte inside, Option.bind_eq_bind, Option.bind_some,
    readChecked_eq next, Option.bind_some, skip]
  dsimp only
  split <;> rfl

/-- Where nothing was written past the slots, no step leaves a memory or a counter. -/
theorem stepChecked_eq (h : e.Bounded i.limit) (stands : e.Stands) :
    e.stepChecked i = some (e.step i) := by
  have object := stands.object_le
  unfold Stands at stands
  unfold stepChecked step
  cases hs : e.search with
  | resting => rfl
  | comparing =>
    rw [hs] at stands
    exact compareChecked_eq h (by rw [hs]; rfl) stands.1 stands.2
  | copyingTile | copyingAttributes =>
    dsimp only
    rw [copyChecked_eq h (by rw [hs]; rfl)]
    rfl
  | copyingX =>
    rw [hs] at stands
    exact completeChecked_eq h (by rw [hs]; rfl) stands.1
  | scanning =>
    rw [hs] at stands
    exact scanChecked_eq h.byte stands
  | skipping remaining => exact skipChecked_eq h.byte object
  | finished =>
    have small : e.object + 1 ≤ 0xFF := by
      simp only [objectCount] at object
      omega
    dsimp only
    rw [readChecked_eq (by exact Nat.zero_lt_succ 3), Option.bind_eq_bind, Option.bind_some,
      counted_eq (by exact small)]
    rfl

/-- Nothing was written past the slots, and the search stands where its phase allows. -/
structure Kept (limit : SpriteLimit) (e : Evaluation) : Prop where
  bounded : e.Bounded limit
  found : e.found ≤ limit.perLine
  stands : e.Stands

theorem Kept.inBounds (h : e.Kept limit) : e.InBounds limit :=
  ⟨h.stands.object_le, Nat.le_of_lt_succ h.bounded.byte, h.found⟩

theorem resting_kept (limit : SpriteLimit) : resting.Kept limit :=
  ⟨resting_bounded limit, Nat.zero_le _, Nat.zero_le _⟩

/-- Clearing and fetching leave the search where it stands. -/
theorem clearStep_stands (h : e.Stands) (dot : Nat) : (e.clearStep dot limit).Stands := by
  unfold clearStep
  split
  · exact h
  · split <;> exact h

theorem kept_invariant (limit : SpriteLimit) : Invariant limit (Kept limit) where
  clearStep h dot :=
    have kept := (found_invariant limit).clearStep ⟨h.bounded, h.found⟩ dot
    ⟨kept.1, kept.2, clearStep_stands h.stands dot⟩
  start h address := by
    refine ⟨start_bounded h.bounded address, Nat.zero_le _, ?_, rfl⟩
    have small := address.toNat_lt
    show address.toNat / 4 < objectCount
    simp only [objectCount]
    omega
  step hi h := by
    subst hi
    exact ⟨step_bounded h.bounded, step_found_le h.bounded h.found,
      step_stands h.stands h.bounded.byte⟩
  stop h := ⟨stop_bounded h.bounded, Nat.zero_le _, h.stands.object_le⟩
  latch h value := ⟨latch_bounded h.bounded value, h.found, h.stands⟩

theorem Kept.stepChecked (h : e.Kept limit) (hi : i.limit = limit) :
    e.stepChecked i = some (e.step i) := by
  subst hi
  exact stepChecked_eq h.bounded h.stands

/-- Hurried to its end the search gets there, in as many steps as its measure allows. -/
theorem Kept.hurried (h : e.Kept limit) (hi : i.limit = limit) (enough : e.stepsToGo ≤ n) :
    e.finishChecked i n = some (e.steps i n).1 ∧ (e.steps i n).1.isDone = true := by
  induction n generalizing e with
  | zero =>
    have done : e.isDone = true := by
      by_contra going
      have := step_stepsToGo_lt (i := i) h.stands (Bool.eq_false_iff.mpr going)
      omega
    exact ⟨if_pos done, done⟩
  | succ n ih =>
    rw [finishChecked, steps]
    split
    · next done => exact ⟨rfl, done⟩
    · next going =>
      have nearer := step_stepsToGo_lt (i := i) h.stands (Bool.eq_false_iff.mpr going)
      rw [h.stepChecked hi, Option.bind_some]
      exact ih ((kept_invariant limit).step hi h) (by omega)

theorem Kept.finish (h : e.Kept limit) (hi : i.limit = limit) :
    e.finishChecked i (objectCount * 4) = some (e.finish i).1 ∧ (e.finish i).1.isDone = true :=
  h.hurried hi (stepsToGo_le h.stands)

theorem clearChecked_eq {dot : Nat} (hd : dot ≤ 64) :
    e.clearChecked dot limit = some (e.clearStep dot limit) := by
  have room : 8 ≤ limit.perLine := by cases limit <;> decide
  unfold clearChecked clearStep
  split
  · rfl
  · rw [storeChecked_eq (by omega), Option.map_some]

/-- Whatever the dot asks of the search is done in bounds. -/
theorem Kept.dotChecked (h : e.Kept limit) (hi : i.limit = limit) (address : UInt8) {dot : Nat}
    (hd : dot ≤ 256) : e.dotChecked i address dot = some (e.onDot i address dot) := by
  unfold Evaluation.dotChecked onDot
  rw [if_neg (Nat.not_lt.mpr hd)]
  split
  · next clears => exact clearChecked_eq clears
  have begun : Kept limit (if dot = 65 then e.start address else e) := by
    split
    · exact (kept_invariant limit).start h address
    · exact h
  dsimp only
  split
  · exact begun.stepChecked hi
  · split
    · exact (begun.finish hi).1
    · rfl

end Evaluation

namespace Machine

variable {κ : Type} [Cartridge κ] {m n : Machine κ} {past : List (Moment κ)}

/-- What every operation keeps, of the searches of each limit, holds of the search of every machine in a
chronicle. -/
theorem Chronicle.keeps_evaluation {P : SpriteLimit → Evaluation → Prop}
    (inv : ∀ limit, Evaluation.Invariant limit (P limit)) (resting : ∀ limit, P limit .resting)
    (h : Chronicle past m) : P m.config.limit m.circuit.evaluation := by
  induction h with
  | new config banks cartridge host => exact resting _
  | @dot past m line dot _ _ ih =>
    rw [step_circuit, step_config]
    exact (inv _).dot ih line dot _
  | between _ small ih =>
    rw [small.pipelines.2, small.config]
    exact ih
  | reset _ kind =>
    rw [reset_evaluation]
    exact resting _
  | loaded _ hl =>
    rw [(load_emptied hl).evaluation]
    exact resting _

theorem Chronicle.kept (h : Chronicle past m) : m.circuit.evaluation.Kept m.config.limit :=
  h.keeps_evaluation Evaluation.kept_invariant Evaluation.resting_kept

/-- The search stands in bounds. However many steps it takes from there, whatever they read and whichever
line they look for, it stays in bounds, and hurried to its end it gets there. -/
structure SearchInBounds (m : Machine κ) : Prop where
  pending : m.circuit.strips.pending ≤ m.config.limit.perLine
  here : m.circuit.evaluation.InBounds m.config.limit
  onward : ∀ i : Evaluation.Inputs, i.limit = m.config.limit → ∀ k,
    let e := (m.circuit.evaluation.steps i k).1
    e.InBounds m.config.limit ∧ e.stepChecked i = some (e.step i)
  finish : ∀ i : Evaluation.Inputs, i.limit = m.config.limit →
    m.circuit.evaluation.finishChecked i 256 = some (m.circuit.evaluation.finish i).1
      ∧ (m.circuit.evaluation.finish i).1.isDone = true

theorem Chronicle.searchInBounds (h : Chronicle past m) : m.SearchInBounds := by
  have kept := h.kept
  refine ⟨h.roomy.pending, kept.inBounds, fun i hi k => ?_, fun i hi => kept.finish hi⟩
  have later := (Evaluation.kept_invariant m.config.limit).steps hi k kept
  exact ⟨later.inBounds, later.stepChecked hi⟩

/-- What a rendered dot of a visible line asks of the search is done in bounds. -/
theorem Chronicle.dotChecked (h : Chronicle past m) (on : m.rendering = true) (y : Fin screenHeight)
    {dot : Nat} (hd : 1 ≤ dot ∧ dot ≤ 256) :
    m.circuit.evaluation.dotChecked (m.circuit.searchInputs y.val m.config.limit)
        m.circuit.registers.objectAddress dot
      = some (m.step (.visible y) dot).circuit.evaluation := by
  rw [h.kept.dotChecked rfl _ hd.2, step_circuit, Circuit.dot_evaluation on y hd]

/-- In any session, at each dot since the machine was switched on, however the registers and the object
memory were written meanwhile: the search stands in bounds before and after the dot, any steps from there
stay in bounds, and hurried to its end it gets there within 256 steps. What the dot itself asks of the
search, if it is rendered, leaves no memory, no slot of the line and no counter of eight bits. -/
theorem Reachable.search_inBounds (h : m.Reachable) :
    m.SearchInBounds ∧ (∃ past, Chronicle past m) ∧ ∀ past, Chronicle past m → ∀ x ∈ past,
      x.before.SearchInBounds ∧ x.after.SearchInBounds
        ∧ ∀ y : Fin screenHeight, x.line = .visible y → x.before.rendering = true →
          1 ≤ x.dot → x.dot ≤ 256 →
          x.before.circuit.evaluation.dotChecked
              (x.before.circuit.searchInputs y.val x.before.config.limit)
              x.before.circuit.registers.objectAddress x.dot
            = some x.after.circuit.evaluation := by
  obtain ⟨past, told⟩ := h.chronicle
  refine ⟨told.searchInBounds, ⟨past, told⟩, fun past told x mem => ?_⟩
  obtain ⟨later, before, parts⟩ := List.append_of_mem mem
  obtain ⟨earlier, standing⟩ := told.of_append parts
  refine ⟨earlier.searchInBounds, (earlier.dot standing).searchInBounds, fun y line on first last => ?_⟩
  obtain ⟨machine, place, dot⟩ := x
  obtain rfl : place = .visible y := line
  exact earlier.dotChecked on y ⟨first, last⟩

/-- The dot that starts the search on the first line that is rendered after rendering was switched on. -/
theorem Reachable.search_inBounds_switchedOn : ∃ (m : Machine (Option Unit)) (x : Moment (Option Unit))
    (past : List (Moment (Option Unit))), m.Reachable ∧ Chronicle (x :: past) m
      ∧ x.line = .visible ⟨0, by decide⟩ ∧ x.dot = 65 ∧ x.before.rendering = true
      ∧ m.SearchInBounds ∧ x.before.SearchInBounds
      ∧ x.before.circuit.evaluation.dotChecked (x.before.circuit.searchInputs 0 x.before.config.limit)
          x.before.circuit.registers.objectAddress x.dot = some x.after.circuit.evaluation := by
  obtain ⟨lit, on⟩ := exists_dawn
  let first : Turn := ⟨0, fun _ => 0, .catchUp (lit.clock.count + 64 * lit.timing.dot)⟩
  let next : Turn := ⟨0, fun _ => 0, .catchUp ((lit.turn first).2.clock.count + 1)⟩
  let m := (lit.turn first).2
  have reached : (m.turn next).2.Reachable := (on.came.turn first).turn next
  obtain ⟨past, told⟩ := (on.came.turn first).chronicle
  have place : (m.meet next).clock.position = .raster (.visible ⟨0, by decide⟩) 65 :=
    (reaches_line (m := lit.meet first) (k := 64) on.place (by decide)).place
  have rendering : (m.meet next).rendering = true :=
    (later_rendering 64 (lit.meet first)).trans on.on
  have passed : (m.turn next).2 = (m.meet next).step (.visible ⟨0, by decide⟩) 65 := by
    have one : (m.turn next).2 = (m.meet next).advanceTo ((m.meet next).clock.count + 1) := rfl
    rw [one, advanceTo_raster _ _ _ _ place (Nat.lt_succ_self _)]
    refine advanceTo_of_le _ _ ?_
    rw [step_count]
    exact Nat.add_le_add_left (m.config.region.dot_pos) _
  have chronicle : Chronicle (⟨m.meet next, .visible ⟨0, by decide⟩, 65⟩ :: past) (m.turn next).2 := by
    rw [passed]
    exact (told.between (.served m _)).dot place
  obtain ⟨bounds, -, all⟩ := Reachable.search_inBounds reached
  obtain ⟨before, -, checked⟩ := all _ chronicle _ List.mem_cons_self
  exact ⟨_, _, past, reached, chronicle, rfl, rfl, rendering, bounds, before,
    checked ⟨0, by decide⟩ rfl rendering (show 1 ≤ 65 by decide) (show 65 ≤ 256 by decide)⟩

end Machine

end PictureUnit
