import Mathlib.Data.List.Basic
import PictureUnit.Object.Evaluation

/-!
# What the search finds

The search compares the objects in memory order and copies those in range, until it has as many as
a line may show. A comparison takes one step and a copy three more, so after as many steps as there
are objects, and three for each that a line may show, nothing more is copied.
-/

set_option autoImplicit false

namespace PictureUnit.Evaluation

/-- Whether the object at a place in memory covers the line. -/
def Inputs.hit (i : Inputs) (k : Nat) : Bool := inRange i.line i.height (i.memory.load (k * 4))

/-- The objects in range from `s` up to `k`. -/
def Inputs.covering (i : Inputs) (s k : Nat) : List Nat := (List.range' s (k - s)).filter i.hit

/-- An object is in range when the line is one of its rows, counted from its top. -/
theorem Inputs.mem_covering_iff {i : Inputs} {s k o : Nat} : o ∈ i.covering s k
    ↔ (s ≤ o ∧ o < k) ∧ (i.memory.load (o * 4)).toNat ≤ i.line
      ∧ i.line - (i.memory.load (o * 4)).toNat < i.height := by
  rw [covering, List.mem_filter, List.mem_range'_1, hit, inRange_iff]
  exact and_congr_left fun _ => by omega

/-- Where all bytes are the same, all objects are in range or none is. -/
theorem covering_filled {i : Inputs} {value : UInt8} (memory : i.memory = .filled 256 value)
    (above : value.toNat ≤ i.line) (inside : i.line - value.toNat < i.height) :
    i.covering 0 objectCount = List.range' 0 objectCount := by
  rw [Inputs.covering, Nat.sub_zero, List.filter_eq_self]
  intro o here
  have room := (List.mem_range'_1.mp here).2
  have small : o * 4 < 256 := by
    simp only [objectCount] at room
    omega
  simpa [Inputs.hit, memory, small] using ⟨above, inside⟩

theorem length_covering_filled {i : Inputs} {value : UInt8} (memory : i.memory = .filled 256 value)
    (above : value.toNat ≤ i.line) (inside : i.line - value.toNat < i.height) :
    (i.covering 0 objectCount).length = objectCount := by
  rw [covering_filled memory above inside, List.length_range']

/-- The objects that the line shows when the search starts at `s`. -/
def Inputs.shown (i : Inputs) (s : Nat) : List Nat :=
  (i.covering s objectCount).take i.limit.perLine

/-- The secondary memory begins with these objects. -/
def Copied (i : Inputs) (e : Evaluation) (l : List Nat) : Prop :=
  ∀ slot k, l[slot]? = some k → ∀ b < 4, e.secondary.load (slot * 4 + b) = i.memory.load (k * 4 + b)

/-- Stands before byte `b` of an object that is being copied, or to be compared. -/
def copying : Nat → Search
  | 0 => .comparing
  | 1 => .copyingTile
  | 2 => .copyingAttributes
  | _ => .copyingX

/-- The search from `s` has come to byte `b` of object `k`. -/
structure Going (i : Inputs) (s : Nat) (e : Evaluation) (k b : Nat) : Prop where
  search : e.search = copying b
  object : e.object = k
  byte : e.byte = b
  inside : s ≤ k ∧ k < objectCount
  found : e.found = (i.covering s k).length
  room : e.found < i.limit.perLine
  copied : Copied i e (i.covering s k)
  begun : b = 0 ∨ b < 4 ∧ i.hit k = true
    ∧ ∀ a < b, e.secondary.load (e.found * 4 + a) = i.memory.load (k * 4 + a)
  first : e.first = decide (k = s ∧ b = 0)
  zero : e.zeroInRange = (!e.first && i.hit s)

/-- The search copies no more. -/
def Closed : Search → Prop
  | .scanning | .skipping _ | .finished => True
  | .resting | .comparing | .copyingTile | .copyingAttributes | .copyingX => False

/-- The search from `s` has found all that it will. -/
structure Done (i : Inputs) (s : Nat) (e : Evaluation) : Prop where
  search : Closed e.search
  found : e.found = (i.shown s).length
  copied : Copied i e (i.shown s)
  zero : e.zeroInRange = i.hit s

/-- The search from `s` is done after at most `n` steps. -/
def Within (i : Inputs) (s n : Nat) (e : Evaluation) : Prop :=
  Done i s e ∨ ∃ k b, Going i s e k b
    ∧ (objectCount - k) + 3 * (i.limit.perLine - e.found) ≤ n + b

theorem perLine_le (limit : SpriteLimit) : limit.perLine ≤ objectCount := by
  cases limit <;> decide

variable {i : Inputs} {s n : Nat} {e : Evaluation} {k b : Nat}

theorem covering_succ (h : s ≤ k) :
    i.covering s (k + 1) = i.covering s k ++ if i.hit k then [k] else [] := by
  have count : k + 1 - s = k - s + 1 := by omega
  have last : s + (k - s) = k := by omega
  rw [Inputs.covering, count, List.range'_concat, List.filter_append, Nat.one_mul, last,
    List.filter_singleton]
  cases i.hit k <;> rfl

theorem covering_append {j : Nat} (h : s ≤ j) (hk : j ≤ k) :
    i.covering s k = i.covering s j ++ (List.range' j (k - j)).filter i.hit := by
  have parts : List.range' s (k - s) = List.range' s (j - s) ++ List.range' j (k - j) := by
    have middle : s + 1 * (j - s) = j := by omega
    have count : k - s = (j - s) + (k - j) := by omega
    rw [count, ← List.range'_append, middle]
  rw [Inputs.covering, parts, List.filter_append]
  rfl

/-- The search ends when the slots are full or the memory is through. -/
theorem shown_eq (h : s ≤ k) (hk : k ≤ objectCount)
    (hl : (i.covering s k).length = i.limit.perLine
      ∨ k = objectCount ∧ (i.covering s k).length ≤ i.limit.perLine) :
    i.shown s = i.covering s k := by
  rw [Inputs.shown]
  rcases hl with hl | ⟨rfl, hl⟩
  · rw [covering_append h hk, List.take_left' hl]
  · exact List.take_of_length_le hl

theorem Copied.append {l : List Nat} (h : Copied i e l)
    (hk : ∀ a < 4, e.secondary.load (l.length * 4 + a) = i.memory.load (k * 4 + a)) :
    Copied i e (l ++ [k]) := by
  intro slot j hj a ha
  by_cases hs : slot < l.length
  · rw [List.getElem?_append_left hs] at hj
    exact h slot j hj a ha
  · have place : slot = l.length := by
      have := (List.getElem?_eq_some_iff.mp hj).1
      rw [List.length_append, List.length_singleton] at this
      omega
    rw [place, List.getElem?_concat_length, Option.some.injEq] at hj
    rw [place, ← hj]
    exact hk a ha

/-- A write at the next free slot keeps what was copied. -/
theorem Copied.write {l : List Nat} (h : Copied i e l) (hf : e.found = l.length) (value : UInt8) :
    Copied i (e.write value) l := by
  intro slot j hj a ha
  have inside := (List.getElem?_eq_some_iff.mp hj).1
  have other : e.found * 4 + e.byte ≠ slot * 4 + a := by omega
  rw [← h slot j hj a ha]
  exact Block.load_store_ne _ _ _ value other

theorem Going.few (h : Going i s e k b) : b < 4 := by
  rcases h.begun with rfl | ⟨hb, -⟩
  · decide
  · exact hb

theorem Going.not_isDone (h : Going i s e k b) : e.isDone = false := by
  have few := h.few
  rw [isDone, h.search]
  obtain rfl | rfl | rfl | rfl : b = 0 ∨ b = 1 ∨ b = 2 ∨ b = 3 := by omega
  all_goals rfl

theorem Going.current (h : Going i s e k b) : e.current i = i.memory.load (k * 4 + b) := by
  have := h.inside.2
  rw [Evaluation.current, address, h.object, h.byte, Nat.mod_eq_of_lt this]

theorem Going.hits (h : Going i s e k 0) : e.hits i = i.hit k := by
  rw [Evaluation.hits, h.current]
  rfl

/-- After a copy one byte more of the object is in its slot. -/
theorem Going.copy_load (h : Going i s e k b) {a : Nat} (ha : a < b + 1) (hb : b < 4) :
    (e.copy i).secondary.load (e.found * 4 + a) = i.memory.load (k * 4 + a) := by
  have room := h.room
  have most := perLine_le i.limit
  have slot : e.found * 4 + b < 256 := by
    simp only [objectCount] at most
    omega
  rcases Nat.lt_succ_iff_lt_or_eq.mp ha with hlt | rfl
  · have other : e.found * 4 + b ≠ e.found * 4 + a := by omega
    have before := (h.begun.resolve_left (by omega)).2.2 a hlt
    rw [← before, copy, write, read]
    dsimp only
    rw [h.byte]
    exact Block.load_store_ne _ _ _ _ other
  · rw [copy, write, read, h.current]
    dsimp only
    rw [h.byte]
    exact Block.load_store_same _ _ _ slot

/-- What follows once an object is dealt with. -/
theorem Going.onward {f : Evaluation} (h : Going i s e k b) (object : f.object = k + 1)
    (byte : f.byte = 0) (found : f.found = (i.covering s (k + 1)).length)
    (room : f.found ≤ i.limit.perLine) (copied : Copied i f (i.covering s (k + 1)))
    (first : f.first = false) (zero : f.zeroInRange = i.hit s)
    (search : f.search = if k + 1 < objectCount then
      if i.limit.perLine ≤ f.found then .scanning else .comparing else .finished) :
    Done i s f ∨ Going i s f (k + 1) 0 := by
  have inside := h.inside
  have closed (hl : f.found = i.limit.perLine ∨ k + 1 = objectCount) : Done i s f := by
    have all : i.shown s = i.covering s (k + 1) := by
      apply shown_eq (by omega) (by omega)
      rw [← found]
      rcases hl with hl | hl
      · exact .inl hl
      · exact .inr ⟨hl, room⟩
    refine ⟨?_, all ▸ found, all ▸ copied, zero⟩
    rw [search]
    rcases hl with hl | hl
    · rw [hl, if_pos (Nat.le_refl _)]
      split <;> exact trivial
    · rw [hl, if_neg (Nat.lt_irrefl _)]
      exact trivial
  by_cases hl : f.found = i.limit.perLine ∨ k + 1 = objectCount
  · exact .inl (closed hl)
  · rw [not_or] at hl
    right
    refine ⟨?_, object, byte, by omega, found, by omega, copied, .inl rfl, ?_, ?_⟩
    · rw [search, if_pos (by omega), if_neg (by omega)]
      rfl
    · rw [first]
      exact (decide_eq_false (by omega)).symm
    · rw [first, zero]
      rfl

theorem compare_hit (h : Going i s e k 0) (hk : i.hit k = true) : Going i s (e.compare i) k 1 := by
  have hit : e.hits i = true := h.hits.trans hk
  have compared : e.compare i = { e.copy i with
      first := false
      zeroInRange := e.zeroInRange || (e.first && true)
      search := .copyingTile
      byte := 1 } := by
    rw [compare, hit]
    rfl
  have copied : Copied i (e.copy i) (i.covering s k) := h.copied.write h.found (e.current i)
  rw [compared]
  refine ⟨rfl, h.object, rfl, h.inside, h.found, h.room, copied, ?_, ?_, ?_⟩
  · exact .inr ⟨by decide, hk, fun a ha => h.copy_load (by omega) (by decide)⟩
  · exact (decide_eq_false (by omega)).symm
  · have zero := h.zero
    have first := h.first
    cases hf : e.first with
    | false => simpa [hf] using zero
    | true =>
      have same : k = s := by
        rw [hf] at first
        simpa using first
      simp [← same, hk]

theorem compare_found (i : Inputs) (e : Evaluation) : (e.compare i).found = e.found := by
  unfold compare
  dsimp only
  split <;> rfl

theorem compare_miss (h : Going i s e k 0) (hk : i.hit k = false) :
    Done i s (e.compare i) ∨ Going i s (e.compare i) (k + 1) 0 := by
  have miss : e.hits i = false := h.hits.trans hk
  have compared : e.compare i = advance .comparing { e.copy i with
      first := false
      zeroInRange := e.zeroInRange || (e.first && false) } := by
    rw [compare, miss]
    rfl
  have same : i.covering s (k + 1) = i.covering s k := by
    rw [covering_succ h.inside.1, hk]
    simp
  have copied : Copied i (e.copy i) (i.covering s k) := h.copied.write h.found (e.current i)
  have room := h.room
  have next := h.onward (f := e.compare i) (by rw [compared]; exact congrArg (· + 1) h.object)
    (by rw [compared]; exact h.byte) (by rw [compared, same]; exact h.found)
    (by rw [compared]; exact Nat.le_of_lt room) (by rw [compared, same]; exact copied)
    (by rw [compared]; rfl) ?_ ?_
  · exact next
  · have zero := h.zero
    have first := h.first
    rw [compared]
    cases hf : e.first with
    | false => simpa [advance, copy, write, read, hf] using zero
    | true =>
      have same : k = s := by
        rw [hf] at first
        simpa using first
      simp [advance, copy, write, read, hf, ← same, hk, zero]
  · have few : ¬ i.limit.perLine ≤ (e.compare i).found := by
      rw [compared]
      exact Nat.not_le.mpr room
    rw [if_neg few, compared]
    simp only [advance, copy, write, read, h.object]

theorem complete_next (h : Going i s e k 3) :
    Done i s (e.complete i) ∨ Going i s (e.complete i) (k + 1) 0 := by
  have begun := h.begun.resolve_left (by decide)
  have longer : i.covering s (k + 1) = i.covering s k ++ [k] := by
    rw [covering_succ h.inside.1, begun.2.1]
    rfl
  have found : e.found + 1 = (i.covering s (k + 1)).length := by
    rw [longer, List.length_append, h.found]
    rfl
  have copied : Copied i (e.copy i) (i.covering s (k + 1)) := by
    rw [longer]
    apply Copied.append (h.copied.write h.found (e.current i))
    intro a ha
    rw [← h.found]
    exact h.copy_load ha (by decide)
  have first : e.first = false := h.first.trans (decide_eq_false (by omega))
  have room := h.room
  have next := h.onward (f := e.complete i) (congrArg (· + 1) h.object) rfl found room copied first
    ?_ ?_
  · exact next
  · have zero := h.zero
    rw [first] at zero
    exact zero
  · simp only [complete, advance, copy, write, read, h.object]

theorem Going.copy (h : Going i s e k b) (hb : 0 < b) (hl : b < 3) :
    Going i s { e.copy i with search := copying (b + 1), byte := b + 1 } k (b + 1) := by
  have begun := h.begun.resolve_left (by omega)
  have first : e.first = false := h.first.trans (decide_eq_false (by omega))
  refine ⟨rfl, h.object, rfl, h.inside, h.found, h.room, h.copied.write h.found (e.current i), ?_,
    ?_, h.zero⟩
  · exact .inr ⟨by omega, begun.2.1, fun a ha => h.copy_load ha (by omega)⟩
  · exact first.trans (decide_eq_false (by omega)).symm

/-- A search that copies no more leaves what it has found as it is. -/
theorem step_closed (h : Closed e.search) : Closed (e.step i).search ∧ (e.step i).found = e.found
    ∧ (e.step i).secondary = e.secondary ∧ (e.step i).zeroInRange = e.zeroInRange := by
  unfold Evaluation.step
  cases hs : e.search with
  | resting | comparing | copyingTile | copyingAttributes | copyingX =>
    rw [hs] at h
    exact h.elim
  | scanning =>
    unfold scan advance
    dsimp only
    split
    · exact ⟨trivial, rfl, rfl, rfl⟩
    · refine ⟨?_, rfl, rfl, rfl⟩
      dsimp only
      split <;> exact trivial
  | skipping remaining =>
    unfold skip
    dsimp only
    split
    · split <;> exact ⟨trivial, rfl, rfl, rfl⟩
    · split <;> exact ⟨trivial, rfl, rfl, rfl⟩
  | finished => exact ⟨by simp [read, Closed], rfl, rfl, rfl⟩

theorem Done.step (h : Done i s e) : Done i s (e.step i) := by
  obtain ⟨closed, found, secondary, zero⟩ := step_closed (i := i) h.search
  refine ⟨closed, found.trans h.found, ?_, zero.trans h.zero⟩
  rw [Copied, secondary]
  exact h.copied

/-- A step brings the search nearer to its end. -/
theorem Within.step (h : Within i s (n + 1) e) : Within i s n (e.step i) := by
  rcases h with done | ⟨k, b, going, near⟩
  · exact .inl done.step
  · have inside := going.inside
    have room := going.room
    have search := going.search
    have few := going.few
    unfold Evaluation.step
    rw [search]
    -- A comparison that misses uses up an object, and a copied byte one of its three steps.
    obtain rfl | rfl | rfl | rfl : b = 0 ∨ b = 1 ∨ b = 2 ∨ b = 3 := by omega
    · change Within i s n (e.compare i)
      cases hk : i.hit k with
      | true => exact .inr ⟨k, 1, compare_hit going hk, by
          rw [compare_found]
          omega⟩
      | false =>
        rcases compare_miss going hk with done | next
        · exact .inl done
        · refine .inr ⟨k + 1, 0, next, ?_⟩
          rw [compare_found]
          omega
    · exact .inr ⟨k, 2, going.copy (by decide) (by decide), near⟩
    · exact .inr ⟨k, 3, going.copy (by decide) (by decide), near⟩
    · rcases complete_next going with done | next
      · exact .inl done
      · have found : (e.complete i).found = e.found + 1 := rfl
        refine .inr ⟨k + 1, 0, next, ?_⟩
        change _ + 3 * (_ - (e.complete i).found) ≤ _
        rw [found]
        omega

theorem Within.mono {m : Nat} (h : Within i s n e) (hn : n ≤ m) : Within i s m e := by
  rcases h with done | ⟨k, b, going, near⟩
  · exact .inl done
  · exact .inr ⟨k, b, going, by omega⟩

/-- With no step left the search is done. -/
theorem Within.done (h : Within i s 0 e) : Done i s e := by
  rcases h with done | ⟨k, b, going, near⟩
  · exact done
  · have inside := going.inside
    have room := going.room
    have few := going.few
    omega

theorem Within.next (h : Within i s n e) : Within i s (n - 1) (e.step i) := by
  cases n with
  | zero => exact .inl h.done.step
  | succ n => exact h.step

/-- The search of a new line starts at an object with nothing found. -/
theorem start_going (i : Inputs) (address : UInt8) (e : Evaluation) :
    Going i (address.toNat / 4) (e.start address) (address.toNat / 4) 0 := by
  have inside : address.toNat / 4 < objectCount := by
    have := address.toNat_lt
    simp only [objectCount]
    omega
  have none : i.covering (address.toNat / 4) (address.toNat / 4) = [] := by
    simp [Inputs.covering]
  refine ⟨rfl, rfl, rfl, ⟨Nat.le_refl _, inside⟩, ?_, ?_, ?_, .inl rfl, ?_, rfl⟩
  · rw [none]
    rfl
  · change 0 < i.limit.perLine
    cases i.limit <;> decide
  · rw [none]
    intro slot k hk
    cases hk
  · simp [start]

theorem start_within (i : Inputs) (address : UInt8) (e : Evaluation) :
    Within i (address.toNat / 4) (objectCount + 3 * i.limit.perLine) (e.start address) := by
  refine .inr ⟨address.toNat / 4, 0, start_going i address e, ?_⟩
  simp only [start]
  omega

/-- The steps at the end of an unlimited line do the rest. -/
theorem Within.steps (h : Within i s n e) : Done i s (e.steps i n).1 := by
  induction n generalizing e with
  | zero => exact h.done
  | succ n ih =>
    cases hd : e.isDone with
    | true =>
      rw [steps_of_isDone i _ e hd]
      rcases h with done | ⟨k, b, going, -⟩
      · exact done
      · rw [going.not_isDone] at hd
        cases hd
    | false =>
      have last := ih h.step
      rw [Evaluation.steps, if_neg (by rw [hd]; decide)]
      exact last

end PictureUnit.Evaluation
