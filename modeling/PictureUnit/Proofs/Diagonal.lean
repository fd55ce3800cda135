import PictureUnit.Proofs.Search

/-!
# The walk past the last object

When a line has as many objects as it may show, the search goes on with the byte after the last of
them. It takes each byte for a line number, and after a miss goes on to the next byte of the next
object, so it walks the memory diagonally. The first byte in range ends the walk after three more
reads. However the objects lie, the odd dots of a line are enough for the search and its walk.
-/

set_option autoImplicit false

namespace PictureUnit.Evaluation

/-- The byte that step `k` of the walk past object `p` looks at is in range. -/
def Inputs.diagonal (i : Inputs) (p k : Nat) : Bool :=
  inRange i.line i.height (i.memory.load ((p + 1 + k) * 4 + k % 4))

/-- Some byte of the walk past `p` is in range. -/
def Inputs.WalkHits (i : Inputs) (p : Nat) : Prop :=
  ∃ k, p + 1 + k < objectCount ∧ i.diagonal p k = true

/-- The line has all the objects that it may show, and the walk past the last of them finds a byte in
range. -/
def Inputs.Overruns (i : Inputs) (s : Nat) : Prop :=
  ∃ p, (i.covering s objectCount)[i.limit.perLine - 1]? = some p ∧ i.WalkHits p

/-- The walk past `p` has come to step `k`. -/
structure Walking (i : Inputs) (s : Nat) (e : Evaluation) (p k : Nat) : Prop where
  search : e.search = .scanning
  object : e.object = p + 1 + k
  byte : e.byte = k % 4
  inside : p + 1 + k < objectCount
  last : (i.covering s objectCount)[i.limit.perLine - 1]? = some p
  missed : ∀ j < k, i.diagonal p j = false

/-- At most `n` more steps finish the search from `s`, which so far has found an object too many, or
has not. -/
inductive Ends (i : Inputs) (s n : Nat) (e : Evaluation) : Bool → Prop where
  | going {k b : Nat} (at_ : Going i s e k b)
      (near : (objectCount - k) + 3 * (i.limit.perLine - e.found) + 3 ≤ n + b) : Ends i s n e false
  | walking {p k : Nat} (done : Done i s e) (at_ : Walking i s e p k)
      (near : (objectCount - (p + 1 + k)) + 3 ≤ n) : Ends i s n e false
  | skipping {remaining : Nat} (done : Done i s e) (search : e.search = .skipping remaining)
      (near : 1 ≤ remaining ∧ remaining ≤ n) (found : i.Overruns s) : Ends i s n e true
  | finished {found : Bool} (done : Done i s e) (search : e.search = .finished)
      (found_iff : found = true ↔ i.Overruns s) : Ends i s n e found

variable {i : Inputs} {s n : Nat} {e : Evaluation} {k b p : Nat}

/-- With fewer objects than it may show a line has no walk. -/
theorem not_overruns_of_lt (few : (i.shown s).length < i.limit.perLine) : ¬ i.Overruns s := by
  rintro ⟨p, last, -⟩
  have many := (List.getElem?_eq_some_iff.mp last).1
  rw [Inputs.shown, List.length_take] at few
  omega

/-- The walk has missed all that it could hit. -/
theorem not_overruns_of_missed (last : (i.covering s objectCount)[i.limit.perLine - 1]? = some p)
    (missed : ∀ k, p + 1 + k < objectCount → i.diagonal p k = false) : ¬ i.Overruns s := by
  rintro ⟨q, own, k, inside, hit⟩
  rw [last, Option.some.injEq] at own
  rw [← own] at inside hit
  rw [missed k inside] at hit
  cases hit

/-- The object that fills the line is its last. -/
theorem Going.last (h : Going i s e k b) (hk : i.hit k = true) (full : e.found + 1 = i.limit.perLine) :
    (i.covering s objectCount)[i.limit.perLine - 1]? = some k := by
  have inside := h.inside
  have upTo : i.covering s (k + 1) = i.covering s k ++ [k] := by
    rw [covering_succ inside.1, hk]
    rfl
  have place : i.limit.perLine - 1 = (i.covering s k).length := by
    rw [← h.found]
    omega
  rw [covering_append (j := k + 1) (by omega) (by omega), upTo, place, List.append_assoc,
    List.getElem?_append_right (Nat.le_refl _), Nat.sub_self]
  rfl

theorem Walking.current (h : Walking i s e p k) :
    e.current i = i.memory.load ((p + 1 + k) * 4 + k % 4) := by
  rw [Evaluation.current, address, h.object, h.byte, Nat.mod_eq_of_lt h.inside]

theorem Walking.hits (h : Walking i s e p k) : e.hits i = i.diagonal p k := by
  rw [Evaluation.hits, h.current]
  rfl

theorem advance_search (search : Search) (e : Evaluation) :
    (e.advance search).search = if e.object + 1 < objectCount then search else .finished := rfl

theorem compare_search (hit : e.hits i = false) :
    (e.compare i).search = if e.object + 1 < objectCount then .comparing else .finished := by
  rw [compare, hit]
  rfl

theorem Going.overflows (h : Going i s e k b) (limit : i.limit = .hardware) : e.overflows i = false := by
  have room := h.room
  rw [limit] at room
  have few := h.few
  unfold Evaluation.overflows
  rw [h.search]
  obtain rfl | rfl | rfl | rfl : b = 0 ∨ b = 1 ∨ b = 2 ∨ b = 3 := by omega
  · rw [copying, decide_eq_false (Nat.not_le.mpr room), Bool.and_false]
  all_goals rfl

/-- A comparison that ends the search has come to the end of the memory. -/
theorem compare_finished (done : Done i s (e.compare i)) (hit : e.hits i = false) :
    (e.compare i).search = .finished := by
  have closed := done.search
  have search := compare_search hit
  by_cases more : e.object + 1 < objectCount
  · rw [if_pos more] at search
    rw [search] at closed
    exact closed.elim
  · rw [if_neg more] at search
    exact search

/-- Then the line has fewer objects than it may show. -/
theorem ends_compare (h : Going i s e k 0) (done : Done i s (e.compare i)) (hit : e.hits i = false) :
    Ends i s n (e.compare i) false := by
  have room := h.room
  rw [← compare_found i e, done.found] at room
  exact .finished done (compare_finished done hit) (by simp [not_overruns_of_lt room])

theorem Going.complete_search (h : Going i s e k b) : (e.complete i).search
    = if k + 1 < objectCount then if i.limit.perLine ≤ e.found + 1 then .scanning else .comparing
      else .finished := by
  rw [← h.object]
  rfl

/-- A copy that ends the search begins the walk, unless nothing is left. -/
theorem ends_complete (h : Going i s e k 3) (done : Done i s (e.complete i))
    (near : (objectCount - k) + 3 * (i.limit.perLine - e.found) + 3 ≤ n + 1 + 3) :
    Ends i s n (e.complete i) false := by
  have hk := (h.begun.resolve_left (by decide)).2.1
  have inside := h.inside
  have found : (e.complete i).found = e.found + 1 := rfl
  have search := h.complete_search
  by_cases more : k + 1 < objectCount
  · rw [if_pos more] at search
    by_cases full : i.limit.perLine ≤ e.found + 1
    · rw [if_pos full] at search
      have room := h.room
      have last := h.last hk (by omega)
      refine .walking done (p := k) (k := 0) ⟨search, ?_, rfl, more, last, ?_⟩ (by omega)
      · exact congrArg (· + 1) h.object
      · intro j hj
        cases hj
    · rw [if_neg full] at search
      have closed := done.search
      rw [search] at closed
      exact closed.elim
  · rw [if_neg more] at search
    refine .finished done search ?_
    by_cases full : e.found + 1 = i.limit.perLine
    · have last := h.last hk full
      simp [not_overruns_of_missed last fun j hj => absurd hj (by omega)]
    · have room := h.room
      have few : (i.shown s).length < i.limit.perLine := by
        rw [← done.found, found]
        omega
      simp [not_overruns_of_lt few]

/-- A step of the walk. -/
theorem ends_scan (done : Done i s e) (h : Walking i s e p k)
    (near : (objectCount - (p + 1 + k)) + 3 ≤ n + 1) :
    Ends i s n (e.scan i) (e.hits i) := by
  have inside := h.inside
  have stepped : e.step i = e.scan i := by
    unfold step
    rw [h.search]
  have after : Done i s (e.scan i) := stepped ▸ done.step
  have hits := h.hits
  cases hit : e.hits i with
  | true =>
    rw [hit] at hits
    have search : (e.scan i).search = .skipping 3 := by
      rw [scan, hit]
      rfl
    exact .skipping after search (by omega) ⟨p, h.last, k, inside, hits.symm⟩
  | false =>
    rw [hit] at hits
    have scanned : e.scan i = advance .scanning { e.read i with byte := (e.byte + 1) % 4 } := by
      rw [scan, hit]
      rfl
    have missed (j : Nat) (hj : j < k + 1) : i.diagonal p j = false := by
      obtain earlier | rfl := Nat.lt_succ_iff_lt_or_eq.mp hj
      · exact h.missed j earlier
      · exact hits.symm
    have search : (e.scan i).search
        = if p + 1 + k + 1 < objectCount then .scanning else .finished := by
      rw [scanned, advance_search, ← h.object]
      rfl
    by_cases more : p + 1 + k + 1 < objectCount
    · rw [if_pos more] at search
      refine .walking after (p := p) (k := k + 1) ⟨search, ?_, ?_, more, h.last, missed⟩ (by omega)
      · rw [scanned]
        exact congrArg (· + 1) h.object
      · rw [scanned]
        change (e.byte + 1) % 4 = _
        rw [h.byte]
        omega
    · rw [if_neg more] at search
      have all (j : Nat) (hj : p + 1 + j < objectCount) : i.diagonal p j = false := missed j (by omega)
      exact .finished after search (by simp [not_overruns_of_missed h.last all])

/-- Each of the reads after the walk leaves one fewer. -/
theorem skip_search (remaining : Nat) (i : Inputs) (e : Evaluation) : (e.skip remaining i).search
    = if 1 < remaining then .skipping (remaining - 1) else .finished := by
  unfold skip
  dsimp only
  split <;> rfl

/-- A step brings the search nearer to its end, and notes what it finds. -/
theorem Ends.step {found : Bool} (limit : i.limit = .hardware) (h : Ends i s (n + 1) e found) :
    Ends i s n (e.step i) (found || e.overflows i) := by
  cases h with
  | @going k b at_ near =>
    have room := at_.room
    have few := at_.few
    have inside := at_.inside
    rw [at_.overflows limit, Bool.or_false]
    unfold Evaluation.step
    rw [at_.search]
    obtain rfl | rfl | rfl | rfl : b = 0 ∨ b = 1 ∨ b = 2 ∨ b = 3 := by omega
    · change Ends i s n (e.compare i) false
      cases hk : i.hit k with
      | true =>
        refine .going (compare_hit at_ hk) ?_
        rw [compare_found]
        omega
      | false =>
        rcases compare_miss at_ hk with done | next
        · exact ends_compare at_ done (at_.hits.trans hk)
        · refine .going next ?_
          rw [compare_found]
          omega
    · exact .going (at_.copy (by decide) (by decide)) near
    · exact .going (at_.copy (by decide) (by decide)) near
    · change Ends i s n (e.complete i) false
      rcases complete_next at_ with done | next
      · exact ends_complete at_ done near
      · refine .going next ?_
        change _ + 3 * (_ - (e.found + 1)) + 3 ≤ _
        omega
  | walking done at_ near =>
    have overflows : e.overflows i = e.hits i := by
      unfold Evaluation.overflows
      rw [at_.search]
    have stepped : e.step i = e.scan i := by
      unfold Evaluation.step
      rw [at_.search]
    rw [overflows, Bool.false_or, stepped]
    exact ends_scan done at_ near
  | @skipping remaining done search near found =>
    have stepped : e.step i = e.skip remaining i := by
      unfold Evaluation.step
      rw [search]
    have next := skip_search remaining i e
    rw [← stepped] at next
    by_cases more : 1 < remaining
    · rw [if_pos more] at next
      exact .skipping done.step next (by omega) found
    · rw [if_neg more] at next
      exact .finished done.step next (by simp [found])
  | finished done search found_iff =>
    have overflows : e.overflows i = false := by
      unfold Evaluation.overflows
      rw [search]
    have stays : (e.step i).search = .finished := by
      unfold Evaluation.step
      rw [search]
      rfl
    rw [overflows, Bool.or_false]
    exact .finished done.step stays found_iff

/-- With no step left the search has finished. -/
theorem Ends.done {found : Bool} (h : Ends i s 0 e found) :
    e.search = .finished ∧ Done i s e ∧ (found = true ↔ i.Overruns s) := by
  cases h with
  | going at_ near =>
    have inside := at_.inside
    have few := at_.few
    omega
  | walking done at_ near => omega
  | skipping done search near => omega
  | finished done search found_iff => exact ⟨search, done, found_iff⟩

theorem Ends.next {found : Bool} (limit : i.limit = .hardware) (h : Ends i s n e found) :
    Ends i s (n - 1) (e.step i) (found || e.overflows i) := by
  cases n with
  | zero =>
    obtain ⟨search, done, found_iff⟩ := h.done
    exact Ends.step limit (.finished done search found_iff)
  | succ n => exact h.step limit

/-- Ninety-one steps finish a search that shows eight objects. -/
theorem start_ends (limit : i.limit = .hardware) (address : UInt8) (e : Evaluation) :
    Ends i (address.toNat / 4) 91 (e.start address) false := by
  refine .going (start_going i address e) ?_
  rw [limit]
  simp only [start, objectCount, SpriteLimit.perLine]
  omega

end PictureUnit.Evaluation
