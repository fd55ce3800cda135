import PictureUnit.Proofs.Sought

/-!
# The search without a limit to its end

When a line may show every object, the search compares and copies until the memory is through. The odd dots
of a line need not be enough for that, so the last dot hurries it to its end. It finds an object too many
when it meets the ninth in range, and goes on.
-/

set_option autoImplicit false

namespace PictureUnit.Evaluation

variable {i : Inputs} {s n d k b : Nat} {e : Evaluation} {ninth : Bool}

theorem length_covering_le (i : Inputs) (s k : Nat) : (i.covering s k).length ≤ k - s := by
  rw [Inputs.covering]
  apply (List.length_filter_le _ _).trans
  rw [List.length_range']

/-- A search from `s` that may show every object, and whether it has met a ninth one. -/
inductive Gathers (i : Inputs) (s : Nat) (e : Evaluation) (ninth : Bool) : Prop where
  | going {k b : Nat} (at_ : Going i s e k b) (met : ninth = decide (8 < e.found + min b 1))
  | finished (done : Done i s e) (search : e.search = .finished) (met : ninth = decide (8 < e.found))

theorem Going.not_done (h : Going i s e k b) : ¬ Done i s e := by
  intro done
  have few := h.few
  have closed := done.search
  rw [h.search] at closed
  obtain rfl | rfl | rfl | rfl : b = 0 ∨ b = 1 ∨ b = 2 ∨ b = 3 := by omega
  all_goals exact closed

/-- The slots are never full before the memory is through. -/
theorem Going.complete_finished (h : Going i s e k 3) (limit : i.limit = .unlimited)
    (done : Done i s (e.complete i)) : (e.complete i).search = .finished := by
  have closed := done.search
  have search := h.complete_search
  by_cases more : k + 1 < objectCount
  · have found := h.found
    have few := length_covering_le i s k
    have room : ¬ i.limit.perLine ≤ e.found + 1 := by
      rw [limit]
      show ¬ objectCount ≤ e.found + 1
      omega
    rw [if_pos more, if_neg room] at search
    rw [search] at closed
    exact closed.elim
  · rw [if_neg more] at search
    exact search

/-- A step meets the ninth object, or does not. -/
theorem Gathers.step (limit : i.limit = .unlimited) (h : Gathers i s e ninth) :
    Gathers i s (e.step i) (ninth || e.overflows i) := by
  cases h with
  | @going k b at_ met =>
    have few := at_.few
    unfold Evaluation.step Evaluation.overflows
    rw [at_.search, met]
    obtain rfl | rfl | rfl | rfl : b = 0 ∨ b = 1 ∨ b = 2 ∨ b = 3 := by omega
    · show Gathers i s (e.compare i) (_ || (e.hits i && decide (8 ≤ e.found)))
      cases hk : i.hit k with
      | true =>
        apply Gathers.going (compare_hit at_ hk)
        rw [at_.hits, hk, compare_found, Bool.true_and, ← Bool.decide_or]
        exact decide_eq_decide.mpr (by omega)
      | false =>
        have miss := at_.hits.trans hk
        rw [miss, Bool.false_and, Bool.or_false]
        rcases compare_miss at_ hk with done | next
        · exact .finished done (compare_finished done miss) (by rw [compare_found]; rfl)
        · exact .going next (by rw [compare_found])
    · exact .going (at_.copy (by decide) (by decide)) (Bool.or_false _)
    · exact .going (at_.copy (by decide) (by decide)) (Bool.or_false _)
    · show Gathers i s (e.complete i) (_ || false)
      rw [Bool.or_false]
      rcases complete_next at_ with done | next
      · exact .finished done (at_.complete_finished limit done) rfl
      · exact .going next rfl
  | finished done search met =>
    have found := (step_closed (i := i) done.search).2.1
    have overflows : e.overflows i = false := by
      unfold Evaluation.overflows
      rw [search]
    have stays : (e.step i).search = .finished := by
      unfold Evaluation.step
      rw [search]
      rfl
    rw [overflows, Bool.or_false]
    exact .finished done.step stays (by rw [found, met])

/-- Enough steps bring the search to its end. -/
theorem Gathers.steps (limit : i.limit = .unlimited) (h : Gathers i s e ninth) (near : Within i s n e) :
    (e.steps i n).1.search = .finished ∧ Done i s (e.steps i n).1
      ∧ (ninth || (e.steps i n).2) = decide (8 < (e.steps i n).1.found) := by
  induction n generalizing e ninth with
  | zero =>
    cases h with
    | going at_ => exact absurd near.done at_.not_done
    | finished done search met => exact ⟨search, done, (Bool.or_false _).trans met⟩
  | succ n ih =>
    cases hd : e.isDone with
    | true =>
      rw [steps_of_isDone i _ e hd]
      cases h with
      | going at_ => exact absurd hd (by rw [at_.not_isDone]; decide)
      | finished done search met => exact ⟨search, done, (Bool.or_false _).trans met⟩
    | false =>
      have last := ih (h.step limit) near.step
      rw [Bool.or_assoc] at last
      rw [Evaluation.steps, if_neg (by rw [hd]; decide)]
      exact last

/-- Four steps for each object are enough from wherever the search has come to. -/
theorem Gathers.within (limit : i.limit = .unlimited) (h : Gathers i s e ninth) :
    Within i s (objectCount * 4) e := by
  cases h with
  | going at_ =>
    refine .inr ⟨_, _, at_, ?_⟩
    rw [limit]
    simp only [objectCount, SpriteLimit.perLine]
    omega
  | finished done => exact .inl done

/-- Without a limit all objects in range are found. -/
theorem Sought.found_all (limit : i.limit = .unlimited) (h : Sought i s e) :
    e.found = (i.covering s objectCount).length := by
  have most : (i.covering s objectCount).length ≤ objectCount :=
    (length_covering_le i s objectCount).trans (Nat.sub_le _ _)
  rw [h.found, limit]
  exact Nat.min_eq_right most

/-- At the end of the memory the search has all objects in range. -/
theorem Gathers.finish (limit : i.limit = .unlimited) (h : Gathers i s e ninth) (hs : s < objectCount) :
    Sought i s (e.finish i).1
      ∧ ((ninth || (e.finish i).2) = true ↔ 8 < (i.covering s objectCount).length) := by
  obtain ⟨search, done, met⟩ := h.steps limit (h.within limit)
  have sought := done.sought search hs
  refine ⟨sought, ?_⟩
  show (_ || (e.steps i (objectCount * 4)).2) = true ↔ _
  rw [met, decide_eq_true_eq, sought.found_all limit]

/-! The dots of a line. -/

theorem overflowsOn_searching (i : Inputs) (hd : 65 < d ∧ d ≤ 256) (address : UInt8) (e : Evaluation) :
    e.overflowsOn i address d = if d % 2 = 1 then e.overflows i
      else if d = 256 ∧ i.limit = .unlimited then (e.finish i).2 else false := by
  have later : d ≠ 65 := by omega
  rw [overflowsOn, if_neg (by omega)]
  dsimp only
  rw [if_neg later]

theorem onDot_gathers (limit : i.limit = .unlimited) (address : UInt8) (e : Evaluation) :
    Gathers i (address.toNat / 4) (e.onDot i address 65) (e.overflowsOn i address 65) := by
  have start : Gathers i (address.toNat / 4) (e.start address) false :=
    .going (start_going i address e) rfl
  have next := start.step limit
  rw [Bool.false_or] at next
  exact next

theorem Gathers.onDot (limit : i.limit = .unlimited) (h : Gathers i s e ninth) (hd : 65 < d ∧ d < 256)
    (address : UInt8) :
    Gathers i s (e.onDot i address d) (ninth || e.overflowsOn i address d) := by
  have early : d ≠ 256 := by omega
  rw [onDot_searching i (by omega), overflowsOn_searching i (by omega)]
  split
  · exact h.step limit
  · rw [if_neg fun both => early both.1, if_neg fun both => early both.1, Bool.or_false]
    exact h

theorem Gathers.onDot_last (limit : i.limit = .unlimited) (h : Gathers i s e ninth) (hs : s < objectCount)
    (address : UInt8) : Sought i s (e.onDot i address 256)
      ∧ ((ninth || e.overflowsOn i address 256) = true ↔ 8 < (i.covering s objectCount).length) := by
  have even : ¬ 256 % 2 = 1 := by decide
  have last : 256 = 256 ∧ i.limit = .unlimited := ⟨rfl, limit⟩
  rw [onDot_searching i (by decide), overflowsOn_searching i (by decide), if_neg even, if_neg even,
    if_pos last, if_pos last]
  exact h.finish limit hs

end PictureUnit.Evaluation
