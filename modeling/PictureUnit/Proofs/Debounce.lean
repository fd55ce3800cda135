import Mathlib.Algebra.BigOperators.Intervals
import PictureUnit.A12

/-!
# The edges of a whole history

A watch keeps one number, which stands for the level of the line and for how long it was low. Over a
history of observations that number is known: it is zero where the last observation was high, and
otherwise one more than the time that passed since the run of low observations began. So an edge can be
told from the history alone. A stamp that goes back adds nothing, and the time never outgrows its
sixty-four bits.
-/

set_option autoImplicit false

namespace PictureUnit.A12

variable {history : List (Nat × Nat)} {w : Watch} {i j k : Nat}

/-- The watch once it has seen a history. -/
def Watch.after (w : Watch) (history : List (Nat × Nat)) : Watch :=
  history.foldl (fun w seen => w.observe seen.1 seen.2) w

theorem Watch.after_threshold (w : Watch) (history : List (Nat × Nat)) :
    (w.after history).threshold = w.threshold := by
  induction history generalizing w with
  | nil => rfl
  | cons seen history ih => exact ih _

theorem Watch.edges_append (w : Watch) (first rest : List (Nat × Nat)) :
    w.edges (first ++ rest) = w.edges first ++ (w.after first).edges rest := by
  induction first generalizing w with
  | nil => rfl
  | cons seen first ih =>
    rw [List.cons_append, edges, edges, ih, List.cons_append]
    rfl

/-- An edge is that of the watch which has seen all that came before. -/
theorem Watch.getElem?_edges (w : Watch) (history : List (Nat × Nat)) (i : Nat) :
    (w.edges history)[i]? = history[i]?.map fun seen => (w.after (history.take i)).edge seen.1 seen.2 := by
  induction history generalizing w i with
  | nil => rfl
  | cons seen history ih =>
    cases i with
    | zero => rfl
    | succ i =>
      rw [edges, List.getElem?_cons_succ, List.getElem?_cons_succ, ih]
      rfl

/-- Where the line was high last, nothing but the threshold is left of the past. -/
theorem Watch.edges_of_high (high : w.lowTime = 0) (history : List (Nat × Nat)) :
    w.edges history = (Watch.new w.threshold).edges history := by
  cases history with
  | nil => rfl
  | cons seen rest =>
    have first : w.lowTimeAt seen.2 = 0 := if_pos high
    have same : w.observe seen.1 seen.2 = (Watch.new w.threshold).observe seen.1 seen.2 := by
      rw [observe, observe, first]
      rfl
    rw [edges, edges, same, edge, edge, first]
    rfl

def High (history : List (Nat × Nat)) (i : Nat) : Prop :=
  ∃ seen, history[i]? = some seen ∧ isHigh seen.1 = true

def Low (history : List (Nat × Nat)) (i : Nat) : Prop :=
  ∃ seen, history[i]? = some seen ∧ isHigh seen.1 = false

def stamp (history : List (Nat × Nat)) (i : Nat) : Nat := (history[i]?.map Prod.snd).getD 0

/-- The time that passed between two observations, as far as the stamps go forwards. -/
def elapsed (history : List (Nat × Nat)) (j i : Nat) : Nat :=
  ∑ k ∈ Finset.Ioc j i, (stamp history k - stamp history (k - 1))

/-- The line was low from `j` on until before `i`, and no longer than that. -/
structure LowRun (history : List (Nat × Nat)) (j i : Nat) : Prop where
  nonempty : j < i
  low : ∀ k, j ≤ k → k < i → Low history k
  maximal : j = 0 ∨ High history (j - 1)

theorem Low.not_high (h : Low history i) : ¬High history i := by
  intro ⟨seen, there, high⟩
  obtain ⟨other, here, low⟩ := h
  rw [there, Option.some.injEq] at here
  rw [← here, high] at low
  cases low

theorem elapsed_self (history : List (Nat × Nat)) (j : Nat) : elapsed history j j = 0 := by
  simp [elapsed]

theorem elapsed_succ (h : j ≤ i) :
    elapsed history j (i + 1) = elapsed history j i + (stamp history (i + 1) - stamp history i) := by
  simp [elapsed, Finset.sum_Ioc_succ_top h]

/-- Stamps that only go forwards leave nothing between the first and the last. -/
theorem elapsed_of_forwards (hj : j ≤ i)
    (forwards : ∀ k, j < k → k ≤ i → stamp history (k - 1) ≤ stamp history k) :
    stamp history j ≤ stamp history i ∧ elapsed history j i = stamp history i - stamp history j := by
  induction i, hj using Nat.le_induction with
  | base => simp [elapsed_self]
  | succ i hj ih =>
    obtain ⟨order, sum⟩ := ih fun k after before => forwards k after (by omega)
    have last := forwards (i + 1) (by omega) le_rfl
    rw [Nat.add_sub_cancel] at last
    rw [elapsed_succ hj, sum]
    omega

theorem LowRun.unique (h : LowRun history j i) (h' : LowRun history k i) : j = k := by
  have edge {a b : Nat} (ha : LowRun history a i) (hb : LowRun history b i) : ¬a < b := by
    intro before
    have inside : Low history (b - 1) := ha.low (b - 1) (by omega) (by have := hb.nonempty; omega)
    obtain first | high := hb.maximal
    · omega
    · exact inside.not_high high
  have := edge h h'
  have := edge h' h
  omega

/-- What a watch has come to when it has seen the observations before `i`. -/
inductive Measures (history : List (Nat × Nat)) : Nat → Watch → Prop where
  | fresh {w : Watch} (zero : w.lowTime = 0) : Measures history 0 w
  | high {i : Nat} {w : Watch} (seen : High history i) (zero : w.lowTime = 0) :
      Measures history (i + 1) w
  | low {i j : Nat} {w : Watch} (run : LowRun history j (i + 1))
      (lowTime : w.lowTime = min (1 + elapsed history j i) largest64)
      (last : w.lastCycle = stamp history i) : Measures history (i + 1) w

/-- The observations before a place end in a run of low ones, unless the last of them is high. -/
theorem Measures.starts_or_run (h : Measures history i w) :
    (i = 0 ∨ High history (i - 1)) ∨ ∃ j, LowRun history j i := by
  cases h with
  | fresh => exact .inl (.inl rfl)
  | high seen => exact .inl (.inr seen)
  | low run => exact .inr ⟨_, run⟩

theorem LowRun.last (run : LowRun history j i) : i ≠ 0 ∧ ¬High history (i - 1) := by
  have inside := run.nonempty
  exact ⟨by omega, (run.low (i - 1) (by omega) (by omega)).not_high⟩

/-- The low time is that of the run. -/
theorem Measures.lowTimeAt_run (h : Measures history i w) (run : LowRun history j i) :
    w.lowTimeAt (stamp history i) = min (1 + elapsed history j i) largest64 := by
  have room : 0 < largest64 := by decide
  cases h with
  | fresh zero => exact absurd run.nonempty (Nat.not_lt_zero j)
  | high seen zero => exact absurd seen run.last.2
  | low own lowTime last =>
    have inside := own.nonempty
    rw [run.unique own, elapsed_succ (Nat.le_of_lt_succ inside), Watch.lowTimeAt, lowTime, last,
      if_neg (by omega)]
    omega

/-- Without a run the line counts as high. -/
theorem Measures.lowTime_eq_zero (h : Measures history i w) (start : i = 0 ∨ High history (i - 1)) :
    w.lowTime = 0 := by
  cases h with
  | fresh zero | high seen zero => exact zero
  | low run lowTime last =>
    exact absurd start (not_or.mpr run.last)

theorem Measures.lowTimeAt_eq_zero (h : Measures history i w) (start : i = 0 ∨ High history (i - 1))
    (cycle : Nat) : w.lowTimeAt cycle = 0 := if_pos (h.lowTime_eq_zero start)

theorem Measures.observe {address cycle : Nat} (h : Measures history i w)
    (seen : history[i]? = some (address, cycle)) :
    Measures history (i + 1) (w.observe address cycle) := by
  have room : 0 < largest64 := by decide
  have now : stamp history i = cycle := by
    rw [stamp, seen]
    rfl
  cases level : isHigh address with
  | true => exact .high ⟨_, seen, level⟩ ((observe_lowTime_eq_zero w address cycle).mpr level)
  | false =>
    have low : Low history i := ⟨_, seen, level⟩
    have time : (w.observe address cycle).lowTime = max 1 (w.lowTimeAt cycle) := by
      rw [Watch.observe, level]
      rfl
    -- A run that goes on keeps its start; otherwise the first low observation starts one.
    have begun (start : i = 0 ∨ High history (i - 1)) :
        Measures history (i + 1) (w.observe address cycle) := by
      refine .low ⟨Nat.lt_succ_self i, fun k after before => ?_, start⟩ ?_ now.symm
      · rwa [show k = i by omega]
      · rw [time, h.lowTimeAt_eq_zero start, elapsed_self]
        decide
    cases h with
    | fresh => exact begun (.inl rfl)
    | high before => exact begun (.inr before)
    | @low i j _ run lowTime last =>
      have onward : LowRun history j (i + 1) := run
      have measured := (Measures.low run lowTime last).lowTimeAt_run onward
      rw [now] at measured
      refine .low (j := j) ⟨by have := run.nonempty; omega, fun k after before => ?_, run.maximal⟩ ?_ now.symm
      · obtain earlier | rfl : k < i + 1 ∨ k = i + 1 := by omega
        · exact run.low k after earlier
        · exact low
      · rw [time, measured]
        omega

/-- A fresh watch that has seen the front of a history has measured it. -/
theorem measures_after (history : List (Nat × Nat)) (threshold : Nat) (hi : i ≤ history.length) :
    Measures history i ((Watch.new threshold).after (history.take i)) := by
  induction i with
  | zero => exact .fresh rfl
  | succ i ih =>
    have inside : i < history.length := hi
    have seen : history[i]? = some history[i] := List.getElem?_eq_getElem inside
    have grown := (ih inside.le).observe seen
    rw [List.take_add_one, seen, Watch.after, List.foldl_append]
    exact grown

/-- The edge at a place of a history, told by the watch that comes there. -/
theorem exists_edge (threshold : Nat) (hi : i < history.length) : ∃ w : Watch, ∃ seen,
    history[i]? = some seen ∧ Measures history i w ∧ w.threshold = threshold
      ∧ stamp history i = seen.2
      ∧ ((Watch.new threshold).edges history)[i]? = some (w.edge seen.1 seen.2) := by
  have seen : history[i]? = some history[i] := List.getElem?_eq_getElem hi
  have measured := measures_after history threshold hi.le
  have kept := (Watch.new threshold).after_threshold (history.take i)
  refine ⟨_, history[i], seen, measured, kept, ?_, ?_⟩
  · rw [stamp, seen]
    rfl
  · rw [Watch.getElem?_edges, seen]
    rfl

variable {threshold : Nat}

theorem lt_length_of_edge {e : Option Edge}
    (h : ((Watch.new threshold).edges history)[i]? = some e) : i < history.length := by
  obtain ⟨inside, -⟩ := List.getElem?_eq_some_iff.mp h
  rwa [edges_length] at inside

theorem High.lt_length (h : High history i) : i < history.length := by
  obtain ⟨seen, there, -⟩ := h
  exact (List.getElem?_eq_some_iff.mp there).1

theorem Low.lt_length (h : Low history i) : i < history.length := by
  obtain ⟨seen, there, -⟩ := h
  exact (List.getElem?_eq_some_iff.mp there).1

theorem fall_iff : ((Watch.new threshold).edges history)[i]? = some (some .fall)
    ↔ Low history i ∧ (i = 0 ∨ High history (i - 1)) := by
  by_cases hi : i < history.length
  · obtain ⟨w, seen, there, measured, -, now, edge⟩ := exists_edge threshold hi
    rw [edge, Option.some.injEq, Watch.edge]
    cases level : isHigh seen.1 with
    | true =>
      have high : High history i := ⟨seen, there, level⟩
      constructor
      · intro fall
        simp at fall
      · intro ⟨low, _⟩
        exact absurd high low.not_high
    | false =>
      have low : Low history i := ⟨seen, there, level⟩
      obtain start | ⟨j, run⟩ := measured.starts_or_run
      · simp [measured.lowTimeAt_eq_zero start, low, start]
      · have time := measured.lowTimeAt_run run
        have room : 0 < largest64 := by decide
        have long : min (1 + elapsed history j i) largest64 ≠ 0 := by omega
        rw [now] at time
        simp [time, long, run.last]
  · constructor
    · intro fall
      exact absurd (lt_length_of_edge fall) hi
    · intro ⟨low, _⟩
      exact absurd low.lt_length hi

theorem rise_iff : ((Watch.new threshold).edges history)[i]? = some (some .rise)
    ↔ High history i ∧ ∃ j, LowRun history j i
      ∧ threshold < min (1 + elapsed history j i) largest64 := by
  by_cases hi : i < history.length
  · obtain ⟨w, seen, there, measured, kept, now, edge⟩ := exists_edge threshold hi
    rw [edge, Option.some.injEq, Watch.edge, kept]
    cases level : isHigh seen.1 with
    | false =>
      have low : Low history i := ⟨seen, there, level⟩
      constructor
      · intro rise
        simp at rise
      · intro ⟨high, _⟩
        exact absurd high low.not_high
    | true =>
      have high : High history i := ⟨seen, there, level⟩
      obtain start | ⟨j, run⟩ := measured.starts_or_run
      · have none (j : Nat) : ¬LowRun history j i := fun run => absurd start (not_or.mpr run.last)
        simp [measured.lowTimeAt_eq_zero start, none]
      · have time := measured.lowTimeAt_run run
        rw [now] at time
        rw [if_pos rfl, time]
        constructor
        · intro rise
          refine ⟨high, j, run, ?_⟩
          by_contra short
          rw [if_neg short] at rise
          cases rise
        · intro ⟨_, k, other, long⟩
          rw [other.unique run] at long
          exact if_pos long
  · constructor
    · intro rise
      exact absurd (lt_length_of_edge rise) hi
    · intro ⟨high, _⟩
      exact absurd high.lt_length hi

/-- A rise after another one ends a run that began after it. -/
theorem LowRun.after_high (run : LowRun history j i) (high : High history k) (before : k < i) :
    k < j := by
  by_contra early
  exact (run.low k (Nat.le_of_not_lt early) before).not_high high

/-- The edges of a watch that was just made or reset follow from the history. A fall is a low observation
after a high one, or at the start. A rise is a high observation that ends a run of low ones which lasted
longer than the threshold; time that only goes forwards is the difference of two stamps, and a threshold
of sixty-four bits below the largest number does not feel that the time is cut there. There is no other
edge. So a fall lies between two rises, and after a high observation, however short, all starts anew. -/
theorem edges_debounced (threshold : Nat) (history : List (Nat × Nat)) :
    let edges : List (Option Edge) := (Watch.new threshold).edges history
    (∀ w : Watch, w.threshold = threshold → w.reset.edges history = edges)
    ∧ edges.length = history.length
    ∧ (∀ i, edges[i]? = some (some .fall) ↔ Low history i ∧ (i = 0 ∨ High history (i - 1)))
    ∧ (∀ i, edges[i]? = some (some .rise) ↔ High history i
      ∧ ∃ j, LowRun history j i ∧ threshold < min (1 + elapsed history j i) largest64)
    ∧ (∀ i j, High history i → LowRun history j i →
      (∀ k, j < k → k ≤ i → stamp history (k - 1) ≤ stamp history k) →
      (edges[i]? = some (some .rise)
        ↔ threshold < min (1 + stamp history i - stamp history j) largest64))
    ∧ (∀ i j : Nat, i < j → edges[i]? = some (some .rise) → edges[j]? = some (some .rise) →
      ∃ k, i < k ∧ k < j ∧ edges[k]? = some (some .fall))
    ∧ ∀ i, High history i →
      edges.drop (i + 1) = (Watch.new threshold).edges (history.drop (i + 1)) := by
  intro edges
  refine ⟨?reset, edges_length _ _, fun i => fall_iff, fun i => rise_iff, ?forwards, ?between, ?anew⟩
  case reset =>
    intro w same
    rw [Watch.reset, same]
  case forwards =>
    intro i j high run forwards
    obtain ⟨order, sum⟩ := elapsed_of_forwards run.nonempty.le forwards
    have span : 1 + elapsed history j i = 1 + stamp history i - stamp history j := by omega
    rw [rise_iff, ← span]
    constructor
    · intro ⟨_, k, other, long⟩
      rwa [← other.unique run]
    · intro long
      exact ⟨high, j, run, long⟩
  case between =>
    intro i j before first second
    obtain ⟨high, -⟩ := rise_iff.mp first
    obtain ⟨-, k, run, -⟩ := rise_iff.mp second
    have after := run.after_high high before
    have start := run.maximal.resolve_left (by omega)
    exact ⟨k, after, run.nonempty, fall_iff.mpr ⟨run.low k le_rfl run.nonempty, .inr start⟩⟩
  case anew =>
    intro i high
    have inside : i + 1 ≤ history.length := high.lt_length
    have measured := measures_after history threshold inside
    have zero := measured.lowTime_eq_zero (.inr high)
    have kept := (Watch.new threshold).after_threshold (history.take (i + 1))
    have split := (Watch.new threshold).edges_append (history.take (i + 1)) (history.drop (i + 1))
    rw [List.take_append_drop, Watch.edges_of_high zero, kept] at split
    have front : ((Watch.new threshold).edges (history.take (i + 1))).length = i + 1 := by
      rw [edges_length, List.length_take, Nat.min_eq_left inside]
    exact (congrArg (List.drop (i + 1)) split).trans (List.drop_left' front)

/-- A short high pulse between two low runs, of which only the second is long enough. -/
example : (Watch.new 10).edges
      [(0x1000, 0), (0, 1), (0, 5), (0x1000, 6), (0, 10), (0, 25), (0x1ABC, 26)]
    = [none, some .fall, none, none, some .fall, none, some .rise] := by decide

end PictureUnit.A12
