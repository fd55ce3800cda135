import PictureUnit.Proofs.Dots
import PictureUnit.Proofs.Search

/-!
# The search without a limit

Of two searches of one line the first stops at eight objects and the second does not. They go the same
way until the eighth object is copied. Then the first copies nothing more, and the second writes past
the eight slots that every line has. So these slots are filled alike, provided that the first search gets
to its end before the second is hurried to its own.
-/

set_option autoImplicit false

namespace PictureUnit.Evaluation

/-- The same line, on which every object may be shown. -/
def Inputs.lifted (i : Inputs) : Inputs := { i with limit := .unlimited }

/-- Both searches stand at the same byte. -/
structure InStep (e f : Evaluation) : Prop where
  search : f.search = e.search
  object : f.object = e.object
  byte : f.byte = e.byte
  found : f.found = e.found

/-- The secondary memories begin with the same `n` bytes. -/
def SameTo (n : Nat) (e f : Evaluation) : Prop :=
  ∀ p < n, f.secondary.load p = e.secondary.load p

/-- The searches fill the first eight slots alike, and after at most `n` steps the limited one fills
no more. -/
inductive Paired (n : Nat) (e f : Evaluation) : Prop where
  | going {b : Nat} (inStep : InStep e f) (search : e.search = copying b) (byte : e.byte = b)
      (few : b < 4) (inside : e.object < objectCount) (room : e.found < 8)
      (same : SameTo (e.found * 4 + b) e f)
      (near : (objectCount - e.object) + 3 * (8 - e.found) ≤ n + b)
  | through (search : e.search = .finished ∧ f.search = .finished) (found : f.found = e.found)
      (room : e.found < 8) (same : SameTo (e.found * 4) e f)
  | full (closed : Closed e.search) (found : e.found = 8 ∧ 8 ≤ f.found) (same : SameTo 32 e f)

variable {i : Inputs} {n d : Nat} {e f : Evaluation}

theorem InStep.current (h : InStep e f) : f.current i.lifted = e.current i := by
  rw [Evaluation.current, address, h.object, h.byte]
  rfl

theorem InStep.hits (h : InStep e f) : f.hits i.lifted = e.hits i := by
  rw [Evaluation.hits, h.current]
  rfl

/-- Both copy the same byte to the same place. -/
theorem InStep.copied (h : InStep e f) :
    (e.copy i).secondary = e.secondary.store (e.found * 4 + e.byte) (e.current i)
      ∧ (f.copy i.lifted).secondary = f.secondary.store (e.found * 4 + e.byte) (e.current i) := by
  refine ⟨rfl, ?_⟩
  rw [← h.found, ← h.byte, ← h.current]
  rfl

/-- What was alike stays alike. -/
theorem InStep.copy_same {size : Nat} (h : InStep e f) (small : size ≤ 256) (same : SameTo size e f) :
    SameTo size (e.copy i) (f.copy i.lifted) := by
  intro p hp
  have before := same p hp
  rw [h.copied.1, h.copied.2]
  grind

/-- One byte more is alike. -/
theorem InStep.copy (h : InStep e f) (room : e.found < 8) (few : e.byte < 4)
    (same : SameTo (e.found * 4 + e.byte) e f) :
    SameTo (e.found * 4 + e.byte + 1) (e.copy i) (f.copy i.lifted) := by
  intro p hp
  obtain before | rfl := Nat.lt_succ_iff_lt_or_eq.mp hp
  · exact h.copy_same (by omega) same p before
  · rw [h.copied.1, h.copied.2]
    grind

/-- Both go on to the next object, or both are through. -/
theorem InStep.advance (object : f.object = e.object) (byte : f.byte = e.byte)
    (found : f.found = e.found) (start : e.byte = 0) (room : e.found < 8)
    (same : SameTo (e.found * 4) e f)
    (near : (objectCount - e.object) + 3 * (8 - e.found) ≤ n + 1) :
    Paired n (e.advance .comparing) (f.advance .comparing) := by
  have next : f.object + 1 = e.object + 1 := congrArg (· + 1) object
  by_cases more : e.object + 1 < objectCount
  · have own : (e.advance .comparing).search = .comparing := if_pos more
    have other : (f.advance .comparing).search = .comparing := if_pos (next ▸ more)
    refine .going (b := 0) ⟨other.trans own.symm, next, byte, found⟩ own start (by decide) more room
      same ?_
    change (objectCount - (e.object + 1)) + 3 * (8 - e.found) ≤ n + 0
    omega
  · have own : (e.advance .comparing).search = .finished := if_neg more
    have other : (f.advance .comparing).search = .finished := if_neg (next ▸ more)
    exact .through ⟨own, other⟩ found room same

theorem InStep.compare (h : InStep e f) (start : e.byte = 0) (inside : e.object < objectCount)
    (room : e.found < 8) (same : SameTo (e.found * 4) e f)
    (near : (objectCount - e.object) + 3 * (8 - e.found) ≤ n + 1) :
    Paired n (e.compare i) (f.compare i.lifted) := by
  have copied := h.copy (i := i) room (by omega) (by rwa [start])
  rw [start] at copied
  unfold Evaluation.compare
  rw [h.hits]
  dsimp only
  split
  · refine .going (b := 1) ⟨rfl, h.object, rfl, h.found⟩ rfl rfl (by decide) inside room copied ?_
    exact near
  · exact InStep.advance h.object h.byte h.found start room
      (fun p hp => copied p (Nat.lt_succ_of_lt hp)) near

theorem InStep.complete (h : InStep e f) (limit : i.limit = .hardware) (last : e.byte = 3)
    (room : e.found < 8) (same : SameTo (e.found * 4 + 3) e f)
    (near : (objectCount - e.object) + 3 * (8 - e.found) ≤ n + 1 + 3) :
    Paired n (e.complete i) (f.complete i.lifted) := by
  have copied := h.copy (i := i) room (by omega) (by rwa [last])
  rw [last] at copied
  have many : ¬ i.lifted.limit.perLine ≤ f.found + 1 := by
    rw [h.found]
    change ¬ 64 ≤ e.found + 1
    omega
  unfold Evaluation.complete
  dsimp only
  rw [if_neg many, limit]
  change Paired n (Evaluation.advance (if 8 ≤ e.found + 1 then .scanning else .comparing) _) _
  by_cases eighth : 8 ≤ e.found + 1
  · have found : e.found + 1 = 8 := by omega
    rw [if_pos eighth]
    refine .full ?_ ⟨found, ?_⟩ fun p hp => copied p (by omega)
    · unfold Evaluation.advance
      dsimp only
      split <;> exact trivial
    · change 8 ≤ f.found + 1
      rw [h.found]
      exact eighth
  · rw [if_neg eighth]
    refine InStep.advance h.object rfl (congrArg (· + 1) h.found) rfl (Nat.not_le.mp eighth)
      (fun p hp => copied p ?_) ?_
    · change p < (e.found + 1) * 4 at hp
      omega
    · change (objectCount - e.object) + 3 * (8 - (e.found + 1)) ≤ n + 1
      omega

theorem step_finished (h : e.search = .finished) : (e.step i).search = .finished := by
  simp only [Evaluation.step, h, read]

theorem write_past (h : 8 ≤ e.found) (value : UInt8) : SameTo 32 e (e.write value) := by
  intro p hp
  exact Block.load_store_ne _ _ _ _ (by omega)

/-- Past the eighth object a search leaves the first eight slots as they are. -/
theorem step_past (h : 8 ≤ e.found) : 8 ≤ (e.step i).found ∧ SameTo 32 e (e.step i) := by
  have copied : SameTo 32 e (e.copy i) := write_past (e := e.read i) h (e.current i)
  have untouched : SameTo 32 e e := fun _ _ => rfl
  unfold Evaluation.step
  split
  · exact ⟨h, untouched⟩
  · unfold Evaluation.compare
    dsimp only
    split <;> exact ⟨h, copied⟩
  · exact ⟨h, copied⟩
  · exact ⟨h, copied⟩
  · exact ⟨Nat.le_succ_of_le h, copied⟩
  · unfold scan
    split <;> exact ⟨h, untouched⟩
  · unfold skip
    dsimp only
    split
    · split <;> exact ⟨h, untouched⟩
    · split <;> exact ⟨h, untouched⟩
  · exact ⟨h, untouched⟩

/-- A step of both brings the limited search nearer to its end. -/
theorem Paired.step (h : Paired (n + 1) e f) (limit : i.limit = .hardware) :
    Paired n (e.step i) (f.step i.lifted) := by
  cases h with
  | @going b inStep search byte few inside room same near =>
    have copied := inStep.copy (i := i) room (byte ▸ few) (byte.symm ▸ same)
    rw [byte] at copied
    unfold Evaluation.step
    rw [inStep.search, search]
    obtain rfl | rfl | rfl | rfl : b = 0 ∨ b = 1 ∨ b = 2 ∨ b = 3 := by omega
    · exact inStep.compare byte inside room same near
    · exact .going (b := 2) ⟨rfl, inStep.object, rfl, inStep.found⟩ rfl rfl (by decide) inside room
        copied near
    · exact .going (b := 3) ⟨rfl, inStep.object, rfl, inStep.found⟩ rfl rfl (by decide) inside room
        copied near
    · exact inStep.complete limit byte room same near
  | through search found room same =>
    obtain ⟨-, count, slots, -⟩ := step_closed (i := i) (e := e) (by rw [search.1]; trivial)
    obtain ⟨-, count', slots', -⟩ := step_closed (i := i.lifted) (e := f) (by rw [search.2]; trivial)
    refine .through ⟨step_finished search.1, step_finished search.2⟩ ?_ ?_ fun p hp => ?_
    · rw [count, count', found]
    · rwa [count]
    · rw [count] at hp
      rw [slots, slots']
      exact same p hp
  | full closed found same =>
    obtain ⟨still, count, slots, -⟩ := step_closed (i := i) closed
    obtain ⟨many, past⟩ := step_past (i := i.lifted) found.2
    refine .full still ⟨count.trans found.1, many⟩ fun p hp => ?_
    rw [past p hp, slots]
    exact same p hp

/-- A step that copies writes what it copies and nothing else. -/
theorem step_copying {b : Nat} (search : e.search = copying b) (few : b < 4) :
    (e.step i).secondary = (e.copy i).secondary := by
  unfold Evaluation.step
  rw [search]
  obtain rfl | rfl | rfl | rfl : b = 0 ∨ b = 1 ∨ b = 2 ∨ b = 3 := by omega
  · show (e.compare i).secondary = _
    unfold Evaluation.compare
    dsimp only
    split <;> rfl
  all_goals rfl

/-- A step of both keeps the slots of a line alike. -/
theorem Paired.step_same (h : Paired n e f) (same : SameTo 32 e f) :
    SameTo 32 (e.step i) (f.step i.lifted) := by
  intro p hp
  cases h with
  | going inStep search _ few =>
    rw [step_copying search few, step_copying (inStep.search.trans search) few]
    exact inStep.copy_same (by decide) same p hp
  | through search =>
    obtain ⟨-, -, slots, -⟩ := step_closed (i := i) (e := e) (by rw [search.1]; trivial)
    obtain ⟨-, -, slots', -⟩ := step_closed (i := i.lifted) (e := f) (by rw [search.2]; trivial)
    rw [slots, slots']
    exact same p hp
  | full closed found =>
    obtain ⟨-, -, slots, -⟩ := step_closed (i := i) closed
    rw [(step_past (i := i.lifted) found.2).2 p hp, slots]
    exact same p hp

theorem steps_past (h : 8 ≤ e.found) : 8 ≤ (e.steps i n).1.found ∧ SameTo 32 e (e.steps i n).1 := by
  induction n generalizing e with
  | zero => exact ⟨h, fun _ _ => rfl⟩
  | succ n ih =>
    rw [steps]
    split
    · exact ⟨h, fun _ _ => rfl⟩
    · obtain ⟨many, past⟩ := step_past (i := i) h
      obtain ⟨most, rest⟩ := ih many
      exact ⟨most, fun p hp => (rest p hp).trans (past p hp)⟩

/-- Once the limited search has come to its end, the other one may be hurried to its own. -/
theorem Paired.finish (h : Paired 0 e f) : Paired 0 e (f.finish i).1 := by
  cases h with
  | going _ _ _ few inside room _ near =>
    exfalso
    omega
  | through search found room same =>
    have done : f.isDone = true := by
      rw [isDone, search.2]
      rfl
    rw [Evaluation.finish, steps_of_isDone i _ f done]
    exact .through search found room same
  | full closed found same =>
    obtain ⟨many, past⟩ := steps_past (i := i) (n := objectCount * 4) found.2
    exact .full closed ⟨found.1, many⟩ fun p hp => (past p hp).trans (same p hp)

theorem Paired.finish_same (h : Paired 0 e f) (same : SameTo 32 e f) : SameTo 32 e (f.finish i).1 := by
  cases h with
  | going _ _ _ few inside room _ near =>
    exfalso
    omega
  | through search =>
    have done : f.isDone = true := by
      rw [isDone, search.2]
      rfl
    rw [Evaluation.finish, steps_of_isDone i _ f done]
    exact same
  | full _ found =>
    have past := (steps_past (i := i) (n := objectCount * 4) found.2).2
    exact fun p hp => (past p hp).trans (same p hp)

/-- At its end the limited search has the first eight of the objects that the other one has. -/
theorem Paired.ended (h : Paired 0 e f) :
    e.found = min f.found 8 ∧ SameTo (e.found * 4) e f := by
  cases h with
  | going _ _ _ few inside room _ near =>
    exfalso
    omega
  | through _ found room same => exact ⟨by omega, same⟩
  | full _ found same =>
    refine ⟨by omega, ?_⟩
    rw [found.1]
    exact same

theorem start_paired (address : UInt8) (e f : Evaluation) :
    Paired 96 (e.start address) (f.start address) := by
  have inside : address.toNat / 4 < objectCount := by
    have := address.toNat_lt
    simp only [objectCount]
    omega
  refine .going (b := 0) ⟨rfl, rfl, rfl, rfl⟩ rfl rfl (by decide) inside (by exact Nat.succ_pos 7) ?_ ?_
  · intro p hp
    cases hp
  · change (objectCount - address.toNat / 4) + 3 * (8 - 0) ≤ 96 + 0
    simp only [objectCount]
    omega

/-- The steps that a search takes from a dot on. -/
def oddDots (d : Nat) : Nat := (257 - d) / 2

theorem Paired.onDot_start (limit : i.limit = .hardware) (address : UInt8) (e f : Evaluation) :
    Paired (oddDots 66) (e.onDot i address 65) (f.onDot i.lifted address 65) :=
  (start_paired address e f).step limit

/-- The odd dots take a step of both; the last dot hurries the second search. -/
theorem onDot_both (limit : i.limit = .hardware) (hd : 65 < d ∧ d ≤ 256) (address : UInt8)
    (e f : Evaluation) : e.onDot i address d = (if d % 2 = 1 then e.step i else e)
      ∧ f.onDot i.lifted address d
        = (if d % 2 = 1 then f.step i.lifted else if d = 256 then (f.finish i.lifted).1 else f) := by
  have kept : ¬ (d = 256 ∧ i.limit = .unlimited) := by
    rw [limit]
    exact fun both => SpriteLimit.noConfusion both.2
  have hurried : (d = 256 ∧ i.lifted.limit = .unlimited) = (d = 256) :=
    propext (and_iff_left rfl)
  rw [onDot_searching i hd, onDot_searching i.lifted hd, if_neg kept]
  simp only [hurried, and_self]

/-- After the dot that starts them, a dot keeps the searches paired. -/
theorem Paired.onDot (h : Paired (oddDots d) e f) (limit : i.limit = .hardware) (hd : 65 < d ∧ d ≤ 256)
    (address : UInt8) :
    Paired (oddDots (d + 1)) (e.onDot i address d) (f.onDot i.lifted address d) := by
  obtain ⟨own, other⟩ := onDot_both limit hd address e f
  rw [own, other]
  by_cases odd : d % 2 = 1
  · have fewer : oddDots d = oddDots (d + 1) + 1 := by
      unfold oddDots
      omega
    rw [fewer] at h
    rw [if_pos odd, if_pos odd]
    exact h.step limit
  · have same : oddDots (d + 1) = oddDots d := by
      unfold oddDots
      omega
    rw [if_neg odd, if_neg odd, same]
    split
    · next last =>
      subst last
      exact h.finish
    · exact h

/-- It also keeps the slots of a line alike. -/
theorem Paired.onDot_same (h : Paired (oddDots d) e f) (limit : i.limit = .hardware)
    (hd : 65 < d ∧ d ≤ 256) (address : UInt8) (same : SameTo 32 e f) :
    SameTo 32 (e.onDot i address d) (f.onDot i.lifted address d) := by
  obtain ⟨own, other⟩ := onDot_both limit hd address e f
  rw [own, other]
  split
  · exact h.step_same same
  · split
    · next last =>
      subst last
      exact h.finish_same same
    · exact same

end PictureUnit.Evaluation
