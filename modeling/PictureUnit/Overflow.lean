/-!
# Numbers that do not fit

Counts are kept in a fixed number of bits. A sum or a product past the largest number they hold
is refused; below it, the result is the plain one.
-/

set_option autoImplicit false

namespace PictureUnit

inductive Overflow where
  | sum
  | product
  deriving DecidableEq, Repr

def Overflow.message : Overflow → String
  | .sum => "attempt to add with overflow"
  | .product => "attempt to multiply with overflow"

def largest16 : Nat := 0xFFFF

def largest64 : Nat := 0xFFFFFFFFFFFFFFFF

def sumWithin (largest a b : Nat) : Except Overflow Nat :=
  if a + b ≤ largest then .ok (a + b) else .error .sum

def productWithin (largest a b : Nat) : Except Overflow Nat :=
  if a * b ≤ largest then .ok (a * b) else .error .product

theorem sumWithin_eq_ok_iff {largest a b n : Nat} :
    sumWithin largest a b = .ok n ↔ a + b ≤ largest ∧ n = a + b := by
  unfold sumWithin
  by_cases h : a + b ≤ largest <;> simp [h, eq_comm]

theorem productWithin_eq_ok_iff {largest a b n : Nat} :
    productWithin largest a b = .ok n ↔ a * b ≤ largest ∧ n = a * b := by
  unfold productWithin
  by_cases h : a * b ≤ largest <;> simp [h, eq_comm]

theorem sumWithin_of_le {largest a b : Nat} (h : a + b ≤ largest) :
    sumWithin largest a b = .ok (a + b) := if_pos h

theorem productWithin_of_le {largest a b : Nat} (h : a * b ≤ largest) :
    productWithin largest a b = .ok (a * b) := if_pos h

/-- Two sums in a row are refused exactly when their total is too large. -/
theorem sumWithin_sumWithin (largest a b c : Nat) :
    (sumWithin largest a b).bind (sumWithin largest · c) = sumWithin largest a (b + c) := by
  unfold sumWithin
  by_cases h : a + b ≤ largest
  · simp [h, Except.bind, Nat.add_assoc]
  · simp [h, Except.bind, show ¬ a + (b + c) ≤ largest by omega]

end PictureUnit
