/-!
# Hexadecimal text

Words are written with a fixed number of upper-case digits, bytes with two lower-case ones.
-/

set_option autoImplicit false

namespace PictureUnit.Text

def digits (width n : Nat) : List Char :=
  match width with
  | 0 => []
  | width + 1 => digits width (n / 16) ++ [Nat.digitChar (n % 16)]

theorem digits_length (width n : Nat) : (digits width n).length = width := by
  induction width generalizing n with
  | zero => rfl
  | succ width ih => simp [digits, ih]

/-- The low sixteen bits, as in `0x041F`. -/
def word (n : Nat) : String := "0x" ++ (String.ofList (digits 4 n)).toUpper

/-- The digits of `n` without leading zeros. -/
def shortHex (n : Nat) : String := String.ofList (Nat.toDigits 16 n)

def bytes (bs : List UInt8) : String := String.ofList (bs.flatMap fun b => digits 2 b.toNat)

end PictureUnit.Text
