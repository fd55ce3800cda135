/-!
# Counters that wrap

A counter of a fixed size keeps a number modulo its size.
-/

set_option autoImplicit false

namespace PictureUnit

def wrap (size n : Nat) (pos : 0 < size := by decide) : Fin size := ⟨n % size, Nat.mod_lt n pos⟩

theorem val_wrap (size n : Nat) (pos : 0 < size) : (wrap size n pos).val = n % size := rfl

theorem wrap_val {size : Nat} (i : Fin size) (pos : 0 < size) : wrap size i.val pos = i :=
  Fin.ext (Nat.mod_eq_of_lt i.isLt)

end PictureUnit
