import PictureUnit.Proofs.Dots

/-!
# Dots that render nothing

The first dot of a line, and every dot while rendering is off, only tells the cartridge where the line
stands. So all that such dots do to the works is what the cartridge does about it to the slots and to
itself.
-/

set_option autoImplicit false

namespace PictureUnit

section

variable {κ : Type} [Cartridge κ]

/-- What the cartridge does when a dot tells it of its line. -/
def Cartridge.hook (rendering : Bool) (b : Banks × κ) (place : Line × Nat) : Banks × κ :=
  if place.2 = 0 then Cartridge.activeStart place.1 rendering b.1 b.2
  else if place.2 = objectFetchStart then Cartridge.blankStart place.1 rendering b.1 b.2
  else b

theorem Cartridge.Silent.hook {k : κ} (h : Silent k) (rendering : Bool) (banks : Banks)
    (place : Line × Nat) : Cartridge.hook rendering (banks, k) place = (banks, k) := by
  unfold Cartridge.hook
  rw [h.activeStart, h.blankStart, ite_self, ite_self]

namespace Works

def withBoard (b : Banks × κ) (w : Works κ) : Works κ := { w with banks := b.1, cartridge := b.2 }

/-- The works after the cartridge has been told of these places. -/
def told (places : List (Line × Nat)) (w : Works κ) : Works κ :=
  w.withBoard (places.foldl (Cartridge.hook w.settings.mask.rendering) (w.banks, w.cartridge))

theorem told_nil (w : Works κ) : w.told [] = w := rfl

theorem told_append (places others : List (Line × Nat)) (w : Works κ) :
    w.told (places ++ others) = (w.told places).told others := by
  rw [told, List.foldl_append]
  rfl

theorem told_silent {w : Works κ} (hs : Cartridge.Silent w.cartridge) (place : Line × Nat) :
    w.told [place] = w := by
  rw [told, List.foldl_cons, List.foldl_nil, hs.hook]
  rfl

end Works

namespace Circuit

variable {c : Circuit κ}

/-- What can be seen of a circuit whose cartridge was told of these places. -/
theorem of_told {w : Works κ} {places : List (Line × Nat)} (h : c.works = w.told places) :
    c.settings = w.settings ∧ c.registers.objectAddress = w.objectAddress ∧ c.pipe = w.pipe
      ∧ (c.banks, c.cartridge)
        = places.foldl (Cartridge.hook w.settings.mask.rendering) (w.banks, w.cartridge) :=
  ⟨congrArg Works.settings h, congrArg Works.objectAddress h, congrArg Works.pipe h,
    congrArg (fun v => (v.banks, v.cartridge)) h⟩

/-- A dot that renders nothing does what the cartridge does about it. -/
theorem dot_told {dot : Nat} (off : dot = 0 ∨ c.registers.mask.rendering = false) (line : Line)
    (cycle : Nat) (limit : SpriteLimit) :
    (c.dot line dot cycle limit).works = c.works.told [(line, dot)] := by
  rw [Works.told, List.foldl_cons, List.foldl_nil, Cartridge.hook]
  by_cases first : dot = 0
  · rw [Circuit.dot, if_pos first, if_pos first]
    rfl
  · have drawn := drawn_works line dot c
    rw [Circuit.dot, if_neg first, if_neg first]
    dsimp only
    generalize (c.clearFlags line dot).drawDot line dot = d at drawn
    have dark : ¬ d.registers.mask.rendering = true := by
      have kept := congrArg (·.settings.mask.rendering) drawn
      exact Bool.not_eq_true _ ▸ kept.trans (off.resolve_left first)
    rw [if_neg dark, ← drawn]
    split <;> rfl

end Circuit

end

end PictureUnit
