import PictureUnit.Proofs.Frame

/-!
# A frame in which the processor keeps still

When the processor only catches up, a machine passes dots and waits in the blank, and nothing else
happens to it but on the processor's side. From the opening of a frame to its end these are the dots of
one raster.
-/

set_option autoImplicit false

namespace PictureUnit.Machine

variable {κ : Type} [Cartridge κ]

/-- Dots, waits in the blank, and what the host does on its side. -/
inductive Undisturbed : List (Line × Nat) → Machine κ → Machine κ → Prop where
  | refl (m : Machine κ) : Undisturbed [] m m
  | hosted {ds : List (Line × Nat)} {m n : Machine κ} (f : Host → Host)
      (rest : Undisturbed ds (m.withHost f) n) : Undisturbed ds m n
  | blank {ds : List (Line × Nat)} {m n : Machine κ} (target : Nat)
      (h : m.clock.position = .blank) (rest : Undisturbed ds (m.passBlank target) n) :
      Undisturbed ds m n
  | dot {ds : List (Line × Nat)} {m n : Machine κ} {line : Line} {dot : Nat}
      (h : m.clock.position = .raster line dot) (rest : Undisturbed ds (m.step line dot) n) :
      Undisturbed ((line, dot) :: ds) m n

variable {ds es : List (Line × Nat)} {m n p : Machine κ}

theorem Undisturbed.trans (h : Undisturbed ds m n) (h' : Undisturbed es n p) :
    Undisturbed (ds ++ es) m p := by
  induction h with
  | refl => exact h'
  | hosted f _ ih => exact .hosted f (ih h')
  | blank target hb _ ih => exact .blank target hb (ih h')
  | dot hd _ ih => exact .dot hd (ih h')

theorem Undisturbed.passes (h : Undisturbed ds m n) : ∃ l, Passes ds l m n := by
  induction h with
  | refl m => exact ⟨[], .refl m⟩
  | hosted f _ ih =>
    obtain ⟨l, passes⟩ := ih
    exact ⟨l, .still (withHost_still f _) passes⟩
  | blank target hb _ ih =>
    obtain ⟨l, passes⟩ := ih
    exact ⟨l, .blank target hb passes⟩
  | dot hd _ ih =>
    obtain ⟨l, passes⟩ := ih
    exact ⟨_, .dot hd passes⟩

theorem advanceTo_undisturbed (target : Nat) (m : Machine κ) :
    ∃ ds, Undisturbed ds m (m.advanceTo target) := by
  fun_induction advanceTo target m with
  | case1 m _ standing => exact ⟨[], .blank target standing (.refl _)⟩
  | case2 m _ line dot standing ih =>
    obtain ⟨ds, later⟩ := ih
    exact ⟨_, .dot standing later⟩
  | case3 m _ => exact ⟨[], .refl m⟩

/-- Turns that only catch up disturb nothing. -/
theorem afterTurns_undisturbed {ts : List Turn}
    (idle : ∀ t ∈ ts, ∃ target, t.access = .catchUp target) (m : Machine κ) :
    ∃ ds, Undisturbed ds m (m.afterTurns ts) := by
  induction ts generalizing m with
  | nil => exact ⟨[], .refl m⟩
  | cons t rest ih =>
    rw [List.forall_mem_cons] at idle
    obtain ⟨⟨target, access⟩, idle⟩ := idle
    obtain ⟨ds, caught⟩ := advanceTo_undisturbed target (m.meet t)
    obtain ⟨es, later⟩ := ih idle ((m.meet t).advanceTo target)
    have turn : (m.turn t).2 = (m.meet t).advanceTo target := by
      rw [Machine.turn, access]
      rfl
    rw [afterTurns_cons, turn]
    exact ⟨_, .hosted _ (caught.trans later)⟩

/-- From the blank there is only more of the blank. -/
theorem Undisturbed.eq_nil_of_blank (h : Undisturbed ds m n) (hb : m.clock.position = .blank) :
    ds = [] := by
  induction h with
  | refl => rfl
  | hosted _ _ ih => exact ih hb
  | blank target _ _ ih => exact ih ((passBlank_position target _).trans hb)
  | dot hd _ _ =>
    rw [hb] at hd
    cases hd

/-- A frame in which the processor keeps still is one raster. -/
theorem openFrame_undisturbed {ts : List Turn} (idle : ∀ t ∈ ts, ∃ target, t.access = .catchUp target)
    (m : Machine κ) : ∃ n, (m.openFrame.afterTurns ts).endFrame = .ok n.closeFrame
      ∧ Undisturbed (raster n.clock.short) m.openFrame n := by
  obtain ⟨ds, turns⟩ := afterTurns_undisturbed idle m.openFrame
  obtain ⟨es, rest⟩ := advanceTo_undisturbed (m.openFrame.afterTurns ts).clock.frameEnd
    (m.openFrame.afterTurns ts)
  obtain ⟨l, passes⟩ := turns.passes
  have still : (m.openFrame.afterTurns ts).inFrame = true :=
    (congrArg Ledger.inFrame passes.ledger).trans (openFrame_inFrame m)
  have ended := (advanceTo_frameEnd (passes.onTime (openFrame_onTime m))).1
  have whole := turns.trans rest
  obtain ⟨k, all⟩ := whole.passes
  exact ⟨_, if_pos still, all.raster ended ▸ whole⟩

end PictureUnit.Machine
