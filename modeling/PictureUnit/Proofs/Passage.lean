import PictureUnit.Proofs.Ink
import PictureUnit.Proofs.Pace

/-!
# Passages

Whatever the processor asks for, the machine does by dots, by passing the blank, and by what
happens between two dots. A passage keeps the list of its dots, and the inks they leave. In an open
frame these are the dots of the raster between the two positions, in raster order; the only thing
the processor can still decide is the length of the pre-render line, until that is settled. So far
as the clock goes, it does not even matter what happens to the chip between two dots.
-/

set_option autoImplicit false

namespace PictureUnit.Machine

variable {κ : Type} [Cartridge κ]

/-- Neither the clock nor the counts of frames tell the two apart. -/
structure SameTime (m n : Machine κ) : Prop where
  ledger : n.ledger = m.ledger
  clock : n.clock = m.clock
  raised : n.vblank.raised = m.vblank.raised

/-- One machine becomes another one by exactly these dots, so far as the clock goes. -/
inductive Covers : List (Line × Nat) → Machine κ → Machine κ → Prop where
  | refl (m : Machine κ) : Covers [] m m
  | aside {ds : List (Line × Nat)} {m n p : Machine κ} (h : m.SameTime n) (rest : Covers ds n p) :
      Covers ds m p
  | blank {ds : List (Line × Nat)} {m p : Machine κ} (target : Nat) (h : m.clock.position = .blank)
      (rest : Covers ds (m.passBlank target) p) : Covers ds m p
  | dot {ds : List (Line × Nat)} {m p : Machine κ} {line : Line} {dot : Nat}
      (h : m.clock.position = .raster line dot) (rest : Covers ds (m.step line dot) p) :
      Covers ((line, dot) :: ds) m p

variable {ds es : List (Line × Nat)} {l k : List Ink} {m n p : Machine κ}

omit [Cartridge κ] in
theorem SameTime.timing (h : m.SameTime n) : n.timing = m.timing :=
  congrArg (fun l => l.config.timing) h.ledger

omit [Cartridge κ] in
theorem SameTime.onTime (h : m.SameTime n) (hm : m.OnTime) : n.OnTime :=
  hm.of_eq h.clock h.timing h.raised

omit [Cartridge κ] in
theorem withCircuit_sameTime (f : Circuit κ → Circuit κ) (m : Machine κ) :
    m.SameTime (m.withCircuit f) := ⟨rfl, rfl, rfl⟩

theorem Still.sameTime (h : m.Still n) : m.SameTime n := ⟨h.ledger, h.clock, h.raised⟩

theorem Covers.trans (h : Covers ds m n) (h' : Covers es n p) : Covers (ds ++ es) m p := by
  induction h with
  | refl => exact h'
  | aside ha _ ih => exact .aside ha (ih h')
  | blank target hb _ ih => exact .blank target hb (ih h')
  | dot hd _ ih => exact .dot hd (ih h')

theorem Covers.ledger (h : Covers ds m n) : n.ledger = m.ledger := by
  induction h with
  | refl => rfl
  | aside ha _ ih => rw [ih, ha.ledger]
  | blank target _ _ ih => rw [ih, passBlank_ledger]
  | dot _ _ ih => rw [ih, step_ledger]

theorem Covers.onTime (h : Covers ds m n) (hm : m.OnTime) : n.OnTime := by
  induction h with
  | refl => exact hm
  | aside ha _ ih => exact ih (ha.onTime hm)
  | blank target hb _ ih => exact ih (passBlank_onTime target hm hb)
  | dot hd _ ih => exact ih (step_onTime hm hd)

theorem Covers.frameStart (h : Covers ds m n) (hm : m.OnTime) :
    n.clock.frameStart = m.clock.frameStart := by
  induction h with
  | refl => rfl
  | aside ha _ ih => rw [ih (ha.onTime hm), ha.clock]
  | blank target hb _ ih =>
    rw [ih (passBlank_onTime target hm hb), passBlank_clock]
    rfl
  | dot hd _ ih => rw [ih (step_onTime hm hd), step_frameStart _ _ hm.paced]

/-- Once the length is settled it stays. -/
theorem Covers.short_of_settled (h : Covers ds m n) (hm : m.OnTime)
    (hu : m.clock.position.unsettled = false) :
    n.clock.short = m.clock.short := by
  induction h with
  | refl => rfl
  | aside ha _ ih => rw [ih (ha.onTime hm) (by rwa [ha.clock]), ha.clock]
  | blank target hb _ ih =>
    rw [ih (passBlank_onTime target hm hb) (by rwa [passBlank_position]), passBlank_clock]
    rfl
  | @dot ds m p line dot hd _ ih =>
    have settled : ¬ (line = .preRender ∧ dot ≤ settlingDot) := by
      rintro ⟨rfl, hl⟩
      simp [hd, Position.unsettled, hl] at hu
    have keeps : m.shortAfter line dot = m.clock.short := by
      rw [shortAfter, if_neg fun h => settled ⟨h.1, h.2.le⟩]
    rw [ih (step_onTime hm hd) ?_, step_short _ _ hm.paced, keeps]
    rw [step_position hm.paced hd, Position.next_unsettled]
    exact decide_eq_false fun h => settled ⟨h.1, h.2.le⟩

/-- The dots that are covered are those ahead at the start and no longer at the end. -/
theorem Covers.ahead (h : Covers ds m n) (hm : m.OnTime)
    (hn : n.clock.position.unsettled = false) :
    m.clock.position.ahead n.clock.short = ds ++ n.clock.position.ahead n.clock.short := by
  induction h with
  | refl => rfl
  | aside ha _ ih => rw [← ha.clock, ih (ha.onTime hm) hn]
  | blank target hb _ ih =>
    rw [← passBlank_position target, ih (passBlank_onTime target hm hb) hn]
  | @dot ds m p line dot hd rest ih =>
    have hnext := ih (step_onTime hm hd) hn
    rw [step_position hm.paced hd] at hnext
    have hle := hm.paced.dot_le hd
    have onward : (Position.raster line dot).next (m.shortAfter line dot)
          = (Position.raster line dot).next p.clock.short
        ∧ dot ≤ Position.lastDot p.clock.short line := by
      -- Until the length is settled it may still change, but it does not move the next dot.
      by_cases early : line = .preRender ∧ dot < settlingDot
      · obtain ⟨rfl, hl⟩ := early
        have (short : Bool) : dot < Position.lastDot short .preRender := by
          cases short <;> simp [Position.lastDot, settlingDot, dotsPerLine] at * <;> omega
        exact ⟨by simp [Position.next, this], (this _).le⟩
      · have kept := rest.short_of_settled (step_onTime hm hd) (by
          rw [step_position hm.paced hd, Position.next_unsettled]
          exact decide_eq_false early)
        rw [kept, step_short _ _ hm.paced]
        refine ⟨rfl, ?_⟩
        have := (shortAfter_paced hm.paced hd).dot_le hd
        exact this
    rw [hd, ahead_eq_cons _ _ _ onward.2, ← onward.1, hnext]
    rfl

/-- One machine becomes another one by exactly these dots, which leave these inks. -/
inductive Passes : List (Line × Nat) → List Ink → Machine κ → Machine κ → Prop where
  | refl (m : Machine κ) : Passes [] [] m m
  | still {ds : List (Line × Nat)} {l : List Ink} {m n p : Machine κ} (h : m.Still n)
      (rest : Passes ds l n p) : Passes ds l m p
  | blank {ds : List (Line × Nat)} {l : List Ink} {m p : Machine κ} (target : Nat)
      (h : m.clock.position = .blank) (rest : Passes ds l (m.passBlank target) p) : Passes ds l m p
  | dot {ds : List (Line × Nat)} {l : List Ink} {m p : Machine κ} {line : Line} {dot : Nat}
      (h : m.clock.position = .raster line dot) (rest : Passes ds l (m.step line dot) p) :
      Passes ((line, dot) :: ds) (m.circuit.inks line dot ++ l) m p

theorem Still.passes (h : m.Still n) : Passes [] [] m n := .still h (.refl n)

theorem Passes.trans (h : Passes ds l m n) (h' : Passes es k n p) :
    Passes (ds ++ es) (l ++ k) m p := by
  induction h with
  | refl => exact h'
  | still hs _ ih => exact .still hs (ih h')
  | blank target hb _ ih => exact .blank target hb (ih h')
  | dot hd _ ih =>
    rw [List.append_assoc]
    exact .dot hd (ih h')

theorem Passes.places (h : Passes ds l m n) :
    l.map Ink.place = ds.flatMap fun d => drawnAt d.1 d.2 := by
  induction h with
  | refl => rfl
  | still _ _ ih => exact ih
  | blank _ _ _ ih => exact ih
  | dot _ _ ih => rw [List.map_append, Circuit.inks_places, ih, List.flatMap_cons]

theorem Passes.covers (h : Passes ds l m n) : Covers ds m n := by
  induction h with
  | refl => exact .refl _
  | still hs _ ih => exact .aside hs.sameTime ih
  | blank target hb _ ih => exact .blank target hb ih
  | dot hd _ ih => exact .dot hd ih

theorem Passes.ledger (h : Passes ds l m n) : n.ledger = m.ledger := h.covers.ledger

theorem Passes.onTime (h : Passes ds l m n) (hm : m.OnTime) : n.OnTime := h.covers.onTime hm

theorem Passes.frameStart (h : Passes ds l m n) (hm : m.OnTime) :
    n.clock.frameStart = m.clock.frameStart := h.covers.frameStart hm

/-- At `m` an operation passes these dots and leaves these inks, on whatever screen. -/
structure Draws (f : Machine κ → Machine κ) (m : Machine κ) (ds : List (Line × Nat))
    (l : List Ink) : Prop where
  passes : Passes ds l m (f m)
  blind : ∀ s, f (m.withScreen s) = (f m).withScreen (s.inks l)

theorem Draws.id (m : Machine κ) : Draws (fun m => m) m [] [] := ⟨.refl m, fun _ => rfl⟩

theorem Draws.comp {f g : Machine κ → Machine κ} (h : Draws f m ds l) (h' : Draws g (f m) es k) :
    Draws (fun m => g (f m)) m (ds ++ es) (l ++ k) where
  passes := h.passes.trans h'.passes
  blind s := by rw [h.blind, h'.blind, Screen.inks_append]

/-- An access draws nothing. -/
theorem Still.draws {f : Machine κ → Machine κ} (h : m.Still (f m))
    (hb : ∀ s, f (m.withScreen s) = (f m).withScreen s) : Draws f m [] [] := ⟨h.passes, hb⟩

theorem advanceTo_draws (target : Nat) (m : Machine κ) :
    ∃ ds l, Draws (fun m => m.advanceTo target) m ds l := by
  fun_induction advanceTo target m with
  | case1 m hc hp =>
    have passed := advanceTo_blank target m hp hc
    refine ⟨[], [], ?_, fun s => ?_⟩
    · rw [passed]
      exact .blank target hp (.refl _)
    · rw [passed, advanceTo_blank target (m.withScreen s) hp hc]
      exact passBlank_withScreen s target m
  | case2 m hc line dot hp ih =>
    obtain ⟨ds, l, passes, blind⟩ := ih
    have stepped := advanceTo_raster target m line dot hp hc
    refine ⟨(line, dot) :: ds, m.circuit.inks line dot ++ l, ?_, fun s => ?_⟩
    · rw [stepped]
      exact .dot hp passes
    · rw [stepped, advanceTo_raster target (m.withScreen s) line dot hp hc, step_withScreen,
        blind, Screen.inks_append]
  | case3 m hc =>
    have late := Nat.not_lt.mp hc
    refine ⟨[], [], ?_, fun s => ?_⟩
    · rw [advanceTo_of_le target m late]
      exact .refl m
    · rw [advanceTo_of_le target m late, advanceTo_of_le target (m.withScreen s) late]
      rfl

theorem advanceTo_passes (target : Nat) (m : Machine κ) :
    ∃ ds l, Passes ds l m (m.advanceTo target) := by
  obtain ⟨ds, l, h⟩ := advanceTo_draws target m
  exact ⟨ds, l, h.passes⟩

end PictureUnit.Machine
