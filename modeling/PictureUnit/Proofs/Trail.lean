import PictureUnit.Proofs.Story

/-!
# The trail of a script

A script opens and closes frames and takes turns. What it makes of a machine is one sequence of dots, and
its trail keeps the moment of each, in the order of their execution. A trail is steady when rendering is
switched on at no time at which it would meet a search that is half done, or fetches whose result it
cannot know.
-/

set_option autoImplicit false

namespace PictureUnit

inductive Act where
  | opening
  | closing
  | turn (t : Turn)

namespace Moment

variable {κ : Type}

/-- The search of a line has begun, or the fetches of what it found, and the last fetch is not done. -/
def Underway (x : Moment κ) : Prop :=
  (match x.line with
    | .preRender => objectFetchStart < x.dot
    | .visible _ => 65 < x.dot) ∧ x.dot ≤ objectFetchEnd

end Moment

section

variable {κ : Type} {on : Bool} {xs ys : List (Moment κ)}

/-- Rendering is never switched on while a line is under way; `on` tells whether the dot before was
rendered. -/
def Steady : Bool → List (Moment κ) → Prop
  | _, [] => True
  | on, x :: rest => (x.Underway → x.before.rendering = true → on = true)
    ∧ Steady x.before.rendering rest

/-- Whether the last dot was rendered. -/
def renderedAfter : Bool → List (Moment κ) → Bool
  | on, [] => on
  | _, x :: rest => renderedAfter x.before.rendering rest

theorem steady_append : Steady on (xs ++ ys) ↔ Steady on xs ∧ Steady (renderedAfter on xs) ys := by
  induction xs generalizing on with
  | nil => exact ⟨fun h => ⟨trivial, h⟩, fun h => h.2⟩
  | cons x rest ih => rw [List.cons_append, Steady, ih, Steady, renderedAfter, and_assoc]

theorem renderedAfter_append : renderedAfter on (xs ++ ys) = renderedAfter (renderedAfter on xs) ys := by
  induction xs generalizing on with
  | nil => rfl
  | cons x rest ih => exact ih

/-- As long as every dot is rendered nothing is switched on. -/
theorem steady_of_rendering (h : ∀ x ∈ xs, x.before.rendering = true)
    (first : ∀ x ∈ xs.head?, x.Underway → on = true) : Steady on xs := by
  induction xs generalizing on with
  | nil => trivial
  | cons x rest ih =>
    rw [List.forall_mem_cons] at h
    exact ⟨fun underway _ => first x rfl underway, ih h.2 fun _ _ _ => h.1⟩

end

namespace Machine

variable {κ : Type} [Cartridge κ]

/-- A frame that is opened inside another one, or closed outside, changes nothing. -/
def act (m : Machine κ) : Act → Machine κ
  | .opening => m.beginFrame.toOption.getD m
  | .closing => m.endFrame.toOption.getD m
  | .turn t => (m.turn t).2

/-- The machine after a script. -/
def run : List Act → Machine κ → Machine κ
  | [], m => m
  | a :: rest, m => run rest (m.act a)

def trailOfAct (m : Machine κ) : Act → List (Moment κ)
  | .opening => []
  | .closing => if m.inFrame then m.trailTo m.clock.frameEnd else []
  | .turn t => (m.meet t).trailOfAccess t.access

/-- The moments of all dots that a script executes. -/
def trail : List Act → Machine κ → List (Moment κ)
  | [], _ => []
  | a :: rest, m => m.trailOfAct a ++ trail rest (m.act a)

variable {m : Machine κ}

theorem Reachable.act (h : m.Reachable) (a : Act) : (m.act a).Reachable := by
  cases a with
  | opening =>
    unfold Machine.act
    cases opened : m.beginFrame with
    | error => exact h
    | ok n => exact h.move (.opened opened)
  | closing =>
    unfold Machine.act
    cases closed : m.endFrame with
    | error => exact h
    | ok n => exact h.move (.closed closed)
  | turn t => exact h.turn t

/-- What dots keep is true of every machine of the trail. -/
theorem trailTo_keeps {P : Machine κ → Prop}
    (stepped : ∀ n line dot, n.clock.position = .raster line dot → P n → P (n.step line dot))
    (target : Nat) {m : Machine κ} (h : P m) : ∀ x ∈ m.trailTo target, P x.before := by
  fun_induction trailTo target m with
  | case1 | case3 => exact List.forall_mem_nil _
  | case2 m _ line dot hp ih => exact List.forall_mem_cons.mpr ⟨h, ih (stepped m line dot hp h)⟩

/-- A frame in which the processor keeps still is one catch-up. -/
theorem trail_frame {o : Machine κ} (opened : m.beginFrame = .ok o) :
    trail [.opening, .closing] m = o.trailTo o.clock.frameEnd := by
  have started : m.act .opening = o := by
    rw [act, opened]
    rfl
  have inside : o.inFrame = true := eq_of_beginFrame opened ▸ openFrame_inFrame m
  change [] ++ ((m.act .opening).trailOfAct .closing ++ []) = _
  rw [started, List.nil_append, List.append_nil, trailOfAct, if_pos inside]

end Machine

end PictureUnit
