import PictureUnit.Proofs.Visit

/-!
# Journals

A journal keeps what the processor and the cartridge are told, in one order, and what the processor
has read. In one dot or one access the cartridge is told first. Catching up may pause anywhere, and
no call comes twice or gets lost.
-/

set_option autoImplicit false

namespace PictureUnit

inductive Callback where
  | call (c : Cartridge.Call)
  | event (e : Host.Event)
  deriving DecidableEq, Repr

/-- What a log kept latest first has gained. -/
def gained {α : Type} (before after : List α) : List α := after.take (after.length - before.length)

theorem gained_self {α : Type} (log : List α) : gained log log = [] := by simp [gained]

/-- A machine on a recorded cartridge, and the history of its session, latest first. -/
structure Journal (κ : Type) where
  machine : Machine (Recorded κ)
  callbacks : List Callback
  values : List UInt8

variable {κ : Type}

/-- What is new at `n` since `m`, if at most one dot or access lies between. -/
def callbacksSince (m n : Machine (Recorded κ)) : List Callback :=
  (gained m.host.events n.host.events).map .event
    ++ (gained m.circuit.cartridge.calls n.circuit.cartridge.calls).map .call

theorem callbacksSince_of_eq {m n : Machine (Recorded κ)} (hh : n.host = m.host)
    (hc : n.circuit.cartridge = m.circuit.cartridge) : callbacksSince m n = [] := by
  simp [callbacksSince, hh, hc, gained_self]

namespace Journal

/-- Starts a journal. -/
def start (m : Machine (Recorded κ)) : Journal κ := ⟨m, [], []⟩

def record (n : Machine (Recorded κ)) (j : Journal κ) : Journal κ :=
  { j with machine := n, callbacks := callbacksSince j.machine n ++ j.callbacks }

/-- Nobody is told that the blank passes. -/
theorem record_passBlank (target : Nat) (j : Journal κ) :
    j.record (j.machine.passBlank target) = { j with machine := j.machine.passBlank target } := by
  rw [record, callbacksSince_of_eq (Machine.passBlank_host _ _) (Machine.passBlank_cartridge _ _)]
  rfl

variable [Cartridge κ]

/-- Catches up, and keeps what is told on the way. -/
def advanceTo (target : Nat) (j : Journal κ) : Journal κ :=
  if j.machine.clock.count < target then
    match j.machine.clock.position with
    | .blank => j.record (j.machine.passBlank target)
    | .raster line dot => advanceTo target (j.record (j.machine.step line dot))
  else j
termination_by target - j.machine.clock.count
decreasing_by
  have := Machine.step_count line dot j.machine
  have := j.machine.config.region.dot_pos
  simp only [record, Machine.timing, Config.timing] at *
  omega

def land (v : Visit) (j : Journal κ) : Journal κ :=
  { j.record (j.machine.land v).2 with values := (j.machine.land v).1.toList ++ j.values }

def visit (j : Journal κ) (v : Visit) : Journal κ :=
  (j.advanceTo (v.landing j.machine.timing)).land v

/-- The visits of a frame, one after the other. -/
def visits (vs : List Visit) (j : Journal κ) : Journal κ := vs.foldl visit j

/-- Catches up to one cycle after the other. -/
def pause (targets : List Nat) (j : Journal κ) : Journal κ :=
  targets.foldl (fun j target => j.advanceTo target) j

/-- The same visits with pauses in front of them. -/
def pausedVisits (vs : List (List Nat × Visit)) (j : Journal κ) : Journal κ :=
  vs.foldl (fun j v => (j.pause v.1).visit v.2) j

theorem advanceTo_of_le {target : Nat} {j : Journal κ} (h : target ≤ j.machine.clock.count) :
    j.advanceTo target = j := by
  rw [advanceTo, if_neg (Nat.not_lt.mpr h)]

theorem advanceTo_blank {target : Nat} {j : Journal κ} (h : j.machine.clock.position = .blank)
    (hc : j.machine.clock.count < target) :
    j.advanceTo target = { j with machine := j.machine.passBlank target } := by
  rw [advanceTo, if_pos hc, h]
  exact record_passBlank target j

theorem advanceTo_raster {target : Nat} {j : Journal κ} {line : Line} {dot : Nat}
    (h : j.machine.clock.position = .raster line dot) (hc : j.machine.clock.count < target) :
    j.advanceTo target = (j.record (j.machine.step line dot)).advanceTo target := by
  rw [advanceTo, if_pos hc, h]

theorem advanceTo_machine (target : Nat) (j : Journal κ) :
    (j.advanceTo target).machine = j.machine.advanceTo target := by
  fun_induction advanceTo target j with
  | case1 j hc hp =>
    rw [Machine.advanceTo_blank target j.machine hp hc]
    rfl
  | case2 j hc line dot hp ih =>
    rw [ih, Machine.advanceTo_raster target j.machine line dot hp hc]
    rfl
  | case3 j hc => rw [Machine.advanceTo_of_le target j.machine (Nat.not_lt.mp hc)]

theorem visit_machine (v : Visit) (j : Journal κ) :
    (j.visit v).machine = (j.machine.turn v.turn).2 := by
  rw [Machine.turn_visit, ← advanceTo_machine]
  rfl

theorem visit_values (v : Visit) (j : Journal κ) :
    (j.visit v).values = (j.machine.turn v.turn).1.toList ++ (j.advanceTo
      (v.landing j.machine.timing)).values := by
  rw [Machine.turn_visit, ← advanceTo_machine]
  rfl

theorem advanceTo_values (target : Nat) (j : Journal κ) :
    (j.advanceTo target).values = j.values := by
  fun_induction advanceTo target j with
  | case1 => rfl
  | case2 j hc line dot hp ih => exact ih
  | case3 => rfl

/-- Catching up to `a` on the way to `b` makes no difference. -/
theorem advanceTo_advanceTo {a b : Nat} (j : Journal κ) (h : a ≤ b) :
    (j.advanceTo a).advanceTo b = j.advanceTo b := by
  fun_induction advanceTo a j with
  | case1 j hc hp =>
    rw [record_passBlank, advanceTo_blank hp (by omega)]
    by_cases hb : (j.machine.passBlank a).clock.count < b
    · rw [advanceTo_blank (by rw [Machine.passBlank_position, hp]) hb]
      simp only [Machine.passBlank_passBlank a b j.machine h]
    · rw [advanceTo_of_le (Nat.not_lt.mp hb), show a = b by
        rw [Machine.passBlank_count] at hb
        omega]
  | case2 j hc line dot hp ih => rw [ih, advanceTo_raster hp (by omega)]
  | case3 j hc => rfl

/-- Once caught up to `a`, there is nothing left to do before it. -/
theorem advanceTo_of_advanced {a b : Nat} (j : Journal κ) (h : b ≤ a) :
    (j.advanceTo a).advanceTo b = j.advanceTo a := by
  fun_induction advanceTo a j with
  | case1 j hc hp =>
    rw [record_passBlank]
    by_cases hb : (j.machine.passBlank a).clock.count < b
    · rw [advanceTo_blank (by rw [Machine.passBlank_position, hp]) hb]
      have passed : (j.machine.passBlank a).passBlank b = j.machine.passBlank a := by
        apply Machine.passBlank_of_passed
        · rw [Machine.passBlank_count, Machine.passBlank_clock]
          simp only [Clock.idleUntil]
          omega
        · rw [Machine.passBlank_raised, Machine.passBlank_clock]
          simp only [Clock.idleUntil, Bool.or_eq_false_iff, decide_eq_false_iff_not]
          omega
      simp only [passed]
    · rw [advanceTo_of_le (Nat.not_lt.mp hb)]
  | case2 j hc line dot hp ih => exact ih
  | case3 j hc => rw [advanceTo_of_le (by omega)]

/-- Two catch-ups make one. -/
theorem advanceTo_max (a b : Nat) (j : Journal κ) :
    (j.advanceTo a).advanceTo b = j.advanceTo (max a b) := by
  rcases le_total a b with h | h
  · rw [advanceTo_advanceTo j h, Nat.max_eq_right h]
  · rw [advanceTo_of_advanced j h, Nat.max_eq_left h]

theorem pause_advanceTo {targets : List Nat} {target : Nat} (h : ∀ t ∈ targets, t ≤ target)
    (j : Journal κ) : (j.pause targets).advanceTo target = j.advanceTo target := by
  induction targets generalizing j with
  | nil => rfl
  | cons t rest ih =>
    rw [List.forall_mem_cons] at h
    exact (ih h.2 (j.advanceTo t)).trans (advanceTo_advanceTo j h.1)

end Journal

end PictureUnit
