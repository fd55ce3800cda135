import PictureUnit.Proofs.Journal

/-!
# A machine that never runs late

The eager machine goes from one master cycle to the next. On each it first takes the visit that
lands there, and then executes the dot that begins there, if one does. In the blank nothing but the
vertical blank flag begins anywhere. The machine that catches up cannot be told from it.
-/

set_option autoImplicit false

namespace PictureUnit

variable {κ : Type} [Cartridge κ]

namespace Machine

/-- What begins on the cycle that the clock stands on. -/
def beat (m : Machine κ) : Machine κ :=
  match m.clock.position with
  | .raster line dot => m.step line dot
  | .blank =>
    if m.clock.frameEnd ≤ m.clock.count then m
    else
      let m := if m.clock.count = m.clock.vblankAt then m.raiseVblank else m
      { m with clock := { m.clock with count := m.clock.count + 1 } }

/-- Nothing is left to do before `target`. -/
def Settled (target : Nat) (m : Machine κ) : Prop :=
  target ≤ m.clock.count ∨ (m.clock.position = .blank ∧ m.clock.frameEnd ≤ m.clock.count)

theorem beat_of_blank {m : Machine κ} (h : m.OnTime) (hp : m.clock.position = .blank) :
    m.beat = m.passBlank (m.clock.count + 1) := by
  have raised := h.raised_iff
  have hv := Clock.vblankAt_lt_frameEnd m.config.region m.clock h.paced
  simp only [beat, hp]
  split
  · next he =>
    refine (passBlank_of_passed (by omega) fun hr => ?_).symm
    rw [hr] at raised
    simp only [Bool.false_eq_true, false_iff] at raised
    omega
  · next he =>
    by_cases hc : m.clock.count = m.clock.vblankAt
    · have low : m.vblank.raised = false := by
        rw [Bool.eq_false_iff, ne_eq, raised]
        omega
      have due : m.clock.vblankAt < min (m.clock.count + 1) m.clock.frameEnd := by omega
      rw [if_pos hc, passBlank_of_lt _ m low due, passBlank_of_raised _ _ (raiseVblank_raised m),
        raiseVblank_clock]
      simp only [Clock.idleUntil]
      congr 2
      omega
    · have same : m.passBlank (m.clock.count + 1)
          = { m with clock := m.clock.idleUntil (min (m.clock.count + 1) m.clock.frameEnd) } := by
        by_cases hr : m.vblank.raised = true
        · exact passBlank_of_raised _ m hr
        · rw [raised] at hr
          exact passBlank_of_le _ m (by omega)
      rw [if_neg hc, same]
      simp only [Clock.idleUntil]
      congr 2
      omega

theorem Still.settled {m n : Machine κ} (h : m.Still n) {target : Nat} (hm : m.Settled target) :
    n.Settled target := by
  unfold Settled
  rw [h.clock]
  exact hm

theorem advanceTo_settled (target : Nat) (m : Machine κ) :
    (m.advanceTo target).Settled target := by
  fun_induction advanceTo target m with
  | case1 m hc hp =>
    unfold Settled
    rw [passBlank_position, hp, passBlank_clock]
    simp only [Clock.idleUntil, true_and]
    omega
  | case2 m hc line dot hp ih => exact ih
  | case3 m hc => exact .inl (Nat.not_lt.mp hc)

/-- What the turns that read return. -/
def answers : List Turn → Machine κ → List UInt8
  | [], _ => []
  | t :: rest, m => (m.turn t).1.toList ++ answers rest (m.turn t).2

end Machine

namespace Journal

/-- The beat on a cycle, if there is one. -/
def beatAt (now : Nat) (j : Journal κ) : Journal κ :=
  if j.machine.clock.count = now then j.record j.machine.beat else j

/-- Takes the visits that land on a cycle. -/
def landAt (t : Timing) (vs : List Visit) (now : Nat) (j : Journal κ) : Journal κ :=
  (vs.filter fun v => v.landing t = now).foldl (fun j v => j.land v) j

/-- The eager machine on a cycle, when it has taken the visits that land there. -/
def eagerly (vs : List Visit) (j : Journal κ) : Nat → Journal κ
  | 0 => j.landAt j.machine.timing vs 0
  | now + 1 => ((j.eagerly vs now).beatAt now).landAt j.machine.timing vs (now + 1)

theorem advanceTo_of_settled {target : Nat} {j : Journal κ} (h : j.machine.OnTime)
    (hs : j.machine.Settled target) : j.advanceTo target = j := by
  have hv := Clock.vblankAt_lt_frameEnd j.machine.config.region j.machine.clock h.paced
  by_cases hc : j.machine.clock.count < target
  · obtain ⟨hp, he⟩ := hs.resolve_left (Nat.not_le.mpr hc)
    rw [advanceTo_blank hp hc, Machine.passBlank_of_passed (by omega)]
    intro hr
    have := h.raised_iff
    rw [hr] at this
    simp only [Bool.false_eq_true, false_iff] at this
    omega
  · exact advanceTo_of_le (Nat.not_lt.mp hc)

theorem advanceTo_onTime (target : Nat) {j : Journal κ} (h : j.machine.OnTime) :
    (j.advanceTo target).machine.OnTime := by
  rw [advanceTo_machine]
  exact Machine.advanceTo_onTime target h

theorem land_still (v : Visit) (j : Journal κ) : j.machine.Still (j.land v).machine :=
  Machine.land_still v j.machine

theorem visit_onTime (v : Visit) {j : Journal κ} (h : j.machine.OnTime) :
    (j.visit v).machine.OnTime := (land_still v _).onTime (advanceTo_onTime _ h)

theorem visit_timing (v : Visit) (j : Journal κ) :
    (j.visit v).machine.timing = j.machine.timing := by
  have landed := (land_still v (j.advanceTo (v.landing j.machine.timing))).timing
  rw [advanceTo_machine, Machine.advanceTo_timing] at landed
  exact landed

/-- The next cycle's catch-up is one beat. -/
theorem advanceTo_succ {j : Journal κ} (h : j.machine.OnTime) (now : Nat) :
    (j.advanceTo now).beatAt now = j.advanceTo (now + 1) := by
  rw [← advanceTo_advanceTo j (Nat.le_succ now)]
  have hn := advanceTo_onTime now h
  have settled := Machine.advanceTo_settled now j.machine
  rw [← advanceTo_machine] at settled
  generalize j.advanceTo now = k at hn settled
  unfold beatAt
  split
  · next hc =>
    cases hp : k.machine.clock.position with
    | blank => rw [Machine.beat_of_blank hn hp, advanceTo_blank hp (by omega), record_passBlank, hc]
    | raster line dot =>
      have hb : k.machine.beat = k.machine.step line dot := by rw [Machine.beat, hp]
      -- A dot takes at least one cycle, so the next cycle asks for no second one.
      have later : now + 1 ≤ (k.machine.step line dot).clock.count := by
        have := k.machine.config.region.dot_pos
        rw [Machine.step_count, hc]
        simp only [Machine.timing, Config.timing]
        omega
      rw [hb, advanceTo_raster hp (by omega)]
      exact (advanceTo_of_le later).symm
  · next hc =>
    refine (advanceTo_of_settled hn ?_).symm
    rcases settled with hle | past
    · exact .inl (by omega)
    · exact .inr past

theorem visits_append (vs ws : List Visit) (j : Journal κ) :
    j.visits (vs ++ ws) = (j.visits vs).visits ws := List.foldl_append

theorem visits_onTime (vs : List Visit) {j : Journal κ} (h : j.machine.OnTime) :
    (j.visits vs).machine.OnTime := by
  induction vs generalizing j with
  | nil => exact h
  | cons v rest ih => exact ih (visit_onTime v h)

theorem visits_timing (vs : List Visit) (j : Journal κ) :
    (j.visits vs).machine.timing = j.machine.timing := by
  induction vs generalizing j with
  | nil => rfl
  | cons v rest ih => exact (ih (j.visit v)).trans (visit_timing v j)

/-- After a visit there is nothing left to do before its landing. -/
theorem visit_advanceTo (v : Visit) {j : Journal κ} (h : j.machine.OnTime) :
    (j.visit v).advanceTo (v.landing j.machine.timing) = j.visit v := by
  apply advanceTo_of_settled (visit_onTime v h)
  apply (land_still v _).settled
  rw [advanceTo_machine]
  exact Machine.advanceTo_settled _ _

/-- Visits that land together find the machine caught up. -/
theorem visits_of_landing {ws : List Visit} {now : Nat} {j : Journal κ} (h : j.machine.OnTime)
    (hl : ∀ w ∈ ws, w.landing j.machine.timing = now) :
    ws.foldl (fun j v => j.land v) (j.advanceTo now) = (j.visits ws).advanceTo now := by
  induction ws generalizing j with
  | nil => rfl
  | cons w rest ih =>
    rw [List.forall_mem_cons] at hl
    have visited : j.visit w = (j.advanceTo now).land w := by rw [visit, hl.1]
    have waits : (j.visit w).advanceTo now = j.visit w := hl.1 ▸ visit_advanceTo w h
    have rest := ih (visit_onTime w h) fun v hv => by
      rw [visit_timing]
      exact hl.2 v hv
    rw [waits, visited] at rest
    rw [List.foldl_cons, rest, ← visited]
    rfl

theorem filter_landing_succ {t : Timing} {vs : List Visit}
    (sorted : vs.Pairwise fun v w => v.landing t ≤ w.landing t) (now : Nat) :
    (vs.filter fun v => v.landing t ≤ now + 1)
      = (vs.filter fun v => v.landing t ≤ now) ++ vs.filter fun v => v.landing t = now + 1 := by
  induction vs with
  | nil => rfl
  | cons v rest ih =>
    rw [List.pairwise_cons] at sorted
    by_cases hv : v.landing t ≤ now
    · have next : v.landing t ≤ now + 1 := Nat.le_succ_of_le hv
      have other : v.landing t ≠ now + 1 := by omega
      simp [hv, next, other, ih sorted.2]
    · have none : (rest.filter fun w => w.landing t ≤ now) = [] := by
        rw [List.filter_eq_nil_iff]
        intro w hw
        have := sorted.1 w hw
        simp only [decide_eq_true_eq]
        omega
      have rest := ih sorted.2
      rw [none, List.nil_append] at rest
      have same : v.landing t ≤ now + 1 ↔ v.landing t = now + 1 := by omega
      simp [List.filter_cons, hv, none, rest, same]

/-- On every cycle the eager machine is where the late one catches up to. -/
theorem eagerly_eq_advanceTo {j : Journal κ} (h : j.machine.OnTime) {vs : List Visit}
    (sorted : vs.Pairwise fun v w => v.landing j.machine.timing ≤ w.landing j.machine.timing)
    (now : Nat) :
    j.eagerly vs now
      = (j.visits (vs.filter fun v => v.landing j.machine.timing ≤ now)).advanceTo now := by
  induction now with
  | zero =>
    have lands : ∀ w ∈ vs.filter fun v => v.landing j.machine.timing = 0,
        w.landing j.machine.timing = 0 := fun w hw => by simpa using (List.mem_filter.mp hw).2
    have first := visits_of_landing h lands
    rw [advanceTo_of_le (Nat.zero_le _)] at first
    simp only [eagerly, landAt, Nat.le_zero_eq]
    exact first
  | succ now ih =>
    rw [eagerly, ih, advanceTo_succ (visits_onTime _ h), landAt, filter_landing_succ sorted,
      visits_append]
    apply visits_of_landing (visits_onTime _ h)
    intro w hw
    rw [visits_timing]
    simpa using (List.mem_filter.mp hw).2

theorem visits_machine (vs : List Visit) (j : Journal κ) :
    (j.visits vs).machine = j.machine.afterTurns (vs.map Visit.turn) := by
  induction vs generalizing j with
  | nil => rfl
  | cons v rest ih =>
    rw [List.map_cons, Machine.afterTurns_cons, ← visit_machine]
    exact ih (j.visit v)

theorem visits_values (vs : List Visit) (j : Journal κ) :
    (j.visits vs).values = (j.machine.answers (vs.map Visit.turn)).reverse ++ j.values := by
  induction vs generalizing j with
  | nil => rfl
  | cons v rest ih =>
    have read := visit_values v j
    have short : (j.machine.turn v.turn).1.toList.reverse = (j.machine.turn v.turn).1.toList := by
      cases (j.machine.turn v.turn).1 <;> rfl
    rw [advanceTo_values] at read
    rw [List.map_cons, Machine.answers, List.reverse_append, short, List.append_assoc, ← read,
      ← visit_machine]
    exact ih (j.visit v)

theorem pause_timing (targets : List Nat) (j : Journal κ) :
    (j.pause targets).machine.timing = j.machine.timing := by
  induction targets generalizing j with
  | nil => rfl
  | cons t rest ih =>
    refine (ih (j.advanceTo t)).trans ?_
    rw [advanceTo_machine, Machine.advanceTo_timing]

theorem pausedVisits_eq {ps : List (List Nat × Visit)} {j : Journal κ}
    (h : ∀ p ∈ ps, ∀ target ∈ p.1, target ≤ p.2.landing j.machine.timing) :
    j.pausedVisits ps = j.visits (ps.map Prod.snd) := by
  induction ps generalizing j with
  | nil => rfl
  | cons p rest ih =>
    rw [List.forall_mem_cons] at h
    have timed : (j.pause p.1).machine.timing = j.machine.timing := pause_timing p.1 j
    have waited : (j.pause p.1).visit p.2 = j.visit p.2 := by
      rw [visit, visit, timed, pause_advanceTo h.1]
    rw [List.map_cons, pausedVisits, List.foldl_cons, waited]
    exact ih fun q hq => by
      rw [visit_timing]
      exact h.2 q hq

theorem landing_sorted {r : Region} {vs : List Visit}
    (spaced : vs.IsChain fun v w => v.cycle + r.timing.cpuCycle ≤ w.cycle) :
    vs.Pairwise fun v w => v.landing r.timing ≤ w.landing r.timing := by
  have : IsTrans Visit fun v w => v.landing r.timing ≤ w.landing r.timing :=
    ⟨fun _ _ _ => le_trans⟩
  rw [← List.isChain_iff_pairwise]
  exact spaced.imp fun _ _ => Visit.landing_le_landing r

/-- A machine that catches up for each visit does, is told and tells what the eager machine does,
however often it pauses on the way. -/
theorem visits_eagerly {m : Machine (Recorded κ)} (hm : m.Reachable) (hf : m.inFrame = true)
    {vs : List Visit} (spaced : vs.IsChain fun v w => v.cycle + m.timing.cpuCycle ≤ w.cycle) :
    ((start m).visits vs).machine = m.afterTurns (vs.map Visit.turn)
      ∧ ((start m).visits vs).values.reverse = m.answers (vs.map Visit.turn)
      ∧ (∀ v, vs.getLast? = some v →
          (start m).eagerly vs (v.landing m.timing) = (start m).visits vs)
      ∧ (∀ now, (∀ v ∈ vs, v.landing m.timing ≤ now) →
          (start m).eagerly vs now = ((start m).visits vs).advanceTo now)
      ∧ (∀ ps : List (List Nat × Visit), ps.map Prod.snd = vs →
        (∀ p ∈ ps, ∀ target ∈ p.1, target ≤ p.2.landing m.timing) →
          (start m).pausedVisits ps = (start m).visits vs)
      ∧ ∀ a b, ((start m).advanceTo a).advanceTo b = (start m).advanceTo (max a b)
        ∧ (m.advanceTo a).advanceTo b = m.advanceTo (max a b) := by
  have h : (start m).machine.OnTime := hm.onTime hf
  have sorted := landing_sorted (r := m.config.region) spaced
  have eager (now : Nat) (due : ∀ v ∈ vs, v.landing m.timing ≤ now) :
      (start m).eagerly vs now = ((start m).visits vs).advanceTo now := by
    have all : vs.filter (fun v => v.landing m.timing ≤ now) = vs :=
      List.filter_eq_self.mpr fun v hv => decide_eq_true (due v hv)
    exact (eagerly_eq_advanceTo h sorted now).trans (by
      change ((start m).visits (vs.filter fun v => v.landing m.timing ≤ now)).advanceTo now = _
      rw [all])
  refine ⟨visits_machine vs _, ?_, ?_, eager, ?_, ?_⟩
  · rw [visits_values]
    simp [start]
  · intro v hv
    obtain ⟨rest, rfl⟩ := List.getLast?_eq_some_iff.mp hv
    have last : ∀ w ∈ rest ++ [v], w.landing m.timing ≤ v.landing m.timing := by
      intro w hw
      rcases List.mem_append.mp hw with hw | hw
      · exact (List.pairwise_append.mp sorted).2.2 w hw v (List.mem_singleton_self v)
      · rw [List.mem_singleton.mp hw]
    have latest := visit_advanceTo v (visits_onTime rest h)
    rw [visits_timing] at latest
    rw [eager _ last, visits_append]
    exact latest
  · rintro ps rfl early
    exact pausedVisits_eq early
  · intro a b
    refine ⟨advanceTo_max a b _, ?_⟩
    have both := congrArg Journal.machine (advanceTo_max a b (start m))
    simp only [advanceTo_machine] at both
    exact both

/-- The first frame of a new machine. -/
def firstFrame : Machine (Recorded Unit) :=
  (Machine.new ⟨.ntsc, .hardware⟩ .new ⟨(), []⟩ (.new fun _ => 0)).openFrame

/-- Rendering is switched on, and the status is read after it. -/
def switchAndLook : List Visit :=
  [⟨100, fun _ => 0, 0x2001, some 8, by decide⟩, ⟨200, fun _ => 0, 0x2002, none, by decide⟩]

theorem firstFrame_reachable : firstFrame.Reachable := by
  have begun : (Machine.new ⟨.ntsc, .hardware⟩ .new (⟨(), []⟩ : Recorded Unit)
      (.new fun _ => 0)).beginFrame = .ok firstFrame := rfl
  exact (Machine.Reachable.new _ _ _ _).move (.opened begun)

theorem visits_eagerly_switchAndLook :
    (start firstFrame).eagerly switchAndLook 200 = (start firstFrame).visits switchAndLook :=
  (visits_eagerly firstFrame_reachable rfl (by decide)).2.2.1
    ⟨200, fun _ => 0, 0x2002, none, by decide⟩ rfl

end Journal

end PictureUnit
