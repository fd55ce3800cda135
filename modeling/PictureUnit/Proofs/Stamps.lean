import PictureUnit.Proofs.Annals
import PictureUnit.Proofs.Later
import PictureUnit.Proofs.Shown
import PictureUnit.Proofs.StatusRead

/-!
# The stamps of a frame

The cartridge gets a cycle with every address that it sees, from the clock of the dots for a fetch and from
the processor's clock for an access. A write lands a dot later than it was made, and catching up to it goes
past its cycle by a part of a dot. Still the two clocks never disagree on what was first: the dots that
begin before a landing are executed before it, all others after it, and accesses a processor cycle apart
land in their order. So the stamps never decrease.
-/

set_option autoImplicit false

namespace PictureUnit

/-- What happens at one cycle of a frame: a dot begins, or an access lands on a machine that has caught
up. -/
inductive Occasion (κ : Type) where
  | dot (moment : Moment κ)
  | landing (turn : Turn) (machine : Machine κ)

/-- The register that a turn goes to, if it goes to one. -/
def Turn.register? (t : Turn) : Option Register :=
  match t.access with
  | .read address => some (.ofAddress address)
  | .write address _ => if address = transferAddress then none else some (.ofAddress address)
  | .transfer _ | .catchUp _ => none

/-- The cycle at which an access to a register lands: a read at its own, a write with its delay. -/
def Turn.landing (timing : Timing) (t : Turn) : Nat :=
  match t.access with
  | .read _ | .transfer _ | .catchUp _ => t.cycle
  | .write address _ => t.cycle + (Register.ofAddress address).writeDelay * timing.dot

theorem Turn.exists_of_register {t : Turn} (h : t.register?.isSome) :
    (∃ cycle memory address, t = ⟨cycle, memory, .read address⟩)
      ∨ ∃ cycle memory address byte, address ≠ transferAddress
        ∧ t = ⟨cycle, memory, .write address byte⟩ := by
  obtain ⟨cycle, memory, access⟩ := t
  cases access with
  | read address => exact .inl ⟨cycle, memory, address, rfl⟩
  | write address byte =>
    refine .inr ⟨cycle, memory, address, byte, fun page => ?_, rfl⟩
    have moves : (⟨cycle, memory, .write address byte⟩ : Turn).register? = none := if_pos page
    rw [moves] at h
    cases h
  | transfer page => cases h
  | catchUp target => cases h

theorem Turn.cycle_le_landing (timing : Timing) (t : Turn) : t.cycle ≤ t.landing timing := by
  unfold landing
  split
  · exact Nat.le_refl _
  · exact Nat.le_refl _
  · exact Nat.le_refl _
  · exact Nat.le_add_right _ _

/-- The address that an access puts out when it lands. -/
def Machine.shownBy? {κ : Type} (t : Turn) (m : Machine κ) : Option Nat :=
  match t.access with
  | .read address => m.shownByRead? (.ofAddress address)
  | .write address byte =>
    if m.warmingUp && (Register.ofAddress address).heldBackInWarmUp then none
    else m.shownByWrite? (.ofAddress address) byte
  | .transfer _ | .catchUp _ => none

namespace Occasion

variable {κ : Type} {a b : Occasion κ} {s t : Nat}

def moment? : Occasion κ → Option (Moment κ)
  | .dot moment => some moment
  | .landing _ _ => none

def turn? : Occasion κ → Option Turn
  | .dot _ => none
  | .landing turn _ => some turn

def cycle : Occasion κ → Nat
  | .dot moment => moment.before.clock.count
  | .landing turn machine => turn.landing machine.timing

/-- The address that the cartridge sees, if any, with its cycle. -/
def stamp? (a : Occasion κ) : Option (Nat × Nat) :=
  (match a with
    | .dot moment => moment.before.circuit.shown? moment.line moment.dot
    | .landing turn machine => machine.shownBy? turn).map (·, a.cycle)

/-- What goes on at `now` comes later: after a dot that has begun before, or after an access that has
landed by then. -/
def Over (now : Nat) (a : Occasion κ) : Prop :=
  match a with
  | .dot _ => a.cycle < now
  | .landing _ _ => a.cycle ≤ now

theorem Over.mono (h : a.Over s) (le : s ≤ t) : a.Over t := by
  cases a with
  | dot moment => exact Nat.lt_of_lt_of_le h le
  | landing turn machine => exact Nat.le_trans h le

theorem Over.cycle_le (h : a.Over s) : a.cycle ≤ s := by
  cases a with
  | dot moment => exact Nat.le_of_lt h
  | landing turn machine => exact h

theorem stamp?_cycle {seen : Nat × Nat} (h : a.stamp? = some seen) : seen.2 = a.cycle := by
  obtain ⟨address, -, rfl⟩ := Option.map_eq_some_iff.mp h
  rfl

/-- The stamps of occasions in order never decrease. -/
theorem stamps_sorted {c : List (Occasion κ)} (h : c.Pairwise fun a b => a.Over b.cycle) :
    ((c.filterMap stamp?).map Prod.snd).Pairwise (· ≤ ·) := by
  rw [List.pairwise_map, List.pairwise_filterMap]
  refine h.imp fun earlier seen first seen' second => ?_
  rw [stamp?_cycle first, stamp?_cycle second]
  exact earlier.cycle_le

theorem moments_dots (l : List (Moment κ)) : (l.map dot).filterMap moment? = l := by
  rw [List.filterMap_map]
  exact List.filterMap_some

theorem turns_dots (l : List (Moment κ)) : (l.map dot).filterMap turn? = [] := by
  rw [List.filterMap_map]
  exact List.filterMap_none l

end Occasion

namespace Machine

variable {κ : Type} [Cartridge κ]

/-- What a turn comes down to: the dots of catching up, and then the access to a register. -/
def occasionsOfTurn (m : Machine κ) (t : Turn) : List (Occasion κ) :=
  ((m.meet t).trailOfAccess t.access).map .dot
    ++ if t.register?.isSome then [.landing t ((m.meet t).advanceTo (t.landing m.timing))] else []

/-- What some turns and the closing of the frame come down to. -/
def occasions : List Turn → Machine κ → List (Occasion κ)
  | [], m => (m.trailTo m.clock.frameEnd).map .dot
  | t :: rest, m => m.occasionsOfTurn t ++ occasions rest (m.turn t).2

section

variable {o m n : Machine (Recorded κ)} {c : List (Occasion (Recorded κ))} {bound target : Nat}

/-- Since `o` the cartridge has seen the addresses of these occasions, and no others. They came in the
order of their cycles, they are over by `bound`, and they are over when the next dot begins. -/
structure Seen (o : Machine (Recorded κ)) (c : List (Occasion (Recorded κ))) (bound : Nat)
    (m : Machine (Recorded κ)) : Prop where
  observed : m.circuit.cartridge.observed
    = (c.filterMap Occasion.stamp?).reverse ++ o.circuit.cartridge.observed
  ordered : c.Pairwise fun a b => a.Over b.cycle
  done : ∀ a ∈ c, a.Over bound
  caught : m.clock.position ≠ .blank → ∀ a ∈ c, a.Over m.clock.count

omit [Cartridge κ] in
theorem Seen.refl (o : Machine (Recorded κ)) (bound : Nat) : Seen o [] bound o :=
  ⟨rfl, .nil, List.forall_mem_nil _, fun _ => List.forall_mem_nil _⟩

omit [Cartridge κ] in
theorem Seen.mono (h : Seen o c bound m) {later : Nat} (le : bound ≤ later) : Seen o c later m :=
  { h with done := fun a ha => (h.done a ha).mono le }

omit [Cartridge κ] in
/-- What shows the cartridge nothing and takes no time changes nothing. -/
theorem Seen.aside (h : Seen o c bound m) (clock : n.clock = m.clock)
    (observed : n.circuit.cartridge.observed = m.circuit.cartridge.observed) : Seen o c bound n := by
  refine ⟨observed.trans h.observed, h.ordered, h.done, ?_⟩
  rw [clock]
  exact h.caught

omit [Cartridge κ] in
theorem Seen.meet (h : Seen o c bound m) (t : Turn) : Seen o c bound (m.meet t) := h.aside rfl rfl

omit [Cartridge κ] in
/-- One more occasion, which comes after all others. -/
theorem Seen.append (h : Seen o c bound m) {a : Occasion (Recorded κ)} {later : Nat}
    (le : bound ≤ later) (ordered : ∀ b ∈ c, b.Over a.cycle) (done : a.Over later)
    (observed : n.circuit.cartridge.observed = a.stamp?.toList ++ m.circuit.cartridge.observed)
    (caught : n.clock.position ≠ .blank → ∀ b ∈ c ++ [a], b.Over n.clock.count) :
    Seen o (c ++ [a]) later n := by
  refine ⟨?_, List.pairwise_append.mpr ⟨h.ordered, List.pairwise_singleton _ _, fun b hb d hd => ?_⟩,
    fun b hb => ?_, caught⟩
  · rw [observed, h.observed, List.filterMap_append, List.reverse_append, List.append_assoc]
    cases shown : a.stamp? with
    | none => rw [List.filterMap_cons_none shown]; rfl
    | some seen => rw [List.filterMap_cons_some shown]; rfl
  · rw [List.mem_singleton.mp hd]
    exact ordered b hb
  · obtain old | new := List.mem_append.mp hb
    · exact (h.done b old).mono le
    · rw [List.mem_singleton.mp new]
      exact done

theorem Seen.dot (h : Seen o c bound m) {line : Line} {dot : Nat}
    (standing : m.clock.position = .raster line dot) (early : m.clock.count < bound) :
    Seen o (c ++ [.dot ⟨m, line, dot⟩]) bound (m.step line dot) := by
  have before := h.caught (by rw [standing]; exact Position.noConfusion)
  have length : 0 < m.timing.dot := m.config.region.dot_pos
  have count := step_count line dot m
  refine h.append (Nat.le_refl _) before early ?_ fun _ a ha => ?_
  · rw [step_circuit]
    exact Circuit.dot_observed line dot m.clock.count m.config.limit m.circuit
  · rw [count]
    obtain old | new := List.mem_append.mp ha
    · exact (before a old).mono (Nat.le_add_right _ _)
    · rw [List.mem_singleton.mp new]
      exact Nat.lt_add_of_pos_right length

theorem Seen.advanceTo (h : Seen o c bound m) (le : target ≤ bound) :
    Seen o (c ++ (m.trailTo target).map .dot) bound (m.advanceTo target) := by
  fun_induction Machine.advanceTo target m generalizing c with
  | case1 m _ blank =>
    rw [trailTo_blank blank, List.map_nil, List.append_nil]
    refine ⟨?_, h.ordered, h.done, fun off => absurd ?_ off⟩
    · rw [passBlank_cartridge]
      exact h.observed
    · rw [passBlank_position, blank]
  | case2 m late line dot standing ih =>
    have next := ih (h.dot standing (Nat.lt_of_lt_of_le late le))
    rw [trailTo_raster standing late, List.map_cons, List.append_cons]
    exact next
  | case3 m caught =>
    rw [trailTo_of_le (Nat.not_lt.mp caught), List.map_nil, List.append_nil]
    exact h

theorem Seen.landByte (h : Seen o c bound m) (byte : UInt8) : Seen o c bound (m.landByte byte) :=
  h.aside (landByte_still byte m).clock (landByte_observed byte m)

/-- A transfer shows the cartridge no address, and all its dots have begun when it is over. -/
theorem Seen.moveBytes (h : Seen o c bound m) (addresses : List Nat)
    (le : (addresses.foldl moveByte m).host.cycle ≤ bound) :
    Seen o (c ++ (trailOfBytes addresses m).map .dot) bound (addresses.foldl moveByte m) := by
  induction addresses generalizing c m with
  | nil =>
    rw [trailOfBytes, List.map_nil, List.append_nil]
    exact h
  | cons address rest ih =>
    have waiting : Seen o c bound (m.awaiting address) := h.aside rfl rfl
    have cycle : (m.moveByte address).host.cycle = (m.awaiting address).host.cycle :=
      (congrArg Host.cycle (landByte_host _ _)).trans (advanceTo_cycle _ _)
    have soon : (m.awaiting address).host.cycle ≤ bound := by
      rw [List.foldl_cons, foldl_moveByte, cycle] at le
      omega
    have moved := ih ((waiting.advanceTo soon).landByte _) le
    rw [trailOfBytes, List.map_append, ← List.append_assoc]
    exact moved

theorem Seen.transferPage (h : Seen o c bound m) (page : UInt8) (le : m.transferEnd ≤ bound) :
    Seen o (c ++ (m.trailOfPage page).map .dot) bound (m.transferPage page) := by
  have waiting : Seen o c bound (m.stall m.alignment) := h.aside rfl rfl
  have soon : (m.stall m.alignment).host.cycle ≤ bound := by
    refine Nat.le_trans (Nat.add_le_add_left ?_ _) le
    exact Nat.mul_le_mul_right _ (Nat.le_add_right _ _)
  have aligned := waiting.advanceTo soon
  rw [← transferPage_cycle page m] at le
  unfold Machine.transferPage at le ⊢
  rw [trailOfPage, List.map_append, ← List.append_assoc]
  dsimp only at le ⊢
  split
  · rw [List.map_nil, List.append_nil]
    exact copyPage_keeps (P := Seen o _ bound)
      (fun n address hn => (hn.aside (n := (n.takeByte address).2) rfl rfl).landByte _)
      (fun n cycles hn => hn.aside rfl rfl) aligned page
  · next slow =>
    rw [if_neg slow] at le
    exact aligned.moveBytes (pageAddresses page) le

omit [Cartridge κ] in
theorem landing_le_goesOn {t : Turn} (register : t.register?.isSome) :
    t.landing m.timing ≤ m.goesOn t := by
  obtain ⟨cycle, memory, address, rfl⟩ | ⟨cycle, memory, address, byte, plain, rfl⟩ :=
    Turn.exists_of_register register
  · exact Nat.le_add_right _ _
  · have delay : (Register.ofAddress address).writeDelay ≤ 1 := by
      unfold Register.writeDelay
      split <;> decide
    have short : m.timing.dot ≤ m.timing.cpuCycle := m.config.region.dot_le_cpuCycle
    have on : m.goesOn ⟨cycle, memory, .write address byte⟩ = cycle + m.timing.cpuCycle := if_neg plain
    rw [on]
    exact Nat.add_le_add_left ((Nat.mul_le_mul_right _ delay).trans ((Nat.one_mul _).le.trans short)) _

/-- An access to a register takes no time when it has caught up, and shows the cartridge its address. -/
theorem turn_of_register {t : Turn} (register : t.register?.isSome) (m : Machine (Recorded κ)) :
    let landed := (m.meet t).advanceTo (t.landing m.timing)
    (m.meet t).trailOfAccess t.access = (m.meet t).trailTo (t.landing m.timing)
      ∧ (m.turn t).2.clock = landed.clock
      ∧ (m.turn t).2.circuit.cartridge.observed
        = ((landed.shownBy? t).map (·, t.landing m.timing)).toList
          ++ landed.circuit.cartridge.observed := by
  obtain ⟨cycle, memory, address, rfl⟩ | ⟨cycle, memory, address, byte, plain, rfl⟩ :=
    Turn.exists_of_register register
  · exact ⟨rfl, (readRegister_still (.ofAddress address) cycle _).clock,
      readRegister_observed (.ofAddress address) cycle _⟩
  · let t : Turn := ⟨cycle, memory, .write address byte⟩
    let landed := (m.meet t).advanceTo (t.landing m.timing)
    have turned : (m.turn t).2 = landed.put (.ofAddress address) byte (t.landing m.timing) := if_neg plain
    refine ⟨if_neg plain, ?_, ?_⟩
    · exact (congrArg Machine.clock turned).trans (put_still _ _ _ _).clock
    · exact (congrArg (·.circuit.cartridge.observed) turned).trans (put_observed _ _ _ _)

/-- An access that lands after all that went before. -/
theorem Seen.land (h : Seen o c bound m) {t : Turn} (register : t.register?.isSome)
    (le : bound ≤ t.landing m.timing) :
    Seen o (c ++ m.occasionsOfTurn t) (t.landing m.timing) (m.turn t).2 := by
  obtain ⟨trail, clock, observed⟩ := turn_of_register register m
  have met : Seen o c (t.landing m.timing) (m.meet t) := (h.meet t).mono le
  have landed := met.advanceTo (Nat.le_refl (t.landing m.timing))
  have timing : ((m.meet t).advanceTo (t.landing m.timing)).timing = m.timing := advanceTo_timing _ _
  have cycle : (Occasion.landing t ((m.meet t).advanceTo (t.landing m.timing))).cycle
      = t.landing m.timing := congrArg (t.landing ·) timing
  rw [occasionsOfTurn, trail, if_pos register, ← List.append_assoc]
  refine landed.append (Nat.le_refl _) (fun a ha => ?_) ?_ ?_ fun off a ha => ?_
  · rw [cycle]
    exact landed.done a ha
  · exact cycle.le
  · rw [observed, Occasion.stamp?, cycle]
  · rw [clock] at off ⊢
    have caught := (advanceTo_settled (t.landing m.timing) (m.meet t)).resolve_right fun h => off h.1
    obtain old | new := List.mem_append.mp ha
    · exact landed.caught off a old
    · rw [List.mem_singleton.mp new]
      exact cycle.le.trans caught

/-- A turn that the processor takes when it can go on adds its occasions. Its access may not land before
the frame. -/
theorem Seen.turn {start : Nat} (h : Seen o c (max start bound) m) {t : Turn} (next : bound ≤ t.cycle)
    (inside : t.register?.isSome → start ≤ t.landing m.timing) :
    Seen o (c ++ m.occasionsOfTurn t) (max start (m.goesOn t)) (m.turn t).2 := by
  by_cases register : t.register?.isSome
  · have late : t.cycle ≤ t.landing m.timing := t.cycle_le_landing m.timing
    have landed := h.land register (max_le (inside register) (next.trans late))
    exact landed.mono ((landing_le_goesOn register).trans (le_max_right _ _))
  · have later : max start bound ≤ max start (m.goesOn t) :=
      max_le_max_left start (next.trans (m.cycle_le_goesOn t))
    have met : Seen o c (max start (m.goesOn t)) (m.meet t) := (h.meet t).mono later
    rw [occasionsOfTurn, if_neg register, List.append_nil]
    obtain ⟨cycle, memory, access⟩ := t
    cases access with
    | read address => exact absurd rfl register
    | write address byte =>
      have page : address = transferAddress := by
        by_contra plain
        apply register
        rw [Turn.register?]
        simp only [if_neg plain, Option.isSome_some]
      simp only [Machine.turn, perform, Machine.write, trailOfAccess, goesOn, if_pos page] at met ⊢
      exact met.transferPage byte (le_max_right _ _)
    | transfer page => exact met.transferPage page (le_max_right _ _)
    | catchUp target => exact met.advanceTo ((le_max_right _ _).trans (le_max_right _ _))

/-- The turns of a frame, each taken when the processor can go on, and the closing of the frame. -/
theorem Seen.turns {start : Nat} {ts : List Turn} (h : Seen o c (max start bound) m)
    (timing : m.timing = o.timing) (spaced : ts.IsChain fun t u => o.goesOn t ≤ u.cycle)
    (next : ∀ t ∈ ts.head?, bound ≤ t.cycle)
    (inside : ∀ t ∈ ts, t.register?.isSome → start ≤ t.landing o.timing) :
    ∃ later, Seen o (c ++ m.occasions ts) later
      ((m.afterTurns ts).advanceTo (m.afterTurns ts).clock.frameEnd) := by
  induction ts generalizing c m bound with
  | nil => exact ⟨_, (h.mono (le_max_left _ m.clock.frameEnd)).advanceTo (le_max_right _ _)⟩
  | cons t rest ih =>
    obtain ⟨following, spaced⟩ := List.isChain_cons.mp spaced
    rw [List.forall_mem_cons, ← timing] at inside
    have turned := h.turn (next t rfl) inside.1
    rw [goesOn_timing timing] at turned
    rw [timing] at inside
    rw [occasions, ← List.append_assoc]
    exact ih turned ((turn_timing t m).trans timing) spaced following inside.2

end

section

variable {o m n : Machine κ} {past : List (Moment κ)}

theorem moments_occasionsOfTurn (m : Machine κ) (t : Turn) :
    (m.occasionsOfTurn t).filterMap Occasion.moment? = (m.meet t).trailOfAccess t.access := by
  rw [occasionsOfTurn, List.filterMap_append, Occasion.moments_dots]
  split
  · exact List.append_nil _
  · exact List.append_nil _

/-- The dots among the occasions of a frame are the dots since it was opened. -/
theorem SoFar.turns (ho : o.OnTime) (h : SoFar o past m) (ts : List Turn) :
    SoFar o (((m.occasions ts).filterMap Occasion.moment?).reverse ++ past)
      ((m.afterTurns ts).advanceTo (m.afterTurns ts).clock.frameEnd) := by
  induction ts generalizing past m with
  | nil =>
    rw [occasions, Occasion.moments_dots]
    exact (soFar_telling ho).advanceTo h _
  | cons t rest ih =>
    rw [occasions, List.filterMap_append, moments_occasionsOfTurn, List.reverse_append, List.append_assoc]
    exact ih ((soFar_telling ho).turn h t)

theorem turns_occasions (ts : List Turn) (m : Machine κ) :
    (m.occasions ts).filterMap Occasion.turn? = ts.filter fun t => t.register?.isSome := by
  induction ts generalizing m with
  | nil => exact Occasion.turns_dots _
  | cons t rest ih =>
    rw [occasions, occasionsOfTurn, List.filterMap_append, List.filterMap_append, Occasion.turns_dots, ih,
      List.filter_cons]
    split <;> rfl

/-- Accesses land in the region of the frame. -/
theorem turn_of_landing {ts : List Turn} {t : Turn} {p : Machine κ}
    (mem : .landing t p ∈ m.occasions ts) : t ∈ ts ∧ t.register?.isSome ∧ p.timing = m.timing := by
  induction ts generalizing m with
  | nil =>
    obtain ⟨moment, -, dot⟩ := List.mem_map.mp mem
    cases dot
  | cons u rest ih =>
    obtain here | later := List.mem_append.mp mem
    · obtain dot | landing := List.mem_append.mp here
      · obtain ⟨moment, -, dot⟩ := List.mem_map.mp dot
        cases dot
      · split at landing
        · next register =>
          obtain ⟨rfl, rfl⟩ := Occasion.landing.inj (List.mem_singleton.mp landing)
          exact ⟨List.mem_cons_self, register, advanceTo_timing _ _⟩
        · cases landing
    · obtain ⟨told, register, timing⟩ := ih later
      exact ⟨List.mem_cons_of_mem _ told, register, timing.trans (turn_timing u m)⟩

/-- Every dot of a frame begins where the final length of the frame puts it. -/
theorem SoFar.count_eq (h : SoFar o past n) (ho : o.OnTime) {x : Moment κ} (mem : x ∈ past) :
    x.before.clock.count = o.clock.frameStart + n.clock.dotsBefore x.line x.dot * o.timing.dot := by
  have onTime := h.onTime x mem
  have standing := h.standing x mem
  have after : x.after.OnTime := step_onTime onTime standing
  obtain ⟨ds, onward⟩ := h.onward x mem
  have ledger : x.before.ledger = o.ledger :=
    (step_ledger x.line x.dot x.before).symm.trans (onward.ledger.symm.trans h.covers.ledger)
  have timing : x.before.timing = o.timing := congrArg (Config.timing ∘ Ledger.config) ledger
  have start : x.before.clock.frameStart = o.clock.frameStart :=
    (step_frameStart x.line x.dot onTime.paced).symm.trans
      ((onward.frameStart after).symm.trans (h.covers.frameStart ho))
  -- Before the pre-render line is over the dots before a place are as many in a short frame.
  have same : n.clock.dotsBefore x.line x.dot = x.before.clock.dotsBefore x.line x.dot := by
    unfold Clock.dotsBefore
    cases line : x.line with
    | preRender => rfl
    | visible y =>
      have settled : x.after.clock.position.unsettled = false := by
        rw [Moment.after, step_position onTime.paced standing, Position.next_unsettled, line]
        exact decide_eq_false fun h => Line.noConfusion h.1
      have short : n.clock.short = x.before.clock.short := by
        rw [onward.short_of_settled after settled, Moment.after, step_short _ _ onTime.paced, shortAfter,
          if_neg fun h => Line.noConfusion (line.symm.trans h.1)]
      rw [Clock.dropped, Clock.dropped, short]
  rw [onTime.paced.count_eq standing, start, timing, same]

omit [Cartridge κ] in
/-- The dot of a place of the raster is over by the end of the raster. -/
theorem dotsBefore_lt_of_mem {clock : Clock} {x : Line × Nat} (mem : x ∈ raster clock.short) :
    clock.dotsBefore x.1 x.2 + 1 ≤ rasterDots - clock.short.toNat := by
  obtain ⟨line, dot⟩ := x
  obtain ⟨inside, there⟩ := (mem_raster _ line dot).mp mem
  apply Clock.dotsBefore_lt
  cases line with
  | visible y => exact Nat.le_of_lt_succ inside
  | preRender =>
    cases short : clock.short with
    | false => exact Nat.le_of_lt_succ inside
    | true =>
      have last : dot ≠ 340 := fun last => there ⟨short, rfl, last⟩
      simp only [dotsPerLine] at inside
      simp only [Position.lastDot, dotsPerLine, if_true]
      omega

omit [Cartridge κ] in
/-- The dots of the raster begin before the frame ends. -/
theorem start_le_frameEnd (h : n.OnTime) {x : Line × Nat} (mem : x ∈ raster n.clock.short) :
    n.clock.frameStart + n.clock.dotsBefore x.1 x.2 * n.timing.dot ≤ n.clock.frameEnd := by
  have earlier : n.clock.dotsBefore x.1 x.2 ≤ rasterDots - n.clock.short.toNat :=
    Nat.le_of_succ_le (dotsBefore_lt_of_mem mem)
  exact (Nat.add_le_add_left (Nat.mul_le_mul_right _ earlier) _).trans
    (Clock.rasterEnd_le_frameEnd n.config.region n.clock h.paced)

end

omit [Cartridge κ] in
/-- The second half of a new address is seen one dot after its write, whether rendering is on or off. -/
theorem stamp_of_commit {t : Turn} {p : Machine κ} {address : Nat} {byte : UInt8}
    (access : t.access = .write address byte) (register : Register.ofAddress address = .address)
    (warm : p.warmingUp = false) (second : p.circuit.registers.scroll.second = true) :
    (Occasion.landing t p).stamp? = some
      ((p.circuit.registers.scroll.writeAddress byte).current.bus, t.cycle + p.timing.dot) := by
  have delay : Register.address.writeDelay = 1 := rfl
  simp only [Occasion.stamp?, Occasion.cycle, Turn.landing, shownBy?, access, register, warm,
    Bool.false_and, Bool.false_eq_true, if_false, shownByWrite?, second, if_true, Option.map_some, delay,
    Nat.one_mul]

omit [Cartridge κ] in
/-- An access to the video memory that rendering does not block is seen at its own cycle. -/
theorem stamp_of_data {t : Turn} {p : Machine κ} (register : t.register? = some .data)
    (off : p.fetching = false) : (Occasion.landing t p).stamp?
      = some (p.circuit.registers.scroll.current.bus, t.cycle) := by
  have bus : p.currentBus? = some p.circuit.registers.scroll.current.bus := by
    rw [currentBus?, off]
    rfl
  have delay : Register.data.writeDelay = 0 := rfl
  have free : Register.data.heldBackInWarmUp = false := rfl
  obtain ⟨cycle, memory, address, rfl⟩ | ⟨cycle, memory, address, byte, plain, rfl⟩ :=
    Turn.exists_of_register (t := t) (by rw [register]; rfl)
  · obtain own : Register.ofAddress address = .data := Option.some.inj register
    simp only [Occasion.stamp?, Occasion.cycle, Turn.landing, shownBy?, shownByRead?, own, if_true, bus,
      Option.map_some]
  · have goes : some (Register.ofAddress address) = some .data := (if_neg plain).symm.trans register
    have own := Option.some.inj goes
    simp only [Occasion.stamp?, Occasion.cycle, Turn.landing, shownBy?, own, free, Bool.and_false,
      Bool.false_eq_true, if_false, shownByWrite?, bus, Option.map_some, delay, Nat.zero_mul, Nat.add_zero]

/-- What the cartridge sees of a frame with some turns, each address with its cycle. -/
def stamps (ts : List Turn) (m : Machine κ) : List (Nat × Nat) :=
  (m.occasions ts).filterMap Occasion.stamp?

/-- All that the cartridge has seen of the address lines from the opening of a frame to its end. -/
structure Stamped (o : Machine (Recorded κ)) (ts : List Turn) (n : Machine (Recorded κ)) : Prop where
  observed : n.circuit.cartridge.observed = (o.stamps ts).reverse ++ o.circuit.cartridge.observed
  sorted : ((o.stamps ts).map Prod.snd).Pairwise (· ≤ ·)
  inside : ∀ seen ∈ o.stamps ts, o.clock.frameStart ≤ seen.2 ∧ seen.2 ≤ n.clock.frameEnd
  /-- An access is seen after the dots that begin before it lands, and before the others. -/
  ordered : (o.occasions ts).Pairwise fun a b => a.Over b.cycle
  dots : ((o.occasions ts).filterMap Occasion.moment?).map Moment.place = raster n.clock.short
  fetches : ∀ x address, .dot x ∈ o.occasions ts → x.before.circuit.shown? x.line x.dot = some address →
    (Occasion.dot x).stamp? = some
      (address, o.clock.frameStart + n.clock.dotsBefore x.line x.dot * o.timing.dot)
  accesses : (o.occasions ts).filterMap Occasion.turn? = ts.filter fun t => t.register?.isSome
  commits : ∀ t p address byte, .landing t p ∈ o.occasions ts → t.access = .write address byte →
    Register.ofAddress address = .address → p.warmingUp = false →
    p.circuit.registers.scroll.second = true → (Occasion.landing t p).stamp? = some
      ((p.circuit.registers.scroll.writeAddress byte).current.bus, t.cycle + o.timing.dot)
  data : ∀ t p, .landing t p ∈ o.occasions ts → t.register? = some .data → p.fetching = false →
    (Occasion.landing t p).stamp? = some (p.circuit.registers.scroll.current.bus, t.cycle)

/-- The closing of a frame whose accesses land inside it, when its dots are told and its addresses seen. -/
theorem Seen.stamped {o n : Machine (Recorded κ)} {ts : List Turn} {bound : Nat}
    (h : Seen o (o.occasions ts) bound n)
    (soFar : SoFar o ((o.occasions ts).filterMap Occasion.moment?).reverse n) (ho : o.OnTime)
    (dots : ((o.occasions ts).filterMap Occasion.moment?).map Moment.place = raster n.clock.short)
    (landings : ∀ t ∈ ts, t.register?.isSome → o.clock.frameStart ≤ t.landing o.timing
      ∧ t.landing o.timing ≤ n.clock.frameEnd) : Stamped o ts n.closeFrame := by
  have ended := soFar.covers.onTime ho
  have start := soFar.covers.frameStart ho
  have timing : n.timing = o.timing := congrArg (Config.timing ∘ Ledger.config) soFar.covers.ledger
  have starts (x : Moment (Recorded κ)) (mem : .dot x ∈ o.occasions ts) :
      x.before.clock.count = o.clock.frameStart + n.clock.dotsBefore x.line x.dot * o.timing.dot
        ∧ x.place ∈ raster n.clock.short := by
    have listed : x ∈ (o.occasions ts).filterMap Occasion.moment? :=
      List.mem_filterMap.mpr ⟨_, mem, rfl⟩
    exact ⟨soFar.count_eq ho (List.mem_reverse.mpr listed), dots ▸ List.mem_map_of_mem listed⟩
  have inside (a : Occasion (Recorded κ)) (mem : a ∈ o.occasions ts) :
      o.clock.frameStart ≤ a.cycle ∧ a.cycle ≤ n.clock.frameEnd := by
    cases a with
    | dot x =>
      obtain ⟨count, place⟩ := starts x mem
      have last := start_le_frameEnd ended place
      rw [start, timing] at last
      exact ⟨(Nat.le_add_right _ _).trans count.ge, count.trans_le last⟩
    | landing t p =>
      obtain ⟨told, register, same⟩ := turn_of_landing mem
      rw [Occasion.cycle, same]
      exact landings t told register
  refine ⟨h.observed, Occasion.stamps_sorted h.ordered, fun stamp mem => ?_, h.ordered, dots,
    fun x address mem shown => ?_, turns_occasions ts _, ?_, ?_⟩
  · obtain ⟨a, told, stamped⟩ := List.mem_filterMap.mp mem
    rw [Occasion.stamp?_cycle stamped]
    exact inside a told
  · rw [Occasion.stamp?, Occasion.cycle, shown, (starts x mem).1]
    rfl
  · intro t p address byte mem access register warm second
    rw [← (turn_of_landing mem).2.2]
    exact stamp_of_commit access register warm second
  · intro t p mem register off
    exact stamp_of_data register off

/-- Whenever accesses a processor cycle apart land in an open frame, with writes that land a dot later
and transfers among them, the cartridge sees the addresses of the frame in the order of their cycles:
each fetch at the cycle at which its dot begins, and each access at the cycle on which it lands. -/
theorem stamps_of_frame (m o : Machine (Recorded κ)) (ts : List Turn) (opened : m.beginFrame = .ok o)
    (spaced : ts.IsChain fun t u => o.goesOn t ≤ u.cycle) :
    ∃ n, (o.afterTurns ts).endFrame = .ok n
      ∧ ((∀ t ∈ ts, t.register?.isSome → o.clock.frameStart ≤ t.landing o.timing
          ∧ t.landing o.timing ≤ n.clock.frameEnd) → Stamped o ts n) := by
  obtain rfl := eq_of_beginFrame opened
  have onTime := openFrame_onTime m
  have soFar := (SoFar.refl m.openFrame).turns onTime ts
  rw [List.append_nil] at soFar
  obtain ⟨ds, l, drawn⟩ := afterTurns_draws ts m.openFrame
  have inFrame : (m.openFrame.afterTurns ts).inFrame = true :=
    (congrArg Ledger.inFrame drawn.passes.ledger).trans (openFrame_inFrame m)
  have blank := (advanceTo_frameEnd (drawn.passes.onTime onTime)).1
  refine ⟨_, if_pos inFrame, fun landings => ?_⟩
  obtain ⟨bound, seen⟩ := (Seen.refl m.openFrame (max m.openFrame.clock.frameStart 0)).turns rfl spaced
    (fun _ _ => Nat.zero_le _) fun t mem register => (landings t mem register).1
  have dots := (soFar.settled_once blank).1
  rw [List.reverse_reverse] at dots
  exact seen.stamped soFar onTime dots landings

theorem le_frameEnd_of_endFrame {m n : Machine κ} (h : m.OnTime) (closed : m.endFrame = .ok n) :
    m.clock.frameStart + (m.timing.dotsPerFrame - 1) * m.timing.dot ≤ n.clock.frameEnd := by
  obtain ⟨-, rfl⟩ := eq_of_endFrame closed
  have ending := (advanceTo_onTime m.clock.frameEnd h).paced.frameEnd_eq
  have short : ((m.advanceTo m.clock.frameEnd).clock.short).toNat ≤ 1 := Bool.toNat_le _
  rw [advanceTo_timing, advanceTo_frameStart _ h] at ending
  exact (Nat.add_le_add_left (Nat.mul_le_mul_right _ (Nat.sub_le_sub_left short _)) _).trans ending.ge

/-- An access to a register lands after the dot that the machine stands on, if it comes late enough. -/
theorem dot_mem_occasions {m : Machine (Recorded κ)} {t : Turn} (rest : List Turn)
    (register : t.register?.isSome) {line : Line} {dot : Nat} (place : m.clock.position = .raster line dot)
    (late : m.clock.count < t.landing m.timing) :
    .dot ⟨m.meet t, line, dot⟩ ∈ m.occasions (t :: rest) := by
  refine List.mem_append_left _ (List.mem_append_left _ ?_)
  rw [(turn_of_register register m).1, trailTo_raster (m := m.meet t) place late]
  exact List.mem_map_of_mem List.mem_cons_self

/-- Switches rendering on for some dots, then sets an address and reads what it points at. -/
def peek : List Turn :=
  [⟨0, fun _ => 0, .write 0x2001 8⟩, ⟨87, fun _ => 0, .write 0x2001 0⟩,
    ⟨103, fun _ => 0, .write 0x2006 0x21⟩, ⟨119, fun _ => 0, .write 0x2006 8⟩,
    ⟨135, fun _ => 0, .read 0x2007⟩]

/-- The first write of `peek` lands after the first dot of the frame. -/
theorem turn_peek (m : Machine (Recorded Unit))
    (new : m = .new ⟨.pal, .unlimited⟩ .new ⟨(), []⟩ (.new fun _ => 0)) :
    let n := (m.openFrame.turn ⟨0, fun _ => 0, .write 0x2001 8⟩).2
    n.clock.position = .raster .preRender 1 ∧ n.clock.count = 5 ∧ n.timing = Region.pal.timing
      ∧ n.rendering = true ∧ n.circuit.registers.scroll.current.tileAddress = 0x2000 := by
  intro n
  let v : Visit := ⟨0, fun _ => 0, 0x2001, some 8, mask_decoded⟩
  have timing : m.openFrame.timing = Region.pal.timing := by
    rw [openFrame_timing, new]
    rfl
  have count : m.openFrame.clock.count = 0 := by
    rw [openFrame_count, new]
    rfl
  have reaches : m.openFrame.Reaches 1 .preRender 1 :=
    reaches_line (k := 1) (openFrame_position m) (by decide)
  have first := (reaches_zero (openFrame_position m)).later_succ
  rw [later_zero] at first
  have ready : (m.openFrame.later 1).warmingUp = false := by simp [new]
  have current : (m.openFrame.later 1).circuit.registers.scroll.current.tileAddress = 0x2000 := by
    rw [first, step_circuit, Circuit.dot, if_pos rfl, Circuit.activeStart, openFrame_circuit, new]
    rfl
  have register : v.register = .mask := by
    change Register.ofAddress 0x2001 = .mask
    rfl
  have lands : v.landing m.openFrame.timing = m.openFrame.clock.count + 1 * m.openFrame.timing.dot := by
    change 0 + v.register.writeDelay * m.openFrame.timing.dot = _
    rw [register, count]
    rfl
  have turned : n = ((m.openFrame.later 1).land v).2 := by
    change (m.openFrame.turn v.turn).2 = _
    rw [turn_visit, lands, later]
  have still := land_still v (m.openFrame.later 1)
  have circuit := land_mask v register (show v.byte = some 8 from rfl) ready
  rw [← turned] at still circuit
  have same : n.timing = Region.pal.timing := by
    rw [still.timing, later, advanceTo_timing, timing]
  refine ⟨?_, ?_, same, ?_, ?_⟩
  · rw [still.clock, reaches.place]
  · rw [still.clock, reaches.count, count, timing]
    rfl
  · rw [rendering, circuit]
    change Mask.rendering ⟨8⟩ = true
    decide
  · rw [circuit]
    exact current

/-- The second dot of the frame fetches the name of a tile. -/
theorem fetch_mem_peek (m : Machine (Recorded Unit))
    (new : m = .new ⟨.pal, .unlimited⟩ .new ⟨(), []⟩ (.new fun _ => 0)) :
    ∃ x : Moment (Recorded Unit), .dot x ∈ m.openFrame.occasions peek ∧ x.line = .preRender ∧ x.dot = 1
      ∧ x.before.circuit.shown? .preRender 1 = some 0x2000 := by
  obtain ⟨place, count, timing, on, current⟩ := turn_peek m new
  have fetch := dot_mem_occasions (peek.drop 2) (t := ⟨87, fun _ => 0, .write 0x2001 0⟩) rfl place (by
    rw [count, timing]
    decide)
  exact ⟨_, List.mem_append_right _ fetch, rfl, rfl, (if_pos on).trans (congrArg some current)⟩

/-- A first frame in which tiles are fetched for some dots, and then a byte is read. -/
theorem stamps_of_frame_peek : ∃ o n : Machine (Recorded Unit),
    (Machine.new ⟨.pal, .unlimited⟩ .new ⟨(), []⟩ (.new fun _ => 0)).beginFrame = .ok o
      ∧ (o.afterTurns peek).endFrame = .ok n ∧ Stamped o peek n ∧ (0x2000, 5) ∈ o.stamps peek := by
  let m : Machine (Recorded Unit) := .new ⟨.pal, .unlimited⟩ .new ⟨(), []⟩ (.new fun _ => 0)
  have opened : m.beginFrame = .ok m.openFrame := rfl
  have timing : m.openFrame.timing = Region.pal.timing := openFrame_timing m
  have spaced : peek.IsChain fun t u => m.openFrame.goesOn t ≤ u.cycle :=
    .cons_cons (by decide) (.cons_cons (by decide) (.cons_cons (by decide) (.cons_cons (by decide)
      (.singleton _))))
  obtain ⟨n, closed, stamped⟩ := stamps_of_frame m m.openFrame peek opened spaced
  have start : m.openFrame.clock.frameStart = 0 := openFrame_frameStart m
  have late : 531955 ≤ n.clock.frameEnd := by
    obtain ⟨ds, l, drawn⟩ := afterTurns_draws peek m.openFrame
    have bound := le_frameEnd_of_endFrame (drawn.passes.onTime (openFrame_onTime m)) closed
    rw [drawn.passes.frameStart (openFrame_onTime m), afterTurns_timing, start, timing] at bound
    exact bound
  have early : ∀ t ∈ peek, t.landing Region.pal.timing ≤ 531955 := by decide
  have told : Stamped m.openFrame peek n := stamped fun t mem _ => by
    rw [start, timing]
    exact ⟨Nat.zero_le _, (early t mem).trans late⟩
  obtain ⟨x, mem, line, dot, shown⟩ := fetch_mem_peek m rfl
  refine ⟨m.openFrame, n, opened, closed, told, List.mem_filterMap.mpr ⟨_, mem, ?_⟩⟩
  rw [← line, ← dot] at shown
  rw [told.fetches x _ mem shown, line, dot, start, timing]
  rfl

end Machine

end PictureUnit
