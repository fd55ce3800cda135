import PictureUnit.Proofs.Rendered
import PictureUnit.Proofs.Script

/-!
# Frames in which rendering is not switched

A frame that renders from its first dot on renews everything before it is looked at: the strips and the
tiles of the first line come from the pre-render line, and the search clears its memory before it begins
on that line. A frame that does not render looks at nothing that was left. So in a frame in which
rendering is not switched the pixels, the flags and the lines are trusted throughout.
-/

set_option autoImplicit false

namespace PictureUnit

namespace Position

/-- Past the first dot of a line. -/
def inLine : Position → Bool
  | .raster _ d => d != 0
  | .blank => false

/-- Past the tile fetches of the pre-render line. -/
def fetched : Position → Bool
  | .raster .preRender d => 336 < d
  | .raster (.visible _) _ | .blank => true

/-- Past the start of the first search. -/
def searched : Position → Bool
  | .raster .preRender _ => false
  | .raster (.visible y) d => 0 < y.val || 65 < d
  | .blank => true

end Position

namespace Trust

/-- The search has begun anew: where it stands, what it finds and what it latches are known. -/
structure Renewed (t : Trust) : Prop where
  latch : t.latch = true
  walk : t.walk = true
  search : t.search = true

/-- What is trusted in a frame in which rendering is not switched. -/
structure Whole (rendering : Bool) (p : Position) (t : Trust) : Prop where
  flags : t.flags = true
  lines : t.lines = 0xFF
  since : rendering = true → p.inLine = true → t.since = 0
  pixels : rendering = true → p.fetched = true → t.pixels = true
  search : rendering = true → p.searched = true → t.Renewed

variable {rendering short : Bool} {p : Position} {line : Line} {d : Nat} {t : Trust}

theorem flags_iff : t.flags = true ↔ t.overflow = true ∧ t.hit = true := by
  rw [Trust.flags, Bool.and_eq_true]

/-- A search that was known before a dot, or begins in it, is known after it. -/
theorem Renewed.after (h : t.Renewed ∨ line ≠ .preRender ∧ d = 65 ∧ t.since ≤ 1) :
    t.latchAfter line d = true ∧ t.walkAfter line d = true ∧ t.searchAfter line d = true := by
  rcases h with ⟨latch, walk, search⟩ | ⟨drawn, rfl, recent⟩
  · have walks : t.walkAfter line d = true := by rw [walkAfter, walk, Bool.true_or]
    refine ⟨?_, walks, by rw [searchAfter, search, Bool.true_or]⟩
    simp only [latchAfter, walks, latch, search, Bool.true_or, Bool.and_true, ite_self]
  · simp [latchAfter, walkAfter, searchAfter, drawn, recent, objectFetchStart, objectFetchEnd]

theorem Renewed.dot (h : t.Renewed ∨ line ≠ .preRender ∧ d = 65 ∧ t.since ≤ 1) (hd : d ≠ 0) :
    (t.dot line d true).Renewed := by
  obtain ⟨latch, walk, search, -⟩ := t.dot_rendered line hd
  obtain ⟨latched, walked, searched⟩ := Renewed.after h
  exact ⟨latch.trans latched, walk.trans walked, search.trans searched⟩

theorem Renewed.idle (h : t.Renewed) (line : Line) (hr : d = 0 ∨ rendering = false) :
    (t.dot line d rendering).Renewed := by
  obtain ⟨latch, walk, search, -⟩ := t.dot_idle line hr
  exact ⟨latch.trans h.latch, walk.trans h.walk, search.trans h.search⟩

/-- A dot that renders nothing leaves the flags trusted. -/
theorem flags_idle (h : t.flags = true) (line : Line) (hr : d = 0 ∨ rendering = false) :
    (t.dot line d rendering).flags = true := by
  rw [flags_iff] at h ⊢
  obtain ⟨overflow, hit⟩ := t.dot_flags_idle line hr
  rw [overflow, hit, h.1, h.2, Bool.or_true]
  exact ⟨rfl, rfl⟩

/-- When a frame starts, nothing of it has been renewed yet. -/
theorem whole_start (flags : t.flags = true) (lines : t.lines = 0xFF) (rendering : Bool) :
    t.Whole rendering .start where
  flags := flags
  lines := lines
  since _ begun := by cases begun
  pixels _ fetched := by cases fetched
  search _ searched := by cases searched

theorem Whole.withLines (h : t.Whole rendering p) : { t with lines := 0xFF }.Whole rendering p where
  flags := h.flags
  lines := rfl
  since := h.since
  pixels := h.pixels
  search on searched :=
    have known := h.search on searched
    ⟨known.latch, known.walk, known.search⟩

/-- Where the next dot is. -/
theorem next_cases (short : Bool) (line : Line) (d : Nat) :
    (Position.raster line d).next short = .raster line (d + 1) ∧ d < Position.lastDot short line
      ∨ Position.lastDot short line ≤ d
        ∧ (line = .preRender ∧ (Position.raster line d).next short = .raster (.visible ⟨0, by decide⟩) 0
          ∨ ∃ y : Fin screenHeight, line = .visible y
            ∧ ((Position.raster line d).next short = .blank
              ∨ ∃ below, (Position.raster line d).next short = .raster (.visible below) 0
                ∧ below.val = y.val + 1)) := by
  rw [Position.next]
  split
  · next inside => exact .inl ⟨rfl, inside⟩
  · next last =>
    refine .inr ⟨Nat.not_lt.mp last, ?_⟩
    cases line with
    | preRender => exact .inl ⟨rfl, rfl⟩
    | visible y =>
      refine .inr ⟨y, rfl, ?_⟩
      by_cases more : y.val + 1 < screenHeight
      · right
        refine ⟨⟨y.val + 1, more⟩, ?_, rfl⟩
        simp only [Line.next, more, dif_pos]
      · left
        simp only [Line.next, more, dif_neg, not_false_eq_true]

/-- A dot that renders nothing leaves alone what is trusted. -/
theorem Whole.dot_off (h : t.Whole false (.raster line d)) (p : Position) :
    (t.dot line d false).Whole false p where
  flags := flags_idle h.flags line (.inr rfl)
  lines := by rw [dot_lines, h.lines]
  since on := by cases on
  pixels on := by cases on
  search on := by cases on

/-- A rendered line has searched once its search has begun. -/
theorem Whole.begun {y : Fin screenHeight} (h : t.Whole true (.raster (.visible y) d))
    (hd : 0 < y.val ∨ 65 ≤ d) :
    t.Renewed ∨ Line.visible y ≠ .preRender ∧ d = 65 ∧ t.since ≤ 1 := by
  by_cases before : 0 < y.val ∨ 65 < d
  · left
    apply h.search rfl
    simpa [Position.searched] using before
  · have begins : d = 65 := by omega
    have since := h.since rfl (by simp [Position.inLine, begins])
    exact .inr ⟨Line.noConfusion, begins, by omega⟩

/-- A line that renders keeps the pixels, and the pre-render line fetches them. -/
theorem Whole.dot_pixels (h : t.Whole true (.raster line d)) (hd : d ≠ 0)
    (late : line = .preRender → 336 ≤ d) : (t.dot line d true).pixels = true := by
  rw [(dot_rendered line hd t).2.2.2.2]
  cases line with
  | preRender =>
    have reached := late rfl
    have since := h.since rfl (by simpa [Position.inLine] using hd)
    rcases Nat.eq_or_lt_of_le reached with rfl | past
    · simp [since]
    · rw [h.pixels rfl (by simpa [Position.fetched] using past)]
      simp
  | visible y =>
    rw [h.pixels rfl rfl]
    by_cases first : d = objectFetchStart
    · rw [(Renewed.after (h.begun (.inr (by rw [first]; decide)))).2.2]
      simp
    · simp [first]

/-- A rendered dot renews in time. -/
theorem Whole.dot_on (h : t.Whole true (.raster line d)) (hd : d ≠ 0) (short : Bool) :
    (t.dot line d true).Whole true ((Position.raster line d).next short) := by
  have since : t.since = 0 := h.since rfl (by simpa [Position.inLine] using hd)
  have kept : ∀ y, line = .visible y → t.pixels = true := by
    rintro y rfl
    exact h.pixels rfl rfl
  refine ⟨?_, by rw [dot_lines, h.lines], ?_, ?_, ?_⟩
  · have flags := h.flags
    rw [flags_iff] at flags ⊢
    obtain ⟨overflow, hit⟩ := t.dot_flags_rendered line hd
    rw [overflow, hit, flags.1, flags.2, Bool.or_true, Bool.true_and, Bool.true_and]
    cases line with
    | preRender => simp
    | visible y =>
      -- The search can raise a flag only past the clearing, and it has begun by then.
      rw [kept y rfl]
      by_cases low : d ≤ 64
      · simp [low]
      · rw [(Renewed.after (h.begun (.inr (by omega)))).2.1]
        simp
  · intro _ _
    rw [(dot_rendered line hd t).2.2.2.1, since]
  · -- On the pre-render line nothing is fetched in full before dot 336 is done.
    intro _ fetched
    apply h.dot_pixels hd
    rintro rfl
    rcases next_cases short .preRender d with ⟨next, -⟩ | ⟨last, -⟩
    · rw [next] at fetched
      have past : 336 < d + 1 := by simpa [Position.fetched] using fetched
      omega
    · have := Position.le_lastDot short .preRender
      omega
  · intro _ searched
    refine Renewed.dot ?_ hd
    rcases next_cases short line d with ⟨next, -⟩ | ⟨last, ⟨rfl, next⟩ | ⟨y, rfl, -⟩⟩
    · rw [next] at searched
      cases line with
      | preRender => cases searched
      | visible y =>
        have begun : 0 < y.val ∨ 65 < d + 1 := by simpa [Position.searched] using searched
        exact h.begun (by omega)
    · rw [next] at searched
      cases searched
    · have := Position.le_lastDot short (.visible y)
      exact h.begun (.inr (by omega))

/-- The first dot of a line only starts it. -/
theorem Whole.dot_first (h : t.Whole true (.raster line 0)) (short : Bool) :
    (t.dot line 0 true).Whole true ((Position.raster line 0).next short) := by
  have still : 0 = 0 ∨ true = false := .inl rfl
  obtain ⟨-, -, -, pixels, since⟩ := t.dot_idle line still
  rw [Position.next_inside (by decide)]
  refine ⟨flags_idle h.flags line still, by rw [dot_lines, h.lines], fun _ _ => since,
    fun _ fetched => ?_, fun _ searched => ?_⟩
  · rw [pixels]
    apply h.pixels rfl
    cases line with
    | preRender => cases fetched
    | visible y => rfl
  · refine Renewed.idle (h.search rfl ?_) line still
    cases line with
    | preRender => cases searched
    | visible y => exact searched

theorem Whole.dot (h : t.Whole rendering (.raster line d)) (short : Bool) :
    (t.dot line d rendering).Whole rendering ((Position.raster line d).next short) := by
  cases rendering with
  | true =>
    by_cases first : d = 0
    · subst first
      exact h.dot_first short
    · exact h.dot_on first short
  | false => exact h.dot_off _

/-- Nothing that was left is to be seen any more. -/
structure Full (t : Trust) : Prop extends t.Renewed where
  flags : t.flags = true
  lines : t.lines = 0xFF
  pixels : t.pixels = true

/-- At the end of a rendered frame all is renewed. -/
theorem Whole.full (h : t.Whole true .blank) : t.Full :=
  ⟨h.search rfl rfl, h.flags, h.lines, h.pixels rfl rfl⟩

/-- What is renewed stays renewed. -/
theorem Full.dot (h : t.Full) (line : Line) (d : Nat) (rendering : Bool) :
    (t.dot line d rendering).Full := by
  by_cases off : d = 0 ∨ rendering = false
  · obtain ⟨-, -, -, pixels, -⟩ := t.dot_idle line off
    exact ⟨h.toRenewed.idle line off, flags_idle h.flags line off, by rw [dot_lines, h.lines],
      pixels.trans h.pixels⟩
  · have first : d ≠ 0 := fun first => off (.inl first)
    have on : rendering = true := by
      by_contra none
      exact off (.inr (Bool.eq_false_iff.mpr none))
    subst on
    have after : t.latchAfter line d = true ∧ t.walkAfter line d = true ∧ t.searchAfter line d = true :=
      Renewed.after (.inl h.toRenewed)
    obtain ⟨-, walked, searched⟩ := after
    obtain ⟨-, -, -, -, pixels⟩ := t.dot_rendered line first
    refine ⟨.dot (.inl h.toRenewed) first, ?_, by rw [dot_lines, h.lines], ?_⟩
    · have flags := h.flags
      rw [flags_iff] at flags ⊢
      obtain ⟨overflow, hit⟩ := t.dot_flags_rendered line first
      rw [overflow, hit, flags.1, flags.2, h.pixels, walked]
      simp
    · rw [pixels, h.pixels, searched]
      simp

end Trust

/-- Neither switches rendering nor reads what the search has latched. -/
def Visit.Calm (v : Visit) : Prop :=
  match v.byte with
  | some _ => v.register ≠ .mask
  | none => v.register ≠ .objectData

instance (v : Visit) : Decidable v.Calm := by
  unfold Visit.Calm
  split <;> infer_instance

namespace Machine

variable {κ : Type} [Cartridge κ] {t : Trust} {m n : Machine κ} {line : Line} {d : Nat}

theorem readRegister_rendering (register : Register) (cycle : Nat) (m : Machine κ) :
    (m.readRegister register cycle).2.rendering = m.rendering := by
  cases register with
  | status =>
    have read := (readStatus_eq cycle m).2
    exact congrArg (·.registers.mask.rendering) read
  | data =>
    simp only [Machine.readRegister, readData]
    split
    · rfl
    · unfold readVideo advanceAddress
      dsimp only
      have read := (m.circuit.expose m.circuit.registers.scroll.current.bus cycle).readVideo_settings
        (if paletteBase ≤ m.circuit.registers.scroll.current.bus then
          m.circuit.registers.scroll.current.bus - 0x1000
        else m.circuit.registers.scroll.current.bus)
      exact congrArg (·.mask.rendering) read
  | control | mask | objectAddress | objectData | scroll | address => rfl

/-- Only the mask byte switches rendering. -/
theorem writeRegister_rendering {register : Register} (hr : register ≠ .mask) (byte : UInt8)
    (cycle : Nat) (m : Machine κ) :
    (m.writeRegister register byte cycle).rendering = m.rendering := by
  cases register with
  | mask => exact absurd rfl hr
  | control =>
    have written := writeControl_circuit byte cycle m
    exact congrArg (·.registers.mask.rendering) written
  | objectData =>
    simp only [Machine.writeRegister, writeObjectData]
    split <;> rfl
  | address =>
    simp only [Machine.writeRegister, writeAddress, rendering, withCircuit]
    split <;> rfl
  | data =>
    simp only [Machine.writeRegister, writeData, advanceAddress]
    split
    · rfl
    · simp only [writeVideo, withCircuit, rendering]
      split
      · rfl
      · have written := (m.circuit.expose m.circuit.registers.scroll.current.bus
          cycle).writeVideo_settings m.circuit.registers.scroll.current.bus byte
        exact congrArg (·.mask.rendering) written
  | objectAddress | scroll | status => rfl

theorem land_rendering {v : Visit} (hv : v.Calm) (m : Machine κ) :
    (m.land v).2.rendering = m.rendering := by
  unfold Visit.Calm at hv
  unfold Machine.land
  cases hb : v.byte with
  | none => exact readRegister_rendering v.register v.cycle (m.meet v.turn)
  | some byte =>
    rw [hb] at hv
    dsimp only
    unfold Machine.put
    dsimp only
    split
    · rfl
    · exact writeRegister_rendering hv byte _ _

theorem step_whole (ht : m.OnTime) (h : t.Whole m.rendering m.clock.position)
    (hp : m.clock.position = .raster line d) : (t.dot line d m.rendering).Whole
      (m.step line d).rendering (m.step line d).clock.position := by
  rw [hp] at h
  rw [step_rendering, step_position ht.paced hp]
  exact h.dot _

@[simp]
theorem advanceTo_rendering (target : Nat) (m : Machine κ) :
    (m.advanceTo target).rendering = m.rendering := by
  fun_induction advanceTo target m with
  | case1 m => exact rendering_of_settings (passBlank_settings target m)
  | case2 m _ line d _ ih => rw [ih, step_rendering]
  | case3 => rfl

theorem advanceTo_whole (target : Nat) (ht : m.OnTime) (h : t.Whole m.rendering m.clock.position) :
    (m.trustUpTo target t).Whole m.rendering (m.advanceTo target).clock.position := by
  fun_induction trustUpTo target m t with
  | case1 m t hc hp =>
    rw [advanceTo_blank target m hp hc, passBlank_position]
    exact h
  | case2 m t hc line d hp ih =>
    have later := ih (step_onTime ht hp) (step_whole ht h hp)
    rw [step_rendering] at later
    rw [advanceTo_raster target m line d hp hc]
    exact later
  | case3 m t hc =>
    rw [advanceTo_of_le target m (Nat.not_lt.mp hc)]
    exact h

/-- A calm visit is trusted in all bits. -/
theorem land_whole {v : Visit} (hv : v.Calm) (h : t.Whole m.rendering m.clock.position) :
    (trustAfter v t m).Whole m.rendering (m.land v).2.clock.position
      ∧ ∀ mask ∈ trustedOf v t m, mask = 0xFF := by
  have known : v.byte = none → trustedBits v.register t m = 0xFF := by
    intro read
    rw [Visit.Calm, read] at hv
    exact trustedBits_eq h.flags h.lines fun objects => absurd objects hv
  obtain ⟨after, all⟩ := trust_of_read known
  refine ⟨?_, all⟩
  rw [after, (land_still v m).clock]
  exact h.withLines

theorem trustUpTo_full (target : Nat) (m : Machine κ) (h : t.Full) : (m.trustUpTo target t).Full := by
  fun_induction trustUpTo target m t with
  | case1 => exact h
  | case2 m t _ line d _ ih => exact ih (h.dot line d m.rendering)
  | case3 => exact h

omit [Cartridge κ] in
/-- Every visit is trusted in all bits once all is renewed. -/
theorem visit_full (v : Visit) (m : Machine κ) (h : t.Full) :
    (trustAfter v t m).Full ∧ ∀ mask ∈ trustedOf v t m, mask = 0xFF := by
  obtain ⟨after, all⟩ := trust_of_read (v := v) (t := t) (m := m) fun _ =>
    trustedBits_eq h.flags h.lines fun _ _ => h.latch
  refine ⟨?_, all⟩
  rw [after]
  exact ⟨⟨h.latch, h.walk, h.search⟩, h.flags, rfl, h.pixels⟩

/-- Where all is trusted that is drawn, machines that are alike draw the same. -/
theorem Alike.inks (h : m.Alike t n) (hw : t.Whole m.rendering m.clock.position)
    (hp : m.clock.position = .raster line d) : n.circuit.inks line d = m.circuit.inks line d := by
  cases line with
  | preRender => rfl
  | visible y =>
    apply h.circuit.inks
    intro on
    exact hw.pixels on (by rw [hp]; rfl)

theorem Alike.advanceTo_inks (h : m.Alike t n) (ha : m.Abreast n)
    (hw : t.Whole m.rendering m.clock.position) {target target' : Nat}
    (ht : target' + m.clock.frameStart = target + n.clock.frameStart) :
    ∃ ds l, Passes ds l m (m.advanceTo target)
      ∧ (m.advanceTo target).circuit.screen = m.circuit.screen.inks l
      ∧ (n.advanceTo target').circuit.screen = n.circuit.screen.inks l := by
  fun_induction trustUpTo target m t generalizing n with
  | case1 m t hc hp =>
    have count := ha.count
    rw [advanceTo_blank target m hp hc, advanceTo_blank target' n (h.position.trans hp) (by omega)]
    exact ⟨[], [], .blank target hp (.refl _), passBlank_screen target m, passBlank_screen target' n⟩
  | case2 m t hc line d hp ih =>
    have count := ha.count
    rw [advanceTo_raster target m line d hp hc,
      advanceTo_raster target' n line d (h.position.trans hp) (by omega)]
    obtain ⟨alike, abreast⟩ := h.step ha hp
    obtain ⟨ds, l, passes, own, other⟩ := ih alike abreast (step_whole ha.first hw hp) (by
      rw [step_frameStart line d ha.first.paced, step_frameStart line d ha.second.paced]
      exact ht)
    refine ⟨(line, d) :: ds, m.circuit.inks line d ++ l, .dot hp passes, ?_, ?_⟩
    · rw [own, step_screen, Screen.inks_append]
    · rw [other, step_screen, Screen.inks_append, h.inks hw hp]
  | case3 m t hc =>
    have count := ha.count
    rw [advanceTo_of_le target m (by omega), advanceTo_of_le target' n (by omega)]
    exact ⟨[], [], .refl m, rfl, rfl⟩

end Machine

end PictureUnit
