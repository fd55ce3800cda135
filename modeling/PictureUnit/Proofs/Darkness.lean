import PictureUnit.Proofs.Frame
import PictureUnit.Proofs.Landed
import PictureUnit.Proofs.Reload

/-!
# Time in the dark

While rendering is off, a dot tells the cartridge of its line, clears the flags where the pre-render line
clears them, and draws the backdrop. It reads nothing that another such dot has changed, so what a whole
stretch of time leaves of the circuit follows from the places it has passed. Beside the circuit only the
clock and the blank move, and a request for the blank moves with it when the frame turns out longer.
-/

set_option autoImplicit false

namespace PictureUnit

/-- What a dot tells the cartridge. -/
def Cartridge.Call.ofPlace (rendering : Bool) (place : Line × Nat) : Option Cartridge.Call :=
  if place.2 = 0 then some (.activeStart place.1 rendering)
  else if place.2 = objectFetchStart then some (.blankStart place.1 rendering)
  else none

theorem Recorded.calls_hook {κ : Type} [Cartridge κ] (rendering : Bool) (place : Line × Nat)
    (b : Banks × Recorded κ) : (Cartridge.hook rendering b place).2.calls
      = (Cartridge.Call.ofPlace rendering place).toList ++ b.2.calls := by
  unfold Cartridge.hook Cartridge.Call.ofPlace
  split
  · rfl
  · split <;> rfl

/-- Told of some places, a cartridge hears of nothing else. -/
theorem Recorded.calls_hooks {κ : Type} [Cartridge κ] (rendering : Bool) (places : List (Line × Nat))
    (b : Banks × Recorded κ) : (places.foldl (Cartridge.hook rendering) b).2.calls
      = (places.filterMap (Cartridge.Call.ofPlace rendering)).reverse ++ b.2.calls := by
  induction places generalizing b with
  | nil => rfl
  | cons place rest ih =>
    rw [List.foldl_cons, ih, calls_hook]
    cases said : Cartridge.Call.ofPlace rendering place with
    | none =>
      rw [List.filterMap_cons_none said]
      rfl
    | some call =>
      rw [List.filterMap_cons_some said, List.reverse_cons, List.append_assoc]
      rfl

namespace Screen

/-- One colour at these places. -/
def paint (color : UInt16) (places : List (Nat × Nat)) (s : Screen) : Screen :=
  places.foldl (fun s p => s.draw p.1 p.2 color) s

theorem pixel?_paint (color : UInt16) (places : List (Nat × Nat)) (s : Screen)
    (inside : ∀ p ∈ places, p.1 < screenWidth) {x y : Nat} (hx : x < screenWidth) (hy : y < screenHeight) :
    (s.paint color places).pixel? x y = if (x, y) ∈ places then some color else s.pixel? x y := by
  induction places using List.reverseRecOn with
  | nil => rfl
  | append_singleton places p ih =>
    have painted : s.paint color (places ++ [p]) = (s.paint color places).draw p.1 p.2 color :=
      List.foldl_append
    rw [painted]
    by_cases here : (x, y) = p
    · subst here
      simp [hx, hy]
    · have apart : p.1 ≠ x ∨ p.2 ≠ y := by grind
      have earlier : (x, y) ∈ places ++ [p] ↔ (x, y) ∈ places := by
        simp only [List.mem_append, List.mem_singleton, here, or_false]
      rw [pixel?_draw_ne _ _ _ _ _ _ (inside p (by simp)) hx apart, if_congr earlier rfl rfl]
      exact ih fun q hq => inside q (List.mem_append_left _ hq)

end Screen

theorem mem_drawnAt {line : Line} {dot x y : Nat} : (x, y) ∈ drawnAt line dot
    ↔ ∃ row : Fin screenHeight, line = .visible row ∧ row.val = y ∧ dot = x + 1 ∧ x < screenWidth := by
  have column : x ∈ columns dot ↔ dot = x + 1 ∧ x < screenWidth := by
    unfold columns
    split
    · rw [List.mem_singleton]
      omega
    · simp only [List.not_mem_nil, false_iff]
      omega
  cases line with
  | preRender => simp [drawnAt]
  | visible row =>
    simp only [drawnAt, List.mem_map, Prod.mk.injEq, Line.visible.injEq]
    constructor
    · rintro ⟨_, drawn, rfl, rfl⟩
      exact ⟨row, rfl, rfl, column.mp drawn⟩
    · rintro ⟨_, rfl, rfl, drawn⟩
      exact ⟨x, column.mpr drawn, rfl, rfl⟩

namespace Circuit

variable {κ : Type} {c : Circuit κ}

/-- The backdrop is the first entry of the palette, or the one that the current address points at. -/
theorem backdropEntry_eq (c : Circuit κ) : c.backdropEntry
    = if 0x3F00 ≤ c.registers.scroll.current.raw % 0x4000 then c.registers.scroll.current.raw % 32
      else 0 := by
  rw [backdropEntry, Scroll.Address.bus, Nat.mod_mod_of_dvd _ (by decide)]
  rfl

theorem drawDot_dark (dark : c.registers.mask.rendering = false) (line : Line) {dot : Nat} (hd : dot ≠ 0) :
    c.drawDot line dot = { c with
      screen := c.screen.paint (c.palette.output c.backdropEntry) (drawnAt line dot) } := by
  cases line with
  | preRender => rfl
  | visible row =>
    by_cases inside : dot ≤ screenWidth
    · have one : columns dot = [dot - 1] := if_pos ⟨Nat.pos_of_ne_zero hd, inside⟩
      simp only [drawDot, if_pos inside, drawPixel, dark, Bool.false_eq_true, if_false, draw, drawnAt, one]
      rfl
    · have none : columns dot = [] := if_neg fun h => inside h.2
      simp only [drawDot, if_neg inside, drawnAt, none]
      rfl

theorem clearFlags_eq (line : Line) (dot : Nat) (c : Circuit κ) : c.clearFlags line dot
    = { c with registers := { c.registers with
        status := if (.preRender, 1) ∈ [(line, dot)] then .clear else c.registers.status } } := by
  have here : (Line.preRender, 1) ∈ [(line, dot)] ↔ line = .preRender ∧ dot = 1 := by
    rw [List.mem_singleton, Prod.mk.injEq, eq_comm, eq_comm (a := 1)]
  unfold clearFlags
  by_cases clears : line = .preRender ∧ dot = 1
  · rw [if_pos clears, if_pos (here.mpr clears)]
    rfl
  · rw [if_neg clears, if_neg (here.not.mpr clears)]

variable [Cartridge κ]

/-- What is left of a circuit that passes these places in the dark. -/
def darkened (places : List (Line × Nat)) (c : Circuit κ) : Circuit κ :=
  let board := places.foldl (Cartridge.hook false) (c.banks, c.cartridge)
  { c with
    registers :=
      { c.registers with status := if (.preRender, 1) ∈ places then .clear else c.registers.status }
    banks := board.1
    cartridge := board.2
    screen := c.screen.paint (c.palette.output c.backdropEntry)
      (places.flatMap fun p => drawnAt p.1 p.2) }

theorem darkened_nil (c : Circuit κ) : c.darkened [] = c := by
  simp [darkened, Screen.paint]

/-- No place in the dark notices another one. -/
theorem darkened_cons (place : Line × Nat) (places : List (Line × Nat)) (c : Circuit κ) :
    c.darkened (place :: places) = (c.darkened [place]).darkened places := by
  have painted : c.screen.paint (c.palette.output c.backdropEntry)
        ((place :: places).flatMap fun p => drawnAt p.1 p.2)
      = (c.screen.paint (c.palette.output c.backdropEntry) (drawnAt place.1 place.2)).paint
          (c.palette.output c.backdropEntry) (places.flatMap fun p => drawnAt p.1 p.2) := by
    rw [List.flatMap_cons]
    exact List.foldl_append
  have status : (if (.preRender, 1) ∈ place :: places then Status.clear else c.registers.status)
      = if (.preRender, 1) ∈ places then .clear
        else if (.preRender, 1) ∈ [place] then .clear else c.registers.status := by
    by_cases later : (.preRender, 1) ∈ places
    · rw [if_pos (List.mem_cons_of_mem _ later), if_pos later]
    · simp only [List.mem_cons, later, or_false, List.not_mem_nil, if_false]
  simp only [darkened, List.foldl_cons, List.foldl_nil, List.flatMap_singleton, painted, status]
  rfl

theorem dot_dark (dark : c.registers.mask.rendering = false) (line : Line) (dot cycle : Nat)
    (limit : SpriteLimit) : c.dot line dot cycle limit = c.darkened [(line, dot)] := by
  by_cases first : dot = 0
  · subst first
    have unchanged : c.darkened [(line, 0)] = { c with
        banks := (Cartridge.activeStart line false c.banks c.cartridge).1
        cartridge := (Cartridge.activeStart line false c.banks c.cartridge).2 } := by
      cases line <;> rfl
    rw [Circuit.dot, if_pos rfl, activeStart, dark, unchanged]
  · have cleared : (c.clearFlags line dot).registers.mask.rendering = false := by
      rw [clearFlags_eq]
      exact dark
    rw [Circuit.dot, if_neg first]
    dsimp only
    rw [drawDot_dark cleared line first, clearFlags_eq, if_neg (ne_true_of_eq_false dark)]
    simp only [darkened, List.foldl_cons, List.foldl_nil, List.flatMap_singleton, Cartridge.hook,
      if_neg first]
    split
    · rw [blankStart, dark]
      rfl
    · rfl

end Circuit

namespace Machine

variable {κ : Type}

/-- Without rendering no frame loses a dot. -/
theorem dropsDot_dark {m : Machine κ} (dark : m.rendering = false) : m.dropsDot = false := by
  rw [dropsDot, dark, Bool.and_false]

/-- The request for the blank has moved with the blank. -/
structure Tracks (m n : Machine κ) : Prop where
  interruptAt : n.vblank.interruptAt
    = if m.clock.short ≠ n.clock.short ∧ m.vblank.interruptAt = some m.clock.vblankAt
      then some n.clock.vblankAt else m.vblank.interruptAt
  host : n.host
    = if m.clock.short ≠ n.clock.short ∧ m.vblank.interruptAt = some m.clock.vblankAt
      then m.host.interruptAt n.clock.vblankAt else m.host

/-- The length of the frame has stayed, and so has all that depends on it. -/
structure Lasts (m n : Machine κ) : Prop where
  short : n.clock.short = m.clock.short
  vblankAt : n.clock.vblankAt = m.clock.vblankAt
  interruptAt : n.vblank.interruptAt = m.vblank.interruptAt
  host : n.host = m.host

variable {m n p : Machine κ}

theorem Lasts.refl (m : Machine κ) : m.Lasts m := ⟨rfl, rfl, rfl, rfl⟩

theorem Lasts.trans (h : m.Lasts n) (h' : n.Lasts p) : m.Lasts p :=
  ⟨h'.short.trans h.short, h'.vblankAt.trans h.vblankAt, h'.interruptAt.trans h.interruptAt,
    h'.host.trans h.host⟩

theorem Lasts.tracks (h : m.Lasts n) : m.Tracks n := by
  have kept : ¬ (m.clock.short ≠ n.clock.short ∧ m.vblank.interruptAt = some m.clock.vblankAt) :=
    fun moved => moved.1 h.short.symm
  exact ⟨by rw [if_neg kept, h.interruptAt], by rw [if_neg kept, h.host]⟩

theorem Lasts.tracks_trans (h : m.Lasts n) (h' : n.Tracks p) : m.Tracks p := by
  have := h'.interruptAt
  have := h'.host
  rw [h.short, h.vblankAt, h.interruptAt, h.host] at *
  exact ⟨‹_›, ‹_›⟩

theorem Tracks.trans_lasts (h : m.Tracks n) (h' : n.Lasts p) : m.Tracks p :=
  ⟨by rw [h'.interruptAt, h'.short, h'.vblankAt, h.interruptAt],
    by rw [h'.host, h'.short, h'.vblankAt, h.host]⟩

theorem passBlank_lasts (target : Nat) (m : Machine κ) : m.Lasts (m.passBlank target) := by
  refine ⟨?_, ?_, passBlank_interruptAt target m, passBlank_host target m⟩ <;> rw [passBlank_clock] <;> rfl

theorem settleLength_lasts (settled : m.dropsDot = m.clock.short) : m.Lasts m.settleLength := by
  rw [settleLength, if_pos settled]
  exact .refl m

theorem settleLength_tracks (m : Machine κ) : m.Tracks m.settleLength := by
  by_cases settled : m.dropsDot = m.clock.short
  · exact (settleLength_lasts settled).tracks
  · unfold settleLength
    rw [if_neg settled]
    dsimp only
    have turned : m.clock.short ≠ m.dropsDot := fun h => settled h.symm
    by_cases asked : m.vblank.interruptAt = some m.clock.vblankAt
    · rw [if_pos asked]
      exact ⟨(if_pos ⟨turned, asked⟩).symm, (if_pos ⟨turned, asked⟩).symm⟩
    · rw [if_neg asked]
      exact ⟨(if_neg fun h => asked h.2).symm, (if_neg fun h => asked h.2).symm⟩

theorem settleAt_lasts (settled : m.dropsDot = m.clock.short) (line : Line) (dot : Nat) :
    m.Lasts (m.settleAt line dot) := by
  unfold settleAt
  split
  · exact settleLength_lasts settled
  · exact .refl m

theorem settleAt_tracks (line : Line) (dot : Nat) (m : Machine κ) : m.Tracks (m.settleAt line dot) := by
  unfold settleAt
  split
  · exact settleLength_tracks m
  · exact (Lasts.refl m).tracks

/-- A dot leaves the length alone, or decides it. -/
theorem settleAt_short (line : Line) (dot : Nat) (m : Machine κ) :
    m.Lasts (m.settleAt line dot) ∨ (m.settleAt line dot).clock.short = m.dropsDot := by
  by_cases settled : m.dropsDot = m.clock.short
  · exact .inl (settleAt_lasts settled line dot)
  · unfold settleAt
    split
    · right
      rw [settleLength, if_neg settled]
      dsimp only
      split <;> rfl
    · exact .inl (.refl m)

/-- The blank raises the flag, unless that was suppressed. -/
def blanked (m n : Machine κ) (s : Status) : Status :=
  { s with vblank := s.vblank || (!m.vblank.raised && n.vblank.raised && !m.vblank.suppressed) }

theorem blanked_of_raised {m n : Machine κ} (h : n.vblank.raised = m.vblank.raised) (s : Status) :
    m.blanked n s = s := by
  rw [blanked, h, Bool.not_and_self, Bool.false_and, Bool.or_false]

theorem passBlank_blanked (target : Nat) (m : Machine κ) :
    (m.passBlank target).circuit = m.circuit.withStatus (m.blanked (m.passBlank target)) := by
  rw [passBlank_circuit]
  by_cases due : m.vblank.raised = false ∧ m.clock.vblankAt < min target m.clock.frameEnd
  · have raised : (m.passBlank target).vblank.raised = true := by
      rw [passBlank_raised, decide_eq_true due.2, Bool.or_true]
    by_cases silenced : m.vblank.suppressed = true
    · have same (s : Status) : m.blanked (m.passBlank target) s = s := by
        rw [blanked, silenced, Bool.not_true, Bool.and_false, Bool.or_false]
      rw [if_neg fun h => by simp [silenced] at h, funext same]
      rfl
    · have loud := Bool.eq_false_of_not_eq_true silenced
      have same (s : Status) : m.blanked (m.passBlank target) s = { s with vblank := true } := by
        rw [blanked, due.1, raised, loud]
        simp
      rw [if_pos ⟨due.1, due.2, loud⟩, funext same]
  · have kept : (m.passBlank target).vblank.raised = m.vblank.raised := by
      rw [passBlank_raised]
      cases raised : m.vblank.raised with
      | true => rfl
      | false => exact decide_eq_false fun late => due ⟨raised, late⟩
    rw [if_neg fun h => due ⟨h.1, h.2.1⟩, funext (blanked_of_raised kept)]
    rfl

/-- The flags that no place has cleared are still there. -/
theorem blanked_spared (m n : Machine κ) (places : List (Line × Nat)) (s : Status) :
    m.blanked n (if (.preRender, 1) ∈ places then .clear else s)
      = { overflow := s.overflow && decide ((.preRender, 1) ∉ places)
          zeroHit := s.zeroHit && decide ((.preRender, 1) ∉ places)
          vblank := s.vblank && decide ((.preRender, 1) ∉ places)
            || !m.vblank.raised && n.vblank.raised && !m.vblank.suppressed } := by
  by_cases cleared : (Line.preRender, 1) ∈ places <;> simp [blanked, cleared, Status.clear]

theorem eq_of_ledger (h : n.ledger = m.ledger) : n
    = { m with clock := n.clock, vblank := n.vblank, circuit := n.circuit, host := n.host } := by
  cases m
  cases n
  cases h
  rfl

variable [Cartridge κ]

theorem runDot_rendering (line : Line) (dot : Nat) (m : Machine κ) :
    (m.runDot line dot).rendering = m.rendering :=
  rendering_of_settings (Circuit.dot_settings line dot m.clock.count m.config.limit m.circuit)

theorem step_lasts (dark : m.rendering = false) (long : m.clock.short = false) (line : Line) (dot : Nat) :
    m.Lasts (m.step line dot) := by
  have drops := dropsDot_dark ((runDot_rendering line dot m).trans dark)
  have settled := settleAt_lasts (m := m.runDot line dot) (drops.trans long.symm) line dot
  exact ⟨settled.short, settled.vblankAt, settled.interruptAt, settled.host⟩

theorem step_tracks (line : Line) (dot : Nat) (m : Machine κ) : m.Tracks (m.step line dot) := by
  have settled := settleAt_tracks line dot (m.runDot line dot)
  exact ⟨settled.interruptAt, settled.host⟩

theorem step_long (dark : m.rendering = false) (line : Line) (dot : Nat) :
    m.Lasts (m.step line dot) ∨ (m.step line dot).clock.short = false := by
  obtain settled | decided := settleAt_short line dot (m.runDot line dot)
  · exact .inl ⟨settled.short, settled.vblankAt, settled.interruptAt, settled.host⟩
  · exact .inr (decided.trans (dropsDot_dark ((runDot_rendering line dot m).trans dark)))

/-- In the dark a frame of full length stays one. -/
theorem advanceTo_lasts (dark : m.rendering = false) (long : m.clock.short = false) (target : Nat) :
    m.Lasts (m.advanceTo target) := by
  fun_induction advanceTo target m with
  | case1 m => exact passBlank_lasts _ m
  | case2 m _ line dot _ ih =>
    have first := step_lasts dark long line dot
    exact first.trans (ih ((step_rendering line dot m).trans dark) (first.short.trans long))
  | case3 m => exact .refl m

/-- In the dark the request for the blank goes where the blank goes. -/
theorem advanceTo_tracks (dark : m.rendering = false) (target : Nat) :
    m.Tracks (m.advanceTo target) := by
  fun_induction advanceTo target m with
  | case1 m => exact (passBlank_lasts _ m).tracks
  | case2 m _ line dot _ ih =>
    have later := (step_rendering line dot m).trans dark
    obtain first | long := step_long dark line dot
    · exact first.tracks_trans (ih later)
    · exact (step_tracks line dot m).trans_lasts (advanceTo_lasts later long target)
  | case3 m => exact (Lasts.refl m).tracks

/-- What time in the dark leaves of the circuit. -/
theorem advanceTo_circuit (dark : m.rendering = false) (target : Nat) :
    (m.advanceTo target).circuit
      = (m.circuit.darkened ((m.trailTo target).map Moment.place)).withStatus
        (m.blanked (m.advanceTo target)) := by
  fun_induction advanceTo target m with
  | case1 m _ blank =>
    rw [trailTo_blank blank, List.map_nil, Circuit.darkened_nil]
    exact passBlank_blanked target m
  | case2 m late line dot place ih =>
    have stepped : (m.step line dot).circuit = m.circuit.darkened [(line, dot)] := by
      rw [step_circuit]
      exact Circuit.dot_dark dark line dot _ _
    have blanked : (m.step line dot).blanked ((m.step line dot).advanceTo target)
        = m.blanked ((m.step line dot).advanceTo target) := by
      funext s
      rw [Machine.blanked, Machine.blanked, step_raised, step_suppressed]
    rw [ih ((step_rendering line dot m).trans dark), trailTo_raster place late, List.map_cons, stepped,
      ← Circuit.darkened_cons, blanked]
    rfl
  | case3 m caught =>
    rw [trailTo_of_le (Nat.not_lt.mp caught), List.map_nil, Circuit.darkened_nil]
    exact congrArg m.circuit.withStatus (funext fun s => (blanked_of_raised rfl s).symm)

theorem advanceTo_raised (raised : m.vblank.raised = true) (target : Nat) :
    (m.advanceTo target).vblank.raised = true := by
  fun_induction advanceTo target m with
  | case1 m => rw [passBlank_raised, raised, Bool.true_or]
  | case2 m _ line dot _ ih => exact ih ((step_raised line dot m).trans raised)
  | case3 m => exact raised

/-- The blank has begun where it had begun before, or where the clock is past its beginning. -/
theorem Reachable.advanceTo_raised_eq (h : m.Reachable) (target : Nat) :
    (m.advanceTo target).vblank.raised = (m.vblank.raised
      || decide ((m.advanceTo target).clock.vblankAt < (m.advanceTo target).clock.count)) := by
  cases begun : m.vblank.raised with
  | true => exact advanceTo_raised begun target
  | false =>
    have inside : m.inFrame = true := by
      by_contra outside
      rw [(h.waiting (Bool.eq_false_of_not_eq_true outside)).raised] at begun
      cases begun
    rw [Bool.false_or, Bool.eq_iff_iff, decide_eq_true_iff]
    exact (advanceTo_onTime target (h.onTime inside)).raised_iff

theorem advanceTo_covers (target : Nat) (m : Machine κ) :
    Covers ((m.trailTo target).map Moment.place) m (m.advanceTo target) := by
  fun_induction advanceTo target m with
  | case1 m _ blank =>
    rw [trailTo_blank blank]
    exact .blank target blank (.refl _)
  | case2 m late line dot place ih =>
    rw [trailTo_raster place late]
    exact .dot place ih
  | case3 m caught =>
    rw [trailTo_of_le (Nat.not_lt.mp caught)]
    exact .refl m

theorem advanceTo_pixel (dark : m.rendering = false) (target : Nat) {x : Nat} (hx : x < screenWidth)
    (y : Fin screenHeight) : (m.advanceTo target).circuit.screen.pixel? x y.val
      = if (.visible y, x + 1) ∈ (m.trailTo target).map Moment.place
        then some (m.circuit.palette.output m.circuit.backdropEntry)
        else m.circuit.screen.pixel? x y.val := by
  have drawn : (x, y.val) ∈ ((m.trailTo target).map Moment.place).flatMap (fun p => drawnAt p.1 p.2)
      ↔ (.visible y, x + 1) ∈ (m.trailTo target).map Moment.place := by
    rw [List.mem_flatMap]
    constructor
    · rintro ⟨⟨line, dot⟩, passed, ink⟩
      obtain ⟨row, rfl, same, rfl, -⟩ := mem_drawnAt.mp ink
      rwa [← Fin.ext same]
    · intro passed
      exact ⟨_, passed, mem_drawnAt.mpr ⟨y, rfl, rfl, rfl, hx⟩⟩
  have inside : ∀ p ∈ ((m.trailTo target).map Moment.place).flatMap (fun p => drawnAt p.1 p.2),
      p.1 < screenWidth := by
    rintro ⟨i, j⟩ ink
    obtain ⟨⟨line, dot⟩, -, there⟩ := List.mem_flatMap.mp ink
    obtain ⟨_, -, -, -, narrow⟩ := mem_drawnAt.mp there
    exact narrow
  rw [advanceTo_circuit dark]
  change (m.circuit.screen.paint _ _).pixel? x y.val = _
  rw [Screen.pixel?_paint _ _ _ inside hx y.isLt, if_congr drawn rfl rfl]

/-- In the dark time passes without touching anything but the clock, the blank, the flags, the screen and
what the cartridge makes of the lines; and a whole dark frame shows one colour. -/
theorem time_in_dark :
    (∀ m : Machine κ, m.Reachable → m.rendering = false → ∀ target,
      let n := m.advanceTo target
      let places := (m.trailTo target).map Moment.place
      let board := places.foldl (Cartridge.hook false) (m.circuit.banks, m.circuit.cartridge)
      let status := m.circuit.registers.status
      let spared := decide ((.preRender, 1) ∉ places)
      let moved := m.clock.short ≠ n.clock.short ∧ m.vblank.interruptAt = some m.clock.vblankAt
      n = { m with
          clock := n.clock
          vblank :=
            { raised := m.vblank.raised || decide (n.clock.vblankAt < n.clock.count)
              suppressed := m.vblank.suppressed
              interruptAt := if moved then some n.clock.vblankAt else m.vblank.interruptAt }
          host := if moved then m.host.interruptAt n.clock.vblankAt else m.host
          circuit :=
            { m.circuit with
              registers :=
                { m.circuit.registers with
                  status :=
                    { overflow := status.overflow && spared
                      zeroHit := status.zeroHit && spared
                      vblank := status.vblank && spared
                        || !m.vblank.raised && n.vblank.raised && !m.vblank.suppressed } }
              banks := board.1
              cartridge := board.2
              screen := n.circuit.screen } }
        ∧ ∀ x < screenWidth, ∀ y : Fin screenHeight, n.circuit.screen.pixel? x y.val
          = if (.visible y, x + 1) ∈ places then
              some (m.circuit.palette.output
                (if 0x3F00 ≤ m.circuit.registers.scroll.current.raw % 0x4000
                  then m.circuit.registers.scroll.current.raw % 32 else 0))
            else m.circuit.screen.pixel? x y.val)
    ∧ (∀ m : Machine (Recorded κ), m.rendering = false → ∀ target,
      (m.advanceTo target).circuit.cartridge.calls
        = (((m.trailTo target).map Moment.place).filterMap (Cartridge.Call.ofPlace false)).reverse
          ++ m.circuit.cartridge.calls)
    ∧ ∀ m o : Machine κ, m.rendering = false → m.beginFrame = .ok o →
      ∃ n, o.endFrame = .ok n ∧ ∀ x < screenWidth, ∀ y : Fin screenHeight,
        n.circuit.screen.pixel? x y.val = some (m.circuit.palette.output
          (if 0x3F00 ≤ m.circuit.registers.scroll.current.raw % 0x4000
            then m.circuit.registers.scroll.current.raw % 32 else 0)) := by
  refine ⟨fun m reached dark target => ?_, fun m dark target => ?_, fun m o dark opened => ?_⟩
  · intro n places board status spared moved
    refine ⟨?_, fun x hx y => ?_⟩
    · have vblank : n.vblank =
          { raised := m.vblank.raised || decide (n.clock.vblankAt < n.clock.count)
            suppressed := m.vblank.suppressed
            interruptAt := if moved then some n.clock.vblankAt else m.vblank.interruptAt } := by
        rw [← reached.advanceTo_raised_eq target, ← advanceTo_suppressed target m,
          ← (advanceTo_tracks dark target).interruptAt]
      have circuit : n.circuit = _ := advanceTo_circuit dark target
      have screen : n.circuit.screen = _ := congrArg Circuit.screen circuit
      rw [← vblank, ← (advanceTo_tracks dark target).host, screen, ← blanked_spared]
      refine (eq_of_ledger (advanceTo_covers target m).ledger).trans ?_
      rw [circuit]
      rfl
    · rw [← Circuit.backdropEntry_eq]
      exact advanceTo_pixel dark target hx y
  · rw [advanceTo_circuit dark]
    exact Recorded.calls_hooks false _ (m.circuit.banks, m.circuit.cartridge)
  · obtain rfl := eq_of_beginFrame opened
    have circuit : m.openFrame.circuit = m.circuit := openFrame_circuit m
    have still : m.openFrame.rendering = false := by
      rw [rendering, circuit]
      exact dark
    have all := (advanceTo_covers m.openFrame.clock.frameEnd m.openFrame).raster
      (advanceTo_frameEnd (openFrame_onTime m)).1
    refine ⟨_, if_pos (openFrame_inFrame m), fun x hx y => ?_⟩
    have drawn := advanceTo_pixel still m.openFrame.clock.frameEnd hx y
    have passed : (.visible y, x + 1) ∈ (m.openFrame.trailTo m.openFrame.clock.frameEnd).map Moment.place := by
      rw [all, mem_raster]
      exact ⟨Nat.lt_of_le_of_lt hx (by decide), fun h => by cases h.2.1⟩
    rw [if_pos passed, circuit, Circuit.backdropEntry_eq] at drawn
    exact drawn

/-- The first frame after the machine is switched on, and the first dot of it. -/
theorem time_in_dark_switchedOn : ∃ m o n : Machine (Recorded Unit),
    m = .new ⟨.ntsc, .hardware⟩ .new ⟨(), []⟩ (.new fun _ => 0) ∧ m.beginFrame = .ok o
      ∧ o.Reachable ∧ o.rendering = false
      ∧ (o.advanceTo 1).circuit.objects = m.circuit.objects
      ∧ (o.advanceTo 1).circuit.cartridge.calls = [.activeStart .preRender false]
      ∧ o.endFrame = .ok n
      ∧ ∀ x < screenWidth, ∀ y : Fin screenHeight, n.circuit.screen.pixel? x y.val = some 9 := by
  let m : Machine (Recorded Unit) := .new ⟨.ntsc, .hardware⟩ .new ⟨(), []⟩ (.new fun _ => 0)
  have circuit : m.openFrame.circuit = m.circuit := openFrame_circuit m
  have off : m.rendering = false := by decide
  have dark : m.openFrame.rendering = false := (congrArg (·.registers.mask.rendering) circuit).trans off
  have color : m.circuit.palette.output 0 = 9 := by decide +kernel
  have reached : m.openFrame.Reachable := (Reachable.new _ _ _ _).move (.opened rfl)
  have first : (m.openFrame.trailTo 1).map Moment.place = [(.preRender, 0)] := by
    have clock := openFrame_clock m
    rw [trailTo_raster (congrArg Clock.position clock) (by rw [clock]; decide),
      trailTo_of_le (by rw [step_count, clock]; decide)]
    rfl
  obtain ⟨rest, -⟩ := (time_in_dark (κ := Recorded Unit)).1 m.openFrame reached dark 1
  have objects : (m.openFrame.advanceTo 1).circuit.objects = m.openFrame.circuit.objects := by rw [rest]
  have calls := (time_in_dark (κ := Unit)).2.1 m.openFrame dark 1
  obtain ⟨n, closed, drawn⟩ := (time_in_dark (κ := Recorded Unit)).2.2 m _ off rfl
  rw [first, circuit] at calls
  refine ⟨m, m.openFrame, n, rfl, rfl, reached, dark, objects.trans (congrArg Circuit.objects circuit),
    calls, closed, fun x hx y => ?_⟩
  rw [drawn x hx y, if_neg (by decide), color]

end Machine

end PictureUnit
