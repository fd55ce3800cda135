import PictureUnit.Proofs.Resumed

/-!
# What the search has latched

While rendering is off the works stand still, from one frame to the next. So a program that switches
rendering on in the middle of a line can read the byte that the search latched when rendering was last
on: it is in no saved state, and the first dot of the clearing puts another one in its place.
-/

set_option autoImplicit false

namespace PictureUnit

namespace Machine

variable {κ : Type}

/-- In a long frame the count tells the position. -/
theorem position_of_count {m : Machine κ} (h : m.OnTime) (hs : m.clock.short = false) {line : Line}
    {d : Nat} (hd : d < dotsPerLine) (hc : m.clock.count
      = m.clock.frameStart + (line.index * dotsPerLine + d) * m.timing.dot) :
    m.clock.position = .raster line d := by
  have dot : 0 < m.timing.dot := m.config.region.dot_pos
  have lines := index_lt line
  cases hp : m.clock.position with
  | blank =>
    have bounds := (h.paced.count_bounds hp).1
    -- The blank is counted past all dots of the raster.
    have inside : line.index * dotsPerLine + d < rasterDots := by
      simp only [rasterDots, dotsPerLine] at *
      omega
    have less := Nat.mul_lt_mul_of_pos_right inside dot
    rw [hs] at bounds
    simp only [Bool.toNat_false, Nat.sub_zero] at bounds
    omega
  | raster below d' =>
    have count := h.paced.count_eq hp
    have nothing : m.clock.dropped below = 0 := by
      cases below <;> simp [Clock.dropped, hs]
    have same : m.clock.dotsBefore below d' = line.index * dotsPerLine + d := by
      apply Nat.eq_of_mul_eq_mul_right dot
      omega
    have inside : d' < dotsPerLine := lt_of_le_of_lt (h.paced.dot_le hp) (Clock.lastDot_lt _ _)
    rw [Clock.dotsBefore, nothing] at same
    simp only [dotsPerLine] at same inside hd
    have index : below.index = line.index := by omega
    have last : d' = d := by omega
    rw [index_inj index, last]

/-- Works that are the same lie on the same board. -/
theorem sameBoard_of_works {m n : Machine κ} (config : n.config = m.config)
    (works : n.circuit.works = m.circuit.works) : m.SameBoard n :=
  sameBoard_of_eq config (congrArg Works.banks works) (congrArg (·.settings.palette.map) works)
    (congrArg Works.cartridge works)

variable [Cartridge κ]

/-- In the raster a machine catches up to a dot exactly. -/
theorem advanceTo_count {m : Machine κ} (h : m.OnTime) {k : Nat} (hk : k + 1 < rasterDots)
    (hc : m.clock.count ≤ m.clock.frameStart + k * m.timing.dot) :
    (m.advanceTo (m.clock.frameStart + k * m.timing.dot)).clock.count
      = m.clock.frameStart + k * m.timing.dot := by
  generalize ht : m.clock.frameStart + k * m.timing.dot = target at *
  have dot : 0 < m.timing.dot := m.config.region.dot_pos
  fun_induction advanceTo target m with
  | case1 m late hp =>
    have bounds := (h.paced.count_bounds hp).1
    have short : m.clock.short.toNat ≤ 1 := by cases m.clock.short <;> decide
    have inside : k < rasterDots - m.clock.short.toNat := by omega
    have less := Nat.mul_lt_mul_of_pos_right inside dot
    omega
  | case2 m late line d hp ih =>
    have timing : (m.step line d).timing = m.timing := step_timing line d m
    have count := h.paced.count_eq hp
    have before : m.clock.dotsBefore line d < k := by
      apply Nat.lt_of_mul_lt_mul_right (a := m.timing.dot)
      omega
    have next := Nat.mul_le_mul_right m.timing.dot (Nat.succ_le_of_lt before)
    rw [Nat.succ_mul] at next
    apply ih (step_onTime h hp)
    · rw [step_frameStart line d h.paced, timing]
      exact ht
    · rw [step_count]
      omega
    · rw [timing]
      exact dot
  | case3 m late => omega

/-- Rendering is off in a long frame, nothing answers in the slot, and no write is held back. -/
structure Dark (m : Machine κ) : Prop where
  onTime : m.OnTime
  silent : Cartridge.Silent m.circuit.cartridge
  off : m.rendering = false
  long : m.clock.short = false
  ready : m.warmingUp = false

variable {m : Machine κ}

theorem Dark.step (h : m.Dark) {line : Line} {d : Nat} (hp : m.clock.position = .raster line d) :
    (m.step line d).Dark ∧ (m.step line d).circuit.works = m.circuit.works := by
  have works : (m.step line d).circuit.works = m.circuit.works := by
    rw [step_circuit]
    exact Circuit.dot_works_off h.silent (.inr h.off) _ _ _
  have slot : (m.step line d).circuit.cartridge = m.circuit.cartridge :=
    congrArg Works.cartridge works
  refine ⟨⟨step_onTime h.onTime hp, ?_, ?_, ?_, ?_⟩, works⟩
  · rw [slot]
    exact h.silent
  · rw [step_rendering]
    exact h.off
  · rw [step_short line d h.onTime.paced, shortAfter, dropsDot, h.off, h.long, Bool.and_false]
    split <;> rfl
  · simp [h.ready]

theorem Dark.passBlank (h : m.Dark) (hp : m.clock.position = .blank) (target : Nat) :
    (m.passBlank target).Dark ∧ (m.passBlank target).circuit.works = m.circuit.works := by
  have works := passBlank_works target m
  have slot : (m.passBlank target).circuit.cartridge = m.circuit.cartridge :=
    congrArg Works.cartridge works
  refine ⟨⟨passBlank_onTime target h.onTime hp, ?_, ?_, ?_, ?_⟩, works⟩
  · rw [slot]
    exact h.silent
  · rw [rendering_of_settings (passBlank_settings target m)]
    exact h.off
  · rw [passBlank_clock]
    exact h.long
  · simp [h.ready]

/-- In the dark the works stand still. -/
theorem Dark.advanceTo (h : m.Dark) (target : Nat) :
    (m.advanceTo target).Dark ∧ (m.advanceTo target).circuit.works = m.circuit.works := by
  fun_induction Machine.advanceTo target m with
  | case1 m _ hp => exact h.passBlank hp target
  | case2 m _ line d hp ih =>
    obtain ⟨dark, works⟩ := h.step hp
    obtain ⟨later, still⟩ := ih dark
    exact ⟨later, still.trans works⟩
  | case3 m _ => exact ⟨h, rfl⟩

/-- The frame that a machine opens in the dark. -/
theorem dark_openFrame (hs : Cartridge.Silent m.circuit.cartridge) (off : m.rendering = false)
    (ready : m.warmingUp = false) : m.openFrame.Dark where
  onTime := openFrame_onTime m
  silent := by simp [hs]
  off := by simp [off]
  long := by simp [dropsDot, off]
  ready := by simp [ready]

theorem mask_decoded : 0x2000 ≤ 0x2001 ∧ 0x2001 ≤ 0x3FFF := by decide

/-- Writes the mask byte a whole line and some dots after the start of a frame. -/
def maskAt (t : Timing) (dots : Nat) (byte : UInt8) : Visit :=
  ⟨(dotsPerLine + dots) * t.dot, fun _ => 0, 0x2001, some byte, mask_decoded⟩

/-- Reads the object data register a whole line and some dots after the start of a frame. -/
def lookAt (t : Timing) (dots : Nat) : Visit :=
  ⟨(dotsPerLine + dots) * t.dot, fun _ => 0, 0x2004, none, by decide⟩

theorem maskAt_register (start : Nat) (t : Timing) (dots : Nat) (byte : UInt8) :
    ((maskAt t dots byte).after start).register = .mask := by
  change Register.ofAddress 0x2001 = .mask
  rfl

/-- The mask byte lands a dot later. -/
theorem maskAt_landing (start : Nat) (t : Timing) (dots : Nat) (byte : UInt8) :
    ((maskAt t dots byte).after start).landing t = start + (dotsPerLine + dots + 1) * t.dot := by
  change start + (dotsPerLine + dots) * t.dot
    + ((maskAt t dots byte).after start).register.writeDelay * t.dot = _
  rw [maskAt_register, Nat.add_assoc, ← Nat.add_mul]
  rfl

theorem lookAt_register (start : Nat) (t : Timing) (dots : Nat) :
    ((lookAt t dots).after start).register = .objectData := by
  change Register.ofAddress 0x2004 = .objectData
  rfl

/-- During a rendered line the object data register shows the latch. -/
theorem land_look (v : Visit) (hr : v.register = .objectData) (hb : v.byte = none)
    (searching : m.searching = true) : (m.land v).1 = some m.circuit.evaluation.latch := by
  have seen : (m.meet v.turn).searching = true := searching
  unfold Machine.land
  rw [hb, hr]
  change some (m.meet v.turn).readObjectData = _
  rw [readObjectData, if_pos seen]
  rfl

/-- A write of the mask byte, where the machine is not warming up. -/
theorem land_mask (v : Visit) (hr : v.register = .mask) {byte : UInt8} (hb : v.byte = some byte)
    (ready : m.warmingUp = false) : (m.land v).2.circuit
      = ({ m.circuit with registers := { m.circuit.registers with lines := byte } }).setMask ⟨byte⟩ := by
  unfold Machine.land Machine.put
  simp only [hb, hr]
  rw [if_neg (by simp [Machine.setLines, withRegisters, withCircuit, Machine.meet, withHost, ready])]
  rfl

theorem land_mask_sameBoard (v : Visit) (hr : v.register = .mask) {byte : UInt8}
    (hb : v.byte = some byte) (ready : m.warmingUp = false) : m.SameBoard (m.land v).2 := by
  have circuit := land_mask v hr hb ready
  refine sameBoard_of_eq (congrArg Ledger.config (land_still v m).ledger) ?_ ?_ ?_
  · rw [circuit]
    rfl
  · rw [circuit, Circuit.setMask]
    exact (Palette.setMask_keeps _ _).2
  · rw [circuit]
    rfl

/-- Rendering has been on since just before the first dot of the clearing on the first line. -/
structure Lit (m : Machine κ) : Prop where
  onTime : m.OnTime
  silent : Cartridge.Silent m.circuit.cartridge
  on : m.rendering = true
  long : m.clock.short = false
  ready : m.warmingUp = false
  place : m.clock.position = .raster (.visible ⟨0, by decide⟩) 1
  count : m.clock.count = m.clock.frameStart + (dotsPerLine + 1) * m.timing.dot

/-- A machine in which rendering was switched on, and nothing else. -/
structure Lights (m lit : Machine κ) : Prop where
  evaluation : lit.circuit.evaluation = m.circuit.evaluation
  board : m.SameBoard lit
  objects : lit.circuit.objects = m.circuit.objects
  objectAddress : lit.circuit.registers.objectAddress = m.circuit.registers.objectAddress
  control : lit.circuit.registers.control = m.circuit.registers.control

/-- Switching rendering on leaves the latch as it was. -/
theorem Dark.lit (h : m.Dark) (start : m.clock.count = m.clock.frameStart) :
    let lit := (m.turn ((maskAt m.timing 0 8).after m.clock.frameStart).turn).2
    lit.Lit ∧ m.Lights lit ∧ lit.clock.frameStart = m.clock.frameStart := by
  intro lit
  have lands : ((maskAt m.timing 0 8).after m.clock.frameStart).landing m.timing
      = m.clock.frameStart + (dotsPerLine + 1) * m.timing.dot := by
    exact maskAt_landing _ _ _ _
  obtain ⟨dark, works⟩ := h.advanceTo (m.clock.frameStart + (dotsPerLine + 1) * m.timing.dot)
  have count := advanceTo_count h.onTime (k := dotsPerLine + 1) (by decide) (by omega)
  have frameStart := advanceTo_frameStart (m.clock.frameStart + (dotsPerLine + 1) * m.timing.dot)
    h.onTime
  have timing := advanceTo_timing (m.clock.frameStart + (dotsPerLine + 1) * m.timing.dot) m
  have config := advanceTo_config (m.clock.frameStart + (dotsPerLine + 1) * m.timing.dot) m
  have turned : lit = ((m.advanceTo (m.clock.frameStart + (dotsPerLine + 1) * m.timing.dot)).land
      ((maskAt m.timing 0 8).after m.clock.frameStart)).2 := by
    rw [← lands, ← turn_visit]
  generalize m.advanceTo (m.clock.frameStart + (dotsPerLine + 1) * m.timing.dot) = reached at *
  have still := land_still ((maskAt m.timing 0 8).after m.clock.frameStart) reached
  have circuit := land_mask ((maskAt m.timing 0 8).after m.clock.frameStart) (m := reached)
    (maskAt_register _ _ _ _) rfl dark.ready
  have board := land_mask_sameBoard ((maskAt m.timing 0 8).after m.clock.frameStart) (m := reached)
    (maskAt_register _ _ _ _) rfl dark.ready
  rw [← turned] at still circuit board
  have place : reached.clock.position = .raster (.visible ⟨0, by decide⟩) 1 := by
    apply position_of_count dark.onTime dark.long (by decide)
    rw [count, frameStart, timing]
    rfl
  refine ⟨⟨still.onTime dark.onTime, ?_, ?_, ?_, ?_, ?_, ?_⟩, ⟨?_, ?_, ?_, ?_, ?_⟩, ?_⟩
  · rw [circuit]
    exact dark.silent
  · rw [rendering, circuit]
    change Mask.rendering ⟨8⟩ = true
    decide
  · rw [still.clock]
    exact dark.long
  · exact (congrArg Ledger.warmingUp still.ledger).trans dark.ready
  · rw [still.clock]
    exact place
  · rw [still.clock, still.timing, count, frameStart, timing]
  · rw [circuit]
    exact congrArg Works.evaluation works
  · exact (sameBoard_of_works config works).trans board
  · rw [circuit]
    exact congrArg (·.settings.objects) works
  · rw [circuit]
    exact congrArg Works.objectAddress works
  · rw [circuit]
    exact congrArg (·.settings.control) works
  · rw [still.clock, frameStart]

theorem Lit.searching (h : m.Lit) : m.searching = true := by
  rw [Machine.searching, h.on, h.place]
  rfl

/-- There the object data register shows the latch. -/
theorem Lit.look (h : m.Lit) : (m.turn ((lookAt m.timing 1).after m.clock.frameStart).turn).1
    = some m.circuit.evaluation.latch := by
  have lands : ((lookAt m.timing 1).after m.clock.frameStart).landing m.timing = m.clock.count :=
    h.count.symm
  rw [turn_visit, lands, advanceTo_of_le _ _ (Nat.le_refl _)]
  exact land_look _ (lookAt_register _ _ _) rfl h.searching

/-- The dot after that is the first one of the clearing. -/
theorem Lit.next (h : m.Lit) :
    m.advanceTo (m.clock.count + m.timing.dot) = m.step (.visible ⟨0, by decide⟩) 1
      ∧ (m.step (.visible ⟨0, by decide⟩) 1).circuit.works
        = m.circuit.works.dot (.visible ⟨0, by decide⟩) 1 m.config.limit
      ∧ (m.step (.visible ⟨0, by decide⟩) 1).circuit.evaluation.latch = 0xFF
      ∧ (m.step (.visible ⟨0, by decide⟩) 1).searching = true := by
  have dot : 0 < m.timing.dot := m.config.region.dot_pos
  have works : (m.step (.visible ⟨0, by decide⟩) 1).circuit.works
      = m.circuit.works.dot (.visible ⟨0, by decide⟩) 1 m.config.limit := by
    rw [step_circuit]
    exact Circuit.dot_works h.silent h.on _ _ _ _
  refine ⟨?_, works, ?_, ?_⟩
  · rw [advanceTo_raster _ m _ _ h.place (by omega),
      advanceTo_of_le _ _ (Nat.le_of_eq (step_count _ _ _).symm)]
  · have evaluation := congrArg Works.evaluation works
    rw [Works.dot_evaluation_clear (by decide)] at evaluation
    exact congrArg Evaluation.latch evaluation
  · rw [Machine.searching, step_rendering, h.on, step_position h.onTime.paced h.place,
      Position.next_inside (by decide)]
    rfl

/-- A dot later the object data register shows the byte of the clearing, whatever was latched. -/
theorem Lit.lookLater (h : m.Lit) (t : Trust) :
    let later := (lookAt m.timing 2).after m.clock.frameStart
    (m.turn later.turn).1 = some 0xFF
      ∧ trustedOf later (m.trustUpTo (later.landing m.timing) t)
        (m.advanceTo (later.landing m.timing)) = [0xFF] := by
  intro later
  have dot : 0 < m.timing.dot := m.config.region.dot_pos
  obtain ⟨passed, -, latch, searching⟩ := h.next
  have lands : later.landing m.timing = m.clock.count + m.timing.dot := by
    change m.clock.frameStart + (dotsPerLine + 2) * m.timing.dot = _
    rw [h.count, Nat.add_assoc, ← Nat.succ_mul]
  have trust : m.trustUpTo (m.clock.count + m.timing.dot) t
      = t.dot (.visible ⟨0, by decide⟩) 1 true := by
    have reached : ¬ (m.step (.visible ⟨0, by decide⟩) 1).clock.count
        < m.clock.count + m.timing.dot := by
      rw [step_count]
      exact Nat.lt_irrefl _
    rw [trustUpTo, if_pos (by omega), h.place]
    dsimp only
    rw [trustUpTo, if_neg reached, h.on]
  have known : (t.dot (.visible ⟨0, by decide⟩) 1 true).latch = true := by
    rw [(t.dot_rendered _ (by decide)).1]
    simp [Trust.latchAfter, objectFetchStart, objectFetchEnd]
  rw [turn_visit, lands, passed, trust]
  constructor
  · rw [land_look later (lookAt_register _ _ _) rfl searching, latch]
  · change [trustedBits later.register _ _] = _
    rw [show later.register = .objectData from lookAt_register _ _ _, trustedBits, known,
      Bool.not_true, Bool.and_false]
    rfl

/-- The first dot of the clearing puts another byte into the latch. -/
theorem Lit.off (h : m.Lit) :
    let dark := (m.turn ((maskAt m.timing 1 0).after m.clock.frameStart).turn).2
    dark.Dark ∧ dark.circuit.evaluation.latch = 0xFF ∧ m.SameBoard dark
      ∧ dark.clock.position.unsettled = false := by
  intro dark
  obtain ⟨passed, works, latch, -⟩ := h.next
  have lands : ((maskAt m.timing 1 0).after m.clock.frameStart).landing m.timing
      = m.clock.count + m.timing.dot := by
    rw [h.count, maskAt_landing, Nat.succ_mul, Nat.add_assoc]
  have turned : dark = ((m.step (.visible ⟨0, by decide⟩) 1).land
      ((maskAt m.timing 1 0).after m.clock.frameStart)).2 := by
    rw [← passed, ← lands, ← turn_visit]
  have ready : (m.step (.visible ⟨0, by decide⟩) 1).warmingUp = false :=
    (step_warmingUp _ _ m).trans h.ready
  have onTime := step_onTime h.onTime h.place
  have still := land_still ((maskAt m.timing 1 0).after m.clock.frameStart)
    (m.step (.visible ⟨0, by decide⟩) 1)
  have circuit := land_mask ((maskAt m.timing 1 0).after m.clock.frameStart)
    (m := m.step (.visible ⟨0, by decide⟩) 1) (maskAt_register _ _ _ _) rfl ready
  have board := land_mask_sameBoard ((maskAt m.timing 1 0).after m.clock.frameStart)
    (m := m.step (.visible ⟨0, by decide⟩) 1) (maskAt_register _ _ _ _) rfl ready
  rw [← turned] at still circuit board
  obtain ⟨settings, banks, slot⟩ := Works.dot_keeps (.visible ⟨0, by decide⟩) 1 m.config.limit
    m.circuit.works
  rw [← works] at settings banks slot
  refine ⟨⟨still.onTime onTime, ?_, ?_, ?_, ?_⟩, ?_, ?_, ?_⟩
  · rw [circuit]
    change Cartridge.Silent (m.step (.visible ⟨0, by decide⟩) 1).circuit.works.cartridge
    rw [slot]
    exact h.silent
  · rw [rendering, circuit]
    change Mask.rendering ⟨0⟩ = false
    decide
  · rw [still.clock, step_short _ _ h.onTime.paced]
    exact h.long
  · exact (congrArg Ledger.warmingUp still.ledger).trans ready
  · rw [circuit]
    exact latch
  · refine (sameBoard_of_eq (step_config _ _ m) banks ?_ slot).trans board
    exact congrArg (·.palette.map) settings
  · rw [still.clock, step_position h.onTime.paced h.place]
    rfl

/-- Rendering is switched on in a frame that a machine opens in the dark. -/
theorem openFrame_lit (hs : Cartridge.Silent m.circuit.cartridge) (off : m.rendering = false)
    (ready : m.warmingUp = false) :
    let o := m.openFrame
    let lit := (o.turn ((maskAt m.timing 0 8).after o.clock.frameStart).turn).2
    lit.Lit ∧ m.Lights lit ∧ lit.clock.frameStart = o.clock.frameStart := by
  have start : m.openFrame.clock.count = m.openFrame.clock.frameStart := by simp
  have circuit := openFrame_circuit m
  have opened : m.SameBoard m.openFrame :=
    sameBoard_of_works (openFrame_config m) (congrArg Circuit.works circuit)
  obtain ⟨lit, lights, frameStart⟩ := (dark_openFrame hs off ready).lit start
  rw [opened.timing] at lit lights frameStart
  refine ⟨lit, ⟨?_, opened.trans lights.board, ?_, ?_, ?_⟩, frameStart⟩
  · rw [lights.evaluation, circuit]
  · rw [lights.objects, circuit]
  · rw [lights.objectAddress, circuit]
  · rw [lights.control, circuit]

theorem play_single {script : List Visit} {values : List UInt8} {n : Machine κ}
    (h : m.playFrame script = .ok (values, n)) : m.play [script] = .ok (values, n) := by
  simp only [Machine.play, h, Except.bind, Except.map, List.append_nil]

/-- A script of one frame that shows the latch. -/
theorem play_lookAt (h : m.Resting) (hs : Cartridge.Silent m.circuit.cartridge)
    (off : m.rendering = false) (ready : m.warmingUp = false) :
    ∃ n, m.play [[maskAt m.timing 0 8, lookAt m.timing 1]]
      = .ok ([m.circuit.evaluation.latch], n) := by
  obtain ⟨lit, lights, frameStart⟩ := openFrame_lit hs off ready
  have look := lit.look
  rw [lights.evaluation, lights.board.timing, frameStart] at look
  have played := playFrame_eq h.beginFrame [maskAt m.timing 0 8, lookAt m.timing 1]
  simp only [List.map_cons, List.map_nil, answers, look] at played
  exact ⟨_, play_single played⟩

/-- A dot later all bits of what it shows are trusted. -/
theorem play_lookLater (h : m.Resting) (hs : Cartridge.Silent m.circuit.cartridge)
    (off : m.rendering = false) (ready : m.warmingUp = false) (t : Trust) :
    (∃ n, m.play [[maskAt m.timing 0 8, lookAt m.timing 2]] = .ok ([0xFF], n))
      ∧ m.trustPlay [[maskAt m.timing 0 8, lookAt m.timing 2]] t = [0xFF] := by
  obtain ⟨lit, ⟨-, board, -, -, -⟩, frameStart⟩ := openFrame_lit hs off ready
  have look (s : Trust) := lit.lookLater s
  rw [board.timing, frameStart] at look
  have played := playFrame_eq h.beginFrame [maskAt m.timing 0 8, lookAt m.timing 2]
  simp only [List.map_cons, List.map_nil, answers, (look t).1] at played
  refine ⟨⟨_, play_single played⟩, ?_⟩
  simp only [trustPlay, played, trustFrame, List.map_cons, List.map_nil, trustVisits,
    openFrame_timing, List.append_nil]
  rw [board.timing, (look _).2]
  rfl

/-- A script of one frame that leaves the byte of the clearing in the latch. -/
theorem play_maskAt (h : m.Resting) (hs : Cartridge.Silent m.circuit.cartridge)
    (off : m.rendering = false) (ready : m.warmingUp = false) :
    ∃ n, m.play [[maskAt m.timing 0 8, maskAt m.timing 1 0]] = .ok ([], n)
      ∧ n.circuit.evaluation.latch = 0xFF ∧ n.Resting ∧ m.SameBoard n ∧ n.rendering = false
      ∧ n.warmingUp = false := by
  obtain ⟨lit, ⟨-, board, -, -, -⟩, frameStart⟩ := openFrame_lit hs off ready
  obtain ⟨dark, latch, sameBoard, settled⟩ := lit.off
  rw [board.timing, frameStart] at dark latch sameBoard settled
  have played := playFrame_eq h.beginFrame [maskAt m.timing 0 8, maskAt m.timing 1 0]
  simp only [List.map_cons, List.map_nil, answers, afterTurns, List.foldl_cons, List.foldl_nil]
    at played
  generalize ((m.openFrame.turn ((maskAt m.timing 0 8).after
    m.openFrame.clock.frameStart).turn).2.turn ((maskAt m.timing 1 0).after
    m.openFrame.clock.frameStart).turn).2 = last at *
  obtain ⟨later, works⟩ := dark.advanceTo last.clock.frameEnd
  have closes : ¬ last.Stretches := fun stretches => by
    rw [Stretches, settled] at stretches
    cases stretches.1
  refine ⟨_, play_single played, ?_, resting_closeFrame dark.onTime closes, ?_, later.off, rfl⟩
  · exact (congrArg (·.evaluation.latch) works).trans latch
  · have ended : last.SameBoard (last.advanceTo last.clock.frameEnd).closeFrame :=
      sameBoard_of_works (advanceTo_config _ last) works
    exact (board.trans sameBoard).trans ended

end Machine

end PictureUnit
