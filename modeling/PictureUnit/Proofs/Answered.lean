import PictureUnit.Proofs.Latched

/-!
# What a restored machine answers

A saved state leaves out the search, the strips, the tiles and the address on the bus. A machine that
has loaded one answers every script exactly as the machine that saved it would, had it forgotten these.
So what it answers agrees with what that machine does answer in every bit that owes nothing to what was
left. If a script neither switches rendering inside a frame nor reads the object data register, these
are all bits. Otherwise a program can come upon the latch of the search before the search is renewed,
and then the two may differ.
-/

set_option autoImplicit false

namespace PictureUnit

/-- Values that agree in all their bits are the same. -/
theorem Agrees.eq {masks as bs : List UInt8} (h : Agrees masks as bs)
    (all : ∀ mask ∈ masks, mask = 0xFF) : bs = as := by
  induction masks generalizing as bs with
  | nil =>
    match as, bs, h with
    | [], [], _ => rfl
  | cons mask masks ih =>
    match as, bs, h with
    | a :: as, b :: bs, ⟨first, rest⟩ =>
      rw [List.forall_mem_cons] at all
      rw [all.1, agree_all] at first
      rw [first, ih rest all.2]

/-- Nothing is left of which it matters what it was. -/
def Trust.known : Trust := ⟨0, true, true, true, true, true, true, 0xFF⟩

theorem Trust.known_full : Trust.known.Full := ⟨⟨rfl, rfl, rfl⟩, rfl, rfl, rfl⟩

/-- Works on one level are the same but for the byte on the lines, if the pipelines are the same. -/
theorem Works.Level.known {κ : Type} {limit : SpriteLimit} {v w : Works κ} (h : v.Level w)
    (bounded : v.evaluation.Bounded limit) (evaluation : w.evaluation = v.evaluation)
    (strips : w.strips = v.strips) (background : w.pipe.background = v.pipe.background)
    (bus : w.pipe.bus = v.pipe.bus) (p : Position) : Works.Alike limit .known p v w := by
  have pipe : w.pipe = v.pipe := by
    rw [Pipe.mk.injEq]
    exact ⟨background, h.current, bus⟩
  refine ⟨h, ⟨bounded, ?_⟩, fun _ => congrArg Evaluation.latch evaluation,
    fun _ => Evaluation.walks_of_eq evaluation, fun _ => evaluation, ?_,
    fun _ => ⟨strips, pipe, ?_⟩, ?_⟩
  · rw [evaluation]
    exact bounded
  · intro y d _ left
    cases left
  · intro left
    cases left
  · intro line d _ _ _ _ _
    refine ⟨by rw [strips], by rw [pipe], ?_⟩
    intro left
    cases left

namespace Machine

/-- The machine without what a saved state leaves out. -/
def forget {κ : Type} (m : Machine κ) : Machine κ :=
  { m with
    circuit := { m.circuit with
      evaluation := .resting
      strips := .empty
      background := .empty
      bus := 0 } }

variable {κ : Type} [Cartridge κ] {t : Trust} {m n b : Machine κ}

/-- A machine with empty pipelines is alike one that has forgotten its own. -/
theorem Alike.forget (h : m.Alike t n) (flags : t.flags = true) (lines : t.lines = 0xFF)
    (emptied : n.circuit.Emptied) : m.forget.Alike .known n := by
  have level := h.circuit.works.level
  have settings := level.settings
  have agree := h.circuit.lines
  rw [lines] at agree
  rw [Trust.flags_iff] at flags
  refine ⟨h.config, h.position, h.raised, h.oddFrame, h.burst, h.warmingUp, h.inFrame, ?_⟩
  refine ⟨?_, h.circuit.vblank, fun _ => h.circuit.overflow flags.1, fun _ => h.circuit.hit flags.2,
    agree, h.circuit.idle⟩
  have forgotten : m.forget.circuit.works.Level n.circuit.works :=
    ⟨settings, level.banks, level.cartridge, level.objectAddress, level.current⟩
  exact forgotten.known (Evaluation.resting_bounded _) emptied.evaluation emptied.strips
    emptied.background emptied.bus _

/-- Calm visits are trusted in all bits. -/
theorem trustVisits_calm {vs : List Visit} (calm : ∀ v ∈ vs, v.Calm) (ht : m.OnTime)
    (h : t.Whole m.rendering m.clock.position) :
    let last := m.afterTurns (vs.map Visit.turn)
    (∀ mask ∈ (trustVisits vs m t).1, mask = 0xFF)
      ∧ (trustVisits vs m t).2.Whole m.rendering last.clock.position
      ∧ last.rendering = m.rendering ∧ last.OnTime := by
  induction vs generalizing m t with
  | nil => exact ⟨by simp [trustVisits], h, rfl, ht⟩
  | cons v rest ih =>
    rw [List.forall_mem_cons] at calm
    have reached := advanceTo_whole (v.landing m.timing) ht h
    have still := land_still v (m.advanceTo (v.landing m.timing))
    have rendering := (land_rendering calm.1 (m.advanceTo (v.landing m.timing))).trans
      (advanceTo_rendering _ m)
    rw [← advanceTo_rendering (v.landing m.timing) m] at reached
    obtain ⟨whole, all⟩ := land_whole calm.1 reached
    have onTime := still.onTime (advanceTo_onTime (v.landing m.timing) ht)
    rw [advanceTo_rendering, ← rendering] at whole
    rw [← turn_visit] at whole onTime rendering
    obtain ⟨later, last, kept, ended⟩ := ih calm.2 onTime whole
    rw [rendering] at last kept
    exact ⟨List.forall_mem_append.mpr ⟨all, later⟩, last, kept, ended⟩

/-- A calm frame is trusted in all bits to its end. -/
theorem trustFrame_calm {script : List Visit} (calm : ∀ v ∈ script, v.Calm) (flags : t.flags = true)
    (lines : t.lines = 0xFF) (m : Machine κ) :
    (∀ mask ∈ (m.trustFrame script t).1, mask = 0xFF)
      ∧ (m.trustFrame script t).2.Whole m.rendering .blank := by
  have whole : t.Whole m.openFrame.rendering m.openFrame.clock.position := by
    rw [openFrame_clock]
    exact Trust.whole_start flags lines _
  -- When a visit comes does not matter to its calm.
  have moved : ∀ v ∈ script.map fun v => v.after m.openFrame.clock.frameStart, v.Calm := by
    intro w here
    obtain ⟨v, hv, rfl⟩ := List.mem_map.mp here
    exact calm v hv
  have opened : m.openFrame.rendering = m.rendering := by
    rw [rendering, rendering, openFrame_circuit]
  obtain ⟨all, last, kept, onTime⟩ := trustVisits_calm moved (openFrame_onTime m) whole
  rw [← kept] at last
  have closing := advanceTo_whole (m.openFrame.afterTurns ((script.map fun v =>
    v.after m.openFrame.clock.frameStart).map Visit.turn)).clock.frameEnd onTime last
  rw [(advanceTo_frameEnd onTime).1, kept, opened] at closing
  exact ⟨all, closing⟩

/-- Scripts are trusted in all bits if the first one is, and the others after it. -/
theorem trustPlay_cons {script : List Visit} {rest : List (List Visit)}
    (first : ∀ mask ∈ (m.trustFrame script t).1, mask = 0xFF)
    (later : ∀ n : Machine κ, ∀ mask ∈ n.trustPlay rest (m.trustFrame script t).2, mask = 0xFF) :
    ∀ mask ∈ m.trustPlay (script :: rest) t, mask = 0xFF := by
  rw [trustPlay]
  split
  · exact List.forall_mem_nil _
  · next n played => exact List.forall_mem_append.mpr ⟨first, later n⟩

theorem trustPlay_calm {scripts : List (List Visit)} (calm : ∀ script ∈ scripts, ∀ v ∈ script, v.Calm)
    (flags : t.flags = true) (lines : t.lines = 0xFF) (m : Machine κ) :
    ∀ mask ∈ m.trustPlay scripts t, mask = 0xFF := by
  induction scripts generalizing m t with
  | nil => simp [trustPlay]
  | cons script rest ih =>
    rw [List.forall_mem_cons] at calm
    obtain ⟨all, whole⟩ := trustFrame_calm calm.1 flags lines m
    exact trustPlay_cons all (ih calm.2 whole.flags whole.lines)

theorem trustVisits_full (vs : List Visit) (m : Machine κ) (h : t.Full) :
    (∀ mask ∈ (trustVisits vs m t).1, mask = 0xFF) ∧ (trustVisits vs m t).2.Full := by
  induction vs generalizing m t with
  | nil => exact ⟨by simp [trustVisits], h⟩
  | cons v rest ih =>
    obtain ⟨full, all⟩ := visit_full v (m.advanceTo (v.landing m.timing))
      (trustUpTo_full (v.landing m.timing) m h)
    obtain ⟨later, last⟩ := ih (m.turn v.turn).2 full
    exact ⟨List.forall_mem_append.mpr ⟨all, later⟩, last⟩

/-- Once all is renewed, no script finds anything that was left. -/
theorem trustPlay_full (scripts : List (List Visit)) (m : Machine κ) (h : t.Full) :
    ∀ mask ∈ m.trustPlay scripts t, mask = 0xFF := by
  induction scripts generalizing m t with
  | nil => simp [trustPlay]
  | cons script rest ih =>
    obtain ⟨all, last⟩ := trustVisits_full (script.map fun v => v.after m.openFrame.clock.frameStart)
      m.openFrame h
    exact trustPlay_cons all fun n => ih n (trustUpTo_full _ _ last)

/-- A calm frame that renders renews all. -/
theorem trustPlay_rendered {first : List Visit} (calm : ∀ v ∈ first, v.Calm) (on : m.rendering = true)
    (rest : List (List Visit)) : ∀ mask ∈ m.trustPlay (first :: rest) .saved, mask = 0xFF := by
  obtain ⟨all, whole⟩ := trustFrame_calm (t := .saved) calm rfl rfl m
  rw [on] at whole
  exact trustPlay_cons all fun n => trustPlay_full rest n whole.full

/-- Once all is known that can be seen, the answers are the same. -/
theorem Alike.answers_eq (h : m.Alike t n) (full : t.Full)
    (hb : n.clock.betweenFrames = m.clock.betweenFrames) (scripts : List (List Visit)) :
    (n.play scripts).map Prod.fst = (m.play scripts).map Prod.fst := by
  rcases h.play hb scripts with ⟨as, m', bs, n', own, other, agree⟩ | ⟨misuse, own, other⟩
  · rw [own, other]
    exact congrArg Except.ok (agree.eq (trustPlay_full scripts m full))
  · rw [own, other]

/-- A machine that loads a saved state answers every script as the machine that saved it would after
forgetting what the state leaves out. So in all trusted bits it answers like that machine. It answers a
calm script altogether like it, and every script that follows a calm frame which renders. -/
theorem load_answers {m b : Machine κ} (hm : m.Reachable) (hf : m.inFrame = false)
    (caughtUp : m.clock.betweenFrames = true) (idle : Cartridge.Idle m.circuit.cartridge)
    (hb : b.Reachable) (closed : b.inFrame = false) (same : m.SameBoard b) :
    ∃ n, b.load m.save = .ok (.ok (n, []))
      ∧ ∀ scripts : List (List Visit),
        (n.play scripts).map Prod.fst = (m.forget.play scripts).map Prod.fst
        ∧ ((∃ as m' bs n', m.play scripts = .ok (as, m') ∧ n.play scripts = .ok (bs, n')
            ∧ Agrees (m.trustPlay scripts .saved) as bs
            ∧ ((∀ script ∈ scripts, ∀ v ∈ script, v.Calm) → bs = as)
            ∧ (∀ first rest, scripts = first :: rest → m.rendering = true → (∀ v ∈ first, v.Calm) →
              bs = as))
          ∨ ∃ misuse, m.play scripts = .error misuse ∧ n.play scripts = .error misuse) := by
  obtain ⟨n, loaded, alike, -, between⟩ := hm.load_save hf idle hb closed same
  have together : n.clock.betweenFrames = m.clock.betweenFrames := between.trans caughtUp.symm
  have forgotten := alike.forget rfl rfl (load_emptied loaded)
  refine ⟨n, loaded, fun scripts => ⟨forgotten.answers_eq Trust.known_full together scripts, ?_⟩⟩
  rcases alike.play together scripts with ⟨as, m', bs, n', own, other, agree⟩ | refused
  · left
    refine ⟨as, m', bs, n', own, other, agree,
      fun calm => agree.eq (trustPlay_calm calm rfl rfl m), ?_⟩
    rintro first rest rfl on calm
    exact agree.eq (trustPlay_rendered calm on rest)
  · exact .inr refused

/-- Rendering was on for one dot of a frame. In the next frame the program switches it on again and
reads the object data register. At once, a machine that has loaded the state between the two frames
answers as the machine does that forgets its latch; a dot later all bits are trusted and all answer the
same. -/
theorem load_answers_switchedOn :
    let fresh := Machine.new ⟨.ntsc, .hardware⟩ .new (none : Option Unit) (.new fun _ => 0)
    let line : Timing := Region.ntsc.timing
    let atOnce := [[maskAt line 0 8, lookAt line 1]]
    let later := [[maskAt line 0 8, lookAt line 2]]
    ∃ m, fresh.play [[maskAt line 0 8, maskAt line 1 0]] = .ok ([], m)
      ∧ ∃ n, fresh.load m.save = .ok (.ok (n, []))
        ∧ (m.play atOnce).map Prod.fst = .ok [0xFF] ∧ (m.forget.play atOnce).map Prod.fst = .ok [0]
        ∧ (n.play atOnce).map Prod.fst = .ok [0]
        ∧ m.trustPlay later .saved = [0xFF]
        ∧ (m.play later).map Prod.fst = .ok [0xFF] ∧ (n.play later).map Prod.fst = .ok [0xFF] := by
  intro fresh line atOnce later
  have dark : Cartridge.Silent fresh.circuit.cartridge := Cartridge.silent_none
  obtain ⟨m, played, latch, resting, board, off, ready⟩ :=
    play_maskAt (new_resting ⟨.ntsc, .hardware⟩ .new none (.new fun _ => 0)) dark (by decide) rfl
  have reached : m.Reachable := Reachable.play (.new _ _ _ _) played
  have idle : Cartridge.Idle m.circuit.cartridge := by
    rw [board.cartridge]
    exact Cartridge.idle_none
  obtain ⟨n, loaded, plays⟩ := load_answers reached resting.closed resting.betweenFrames idle
    (.new ⟨.ntsc, .hardware⟩ .new none (.new fun _ => 0)) rfl board.symm
  have forgotten : m.forget.Resting :=
    ⟨resting.waiting.of_eq rfl rfl, resting.ended, resting.closed⟩
  obtain ⟨m', shown⟩ := play_lookAt resting idle.toSilent off ready
  obtain ⟨k, hidden⟩ := play_lookAt forgotten idle.toSilent off ready
  obtain ⟨⟨m'', again⟩, trusted⟩ := play_lookLater resting idle.toSilent off ready .saved
  have timing : m.forget.timing = line := board.timing
  rw [latch, board.timing] at shown
  rw [timing] at hidden
  rw [board.timing] at again trusted
  change m.play later = .ok ([0xFF], m'') at again
  change m.trustPlay later .saved = [0xFF] at trusted
  have zero : (m.forget.play atOnce).map Prod.fst = .ok [0] := congrArg (Except.map Prod.fst) hidden
  refine ⟨m, played, n, loaded, congrArg (Except.map Prod.fst) shown, zero,
    (plays atOnce).1.trans zero, trusted, congrArg (Except.map Prod.fst) again, ?_⟩
  rcases (plays later).2 with ⟨as, _, bs, _, own, other, agree, -⟩ | ⟨misuse, own, -⟩
  · rw [again, Except.ok.injEq, Prod.mk.injEq] at own
    rw [trusted, ← own.1] at agree
    rw [other, agree.eq (List.forall_mem_singleton.mpr rfl)]
    rfl
  · rw [again] at own
    cases own

/-- Rendering was on for one dot of a frame. In the next frame the program switches it on again and
reads the object data register at once: it sees the byte of the clearing. A machine that has loaded the
state between the two frames answers zero. -/
theorem load_answers_latched :
    let fresh := Machine.new ⟨.ntsc, .hardware⟩ .new (none : Option Unit) (.new fun _ => 0)
    let line : Timing := Region.ntsc.timing
    ∃ m, fresh.play [[maskAt line 0 8, maskAt line 1 0]] = .ok ([], m)
      ∧ m.Reachable ∧ m.inFrame = false ∧ m.clock.betweenFrames = true
      ∧ m.circuit.cartridge = none ∧ m.SameBoard fresh
      ∧ ∃ n, fresh.load m.save = .ok (.ok (n, []))
        ∧ (∃ m', m.play [[maskAt line 0 8, lookAt line 1]] = .ok ([0xFF], m'))
        ∧ ∃ n', n.play [[maskAt line 0 8, lookAt line 1]] = .ok ([0], n') := by
  intro fresh line
  have dark : Cartridge.Silent fresh.circuit.cartridge := Cartridge.silent_none
  obtain ⟨m, played, latch, resting, board, off, ready⟩ :=
    play_maskAt (new_resting ⟨.ntsc, .hardware⟩ .new none (.new fun _ => 0)) dark (by decide) rfl
  have reached : m.Reachable := Reachable.play (.new _ _ _ _) played
  have empty : m.circuit.cartridge = none := board.cartridge
  have idle : Cartridge.Idle m.circuit.cartridge := by
    rw [empty]
    exact Cartridge.idle_none
  obtain ⟨n, loaded, alike, again, between⟩ := reached.load_save resting.closed idle
    (.new ⟨.ntsc, .hardware⟩ .new none (.new fun _ => 0)) rfl board.symm
  have rests := again.resting (alike.inFrame.trans resting.closed) between
  obtain ⟨m', shown⟩ := play_lookAt resting idle.toSilent off ready
  obtain ⟨n', hidden⟩ := play_lookAt rests alike.idle.toSilent (alike.rendering.trans off)
    (alike.warmingUp.trans ready)
  rw [latch, board.timing] at shown
  rw [(load_emptied loaded).evaluation, alike.timing, board.timing] at hidden
  exact ⟨m, played, reached, resting.closed, resting.betweenFrames, empty, board.symm, n, loaded,
    ⟨m', shown⟩, n', hidden⟩

end Machine

end PictureUnit
