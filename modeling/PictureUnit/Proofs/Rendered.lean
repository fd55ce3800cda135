import PictureUnit.Proofs.Frame
import PictureUnit.Proofs.Picture

/-!
# A frame that is rendered shows the scene

Between its dots the machine does nothing to the works, and the blank does nothing to the screen. So a
frame in which the processor keeps still is one raster, and when it is rendered with an empty slot
each of its pixels is that of the scene the frame began with.
-/

set_option autoImplicit false

namespace PictureUnit

/-- Inks that all have the colour of their place leave that colour. -/
theorem Screen.pixel?_inks {F : Nat → Nat → UInt16} {l : List Ink} {s : Screen} {x y : Nat}
    (hx : x < screenWidth) (hy : y < screenHeight)
    (hl : ∀ i ∈ l, i.x < screenWidth ∧ i.color = F i.x i.y)
    (h : s.pixel? x y = some (F x y) ∨ ∃ i ∈ l, i.x = x ∧ i.y = y) :
    (s.inks l).pixel? x y = some (F x y) := by
  induction l generalizing s with
  | nil => simpa [inks] using h
  | cons i rest ih =>
    obtain ⟨width, color⟩ := hl i List.mem_cons_self
    apply ih fun j hj => hl j (List.mem_cons_of_mem _ hj)
    by_cases here : i.x = x ∧ i.y = y
    · obtain ⟨rfl, rfl⟩ := here
      left
      dsimp only
      rw [color]
      exact pixel?_draw_same s _ _ _ hx hy
    · rw [List.exists_mem_cons_iff] at h
      have other : i.x ≠ x ∨ i.y ≠ y := by
        by_cases column : i.x = x
        · exact .inr fun row => here ⟨column, row⟩
        · exact .inl column
      rw [pixel?_draw_ne s _ _ _ _ _ width hx other]
      rcases h with before | now | later
      · exact .inl before
      · exact absurd now here
      · exact .inr later

namespace Machine

variable {κ : Type}

theorem passBlank_screen (target : Nat) (m : Machine κ) :
    (m.passBlank target).circuit.screen = m.circuit.screen := by
  unfold passBlank raiseVblank
  dsimp only
  split
  · split <;> rfl
  · rfl

variable [Cartridge κ]

theorem step_screen (line : Line) (dot : Nat) (m : Machine κ) :
    (m.step line dot).circuit.screen = m.circuit.screen.inks (m.circuit.inks line dot) :=
  congrArg (fun n => n.circuit.screen) (step_withScreen m.circuit.screen line dot m)

/-- A rendered dot with an empty slot is a dot of the works, and leaves the slot empty. -/
theorem step_works {m : Machine κ} (hs : Cartridge.Silent m.circuit.cartridge)
    (hr : m.rendering = true) (line : Line) (dot : Nat) :
    (m.step line dot).circuit.works = m.circuit.works.dot line dot m.config.limit
      ∧ Cartridge.Silent (m.step line dot).circuit.cartridge := by
  have works : (m.step line dot).circuit.works = m.circuit.works.dot line dot m.config.limit := by
    rw [step_circuit]
    exact Circuit.dot_works hs hr line dot _ _
  have slot : (m.step line dot).circuit.cartridge = m.circuit.cartridge :=
    (congrArg Works.cartridge works).trans (Works.dot_keeps line dot _ _).2.2
  exact ⟨works, slot ▸ hs⟩

/-- To catch up with an empty slot while rendering is to pass dots of the works. -/
theorem advanceTo_inks (target : Nat) {m : Machine κ} (hs : Cartridge.Silent m.circuit.cartridge)
    (hr : m.rendering = true) : ∃ ds,
      Passes ds (Works.inksOf m.config.limit ds m.circuit.works) m (m.advanceTo target)
        ∧ (m.advanceTo target).circuit.screen
          = m.circuit.screen.inks (Works.inksOf m.config.limit ds m.circuit.works) := by
  fun_induction advanceTo target m with
  | case1 m hc hp => exact ⟨[], .blank target hp (.refl _), passBlank_screen target m⟩
  | case2 m hc line dot hp ih =>
    -- The works of the step decide its slot and the works it passes on, so `ih` applies to them.
    obtain ⟨works, silent⟩ := step_works hs hr line dot
    have inks := Circuit.inks_works (c := m.circuit) hr line dot
    obtain ⟨ds, passes, screen⟩ := ih silent (by rwa [step_rendering])
    rw [works, step_config] at passes screen
    refine ⟨(line, dot) :: ds, ?_, ?_⟩
    · rw [Works.inksOf, ← inks]
      exact .dot hp passes
    · rw [Works.inksOf, ← inks, Screen.inks_append, ← step_screen]
      exact screen
  | case3 m hc => exact ⟨[], .refl m, rfl⟩

/-- A frame without a turn is a raster. -/
theorem openFrame_inks {m : Machine κ} (hs : Cartridge.Silent m.circuit.cartridge)
    (hr : m.rendering = true) : ∃ n short, m.openFrame.endFrame = .ok n
      ∧ n.circuit.screen = m.circuit.screen.inks
        (Works.inksOf m.config.limit (raster short) m.circuit.works) := by
  obtain ⟨ds, passes, screen⟩ := advanceTo_inks m.openFrame.clock.frameEnd (m := m.openFrame)
    (by rwa [openFrame_circuit]) (by rwa [rendering, openFrame_circuit])
  have ended := (advanceTo_frameEnd (openFrame_onTime m)).1
  rw [passes.raster ended, openFrame_circuit, openFrame_config] at screen
  exact ⟨_, _, if_pos (openFrame_inFrame m), screen⟩

/-- Between frames there is nothing to catch up with. -/
theorem advanceTo_idle {m : Machine κ} (hb : m.clock.position = .blank)
    (he : m.clock.frameEnd ≤ m.clock.count) (hr : m.vblank.raised = true) (target : Nat) :
    m.advanceTo target = m := by
  by_cases late : m.clock.count < target
  · have passed : m.passBlank target = m := by
      apply passBlank_of_passed ((Nat.min_le_right _ _).trans he)
      intro h
      rw [hr] at h
      cases h
    rw [advanceTo_blank target m hb late, passed]
  · exact advanceTo_of_le target m (Nat.not_lt.mp late)

/-- Between frames a write to the mask byte lands at once. -/
theorem turn_mask {m : Machine κ} (hb : m.clock.position = .blank)
    (he : m.clock.frameEnd ≤ m.clock.count) (hr : m.vblank.raised = true)
    (hw : m.warmingUp = false) (cycle : Nat) (byte : UInt8) :
    let t : Turn := ⟨cycle, fun _ => 0, .write 0x2001 byte⟩
    (m.turn t).2 = ((m.meet t).setLines byte).withCircuit (·.setMask ⟨byte⟩) := by
  intro t
  have idle := advanceTo_idle (m := m.meet t) hb he hr
  have warm : ((m.meet t).setLines byte).warmingUp = false := hw
  change (m.meet t).writeInto .mask byte = _
  rw [writeInto_eq, idle, put, warm]
  rfl

/-- Switches the background on. -/
def switchOn (cycle : Nat) : Turn := ⟨cycle, fun _ => 0, .write 0x2001 8⟩

theorem switchOn_eq {m : Machine κ} (hb : m.clock.position = .blank)
    (he : m.clock.frameEnd ≤ m.clock.count) (hr : m.vblank.raised = true)
    (hw : m.warmingUp = false) (cycle : Nat) : (m.turn (switchOn cycle)).2
      = ((m.meet (switchOn cycle)).setLines 8).withCircuit (·.setMask ⟨8⟩) :=
  turn_mask hb he hr hw cycle 8

/-- Whatever a machine with an empty slot holds between frames, the next frame shows its scene. -/
theorem frame_shows_scene {m : Machine (Option κ)} (hm : m.Reachable) (hf : m.inFrame = false)
    (hb : m.clock.betweenFrames = true) (hs : m.circuit.cartridge = none)
    (hr : m.rendering = true) :
    ∃ o n, m.beginFrame = .ok o ∧ o.endFrame = .ok n
      ∧ ∀ x < screenWidth, ∀ y < screenHeight,
        n.circuit.screen.pixel? x y = some (m.scene.color (m.scene.entry x y)) := by
  have silent : Cartridge.Silent m.circuit.cartridge := by
    rw [hs]
    exact Cartridge.silent_none
  obtain ⟨n, short, closed, screen⟩ := openFrame_inks silent hr
  refine ⟨m.openFrame, n, ?_, closed, ?_⟩
  · rw [beginFrame, hf, hb]
    rfl
  · intro x hx y hy
    rw [screen, Works.inksOf_raster hm.derived]
    have scene : m.circuit.works.scene m.config.limit = m.scene := rfl
    rw [scene]
    apply Screen.pixel?_inks (F := fun x y => m.scene.color (m.scene.entry x y)) hx hy
    · intro i hi
      obtain ⟨row, -, hi⟩ := List.mem_flatMap.mp hi
      obtain ⟨column, hc, rfl⟩ := List.mem_map.mp hi
      exact ⟨List.mem_range.mp hc, rfl⟩
    · right
      refine ⟨⟨x, y, m.scene.color (m.scene.entry x y)⟩, ?_, rfl, rfl⟩
      rw [List.mem_flatMap]
      exact ⟨⟨y, hy⟩, List.mem_finRange _, List.mem_map.mpr ⟨x, List.mem_range.mpr hx, rfl⟩⟩

end Machine

end PictureUnit
