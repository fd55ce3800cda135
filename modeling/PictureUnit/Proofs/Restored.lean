import PictureUnit.Proofs.Contents

/-!
# A saved state comes back whole

What a machine holds is written section by section and read again by other code. Nothing is lost on
the way: every section is understood, every kind is written once, and the one part that loading
narrows, the palette, is narrow in every machine that a session comes to. What the other machine
was before, and what stands in its cartridge slot, makes no difference.
-/

set_option autoImplicit false

namespace PictureUnit.Snapshot

theorem understood_sections (ss : List Section) : understood (ss.map Section.chunk) = ss := by
  induction ss with
  | nil => rfl
  | cons s rest ih => rw [List.map_cons, understood_cons_ok (understand_chunk s), ih]

theorem complaints_sections (ss : List Section) : complaints (ss.map Section.chunk) = [] := by
  induction ss with
  | nil => rfl
  | cons s rest ih =>
    rw [complaints, List.map_cons, List.filterMap_cons_none (by rw [understand_chunk])]
    exact ih

end PictureUnit.Snapshot

namespace PictureUnit.Machine

open Snapshot

variable {κ κ' : Type}

/-- What the machine holds of all that a stream can set. -/
def contents (m : Machine κ) : Contents where
  registers := m.circuit.registers
  entries := m.circuit.palette.entries
  objects := m.circuit.objects
  internal := m.circuit.banks.internal
  odd := m.oddFrame
  burst := m.burst
  warmUp := m.warmingUp

theorem sections_eq (m : Machine κ) : m.sections = Kind.all.map m.contents.part := rfl

/-- Each kind is written once, so what is written is what is held. -/
theorem ofSections_sections (m : Machine κ) : Contents.ofSections m.sections = m.contents := by
  rw [← Contents.foldl_put]
  rfl

/-- What is saved depends on what is held alone. -/
theorem save_congr {m : Machine κ} {n : Machine κ'} (h : n.contents = m.contents) :
    n.save = m.save := by
  rw [save, save, sections_eq, sections_eq, h]

/-- A machine that is made to hold something holds it, with the palette narrowed. -/
theorem holding_contents (h : Contents) (b : Machine κ) :
    (b.holding h).contents = { h with entries := h.entries.map (· &&& 0x3F) } := rfl

/-- A saved state loads without a complaint, and sets all that was held. -/
theorem load_save_eq (m : Machine κ) {b : Machine κ'} (closed : b.inFrame = false) :
    b.load m.save = .ok (.ok (b.holding m.contents, [])) := by
  rw [save, load_parsed closed (parse_sections m.sections), understood_sections,
    complaints_sections, ofSections_sections]

variable [Cartridge κ] {m : Machine κ}

/-- What a session leaves in a machine is held again after a load. -/
theorem Reachable.holding_contents (hm : m.Reachable) (b : Machine κ') :
    (b.holding m.contents).contents = m.contents := by
  have stored : m.circuit.palette.entries.map (· &&& 0x3F) = m.circuit.palette.entries :=
    hm.derived.sound.stored
  rw [Machine.holding_contents, Contents.mk.injEq]
  exact ⟨rfl, stored, rfl, rfl, rfl, rfl, rfl⟩

/-- The state of a machine that a session has come to, in a frame or between two, is taken up whole
by every machine outside a frame: no chunk is skipped, all that is saved comes back, and saving it
again writes the same bytes. -/
theorem Reachable.load_save_restores (hm : m.Reachable) {b : Machine κ'}
    (closed : b.inFrame = false) :
    ∃ n, b.load m.save = .ok (.ok (n, []))
      ∧ n.circuit.registers.control = m.circuit.registers.control
      ∧ n.circuit.registers.mask = m.circuit.registers.mask
      ∧ n.circuit.registers.status = m.circuit.registers.status
      ∧ n.circuit.registers.objectAddress = m.circuit.registers.objectAddress
      ∧ n.circuit.registers.scroll.current = m.circuit.registers.scroll.current
      ∧ n.circuit.registers.scroll.pending = m.circuit.registers.scroll.pending
      ∧ n.circuit.registers.scroll.fineX = m.circuit.registers.scroll.fineX
      ∧ n.circuit.registers.scroll.second = m.circuit.registers.scroll.second
      ∧ n.circuit.registers.lines = m.circuit.registers.lines
      ∧ n.circuit.registers.buffer = m.circuit.registers.buffer
      ∧ n.circuit.palette.entries = m.circuit.palette.entries
      ∧ n.circuit.objects = m.circuit.objects
      ∧ n.circuit.banks.internal = m.circuit.banks.internal
      ∧ n.oddFrame = m.oddFrame
      ∧ n.burst = m.burst
      ∧ n.warmingUp = m.warmingUp
      ∧ n.save = m.save := by
  have held := hm.holding_contents b
  have entries := congrArg Contents.entries held
  exact ⟨b.holding m.contents, load_save_eq m closed, rfl, rfl, rfl, rfl, rfl, rfl, rfl, rfl, rfl,
    rfl, entries, rfl, rfl, rfl, rfl, rfl, save_congr held⟩

/-- A machine of one make takes up the state of another make, where a turn has set the object
address. -/
theorem load_save_restores_otherMake :
    let fresh := Machine.new ⟨.ntsc, .hardware⟩ .new (none : Option Unit) (.new fun _ => 0)
    let m := (fresh.turn ⟨500, fun _ => 7, .write 0x2003 0x42⟩).2
    let other := Machine.new ⟨.pal, .unlimited⟩ .new () (.new fun _ => 1)
    m.Reachable ∧ other.inFrame = false
      ∧ ∃ n, other.load m.save = .ok (.ok (n, []))
        ∧ n.circuit.registers.objectAddress = m.circuit.registers.objectAddress
        ∧ n.save = m.save := by
  intro fresh m other
  have reached : m.Reachable :=
    (Reachable.new ⟨.ntsc, .hardware⟩ .new none (.new fun _ => 0)).turn _
  obtain ⟨n, loaded, -, -, -, address, -, -, -, -, -, -, -, -, -, -, -, -, saved⟩ :=
    reached.load_save_restores (b := other) rfl
  exact ⟨reached, rfl, n, loaded, address, saved⟩

end PictureUnit.Machine
