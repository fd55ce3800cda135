import Mathlib.Data.List.Induction
import PictureUnit.Proofs.Deeds
import PictureUnit.Proofs.Refined

/-!
# The draft of a scroll position

The pending address, the pixel column and the write toggle are a draft, which the processor makes at three
registers and takes up anew with a status read. Rendering moves the current address at every dot, but no dot
and no other access reaches the draft. So it is the fold of what was written to the three registers and of
the status reads between, whenever they came and whatever else went on.
-/

set_option autoImplicit false

namespace PictureUnit

/-- What reaches the draft. -/
inductive Stroke where
  | control (byte : UInt8)
  | scroll (byte : UInt8)
  | address (byte : UInt8)
  | look
  deriving DecidableEq

structure Draft where
  pending : Nat
  fine : Nat
  second : Bool
  deriving DecidableEq

namespace Draft

def clear : Draft := ⟨0, 0, false⟩

/-- From the lowest bit up, the pending address has five bits of the column, five of the row, two of the
nametable, and three of the pixel row. -/
def take (d : Draft) : Stroke → Draft
  | .control byte =>
    { d with pending := d.pending % 0x400 + byte.toNat % 4 * 0x400 + d.pending / 0x1000 * 0x1000 }
  | .scroll byte =>
    if d.second then
      { d with
        pending := d.pending % 0x20 + byte.toNat / 8 * 0x20 + d.pending / 0x400 % 4 * 0x400
          + byte.toNat % 8 * 0x1000
        second := false }
    else ⟨d.pending / 0x20 * 0x20 + byte.toNat / 8, byte.toNat % 8, true⟩
  | .address byte =>
    if d.second then { d with pending := d.pending / 0x100 * 0x100 + byte.toNat, second := false }
    else { d with pending := byte.toNat % 0x40 * 0x100 + d.pending % 0x100, second := true }
  | .look => { d with second := false }

/-- The draft after what may be a stroke. -/
def after (d : Draft) (stroke : Option Stroke) : Draft := stroke.elim d d.take

end Draft

namespace Stroke

/-- The stroke is half of a pair. -/
def isHalf : Stroke → Bool
  | .scroll _ | .address _ => true
  | .control _ | .look => false

def ofRead : Register → Option Stroke
  | .status => some .look
  | .control | .mask | .objectAddress | .objectData | .scroll | .address | .data => none

def ofWrite (byte : UInt8) : Register → Option Stroke
  | .control => some (.control byte)
  | .scroll => some (.scroll byte)
  | .address => some (.address byte)
  | .mask | .status | .objectAddress | .objectData | .data => none

/-- The halves since the last look. -/
def halves (strokes : List Stroke) : Nat := (strokes.reverse.takeWhile (· ≠ .look)).countP isHalf

variable {strokes : List Stroke}

theorem halves_look : halves (strokes ++ [.look]) = 0 := by
  simp [halves]

theorem halves_append {s : Stroke} (h : s ≠ .look) :
    halves (strokes ++ [s]) = halves strokes + if s.isHalf then 1 else 0 := by
  simp [halves, h, List.countP_cons]

theorem take_second (d : Draft) (s : Stroke) :
    (d.take s).second = if s = .look then false else xor d.second s.isHalf := by
  cases s with
  | look | control => simp [Draft.take, isHalf]
  | scroll | address =>
    rw [Draft.take]
    cases second : d.second <;> simp [isHalf]

/-- The toggle is the parity of the halves since the last look. -/
theorem foldl_take_second (strokes : List Stroke) :
    (strokes.foldl Draft.take .clear).second = decide (halves strokes % 2 = 1) := by
  induction strokes using List.reverseRecOn with
  | nil => rfl
  | append_singleton strokes s ih =>
    rw [List.foldl_append, List.foldl_cons, List.foldl_nil, take_second, ih]
    by_cases look : s = .look
    · rw [if_pos look, look, halves_look]
      rfl
    · rw [if_neg look, halves_append look]
      cases s.isHalf with
      | false => simp
      | true =>
        have flipped : (halves strokes + 1) % 2 = 1 ↔ ¬halves strokes % 2 = 1 := by omega
        simp only [if_true, Bool.xor_true, ← decide_not, flipped]

end Stroke

def Access.stroke? : Access → Option Stroke
  | .read address => Stroke.ofRead (.ofAddress address)
  | .write address byte =>
    if address = transferAddress then none else Stroke.ofWrite byte (.ofAddress address)
  | .transfer _ | .catchUp _ => none

namespace Deed

variable {κ : Type}

def stroke? : Deed κ → Option Stroke
  | .act (.turn t) => t.access.stroke?
  | .act .opening | .act .closing | .reset _ | .load _ | .swap _ | .recolor _ | .bank _ | .insert _ => none

theorem eq_of_stroke {d : Deed κ} {byte : UInt8} (h : d.stroke? = some (.address byte)) :
    ∃ t place, d = .act (.turn t) ∧ t.access = .write place byte ∧ place ≠ transferAddress
      ∧ Register.ofAddress place = .address := by
  cases d with
  | act a =>
    cases a with
    | turn t =>
      obtain ⟨cycle, memory, access⟩ := t
      cases access with
      | write place written =>
        simp only [stroke?, Access.stroke?] at h
        split at h
        · cases h
        · next plain =>
          cases register : Register.ofAddress place <;> rw [register] at h <;> cases h
          exact ⟨_, place, rfl, rfl, plain, register⟩
      | read place =>
        simp only [stroke?, Access.stroke?] at h
        cases register : Register.ofAddress place <;> rw [register] at h <;> cases h
      | transfer | catchUp => cases h
    | opening | closing => cases h
  | reset | load | swap | recolor | bank | insert => cases h

/-- The deed leaves the chip switched on. -/
def Lasting : Deed κ → Prop
  | .reset _ | .load _ => False
  | .act _ | .swap _ | .recolor _ | .bank _ | .insert _ => True

end Deed

/-- What reaches the draft among some deeds. -/
def strokes {κ : Type} (ds : List (Deed κ)) : List Stroke := ds.filterMap Deed.stroke?

def Settings.draft (s : Settings) : Draft := ⟨s.pending.raw, s.fineX.val, s.second⟩

namespace Ports

variable {p : Ports}

def draft (p : Ports) : Draft := ⟨p.pending, p.fine, p.second⟩

theorem writeControl_draft (byte : UInt8) : (p.writeControl byte).draft = p.draft.take (.control byte) := rfl

theorem writeScroll_draft (byte : UInt8) : (p.writeScroll byte).draft = p.draft.take (.scroll byte) := by
  unfold writeScroll
  split
  · next second => exact (if_pos second).symm
  · next second => exact (if_neg second).symm

theorem writeAddress_draft (byte : UInt8) : (p.writeAddress byte).draft = p.draft.take (.address byte) := by
  unfold writeAddress
  split
  · next second => exact (if_pos second).symm
  · next second => exact (if_neg second).symm

end Ports

namespace Machine

variable {κ : Type} {m : Machine κ}

def draft (m : Machine κ) : Draft := m.circuit.settings.draft

theorem draft_of_settings {n : Machine κ} (h : n.circuit.settings = m.circuit.settings) :
    n.draft = m.draft := congrArg Settings.draft h

theorem setColorMap_draft (map : Option ColorMap) (m : Machine κ) : (m.setColorMap map).draft = m.draft := by
  simp only [draft, Settings.draft, Circuit.settings, setColorMap, withCircuit]

theorem new_draft (config : Config) (banks : Banks) (cartridge : κ) (host : Host) :
    (new config banks cartridge host).draft = .clear := by
  have scroll : (new config banks cartridge host).circuit.registers.scroll = .cleared := rfl
  simp only [draft, Settings.draft, Circuit.settings, scroll]
  rfl

theorem writeObjectData_draft (byte : UInt8) (m : Machine κ) : (m.writeObjectData byte).draft = m.draft := by
  unfold writeObjectData
  dsimp only
  split <;> rfl

theorem landByte_draft (byte : UInt8) (m : Machine κ) : (m.landByte byte).draft = m.draft :=
  writeObjectData_draft byte (m.setLines byte)

variable [Cartridge κ]

theorem writeAddress_draft (byte : UInt8) (cycle : Nat) (m : Machine κ) :
    (m.writeAddress byte cycle).draft = m.draft.take (.address byte) := by
  have written := (congrArg Ports.draft (m.circuit.writeAddress_ports byte)).trans
    (Ports.writeAddress_draft byte)
  unfold writeAddress withCircuit
  dsimp only
  split <;> exact written

/-- The second half makes the draft the current address. -/
theorem writeAddress_current {byte : UInt8} {cycle : Nat} (second : m.draft.second = true) :
    (m.writeAddress byte cycle).circuit.registers.scroll.current
      = (m.writeAddress byte cycle).circuit.registers.scroll.pending := by
  have shown := m.circuit.registers.scroll.writeAddress_current byte second
  unfold writeAddress withCircuit
  dsimp only
  split <;> exact shown

theorem advanceTo_draft (target : Nat) (m : Machine κ) : (m.advanceTo target).draft = m.draft :=
  draft_of_settings (advanceTo_settings target m)

theorem readRegister_draft (register : Register) (cycle : Nat) (m : Machine κ) :
    (m.readRegister register cycle).2.draft = m.draft.after (Stroke.ofRead register) := by
  cases register with
  | status => exact congrArg (·.settings.draft) (readStatus_eq cycle m).2
  | data =>
    obtain ⟨buffer, read⟩ := m.readData_settings cycle
    have kept := congrArg Settings.draft read
    exact kept
  | control | mask | objectAddress | objectData | scroll | address => rfl

theorem writeRegister_draft (register : Register) (byte : UInt8) (cycle : Nat) (m : Machine κ) :
    (m.writeRegister register byte cycle).draft = m.draft.after (Stroke.ofWrite byte register) := by
  cases register with
  | control =>
    have written := (congrArg Ports.draft (m.circuit.writeControl_ports byte)).trans
      (Ports.writeControl_draft byte)
    exact (congrArg (·.settings.draft) (writeControl_circuit byte cycle m)).trans written
  | scroll =>
    exact (congrArg Ports.draft (m.circuit.writeScroll_ports byte)).trans (Ports.writeScroll_draft byte)
  | address => exact m.writeAddress_draft byte cycle
  | objectData => exact m.writeObjectData_draft byte
  | data =>
    obtain same | ⟨address, written⟩ := m.writeData_settings byte cycle
    · exact draft_of_settings same
    · have kept := congrArg Settings.draft written
      exact kept
  | mask | status | objectAddress => rfl

theorem transferPage_draft (page : UInt8) (m : Machine κ) : (m.transferPage page).draft = m.draft := by
  refine transferPage_keeps (P := fun n => n.draft = m.draft) (advanceTo_draft _ _) (fun n hn => ?_)
    fun n address hn => ?_
  · exact copyPage_keeps (P := fun n => n.draft = m.draft)
      (fun q address hq => (landByte_draft _ _).trans hq) (fun _ _ hq => hq) hn page
  · exact (landByte_draft _ _).trans ((advanceTo_draft _ _).trans hn)

/-- A chip that has warmed up takes every write. -/
theorem writeInto_of_warm (warm : m.warmingUp = false) (register : Register) (byte : UInt8) :
    m.writeInto register byte = ((m.advanceTo (m.landing register)).setLines byte).writeRegister register
      byte (m.landing register) := by
  have ready : ((m.advanceTo (m.landing register)).setLines byte).warmingUp = false :=
    (advanceTo_warmingUp _ m).trans warm
  rw [writeInto_eq, put, ready, Bool.false_and, if_neg Bool.false_ne_true]

omit [Cartridge κ] in
/-- A write that is no part of the set-up lands at once. -/
theorem landing_other {register : Register} (other : register.isSetup = false) (m : Machine κ) :
    m.landing register = m.host.cycle := by
  simp [Machine.landing, Register.writeDelay, other]

/-- Nor is it held back. -/
theorem writeInto_other {register : Register} (other : register.isSetup = false) (byte : UInt8)
    (m : Machine κ) : m.writeInto register byte
      = ((m.advanceTo m.host.cycle).setLines byte).writeRegister register byte m.host.cycle := by
  rw [writeInto_eq, put, Register.heldBackInWarmUp, other, Bool.and_false, if_neg Bool.false_ne_true,
    landing_other other]

theorem writeInto_draft (warm : m.warmingUp = false) (register : Register) (byte : UInt8) :
    (m.writeInto register byte).draft = m.draft.after (Stroke.ofWrite byte register) := by
  rw [writeInto_of_warm warm, writeRegister_draft]
  exact congrArg (Draft.after · _) (advanceTo_draft _ m)

theorem turn_draft (warm : m.warmingUp = false) (t : Turn) :
    (m.turn t).2.draft = m.draft.after t.access.stroke? := by
  unfold turn
  cases t.access with
  | read address =>
    exact (readRegister_draft _ _ _).trans (congrArg (Draft.after · _) (advanceTo_draft _ (m.meet t)))
  | write address byte =>
    rw [perform, write, Access.stroke?]
    split
    · exact transferPage_draft byte (m.meet t)
    · exact writeInto_draft (m := m.meet t) warm _ byte
  | transfer page => exact transferPage_draft page (m.meet t)
  | catchUp target => exact advanceTo_draft target (m.meet t)

theorem turn_warmingUp (t : Turn) (m : Machine κ) : (m.turn t).2.warmingUp = m.warmingUp := by
  obtain ⟨ds, l, turned⟩ := turn_draws t m
  exact congrArg Ledger.warmingUp turned.passes.ledger

/-- A chip that has warmed up stays so until it is reset or loaded. -/
theorem deed_warm (warm : m.warmingUp = false) {d : Deed κ} (lasting : d.Lasting) :
    (m.deed d).warmingUp = false := by
  cases d with
  | act a =>
    cases a with
    | opening =>
      obtain same | opened := m.act_opening
      · rwa [deed, same]
      · rw [deed, opened]
        exact (openFrame_warmingUp m).trans warm
    | closing =>
      obtain same | closed := m.act_closing
      · rwa [deed, same]
      · rw [deed, closed]
        rfl
    | turn t => exact (m.turn_warmingUp t).trans warm
  | swap given =>
    obtain same | taken := m.deed_swap given
    · rwa [same]
    · rwa [taken]
  | recolor map =>
    simp only [deed, setColorMap, withCircuit]
    exact warm
  | bank | insert => exact warm
  | reset | load => exact lasting.elim

/-- A deed does to the draft what its stroke does. -/
theorem deed_draft (warm : m.warmingUp = false) {d : Deed κ} (lasting : d.Lasting) :
    (m.deed d).draft = m.draft.after d.stroke? := by
  cases d with
  | act a =>
    cases a with
    | opening => exact draft_of_settings (m.deed_settings (d := .act .opening) trivial)
    | closing => exact draft_of_settings (m.deed_settings (d := .act .closing) trivial)
    | turn t => exact turn_draft warm t
  | swap given => exact draft_of_settings (m.deed_settings (d := .swap given) trivial)
  | recolor map => exact m.setColorMap_draft map
  | bank | insert => rfl
  | reset | load => exact lasting.elim

theorem afterDeeds_draft (warm : m.warmingUp = false) {ds : List (Deed κ)}
    (lasting : ∀ d ∈ ds, d.Lasting) : (m.afterDeeds ds).warmingUp = false
      ∧ (m.afterDeeds ds).draft = (strokes ds).foldl Draft.take m.draft := by
  induction ds generalizing m with
  | nil => exact ⟨warm, rfl⟩
  | cons d rest ih =>
    rw [List.forall_mem_cons] at lasting
    obtain ⟨last, drawn⟩ := ih (deed_warm warm lasting.1) lasting.2
    refine ⟨last, drawn.trans ?_⟩
    rw [deed_draft warm lasting.1, strokes, strokes, List.filterMap_cons]
    cases d.stroke? <;> rfl

/-- The second half of an address makes the draft the current address. -/
theorem deed_current (warm : m.warmingUp = false) {d : Deed κ} {byte : UInt8}
    (stroke : d.stroke? = some (.address byte)) (second : m.draft.second = true) :
    (m.deed d).circuit.registers.scroll.current = (m.deed d).circuit.registers.scroll.pending := by
  obtain ⟨t, place, rfl, access, plain, register⟩ := Deed.eq_of_stroke stroke
  have written : m.deed (.act (.turn t)) = (m.meet t).writeInto .address byte := by
    rw [deed, act, turn, access, perform, write, if_neg plain, register]
  rw [written, writeInto_of_warm (m := m.meet t) warm]
  exact writeAddress_current ((congrArg Draft.second (advanceTo_draft _ (m.meet t))).trans second)

end Machine

/-- The strokes of a front are as many of all strokes. -/
theorem strokes_take {κ : Type} (ds : List (Deed κ)) (i : Nat) :
    strokes (ds.take i) = (strokes ds).take (strokes (ds.take i)).length :=
  List.prefix_iff_eq_take.mp ((List.take_prefix i ds).filterMap Deed.stroke?)

namespace Machine

variable {κ κ' : Type} [Cartridge κ] [Cartridge κ']

/-- Two sessions that put the same strokes to a machine just switched on, at whatever times and with
whatever between them, have the same draft after each of them. It is what the strokes alone make of a
cleared one; the toggle is the parity of the halves since the last look; and the second half of an address
makes the draft the current address. -/
theorem drafts_agree (config config' : Config) (banks banks' : Banks) (cartridge : κ) (cartridge' : κ')
    (host host' : Host) {ds : List (Deed κ)} {ds' : List (Deed κ')} (lasting : ∀ d ∈ ds, d.Lasting)
    (lasting' : ∀ d ∈ ds', d.Lasting) (same : strokes ds = strokes ds') :
    let after (i : Nat) := (new config banks cartridge host).afterDeeds (ds.take i)
    let after' (j : Nat) := (new config' banks' cartridge' host').afterDeeds (ds'.take j)
    (∀ i j, (strokes (ds.take i)).length = (strokes (ds'.take j)).length →
      (after i).draft = (after' j).draft)
    ∧ (∀ i, (after i).draft = (strokes (ds.take i)).foldl Draft.take .clear)
    ∧ (∀ i, (after i).draft.second = decide (Stroke.halves (strokes (ds.take i)) % 2 = 1))
    ∧ ∀ i d byte, ds[i]? = some d → d.stroke? = some (.address byte) → (after i).draft.second = true →
      (after (i + 1)).circuit.registers.scroll.current
        = (after (i + 1)).circuit.registers.scroll.pending := by
  intro after after'
  have front {κ : Type} [Cartridge κ] (config : Config) (banks : Banks) (cartridge : κ) (host : Host)
      {ds : List (Deed κ)} (lasting : ∀ d ∈ ds, d.Lasting) (i : Nat) :
      ((new config banks cartridge host).afterDeeds (ds.take i)).warmingUp = false
        ∧ ((new config banks cartridge host).afterDeeds (ds.take i)).draft
          = (strokes (ds.take i)).foldl Draft.take .clear := by
    rw [← new_draft config banks cartridge host]
    exact afterDeeds_draft (new_warmingUp config banks cartridge host)
      fun d inside => lasting d (List.mem_of_mem_take inside)
  have own := front config banks cartridge host lasting
  have other := front config' banks' cartridge' host' lasting'
  refine ⟨fun i j count => ?_, fun i => (own i).2, fun i => ?_, fun i d byte at_ stroke second => ?_⟩
  · rw [(own i).2, (other j).2, strokes_take ds, strokes_take ds', same, count]
  · rw [(own i).2, Stroke.foldl_take_second]
  · have step := afterDeeds_take_succ (m := new config banks cartridge host) at_
    have current := deed_current (own i).1 stroke second
    rwa [← step] at current

/-- An address is written between frames, or by halves in a frame with rendering switched on, with a transfer
between the two. -/
theorem drafts_agree_aroundTransfer :
    let at_ (cycle : Nat) (access : Access) : Deed Unit := .act (.turn ⟨cycle, fun _ => 0, access⟩)
    let ds := [at_ 0 (.write 0x2006 0x21), at_ 0 (.write 0x2006 0x08)]
    let ds' := [.act .opening, at_ 40 (.write 0x2001 0x1E), at_ 9000 (.write 0x2006 0x21),
      at_ 9012 (.write 0x4014 0x02), at_ 15200 (.write 0x2006 0x08), .act .closing]
    let m := (new ⟨.ntsc, .hardware⟩ .new () (.new fun _ => 0)).afterDeeds ds
    let m' := (new ⟨.pal, .hardware⟩ .new () (.new fun _ => 7)).afterDeeds ds'
    m.draft = m'.draft ∧ m'.draft = ⟨0x2108, 0, false⟩
      ∧ m.circuit.registers.scroll.current = m.circuit.registers.scroll.pending := by
  intro at_ ds ds' m m'
  have lasting : ∀ d ∈ ds, d.Lasting := by simp [ds, at_, Deed.Lasting]
  have lasting' : ∀ d ∈ ds', d.Lasting := by simp [ds', at_, Deed.Lasting]
  have strokes_eq : strokes ds = [.address 0x21, .address 0x08] := rfl
  have strokes_eq' : strokes ds' = [.address 0x21, .address 0x08] := rfl
  obtain ⟨agree, folded, -, current⟩ := drafts_agree ⟨.ntsc, .hardware⟩ ⟨.pal, .hardware⟩ .new .new () ()
    (.new fun _ => 0) (.new fun _ => 7) lasting lasting' (strokes_eq.trans strokes_eq'.symm)
  have same : m.draft = m'.draft := agree 2 6 rfl
  have own : m.draft = ⟨0x2108, 0, false⟩ := (folded 2).trans (by decide)
  refine ⟨same, same.symm.trans own, current 1 _ 0x08 rfl rfl ?_⟩
  rw [folded]
  decide

end Machine

end PictureUnit
