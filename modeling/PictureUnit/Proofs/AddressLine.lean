import PictureUnit.A12
import PictureUnit.Proofs.Hooks
import PictureUnit.Proofs.Dots

/-!
# The address lines while a line is rendered

A rendered dot puts at most one address on the bus, which the cartridge sees with the cycle of the
dot. When the tiles lie in the first pattern table and objects of eight rows in the second, the
twelfth address line is high while the rows of the objects are fetched and low in all other dots,
whatever the bytes that are fetched.
-/

set_option autoImplicit false

namespace PictureUnit

def Cartridge.Call.observed? : Cartridge.Call → Option (Nat × Nat)
  | .observe address cycle => some (address, cycle)
  | .activeStart _ _ | .blankStart _ _ | .readPattern _ _ | .writePattern _ _ | .readName _ _
  | .writeName _ _ => none

/-- The addresses that were seen, with their cycles, latest first. -/
def Recorded.observed {κ : Type} (r : Recorded κ) : List (Nat × Nat) :=
  r.calls.filterMap Cartridge.Call.observed?

/-- The address that a fetch puts on the bus. -/
def Works.driven? {κ : Type} (line : Line) (w : Works κ) : Fetch → Option Nat
  | .tile .openName | .object _ .openName | .object _ .openAttributes | .openUnused =>
    some w.pipe.current.tileAddress
  | .tile .openAttributes => some w.pipe.current.attributeAddress
  | .tile .openLow =>
    some (w.pipe.background.lowAddress w.settings.control.backgroundTable w.pipe.current.fineY.val)
  | .object _ .openLow => some (w.strips.object.lowAddress line w.settings.control)
  | .tile .openHigh | .object _ .openHigh => some (highPlane w.pipe.bus)
  | .tile .name | .tile .attributes | .tile .low | .tile .high
  | .object _ .name | .object _ .attributes | .object _ .low | .object _ .high
  | .idle | .unused => none

/-- What the twelfth address line is when a fetch puts out its address, with tiles in the first pattern
table and objects of eight rows in the second. -/
def Fetch.level? : Fetch → Option Bool
  | .object _ .openLow | .object _ .openHigh => some true
  | .tile .openName | .tile .openAttributes | .tile .openLow | .tile .openHigh
  | .object _ .openName | .object _ .openAttributes | .openUnused => some false
  | .tile .name | .tile .attributes | .tile .low | .tile .high
  | .object _ .name | .object _ .attributes | .object _ .low | .object _ .high
  | .idle | .unused => none

/-- The second half of a pattern row has the address of the first half. -/
def Fetch.opensHigh : Fetch → Bool
  | .tile .openHigh | .object _ .openHigh => true
  | _ => false

/-- The last dot before this one that puts out an address. -/
def lastDriven (d : Nat) : Nat := 2 * (d / 2) - 1

/-- Odd dots put out addresses, and the line is high in the second half of each object slot. -/
theorem level_ofDot {d : Nat} (hd : d < dotsPerLine) : (Fetch.ofDot d).level?
    = if d % 2 = 0 then none
      else some (decide (objectFetchStart ≤ d ∧ d ≤ objectFetchEnd ∧ 4 ≤ (d - objectFetchStart) % 8)) := by
  have all : ∀ d < dotsPerLine, (Fetch.ofDot d).level? = if d % 2 = 0 then none
      else some (decide (objectFetchStart ≤ d ∧ d ≤ objectFetchEnd
        ∧ 4 ≤ (d - objectFetchStart) % 8)) := by decide +kernel
  exact all d hd

theorem level_lastDriven {d : Nat} (hd : d < dotsPerLine) (h : (Fetch.ofDot d).opensHigh = true) :
    2 ≤ d ∧ (Fetch.ofDot d).level? = (Fetch.ofDot (lastDriven d)).level? := by
  have all : ∀ d < dotsPerLine, (Fetch.ofDot d).opensHigh = true →
      2 ≤ d ∧ (Fetch.ofDot d).level? = (Fetch.ofDot (lastDriven d)).level? := by decide +kernel
  exact all d hd h

/-- Tiles come from the first pattern table, and objects of eight rows from the second. -/
structure Control.Split (c : Control) : Prop where
  background : c.backgroundTable = 0
  objects : c.objectTable = 0x1000
  height : c.objectHeight = 8

open A12 (isHigh)

theorem isHigh_eq_false {address : Nat} (h : address / 0x1000 % 2 = 0) : isHigh address = false := by
  rw [isHigh, h]
  rfl

theorem isHigh_eq_true {address : Nat} (h : address / 0x1000 % 2 = 1) : isHigh address = true := by
  rw [isHigh, h]
  rfl

theorem isHigh_highPlane (address : Nat) : isHigh (highPlane address) = isHigh address := by
  have same : highPlane address / 0x1000 = address / 0x1000 := by
    unfold highPlane
    split <;> omega
  rw [isHigh, same, isHigh]

theorem isHigh_tileAddress (a : Scroll.Address) : isHigh a.tileAddress = false := by
  refine isHigh_eq_false ?_
  have small : a.raw % 0x1000 < 0x1000 := Nat.mod_lt _ (by decide)
  rw [Scroll.Address.tileAddress]
  omega

theorem isHigh_attributeAddress (a : Scroll.Address) : isHigh a.attributeAddress = false := by
  refine isHigh_eq_false ?_
  have table := a.nametable_lt
  have row := a.coarseY.isLt
  have column := a.coarseX.isLt
  rw [Scroll.Address.attributeAddress]
  omega

theorem isHigh_tileRow (b : Background) (fineY : Fin 8) : isHigh (b.lowAddress 0 fineY.val) = false := by
  refine isHigh_eq_false ?_
  have name := b.name.toNat_lt
  rw [Background.lowAddress]
  omega

theorem isHigh_objectRow {c : Control} (h : c.Split) (o : Object) (line : Line) :
    isHigh (o.lowAddress line c) = true := by
  refine isHigh_eq_true ?_
  have tile := o.tile.toNat_lt
  rw [Object.lowAddress, h.height, h.objects, if_neg (by decide)]
  omega

/-- Whatever bytes were fetched, the address has the level of its fetch. -/
theorem Works.driven_level {κ : Type} {w : Works κ} (h : w.settings.control.Split) (line : Line)
    {f : Fetch} (bus : f.opensHigh = true → f.level? = some (isHigh w.pipe.bus)) :
    (w.driven? line f).map isHigh = f.level? := by
  cases f with
  | idle | unused => rfl
  | openUnused => exact congrArg some (isHigh_tileAddress _)
  | tile phase =>
    cases phase with
    | openName => exact congrArg some (isHigh_tileAddress _)
    | openAttributes => exact congrArg some (isHigh_attributeAddress _)
    | openLow =>
      rw [driven?, h.background]
      exact congrArg some (isHigh_tileRow _ _)
    | openHigh =>
      rw [bus rfl]
      exact congrArg some (isHigh_highPlane _)
    | name | attributes | low | high => rfl
  | object slot phase =>
    cases phase with
    | openName | openAttributes => exact congrArg some (isHigh_tileAddress _)
    | openLow => exact congrArg some (isHigh_objectRow h _ _)
    | openHigh =>
      rw [bus rfl]
      exact congrArg some (isHigh_highPlane _)
    | name | attributes | low | high => rfl

namespace Circuit

variable {κ : Type}

/-- One circuit comes from the other by putting this address on the bus, or none. -/
structure Drives (address : Option Nat) (cycle : Nat) (c d : Circuit (Recorded κ)) : Prop where
  bus : d.bus = address.getD c.bus
  observed : d.cartridge.observed = (address.map (·, cycle)).toList ++ c.cartridge.observed

variable {address : Option Nat} {cycle : Nat} {c d e : Circuit (Recorded κ)}

theorem Drives.quiet (h : c.Drives address cycle d) (h' : d.Drives none cycle e) :
    c.Drives address cycle e :=
  ⟨h'.bus.trans h.bus, h'.observed.trans h.observed⟩

variable [Cartridge κ]

theorem readName_drives (address cycle : Nat) (c : Circuit (Recorded κ)) :
    c.Drives none cycle (c.readName address).2 := by
  unfold readName
  split <;> exact ⟨rfl, rfl⟩

theorem readPattern_drives (address cycle : Nat) (c : Circuit (Recorded κ)) :
    c.Drives none cycle (c.readPattern address).2 := by
  unfold readPattern
  split <;> exact ⟨rfl, rfl⟩

theorem fetchExtra_drives (line : Line) (slot cycle : Nat) (c : Circuit (Recorded κ)) :
    c.Drives none cycle (c.fetchExtra line slot) := by
  let d : Circuit (Recorded κ) := { c with strips := c.strips.select slot c.evaluation.secondary }
  let address := d.strips.object.lowAddress line d.registers.control
  have low := readPattern_drives address cycle d
  have both := low.quiet (readPattern_drives (highPlane address) cycle (d.readPattern address).2)
  exact ⟨both.bus, both.observed⟩

theorem fetchExtras_drives (line : Line) (cycle : Nat) (c : Circuit (Recorded κ)) :
    c.Drives none cycle (c.fetchExtras line) := by
  have fetched (slots : List Nat) (c : Circuit (Recorded κ)) :
      c.Drives none cycle (slots.foldl (fetchExtra line) c) := by
    induction slots generalizing c with
    | nil => exact ⟨rfl, rfl⟩
    | cons slot rest ih => exact (fetchExtra_drives line slot cycle c).quiet (ih _)
  exact fetched _ c

theorem fetchTile_drives (line : Line) (phase : Phase) (dot cycle : Nat) (c : Circuit (Recorded κ)) :
    c.Drives (c.works.driven? line (.tile phase)) cycle (c.fetchTile phase dot cycle) := by
  cases phase with
  | openName | openAttributes | openLow | openHigh => exact ⟨rfl, rfl⟩
  | name | attributes =>
    have read := readName_drives c.bus cycle c
    exact ⟨read.bus, read.observed⟩
  | low | high =>
    have read := readPattern_drives c.bus cycle c
    exact ⟨read.bus, read.observed⟩

theorem fetchObject_drives (line : Line) (slot : Nat) (phase : Phase) (cycle : Nat)
    (c : Circuit (Recorded κ)) :
    c.Drives (c.works.driven? line (.object slot phase)) cycle (c.fetchObject line slot phase cycle) := by
  cases phase with
  | openName | openAttributes | openLow | openHigh => exact ⟨rfl, rfl⟩
  | name | attributes => exact readName_drives c.bus cycle c
  | low | high =>
    have read := readPattern_drives c.bus cycle c
    exact ⟨read.bus, read.observed⟩

theorem fetch_drives (line : Line) (dot cycle : Nat) (c : Circuit (Recorded κ)) :
    c.Drives (c.works.driven? line (.ofDot dot)) cycle (c.fetch line dot cycle) := by
  unfold fetch
  generalize Fetch.ofDot dot = f
  cases f with
  | idle | openUnused => exact ⟨rfl, rfl⟩
  | unused => exact readName_drives c.bus cycle c
  | tile phase => exact fetchTile_drives line phase dot cycle c
  | object slot phase =>
    have fetched := fetchObject_drives line slot phase cycle c
    have all : c.Drives (c.works.driven? line (.object slot phase)) cycle
        (if dot = objectFetchEnd then (c.fetchObject line slot phase cycle).fetchExtras line
          else c.fetchObject line slot phase cycle) := by
      split
      · exact fetched.quiet (fetchExtras_drives line cycle _)
      · exact fetched
    have latched (d : Circuit (Recorded κ)) : d.Drives none cycle (d.latchSlot dot) := by
      constructor <;> simp only [latchSlot] <;> rfl
    exact all.quiet (latched _)

omit [Cartridge κ] in
/-- Neither the search nor its end changes what the dot drives. -/
theorem handed_driven (line : Line) (dot : Nat) (limit : SpriteLimit) (c : Circuit κ) :
    (if dot = objectFetchStart then (c.searching line dot limit).prepareStrips line
      else c.searching line dot limit).works.driven? line (.ofDot dot)
      = c.works.driven? line (.ofDot dot) := by
  have searched := searching_works line dot limit c
  have same : (c.searching line dot limit).works.driven? line (.ofDot dot)
      = c.works.driven? line (.ofDot dot) := by
    rw [searched]
    generalize Fetch.ofDot dot = f
    cases line <;> rfl
  split
  · next start =>
    have opens : Fetch.ofDot dot = .object 0 .openName := by
      rw [start]
      rfl
    rw [opens] at same ⊢
    exact same
  · exact same

theorem render_drives (line : Line) (dot cycle : Nat) (limit : SpriteLimit)
    (c : Circuit (Recorded κ)) :
    c.Drives (c.works.driven? line (.ofDot dot)) cycle (c.render line dot cycle limit) := by
  have handed := handed_driven line dot limit c
  have searched := searching_works line dot limit c
  have start : c.Drives none cycle (if dot = objectFetchStart then
      (c.searching line dot limit).prepareStrips line else c.searching line dot limit) := by
    have bus : (c.searching line dot limit).bus = c.bus := by
      have kept := congrArg (·.pipe.bus) searched
      cases line <;> exact kept
    have observed : (c.searching line dot limit).cartridge.observed = c.cartridge.observed :=
      congrArg Recorded.observed (searching_cartridge line dot limit c)
    split <;> exact ⟨bus, observed⟩
  rw [render_eq]
  generalize (if dot = objectFetchStart then (c.searching line dot limit).prepareStrips line
    else c.searching line dot limit) = d at handed start
  have fetched := fetch_drives line dot cycle d
  rw [handed] at fetched
  have rewound (e : Circuit (Recorded κ)) :
      e.Drives none cycle ((e.rewindAddress line dot).clearObjectAddress dot) := by
    have first := congrArg (·.pipe.bus) (rewindAddress_works line dot e)
    have last := congrArg (·.pipe.bus) (clearObjectAddress_works dot (e.rewindAddress line dot))
    refine ⟨last.trans first, ?_⟩
    rw [clearObjectAddress_cartridge, rewindAddress_cartridge]
    rfl
  have all := fetched.quiet (rewound _)
  refine ⟨all.bus.trans ?_, all.observed.trans ?_⟩
  · rw [start.bus]
    rfl
  · rw [start.observed]
    rfl

/-- A rendered dot puts its address on the bus, and the cartridge sees it. -/
theorem dot_drives {c : Circuit (Recorded κ)} (hr : c.registers.mask.rendering = true) (line : Line)
    (dot cycle : Nat) (limit : SpriteLimit) :
    c.Drives (c.works.driven? line (.ofDot dot)) cycle (c.dot line dot cycle limit) := by
  unfold Circuit.dot
  split
  · next first =>
    subst first
    exact ⟨rfl, rfl⟩
  have drawn := drawn_works line dot c
  generalize (c.clearFlags line dot).drawDot line dot = d at drawn
  have rendering : d.registers.mask.rendering = true :=
    (congrArg (·.settings.mask.rendering) drawn).trans hr
  have rendered := render_drives line dot cycle limit d
  have bus : d.bus = c.bus := congrArg (·.pipe.bus) drawn
  have cartridge : d.cartridge = c.cartridge := congrArg Works.cartridge drawn
  rw [drawn] at rendered
  have all : c.Drives (c.works.driven? line (.ofDot dot)) cycle (d.render line dot cycle limit) := by
    refine ⟨rendered.bus.trans ?_, rendered.observed.trans ?_⟩
    · rw [bus]
    · rw [cartridge]
  dsimp only
  rw [if_pos rendering]
  split
  · exact ⟨all.bus, all.observed⟩
  · exact all

end Circuit

end PictureUnit
