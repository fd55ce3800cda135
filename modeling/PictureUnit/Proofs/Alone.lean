import PictureUnit.Proofs.Handover
import PictureUnit.Proofs.Later
import PictureUnit.Proofs.Sweep
import PictureUnit.Proofs.Unlimited

/-!
# A chip that serves itself

While a dot reads no slot of the cartridge, what it fetches depends on the chip's own memories. So a
circuit goes through the dot as if nothing were in the cartridge slot, whatever the cartridge makes of
the addresses that it sees.
-/

set_option autoImplicit false

namespace PictureUnit

namespace Banks

def OwnPatterns (b : Banks) : Prop := ∀ slot, b.pattern slot ≠ .cartridge

def OwnNames (b : Banks) : Prop := ∀ quadrant, b.name quadrant ≠ .cartridge

variable {b : Banks}

theorem OwnPatterns.cell (h : b.OwnPatterns) (address : Nat) : b.patternCell address ≠ .cartridge :=
  patternCell_ne (h _)

theorem OwnNames.cell (h : b.OwnNames) (address : Nat) : b.nameCell address ≠ .cartridge := by
  unfold nameCell
  cases source : b.name (address / pageSize) with
  | cartridge => exact absurd source (h _)
  | internal page => exact Cell.noConfusion
  | ram page =>
    simp only [ramCell]
    cases index? b.ram.size page.toNat (address % pageSize) <;> exact Cell.noConfusion
  | rom page =>
    simp only [romCell]
    cases index? b.rom.size page.toNat (address % pageSize) <;> exact Cell.noConfusion

theorem ownPatterns_of_new (h : b.patterns = new.patterns) : b.OwnPatterns := by
  intro slot
  rw [pattern, h]
  have all : ∀ i : Fin 8, new.patterns[i] ≠ .cartridge := by decide
  exact all ⟨slot % 8, Nat.mod_lt _ (by decide)⟩

theorem ownNames_of_new (h : b.names = new.names) : b.OwnNames := by
  intro quadrant
  rw [name, h]
  show (Mirroring.vertical.pages.map NameSource.internal)[quadrant % 4] ≠ .cartridge
  rw [Vector.getElem_map]
  exact NameSource.noConfusion

end Banks

/-- What a fetch reads and keeps comes from the chip's own memories. Names read during the object
fetches are not kept. -/
def Fetch.Own (b : Banks) : Fetch → Prop
  | .tile .openName | .object _ .openName | .idle | .openUnused | .unused => True
  | .tile _ => b.OwnPatterns ∧ b.OwnNames
  | .object _ _ => b.OwnPatterns

theorem Fetch.own_slots {b : Banks} (own : b.OwnPatterns) {dot : Nat} (hd : 257 ≤ dot ∧ dot ≤ 320) :
    (Fetch.ofDot dot).Own b := by
  rw [ofDot_slot hd]
  generalize Phase.ofIndex (dot - 257) = phase
  cases phase with
  | openName => trivial
  | _ => exact own

theorem Fetch.own_tiles {b : Banks} (patterns : b.OwnPatterns) (names : b.OwnNames) {dot : Nat}
    (hd : dot ≤ 256 ∨ 321 ≤ dot) : (Fetch.ofDot dot).Own b := by
  by_cases tile : 1 ≤ dot ∧ dot ≤ 256 ∨ 321 ≤ dot ∧ dot ≤ 336
  · rw [ofDot_tile tile]
    generalize Phase.ofIndex (dot - 1) = phase
    cases phase with
    | openName => trivial
    | _ => exact ⟨patterns, names⟩
  · obtain rfl | rest : dot = 0 ∨ 337 ≤ dot := by omega
    · trivial
    · rw [ofDot_rest rest]
      split <;> trivial

namespace Circuit

variable {κ : Type}

/-- The circuit with an empty cartridge slot. -/
def alone (c : Circuit κ) : Circuit (Option Unit) := { c with cartridge := none }

theorem alone_silent (c : Circuit κ) : Cartridge.Silent c.alone.cartridge := Cartridge.silent_none

theorem clearFlags_alone (line : Line) (dot : Nat) (c : Circuit κ) :
    (c.clearFlags line dot).alone = c.alone.clearFlags line dot := by
  unfold clearFlags
  split <;> rfl

theorem drawPixel_alone (x y : Nat) (c : Circuit κ) :
    (c.drawPixel x y).alone = c.alone.drawPixel x y := by
  have rendered : (c.drawRendered x y).alone = c.alone.drawRendered x y := by
    unfold drawRendered
    by_cases touching : touches x (c.backgroundEntry x) (c.objectPixel? x) = true
    · rw [if_pos touching, if_pos (by exact touching)]
      rfl
    · rw [if_neg touching, if_neg (by exact touching)]
      rfl
  by_cases on : c.registers.mask.rendering = true
  · rw [drawPixel, drawPixel, if_pos on, if_pos (by exact on), rendered]
  · rw [drawPixel, drawPixel, if_neg on, if_neg (by exact on)]
    rfl

theorem drawDot_alone (line : Line) (dot : Nat) (c : Circuit κ) :
    (c.drawDot line dot).alone = c.alone.drawDot line dot := by
  cases line with
  | preRender => rfl
  | visible y =>
    unfold drawDot
    dsimp only
    split
    · exact drawPixel_alone _ _ c
    · rfl

theorem concludeSearch_alone (result : Evaluation × Bool) (c : Circuit κ) :
    (c.concludeSearch result).alone = c.alone.concludeSearch result := by
  unfold concludeSearch
  dsimp only
  split <;> rfl

theorem evaluate_alone (y dot : Nat) (limit : SpriteLimit) (c : Circuit κ) :
    (c.evaluate y dot limit).alone = c.alone.evaluate y dot limit := by
  unfold evaluate
  split
  · rfl
  split
  · rfl
  by_cases start : dot = 65
  · subst start
    exact concludeSearch_alone _ _
  · dsimp only
    rw [if_neg start, if_neg start]
    split
    · exact concludeSearch_alone _ c
    · split
      · exact concludeSearch_alone _ c
      · rfl

theorem searching_alone (line : Line) (dot : Nat) (limit : SpriteLimit) (c : Circuit κ) :
    (c.searching line dot limit).alone = c.alone.searching line dot limit := by
  cases line with
  | preRender => rfl
  | visible y => exact evaluate_alone y.val dot limit c

theorem prepareStrips_alone (line : Line) (c : Circuit κ) :
    (c.prepareStrips line).alone = c.alone.prepareStrips line := by
  cases line <;> rfl

theorem rewindAddress_alone (line : Line) (dot : Nat) (c : Circuit κ) :
    (c.rewindAddress line dot).alone = c.alone.rewindAddress line dot := by
  unfold rewindAddress
  split
  · rfl
  · split <;> rfl

theorem clearObjectAddress_alone (dot : Nat) (c : Circuit κ) :
    (c.clearObjectAddress dot).alone = c.alone.clearObjectAddress dot := by
  unfold clearObjectAddress
  split <;> rfl

variable [Cartridge κ] {c : Circuit κ}

theorem readName_alone (address : Nat) (c : Circuit κ) :
    (c.readName address).2.alone = (c.alone.readName address).2 := by
  have same : c.alone.banks.nameCell address = c.banks.nameCell address := rfl
  unfold readName
  rw [same]
  cases c.banks.nameCell address <;> rfl

theorem readName_own (own : c.banks.OwnNames) (address : Nat) :
    c.alone.readName address = ((c.readName address).1, (c.readName address).2.alone) := by
  have same : c.alone.banks.nameCell address = c.banks.nameCell address := rfl
  have kept := own.cell address
  unfold readName
  rw [same]
  cases cell : c.banks.nameCell address with
  | cartridge => exact absurd cell kept
  | internal | ram | rom | missing => rfl

theorem readPattern_own (own : c.banks.OwnPatterns) (address : Nat) :
    c.alone.readPattern address = ((c.readPattern address).1, (c.readPattern address).2.alone) := by
  have same : c.alone.banks.patternCell address = c.banks.patternCell address := rfl
  have kept := own.cell address
  unfold readPattern
  rw [same]
  cases cell : c.banks.patternCell address with
  | cartridge => exact absurd cell kept
  | internal | ram | rom | missing => rfl

theorem fetchTile_alone {phase : Phase} (own : (Fetch.tile phase).Own c.banks) (dot cycle : Nat) :
    (c.fetchTile phase dot cycle).alone = c.alone.fetchTile phase dot cycle := by
  cases phase with
  | openName | openAttributes | openLow | openHigh => rfl
  | name | attributes =>
    have name : c.alone.readName c.alone.bus = _ := readName_own own.2 c.bus
    simp only [fetchTile, name]
    rfl
  | low | high =>
    have pattern : c.alone.readPattern c.alone.bus = _ := readPattern_own own.1 c.bus
    simp only [fetchTile, pattern]
    rfl

theorem fetchObject_alone (line : Line) {slot : Nat} {phase : Phase}
    (own : (Fetch.object slot phase).Own c.banks) (cycle : Nat) :
    (c.fetchObject line slot phase cycle).alone = c.alone.fetchObject line slot phase cycle := by
  cases phase with
  | openName | openAttributes | openLow | openHigh => rfl
  | name | attributes => exact readName_alone c.bus c
  | low | high =>
    have pattern : c.alone.readPattern c.alone.bus = _ := readPattern_own own c.bus
    simp only [fetchObject, pattern]
    rfl

theorem fetchExtra_alone (own : c.banks.OwnPatterns) (line : Line) (slot : Nat) :
    (c.fetchExtra line slot).alone = c.alone.fetchExtra line slot := by
  let selected := { c with strips := c.strips.select slot c.evaluation.secondary }
  let address := selected.strips.object.lowAddress line selected.registers.control
  have low := readPattern_own (c := selected) own address
  have kept : (selected.readPattern address).2.banks = selected.banks := (readPattern_apart _ _).banks
  have high := readPattern_own (c := (selected.readPattern address).2) (kept ▸ own) (highPlane address)
  show _ = (let (low, d) := selected.alone.readPattern address
    let (high, d) := d.readPattern (highPlane address)
    ({ d with strips := (d.strips.latchLow low).commit slot high } : Circuit (Option Unit)))
  rw [low]
  dsimp only
  rw [high]
  rfl

theorem fetchExtras_alone (own : c.banks.OwnPatterns) (line : Line) :
    (c.fetchExtras line).alone = c.alone.fetchExtras line := by
  unfold fetchExtras
  dsimp only
  rw [show c.alone.strips = c.strips from rfl]
  generalize List.range' _ _ = slots
  induction slots generalizing c with
  | nil => rfl
  | cons slot rest ih =>
    have kept : (c.fetchExtra line slot).banks = c.banks := (fetchExtra_apart line slot c).banks
    rw [List.foldl_cons, List.foldl_cons, ih (kept ▸ own), fetchExtra_alone own]

theorem fetch_alone (line : Line) {dot : Nat} (own : (Fetch.ofDot dot).Own c.banks) (cycle : Nat) :
    (c.fetch line dot cycle).alone = c.alone.fetch line dot cycle := by
  unfold fetch
  cases kind : Fetch.ofDot dot with
  | idle | openUnused => rfl
  | tile phase =>
    rw [kind] at own
    exact fetchTile_alone own dot cycle
  | unused => exact readName_alone c.bus c
  | object slot phase =>
    rw [kind] at own
    have fetched := fetchObject_alone line own cycle
    have kept := fetchObject_banks line slot phase cycle c
    dsimp only
    split
    · next last =>
      have patterns : c.banks.OwnPatterns := by
        rw [last, Fetch.ofDot] at kind
        cases kind
        exact own
      rw [← fetched, ← fetchExtras_alone (kept ▸ patterns)]
      rfl
    · rw [← fetched]
      rfl

theorem render_alone (line : Line) {dot : Nat} (own : (Fetch.ofDot dot).Own c.banks) (cycle : Nat)
    (limit : SpriteLimit) : (c.render line dot cycle limit).alone = c.alone.render line dot cycle limit := by
  have searched := (searching_apart line dot limit c).banks
  rw [render_eq, render_eq, clearObjectAddress_alone, rewindAddress_alone, ← searching_alone]
  split
  · rw [fetch_alone line (by exact searched ▸ own), prepareStrips_alone]
  · rw [fetch_alone line (searched ▸ own)]

/-- A dot that reads nothing of the cartridge is a dot of the circuit alone, but for what the cartridge
does to the slots. -/
theorem dot_alone (line : Line) {dot : Nat} (own : (Fetch.ofDot dot).Own c.banks) (cycle : Nat)
    (limit : SpriteLimit) :
    (c.dot line dot cycle limit).alone
      = { c.alone.dot line dot cycle limit with banks := (c.dot line dot cycle limit).banks } := by
  have drawn : ((c.clearFlags line dot).drawDot line dot).banks = c.banks :=
    congrArg Works.banks (drawn_works line dot c)
  have alone := clearFlags_alone line dot c
  have alone' := drawDot_alone line dot (c.clearFlags line dot)
  rw [alone] at alone'
  unfold Circuit.dot
  by_cases first : dot = 0
  · rw [if_pos first, if_pos first]
    rfl
  rw [if_neg first, if_neg first]
  dsimp only
  rw [← alone']
  generalize (c.clearFlags line dot).drawDot line dot = d at drawn
  rw [← drawn] at own
  by_cases on : d.registers.mask.rendering = true
  · rw [if_pos on, if_pos (show d.alone.registers.mask.rendering = true from on),
      ← render_alone line own]
    split <;> rfl
  · rw [if_neg on, if_neg (show ¬ d.alone.registers.mask.rendering = true from on)]
    split <;> rfl

/-- Between the two dots that the cartridge is told of, the slots stay. -/
theorem dot_slots {dot : Nat} (first : dot ≠ 0) (blank : dot ≠ objectFetchStart) (line : Line)
    (cycle : Nat) (limit : SpriteLimit) : (c.dot line dot cycle limit).banks = c.banks := by
  have drawn : ((c.clearFlags line dot).drawDot line dot).banks = c.banks :=
    congrArg Works.banks (drawn_works line dot c)
  rw [Circuit.dot, if_neg first]
  dsimp only
  rw [if_neg blank]
  split
  · rw [render_banks, drawn]
  · exact drawn

end Circuit

namespace Works

variable {κ : Type}

def withBanks (b : Banks) (w : Works κ) : Works κ := { w with banks := b }

/-- The dots that begin a line, its object fetches and its last tiles read nothing. -/
def Opens (dot : Nat) : Prop := dot = 0 ∨ dot = 257 ∨ dot = 321

theorem dot_withBanks {dot : Nat} (h : Opens dot) (line : Line) (limit : SpriteLimit) (b : Banks)
    (w : Works κ) : (w.withBanks b).dot line dot limit = (w.dot line dot limit).withBanks b := by
  obtain rfl | rfl | rfl := h
  · rfl
  · cases line <;> rfl
  · cases line <;> rfl

end Works

namespace Machine

variable {κ : Type} [Cartridge κ] {m : Machine κ} {line : Line} {first last d : Nat}

/-- The works before a dot that is still ahead, with nothing in the cartridge slot and with the slots that
the first dot leaves. -/
def worksAt (m : Machine κ) (line : Line) (first d : Nat) : Works (Option Unit) :=
  (m.later (d - first)).circuit.alone.works.withBanks (m.step line first).circuit.banks

theorem worksAt_first (m : Machine κ) (line : Line) (first : Nat) : m.worksAt line first first
    = m.circuit.alone.works.withBanks (m.step line first).circuit.banks := by
  rw [worksAt, Nat.sub_self, later_zero]

/-- The dots from `first` on follow one another, and the cartridge is told of no dot but the first. -/
structure Sweeps (m : Machine κ) (line : Line) (first last : Nat) : Prop where
  place : m.clock.position = .raster line first
  start : Works.Opens first
  reach : ∀ d, first ≤ d → d < last → m.Reaches (d - first) line d
  hooks : first = 0 → last ≤ 257

theorem Sweeps.next (h : m.Sweeps line first last) (hd : first ≤ d ∧ d < last) :
    m.later (d + 1 - first) = (m.later (d - first)).step line d := by
  rw [show d + 1 - first = d - first + 1 by omega, (h.reach d hd.1 hd.2).later_succ]

/-- The first dot leaves the slots for the others. -/
theorem Sweeps.banks (h : m.Sweeps line first last) (hd : first < d ∧ d ≤ last) :
    (m.later (d - first)).circuit.banks = (m.step line first).circuit.banks := by
  obtain ⟨after, inside⟩ := hd
  induction d, after using Nat.le_induction with
  | base => rw [h.next ⟨le_rfl, inside⟩, Nat.sub_self, later_zero]
  | succ d after ih =>
    have first_ne : d ≠ 0 := by omega
    have blank : d ≠ objectFetchStart := by
      simp only [objectFetchStart]
      have hooks := h.hooks
      obtain zero | slots | tiles := h.start <;> omega
    rw [h.next ⟨by omega, inside⟩, step_circuit, Circuit.dot_slots first_ne blank, ih (by omega)]

/-- While the chip renders and serves itself, the works pass the dots of a line. -/
theorem Sweeps.passing (h : m.Sweeps line first last) (on : m.rendering = true)
    (own : ∀ d, first < d → d < last → (Fetch.ofDot d).Own (m.step line first).circuit.banks) :
    Works.Passing line m.config.limit first last (m.worksAt line first) := by
  intro d lower upper
  have rendering : (m.later (d - first)).circuit.registers.mask.rendering = true :=
    (later_rendering _ m).trans on
  have same : first < d → (m.later (d - first)).circuit.banks = (m.step line first).circuit.banks :=
    fun after => h.banks ⟨after, upper.le⟩
  have serves : (Fetch.ofDot d).Own (m.later (d - first)).circuit.banks := by
    obtain rfl | after := Nat.eq_or_lt_of_le lower
    · obtain rfl | rfl | rfl := h.start <;> trivial
    · rw [same after]
      exact own d after upper
  rw [worksAt, worksAt, h.next ⟨lower, upper⟩, step_circuit line d, later_config]
  generalize (m.step line first).circuit.banks = b at same
  generalize (m.later (d - first)).circuit = c at rendering same serves
  have works := Circuit.dot_works (c := c.alone) (Circuit.alone_silent c) rendering line d
    (m.later (d - first)).clock.count m.config.limit
  rw [Circuit.dot_alone line serves]
  show (c.alone.dot line d _ _).works.withBanks b = _
  rw [works]
  obtain rfl | after := Nat.eq_or_lt_of_le lower
  · exact (Works.dot_withBanks h.start line _ _ _).symm
  · rw [← same after]
    have kept : (c.alone.works.dot line d m.config.limit).banks = c.banks :=
      (Works.dot_keeps line d m.config.limit c.alone.works).2.1
    show (c.alone.works.dot line d m.config.limit).withBanks c.banks = c.alone.works.dot line d _
    rw [← kept]
    rfl

omit [Cartridge κ] in
theorem fixed_none : Cartridge.Fixed (Option Unit) := by
  constructor
  all_goals
    intro line rendering banks k
    cases k <;> rfl

/-- A cartridge that changes no slot changes none while the chip catches up. -/
theorem advanceTo_fixed (fixed : Cartridge.Fixed κ) (target : Nat) (m : Machine κ) :
    (m.advanceTo target).circuit.banks = m.circuit.banks := by
  fun_induction advanceTo target m with
  | case1 m => exact congrArg Works.banks (passBlank_works target m)
  | case2 m _ line d _ ih => rw [ih, step_banks fixed]
  | case3 => rfl

end Machine

end PictureUnit
