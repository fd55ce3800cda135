import PictureUnit.Proofs.Ink
import PictureUnit.Proofs.Slots
import PictureUnit.Proofs.Tiles

/-!
# The works of a rendered dot

Behind the flags and the screen stand the works: what the search, the fetches and the scroll position
are about. While nothing answers in the cartridge slot, what a rendered dot does to the works, and the
ink it leaves, follow from the works alone.
-/

set_option autoImplicit false

namespace PictureUnit

/-- The cartridge takes no part: it moves no slot, and its own cells read as zero. -/
structure Cartridge.Silent {κ : Type} [Cartridge κ] (k : κ) : Prop where
  activeStart (line : Line) (rendering : Bool) (banks : Banks) :
    Cartridge.activeStart line rendering banks k = (banks, k)
  blankStart (line : Line) (rendering : Bool) (banks : Banks) :
    Cartridge.blankStart line rendering banks k = (banks, k)
  observe (address cycle : Nat) : Cartridge.observe address cycle k = k
  readPattern (address : Nat) : Cartridge.readPattern address k = (0, k)
  readName (address : Nat) : Cartridge.readName address k = (0, k)

theorem Cartridge.silent_none {κ : Type} [Cartridge κ] : Cartridge.Silent (none : Option κ) :=
  ⟨fun _ _ _ => rfl, fun _ _ _ => rfl, fun _ _ => rfl, fun _ => rfl, fun _ => rfl⟩

structure Works (κ : Type) where
  settings : Settings
  banks : Banks
  cartridge : κ
  objectAddress : UInt8
  evaluation : Evaluation
  strips : Strips
  pipe : Pipe

variable {κ : Type}

def Circuit.pipe (c : Circuit κ) : Pipe := ⟨c.background, c.registers.scroll.current, c.bus⟩

def Circuit.works (c : Circuit κ) : Works κ where
  settings := c.settings
  banks := c.banks
  cartridge := c.cartridge
  objectAddress := c.registers.objectAddress
  evaluation := c.evaluation
  strips := c.strips
  pipe := c.pipe

def Works.scene (limit : SpriteLimit) (w : Works κ) : Scene where
  control := w.settings.control
  mask := w.settings.mask
  origin := w.settings.pending
  fineX := w.settings.fineX
  objects := w.settings.objects
  entries := w.settings.palette.entries
  map := w.settings.palette.map
  banks := w.banks
  limit := limit

/-- One dot of the search. -/
def Evaluation.onDot (i : Evaluation.Inputs) (address : UInt8) (dot : Nat) (e : Evaluation) :
    Evaluation :=
  if 256 < dot then e
  else if dot ≤ 64 then e.clearStep dot i.limit
  else
    let e := if dot = 65 then e.start address else e
    if dot % 2 = 1 then e.step i
    else if dot = 256 ∧ i.limit = .unlimited then (e.finish i).1
    else e

/-- After its start the search takes every second dot, and the last one may hurry it to its end. -/
theorem Evaluation.onDot_searching (i : Evaluation.Inputs) {dot : Nat} (hd : 65 < dot ∧ dot ≤ 256)
    (address : UInt8) (e : Evaluation) :
    e.onDot i address dot = if dot % 2 = 1 then e.step i
      else if dot = 256 ∧ i.limit = .unlimited then (e.finish i).1 else e := by
  have later : dot ≠ 65 := by omega
  rw [onDot, if_neg (by omega), if_neg (by omega : ¬ dot ≤ 64)]
  dsimp only
  rw [if_neg later]

theorem Phase.ofIndex_congr {i j : Nat} (h : i % 8 = j % 8) : Phase.ofIndex i = .ofIndex j := by
  rw [Phase.ofIndex, h, Phase.ofIndex]

theorem ofDot_tile {dot : Nat} (hd : 1 ≤ dot ∧ dot ≤ 256 ∨ 321 ≤ dot ∧ dot ≤ 336) :
    Fetch.ofDot dot = .tile (.ofIndex (dot - 1)) := by
  rcases hd with hd | hd
  · rw [Fetch.ofDot, if_neg (by omega), if_pos (by omega)]
  · have phase : Phase.ofIndex (dot - 321) = .ofIndex (dot - 1) := Phase.ofIndex_congr (by omega)
    rw [Fetch.ofDot, if_neg (by omega), if_neg (by omega), if_neg (by omega), if_pos (by omega), phase]

theorem ofDot_slot {dot : Nat} (hd : 257 ≤ dot ∧ dot ≤ 320) :
    Fetch.ofDot dot = .object (objectSlot dot) (.ofIndex (dot - 257)) := by
  rw [Fetch.ofDot, if_neg (by omega), if_neg (by omega), if_pos hd.2]

/-- Only the dots of the slots fetch objects. -/
theorem bounds_of_ofDot {dot slot : Nat} {phase : Phase} (h : Fetch.ofDot dot = .object slot phase) :
    257 ≤ dot ∧ dot ≤ 320 := by
  unfold Fetch.ofDot at h
  split at h
  · cases h
  split at h
  · cases h
  split at h
  · omega
  split at h
  · cases h
  · split at h <;> cases h

theorem ofDot_rest {dot : Nat} (hd : 337 ≤ dot) :
    Fetch.ofDot dot = if dot % 2 = 1 then .openUnused else .unused := by
  rw [Fetch.ofDot, if_neg (by omega), if_neg (by omega), if_neg (by omega), if_neg (by omega)]

/-- The scroll position goes back to the left, or to the top. -/
def rewound (line : Line) (dot : Nat) (pending current : Scroll.Address) : Scroll.Address :=
  if dot = objectFetchStart then .takeHorizontal pending current
  else if line = .preRender ∧ 280 ≤ dot ∧ dot ≤ 304 then .takeVertical pending current
  else current

/-- The place that the object data register shows while a slot is fetched. -/
def slotPlace (dot : Nat) : Nat := objectSlot dot * 4 + min ((dot - objectFetchStart) % 8) 3

namespace Works

/-- The search goes on beside the fetches. -/
def search (line : Line) (dot : Nat) (limit : SpriteLimit) (w : Works κ) : Works κ :=
  match line with
  | .preRender => w
  | .visible y =>
    { w with evaluation := w.evaluation.onDot ((w.scene limit).inputs y.val) w.objectAddress dot }

/-- A dot that fetches a tile. -/
def tileDot (line : Line) (dot : Nat) (limit : SpriteLimit) (w : Works κ) : Works κ :=
  { w.search line dot limit with pipe := w.pipe.tile (w.scene limit) (.ofIndex (dot - 1)) dot }

/-- The fetches take over what the search has found. -/
def prepare (line : Line) (w : Works κ) : Works κ :=
  let strips := match line with
    | .preRender => w.strips.prepare 0 false
    | .visible _ => w.strips.prepare w.evaluation.found w.evaluation.zeroInRange
  { w with strips := strips, evaluation := w.evaluation.stop }

/-- A dot that fetches an object, once the search is handed over. -/
def slotDot (line : Line) (dot : Nat) (limit : SpriteLimit) (w : Works κ) : Works κ :=
  let fetched := (w.scene limit).slotDot line w.evaluation.secondary w.pipe.current.tileAddress
    (objectSlot dot) (.ofIndex (dot - 257)) (w.strips, w.pipe.bus)
  { w with
    objectAddress := 0
    evaluation := { w.evaluation with latch := w.evaluation.secondary.load (slotPlace dot) }
    strips := if dot = objectFetchEnd then
        (w.scene limit).fetchExtras line w.evaluation.secondary fetched.1
      else fetched.1
    pipe := ⟨w.pipe.background, rewound line dot w.settings.pending w.pipe.current, fetched.2⟩ }

/-- The first of these dots hands the search over. -/
def handed (line : Line) (dot : Nat) (w : Works κ) : Works κ :=
  if dot = objectFetchStart then w.prepare line else w

/-- A dot that fetches for nothing. -/
def restDot (dot : Nat) (w : Works κ) : Works κ :=
  if dot % 2 = 1 then { w with pipe := { w.pipe with bus := w.pipe.current.tileAddress } } else w

/-- One dot of a line. -/
def dot (line : Line) (dot : Nat) (limit : SpriteLimit) (w : Works κ) : Works κ :=
  if dot = 0 then w
  else if dot ≤ 256 ∨ 321 ≤ dot ∧ dot ≤ 336 then w.tileDot line dot limit
  else if dot ≤ 320 then (w.handed line dot).slotDot line dot limit
  else w.restDot dot

theorem search_keeps (line : Line) (dot : Nat) (limit : SpriteLimit) (w : Works κ) :
    (w.search line dot limit).strips = w.strips
      ∧ (w.search line dot limit).objectAddress = w.objectAddress := by
  cases line <;> exact ⟨rfl, rfl⟩

theorem handed_pipe (line : Line) (dot : Nat) (w : Works κ) : (w.handed line dot).pipe = w.pipe := by
  unfold handed
  split <;> rfl

theorem handed_of_ne {line : Line} {dot : Nat} (hd : dot ≠ objectFetchStart) (w : Works κ) :
    w.handed line dot = w := if_neg hd

theorem slotDot_secondary (line : Line) (dot : Nat) (limit : SpriteLimit) (w : Works κ) :
    (w.slotDot line dot limit).evaluation.secondary = w.evaluation.secondary := by
  simp only [slotDot]

/-- The colour that a column gets. -/
def shade (x : Nat) (w : Works κ) : UInt16 :=
  let background := if w.settings.visibility.showsBackground x then
      let entry := w.pipe.background.pixel x w.settings.fineX.val
      if entry % 4 = 0 then 0 else entry
    else 0
  let object := if w.settings.visibility.showsObjects x then w.strips.pixel? x else none
  w.settings.palette.output (blend background object)

/-- The inks of a dot. -/
def inks (line : Line) (dot : Nat) (w : Works κ) : List Ink :=
  (drawnAt line dot).map fun p => ⟨p.1, p.2, w.shade p.1⟩

/-- A dot changes no setting, moves no slot and leaves the cartridge as it is. -/
theorem dot_keeps (line : Line) (dot : Nat) (limit : SpriteLimit) (w : Works κ) :
    (w.dot line dot limit).settings = w.settings ∧ (w.dot line dot limit).banks = w.banks
      ∧ (w.dot line dot limit).cartridge = w.cartridge := by
  unfold Works.dot
  split
  · exact ⟨rfl, rfl, rfl⟩
  split
  · cases line <;> exact ⟨rfl, rfl, rfl⟩
  split
  · unfold handed
    split <;> exact ⟨rfl, rfl, rfl⟩
  · unfold restDot
    split <;> exact ⟨rfl, rfl, rfl⟩

end Works

namespace Circuit

variable {κ : Type}

theorem clearFlags_works (line : Line) (dot : Nat) (c : Circuit κ) :
    (c.clearFlags line dot).works = c.works := by
  unfold clearFlags
  split <;> rfl

theorem drawDot_works (line : Line) (dot : Nat) (c : Circuit κ) :
    (c.drawDot line dot).works = c.works := by
  unfold drawDot drawPixel drawRendered
  split
  · rfl
  · split
    · dsimp only
      split
      · split <;> rfl
      · rfl
    · rfl

/-- Before a dot fetches, it touches no works. -/
theorem drawn_works (line : Line) (dot : Nat) (c : Circuit κ) :
    ((c.clearFlags line dot).drawDot line dot).works = c.works := by
  rw [drawDot_works, clearFlags_works]

theorem concludeSearch_works (result : Evaluation × Bool) (c : Circuit κ) :
    (c.concludeSearch result).works = { c.works with evaluation := result.1 } := by
  unfold concludeSearch
  dsimp only
  split <;> rfl

theorem evaluate_works (y : Fin screenHeight) (dot : Nat) (limit : SpriteLimit) (c : Circuit κ) :
    (c.evaluate y.val dot limit).works = c.works.search (.visible y) dot limit := by
  unfold evaluate Works.search Evaluation.onDot
  dsimp only
  split
  · rfl
  split
  · rfl
  by_cases hs : dot = 65
  · subst hs
    exact concludeSearch_works _ _
  · rw [if_neg hs, if_neg hs]
    split
    · exact concludeSearch_works _ c
    · split
      · next h =>
        rw [if_pos (by exact h)]
        exact concludeSearch_works _ c
      · next h => rw [if_neg (by exact h)]

theorem rewindAddress_works (line : Line) (dot : Nat) (c : Circuit κ) :
    (c.rewindAddress line dot).works
      = { c.works with
        pipe := { c.works.pipe with
          current := rewound line dot c.works.settings.pending c.works.pipe.current } } := by
  unfold rewindAddress rewound
  split
  · rfl
  · split <;> rfl

theorem clearObjectAddress_works (dot : Nat) (c : Circuit κ) :
    (c.clearObjectAddress dot).works =
      { c.works with
        objectAddress := if objectFetchStart ≤ dot ∧ dot ≤ objectFetchEnd then 0
          else c.works.objectAddress } := by
  unfold clearObjectAddress
  split <;> rfl

theorem latchSlot_works (dot : Nat) (c : Circuit κ) :
    (c.latchSlot dot).works =
      { c.works with
        evaluation := { c.works.evaluation with
          latch := c.works.evaluation.secondary.load (slotPlace dot) } } := by
  simp only [latchSlot, works, settings, pipe, slotPlace]

/-- A dot of the search, before the fetch. -/
def searching (line : Line) (dot : Nat) (limit : SpriteLimit) (c : Circuit κ) : Circuit κ :=
  match line with
  | .preRender => c
  | .visible y => c.evaluate y.val dot limit

theorem searching_works (line : Line) (dot : Nat) (limit : SpriteLimit) (c : Circuit κ) :
    (c.searching line dot limit).works = c.works.search line dot limit := by
  cases line with
  | preRender => rfl
  | visible y => exact evaluate_works y dot limit c

theorem searching_cartridge (line : Line) (dot : Nat) (limit : SpriteLimit) (c : Circuit κ) :
    (c.searching line dot limit).cartridge = c.cartridge := by
  have searched := congrArg Works.cartridge (searching_works line dot limit c)
  cases line <;> exact searched

/-- The inks of a rendered dot. -/
theorem inks_works {c : Circuit κ} (hr : c.registers.mask.rendering = true) (line : Line)
    (dot : Nat) : c.inks line dot = c.works.inks line dot := by
  have shaded (x : Nat) : c.shade x = c.works.shade x := by
    rw [shade, if_pos hr]
    rfl
  rw [inks, Works.inks]
  simp only [shaded]

theorem searching_of_lt (line : Line) {dot : Nat} (hd : 256 < dot) (limit : SpriteLimit)
    (c : Circuit κ) : c.searching line dot limit = c := by
  cases line with
  | preRender => rfl
  | visible y => exact if_pos hd

variable [Cartridge κ] {c : Circuit κ}

theorem activeStart_works (hs : Cartridge.Silent c.cartridge) (line : Line) :
    (c.activeStart line).works = c.works := by
  unfold activeStart
  rw [hs.activeStart]

theorem blankStart_works (hs : Cartridge.Silent c.cartridge) (line : Line) :
    (c.blankStart line).works = c.works := by
  unfold blankStart
  rw [hs.blankStart]

theorem drive_works (hs : Cartridge.Silent c.cartridge) (address cycle : Nat) :
    (c.drive address cycle).works
      = { c.works with pipe := { c.works.pipe with bus := address } } := by
  unfold drive expose works
  dsimp only
  rw [hs.observe]
  rfl

theorem readName_silent (hs : Cartridge.Silent c.cartridge) (address : Nat) :
    c.readName address = (c.banks.load (c.banks.nameCell address), c) := by
  unfold readName
  split
  · next h =>
    rw [h, hs.readName]
    rfl
  · rfl

theorem readPattern_silent (hs : Cartridge.Silent c.cartridge) (address : Nat) :
    c.readPattern address = (c.banks.load (c.banks.patternCell address), c) := by
  unfold readPattern
  split
  · next h =>
    rw [h, hs.readPattern]
    rfl
  · rfl

theorem fetchTile_works (hs : Cartridge.Silent c.cartridge) (limit : SpriteLimit)
    (phase : Phase) (dot cycle : Nat) : (c.fetchTile phase dot cycle).works
      = { c.works with pipe := c.works.pipe.tile (c.works.scene limit) phase dot } := by
  cases phase with
  | openName | openAttributes | openLow | openHigh => exact drive_works hs _ cycle
  | name | attributes =>
    simp only [fetchTile, readName_silent hs]
    rfl
  | low | high =>
    simp only [fetchTile, readPattern_silent hs]
    rfl

theorem fetchObject_works (hs : Cartridge.Silent c.cartridge) (limit : SpriteLimit)
    (line : Line) (slot : Nat) (phase : Phase) (cycle : Nat) :
    let fetched := (c.works.scene limit).slotDot line c.works.evaluation.secondary
      c.works.pipe.current.tileAddress slot phase (c.works.strips, c.works.pipe.bus)
    (c.fetchObject line slot phase cycle).works
      = { c.works with strips := fetched.1, pipe := { c.works.pipe with bus := fetched.2 } } := by
  cases phase with
  | openName =>
    exact drive_works (c := { c with strips := c.strips.select slot c.evaluation.secondary }) hs _ cycle
  | openAttributes | openLow | openHigh => exact drive_works hs _ cycle
  | name | attributes =>
    simp only [fetchObject, readName_silent hs]
    rfl
  | low | high =>
    simp only [fetchObject, readPattern_silent hs]
    rfl

theorem fetchExtra_works (hs : Cartridge.Silent c.cartridge) (limit : SpriteLimit)
    (line : Line) (slot : Nat) : (c.fetchExtra line slot).works =
      { c.works with
        strips := (c.works.scene limit).fetchSlot line c.works.evaluation.secondary c.works.strips
          slot } := by
  let selected := { c with strips := c.strips.select slot c.evaluation.secondary }
  have low := readPattern_silent (c := selected) hs
  simp only [fetchExtra]
  rw [low, low]
  rfl

theorem fetchExtras_works (hs : Cartridge.Silent c.cartridge) (limit : SpriteLimit)
    (line : Line) : (c.fetchExtras line).works
      = { c.works with
        strips := (c.works.scene limit).fetchExtras line c.works.evaluation.secondary
          c.works.strips } := by
  have fetched (slots : List Nat) {c : Circuit κ} (hs : Cartridge.Silent c.cartridge) :
      (slots.foldl (fetchExtra line) c).works =
        { c.works with
          strips := slots.foldl ((c.works.scene limit).fetchSlot line c.works.evaluation.secondary)
            c.works.strips } := by
    induction slots generalizing c with
    | nil => rfl
    | cons slot rest ih =>
      have first := fetchExtra_works hs limit line slot
      have kept : (c.fetchExtra line slot).cartridge = c.cartridge := congrArg Works.cartridge first
      rw [List.foldl_cons, ih (by rwa [kept]), first]
      rfl
  exact fetched _ hs

theorem render_eq (line : Line) (dot cycle : Nat) (limit : SpriteLimit) (c : Circuit κ) :
    c.render line dot cycle limit =
      ((((if dot = objectFetchStart then (c.searching line dot limit).prepareStrips line
        else c.searching line dot limit).fetch line dot cycle).rewindAddress line dot).clearObjectAddress
          dot) := rfl

theorem render_tile (hs : Cartridge.Silent c.cartridge) {line : Line} {dot : Nat}
    (hd : 1 ≤ dot ∧ dot ≤ 256 ∨ 321 ≤ dot ∧ dot ≤ 336) (cycle : Nat) (limit : SpriteLimit) :
    (c.render line dot cycle limit).works = c.works.tileDot line dot limit := by
  have drawing : dot ≠ objectFetchStart := by
    simp only [objectFetchStart]
    omega
  have outside : ¬ (objectFetchStart ≤ dot ∧ dot ≤ objectFetchEnd) := by
    simp only [objectFetchStart, objectFetchEnd]
    omega
  have below : ¬ (line = .preRender ∧ 280 ≤ dot ∧ dot ≤ 304) := by omega
  have stays (pending current : Scroll.Address) : rewound line dot pending current = current := by
    rw [rewound, if_neg drawing, if_neg below]
  have searched := searching_works line dot limit c
  have silent : Cartridge.Silent (c.searching line dot limit).cartridge := by
    rwa [searching_cartridge]
  rw [render_eq, clearObjectAddress_works, rewindAddress_works, if_neg drawing, if_neg outside, fetch,
    ofDot_tile hd, stays]
  dsimp only
  rw [fetchTile_works silent limit, searched]
  cases line <;> rfl

theorem render_slot (hs : Cartridge.Silent c.cartridge) {line : Line} {dot : Nat}
    (hd : 257 ≤ dot ∧ dot ≤ 320) (cycle : Nat) (limit : SpriteLimit) :
    (c.render line dot cycle limit).works = (c.works.handed line dot).slotDot line dot limit := by
  have inside : objectFetchStart ≤ dot ∧ dot ≤ objectFetchEnd := hd
  have handed : (if dot = objectFetchStart then c.prepareStrips line else c).works
      = c.works.handed line dot := by
    unfold Works.handed
    split <;> rfl
  rw [render_eq, searching_of_lt line (by omega)]
  generalize (if dot = objectFetchStart then c.prepareStrips line else c) = d at handed
  have silent : Cartridge.Silent d.cartridge := by
    have kept : d.cartridge = (c.works.handed line dot).cartridge := congrArg Works.cartridge handed
    rw [kept, Works.handed]
    split <;> exact hs
  have fetched := fetchObject_works silent limit line (objectSlot dot) (.ofIndex (dot - 257)) cycle
  rw [clearObjectAddress_works, rewindAddress_works, if_pos inside, fetch, ofDot_slot hd]
  dsimp only
  generalize d.fetchObject line (objectSlot dot) (.ofIndex (dot - 257)) cycle = f at fetched
  have still : Cartridge.Silent f.cartridge := by
    have kept : f.cartridge = d.cartridge := congrArg Works.cartridge fetched
    rwa [kept]
  rw [latchSlot_works, ← handed, Works.slotDot]
  generalize Phase.ofIndex (dot - 257) = phase at fetched ⊢
  by_cases last : dot = objectFetchEnd
  · rw [if_pos last, if_pos last, fetchExtras_works still limit, fetched]
    rfl
  · rw [if_neg last, if_neg last, fetched]

theorem render_rest (hs : Cartridge.Silent c.cartridge) {line : Line} {dot : Nat} (hd : 337 ≤ dot)
    (cycle : Nat) (limit : SpriteLimit) :
    (c.render line dot cycle limit).works = c.works.restDot dot := by
  have start : dot ≠ objectFetchStart := by
    simp only [objectFetchStart]
    omega
  have outside : ¬ (objectFetchStart ≤ dot ∧ dot ≤ objectFetchEnd) := by
    simp only [objectFetchStart, objectFetchEnd]
    omega
  have below : ¬ (line = .preRender ∧ 280 ≤ dot ∧ dot ≤ 304) := by omega
  have stays (pending current : Scroll.Address) : rewound line dot pending current = current := by
    rw [rewound, if_neg start, if_neg below]
  rw [render_eq, searching_of_lt line (by omega), clearObjectAddress_works, rewindAddress_works,
    if_neg start, if_neg outside, fetch, ofDot_rest hd, stays]
  unfold Works.restDot
  by_cases odd : dot % 2 = 1
  · rw [if_pos odd, if_pos odd]
    dsimp only
    rw [drive_works hs]
    rfl
  · rw [if_neg odd, if_neg odd]
    dsimp only
    rw [readName_silent hs]

/-- A rendered dot, on the works. -/
theorem dot_works (hs : Cartridge.Silent c.cartridge) (hr : c.registers.mask.rendering = true)
    (line : Line) (dot cycle : Nat) (limit : SpriteLimit) :
    (c.dot line dot cycle limit).works = c.works.dot line dot limit := by
  by_cases first : dot = 0
  · rw [Circuit.dot, Works.dot, if_pos first, if_pos first]
    exact activeStart_works hs line
  have drawn := drawn_works line dot c
  have rendering : ((c.clearFlags line dot).drawDot line dot).registers.mask.rendering = true := by
    have kept : ((c.clearFlags line dot).drawDot line dot).registers.mask = c.registers.mask :=
      congrArg (·.settings.mask) drawn
    rwa [kept]
  have silent : Cartridge.Silent ((c.clearFlags line dot).drawDot line dot).cartridge := by
    have kept : ((c.clearFlags line dot).drawDot line dot).cartridge = c.cartridge :=
      congrArg Works.cartridge drawn
    rwa [kept]
  rw [Circuit.dot, if_neg first]
  dsimp only
  rw [if_pos rendering, ← drawn]
  generalize (c.clearFlags line dot).drawDot line dot = d at silent
  have rendered : (d.render line dot cycle limit).works = d.works.dot line dot limit := by
    rw [Works.dot, if_neg first]
    by_cases tile : dot ≤ 256 ∨ 321 ≤ dot ∧ dot ≤ 336
    · rw [if_pos tile]
      exact render_tile silent (by omega) cycle limit
    · by_cases slot : dot ≤ 320
      · rw [if_neg tile, if_pos slot]
        exact render_slot silent (by omega) cycle limit
      · rw [if_neg tile, if_neg slot]
        exact render_rest silent (by omega) cycle limit
  by_cases blank : dot = objectFetchStart
  · have still : Cartridge.Silent (d.render line dot cycle limit).cartridge := by
      have kept : (d.render line dot cycle limit).cartridge = d.cartridge :=
        (congrArg Works.cartridge rendered).trans (Works.dot_keeps line dot limit d.works).2.2
      rwa [kept]
    rw [if_pos blank, blankStart_works still, rendered]
  · rw [if_neg blank, rendered]

end Circuit

end PictureUnit
