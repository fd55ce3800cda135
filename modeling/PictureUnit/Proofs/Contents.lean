import PictureUnit.Proofs.Reload
import PictureUnit.Proofs.Wording

/-!
# What a stream leaves in a machine

Of each kind of section only the last one understood counts. So what a stream holds is a record of
six parts, and loading the stream makes the machine that a cold reset would make if it left these
parts instead of its own. Nothing else of the stream, and nothing that the reset forgets, matters.
-/

set_option autoImplicit false

namespace PictureUnit.Snapshot

/-- The sections that chunks are understood as, in order. -/
def understood (chunks : List Chunk) : List Section := chunks.filterMap (·.understand.toOption)

/-- What is said of the chunks that are not understood. -/
def complaints (chunks : List Chunk) : List Warning :=
  chunks.filterMap fun c =>
    match c.understand with
    | .ok _ => none
    | .error w => some w

/-- The last section of a kind. -/
def latest? (kind : Kind) (sections : List Section) : Option Section :=
  sections.reverse.find? (·.kind = kind)

theorem latest?_cons (kind : Kind) (s : Section) (rest : List Section) :
    latest? kind (s :: rest)
      = (latest? kind rest).or (if s.kind = kind then some s else none) := by
  by_cases h : s.kind = kind <;>
    simp [latest?, List.find?_append, h]

theorem latest?_kind {kind : Kind} {sections : List Section} {s : Section}
    (h : latest? kind sections = some s) : s.kind = kind := by
  have found := List.find?_some h
  exact of_decide_eq_true found

/-- The last sections of some kinds hold the last section of each. -/
theorem latest?_filterMap (kind : Kind) (kinds : List Kind) (sections : List Section) :
    latest? kind (kinds.filterMap (latest? · sections))
      = if kind ∈ kinds then latest? kind sections else none := by
  induction kinds with
  | nil => rfl
  | cons k rest ih =>
    cases found : latest? k sections with
    | none =>
      have dropped := List.filterMap_cons_none (f := (latest? · sections)) (l := rest) found
      rw [dropped, ih]
      grind
    | some s =>
      have own := latest?_kind found
      have kept := List.filterMap_cons_some (f := (latest? · sections)) (l := rest) found
      rw [kept, latest?_cons, ih, own]
      grind

theorem understood_cons_ok {c : Chunk} {s : Section} (h : c.understand = .ok s)
    (rest : List Chunk) : understood (c :: rest) = s :: understood rest := by
  simp [understood, h, Except.toOption]

theorem understood_cons_error {c : Chunk} {w : Warning} (h : c.understand = .error w)
    (rest : List Chunk) : understood (c :: rest) = understood rest := by
  simp [understood, h, Except.toOption]

/-- The last of some chunks that tells anything of a kind tells this. -/
def Latest (kind : Kind) (chunks : List Chunk) (s : Section) : Prop :=
  ∃ before c after, chunks = before ++ c :: after ∧ c.Tells s ∧ s.kind = kind
    ∧ ∀ d ∈ after, ∀ t, d.Tells t → t.kind ≠ kind

theorem mem_understood {chunks : List Chunk} {s : Section} :
    s ∈ understood chunks ↔ ∃ c ∈ chunks, c.Tells s := by
  simp only [understood, List.mem_filterMap, ← understand_iff_tells]
  refine exists_congr fun c => and_congr_right fun _ => ?_
  cases c.understand <;> simp [Except.toOption]

theorem latest?_eq_none_iff {kind : Kind} {chunks : List Chunk} :
    latest? kind (understood chunks) = none ↔ ∀ d ∈ chunks, ∀ t, d.Tells t → t.kind ≠ kind := by
  simp only [latest?, List.find?_eq_none, List.mem_reverse, mem_understood, decide_eq_true_eq]
  constructor
  · intro none d hd t told
    exact none t ⟨d, hd, told⟩
  · rintro none t ⟨d, hd, told⟩
    exact none d hd t told

/-- The first chunk is the last of its kind if no other one is. -/
theorem latest_cons {kind : Kind} {c : Chunk} {rest : List Chunk} {s : Section} :
    Latest kind (c :: rest) s ↔ Latest kind rest s
      ∨ latest? kind (understood rest) = none ∧ c.Tells s ∧ s.kind = kind := by
  rw [latest?_eq_none_iff]
  constructor
  · rintro ⟨before, d, after, split, told, own, last⟩
    cases before with
    | nil =>
      cases split
      exact .inr ⟨last, told, own⟩
    | cons _ before =>
      cases split
      exact .inl ⟨before, d, after, rfl, told, own, last⟩
  · rintro (⟨before, d, after, rfl, told, own, last⟩ | ⟨last, told, own⟩)
    · exact ⟨c :: before, d, after, rfl, told, own, last⟩
    · exact ⟨[], c, rest, rfl, told, own, last⟩

theorem latest?_eq_some_iff {kind : Kind} {chunks : List Chunk} {s : Section} :
    latest? kind (understood chunks) = some s ↔ Latest kind chunks s := by
  induction chunks with
  | nil =>
    constructor
    · intro h
      cases h
    · rintro ⟨before, c, after, split, -⟩
      cases before <;> cases split
  | cons c rest ih =>
    rw [latest_cons, ← ih, ← understand_iff_tells]
    cases read : c.understand with
    | ok own =>
      rw [understood_cons_ok read, latest?_cons, Option.or_eq_some_iff]
      refine or_congr_right (and_congr_right fun _ => ?_)
      grind
    | error w =>
      rw [understood_cons_error read]
      simp

/-- Chunks of other tags have no say in what the last section of a kind is. -/
theorem latest?_understood (kind : Kind) (chunks : List Chunk) :
    latest? kind (understood (chunks.filter (·.tag = kind.tag)))
      = latest? kind (understood chunks) := by
  induction chunks with
  | nil => rfl
  | cons c rest ih =>
    by_cases own : c.tag = kind.tag
    · rw [List.filter_cons_of_pos (by simpa using own)]
      cases read : c.understand with
      | ok s => rw [understood_cons_ok read, understood_cons_ok read, latest?_cons, latest?_cons, ih]
      | error w => rw [understood_cons_error read, understood_cons_error read, ih]
    · rw [List.filter_cons_of_neg (by simpa using own), ih]
      cases read : c.understand with
      | ok s =>
        have other : s.kind ≠ kind := fun h => own (h ▸ (understand_eq_ok_iff.mp read).1)
        rw [understood_cons_ok read, latest?_cons, if_neg other, Option.or_none]
      | error w => rw [understood_cons_error read]

/-- All that a stream can set. -/
structure Contents where
  registers : Registers
  entries : Block paletteSize
  objects : Block 256
  internal : Block internalSize
  odd : Bool
  burst : Burst
  warmUp : Bool

namespace Contents

/-- What a cold reset leaves. -/
def initial : Contents where
  registers := .cleared
  entries := Palette.powerUp
  objects := .filled 256 0
  internal := .filled internalSize 0
  odd := false
  burst := Burst.ofNat 0
  warmUp := false

def put (h : Contents) : Section → Contents
  | .registers r => { h with registers := r }
  | .palette entries => { h with entries := entries }
  | .objects objects => { h with objects := objects }
  | .nametables internal => { h with internal := internal }
  | .parity odd burst => { h with odd := odd, burst := burst }
  | .warmUp pending => { h with warmUp := pending }

/-- The part of a kind. -/
def part (h : Contents) : Kind → Section
  | .registers => .registers h.registers
  | .palette => .palette h.entries
  | .objects => .objects h.objects
  | .nametables => .nametables h.internal
  | .parity => .parity h.odd h.burst
  | .warmUp => .warmUp h.warmUp

/-- What a reset leaves, but for the last section of each kind. -/
def ofSections (sections : List Section) : Contents :=
  (Kind.all.filterMap (latest? · sections)).foldl put initial

/-- Contents are made of their parts. -/
theorem ext_part {h h' : Contents} (same : ∀ kind, h.part kind = h'.part kind) : h = h' := by
  obtain ⟨r, e, o, i, d, b, w⟩ := h
  cases same .registers
  cases same .palette
  cases same .objects
  cases same .nametables
  cases same .parity
  cases same .warmUp
  rfl

theorem put_part (h : Contents) (s : Section) (kind : Kind) :
    (h.put s).part kind = if s.kind = kind then s else h.part kind := by
  cases s <;> cases kind <;> rfl

/-- Of each kind the last section put in is what is held. -/
theorem foldl_put_part (sections : List Section) (h : Contents) (kind : Kind) :
    (sections.foldl put h).part kind = (latest? kind sections).getD (h.part kind) := by
  induction sections generalizing h with
  | nil => rfl
  | cons s rest ih =>
    rw [List.foldl_cons, ih, put_part, latest?_cons]
    grind

/-- The kinds do not get in each other's way. -/
theorem ofSections_part (sections : List Section) (kind : Kind) :
    (ofSections sections).part kind = (latest? kind sections).getD (initial.part kind) := by
  have known : kind ∈ Kind.all := by cases kind <;> decide
  rw [ofSections, foldl_put_part, latest?_filterMap, if_pos known]

/-- Putting in all sections in order leaves the last of each kind. -/
theorem foldl_put (sections : List Section) : sections.foldl put initial = ofSections sections :=
  ext_part fun kind =>
    (foldl_put_part sections initial kind).trans (ofSections_part sections kind).symm

/-- What of each kind ends with the same section holds the same. -/
theorem ofSections_congr {sections others : List Section}
    (same : ∀ kind, latest? kind sections = latest? kind others) :
    ofSections sections = ofSections others :=
  ext_part fun kind => by rw [ofSections_part, ofSections_part, same]

end Contents

end PictureUnit.Snapshot

namespace PictureUnit

open Snapshot

/-- The palette that these entries make under a mask byte and a colour map. -/
def Palette.made (entries : Block paletteSize) (mask : Mask) (map : Option ColorMap) : Palette :=
  refreshAll
    { entries := entries.map (· &&& 0x3F)
      drawn := Vector.replicate paletteSize 0
      coloring := mask.coloring
      emphasis := mask.emphasis
      map := map }

/-- Under its mask byte a palette is made of its entries and its colour map. -/
theorem Palette.Coherent.setMask_eq {p : Palette} {entries : Block paletteSize} {map : Option ColorMap}
    (h : p.Coherent) (stored : p.entries = entries.map (· &&& 0x3F)) (mapped : p.map = map)
    (mask : Mask) : p.setMask mask = .made entries mask map := by
  have coherent : (p.setMask mask).Coherent := by
    unfold Palette.setMask
    split
    · exact h
    · exact refreshAll_coherent _
  obtain ⟨coloring, emphasis⟩ := p.setMask_mask mask
  obtain ⟨kept, held⟩ := p.setMask_keeps mask
  exact (refreshAll_coherent _).ext coherent (kept.trans stored) coloring emphasis (held.trans mapped)

namespace Machine

variable {κ : Type}

/-- A machine reset at the same moment on the same board, but for what it holds. -/
def holding (h : Contents) (m : Machine κ) : Machine κ where
  config := m.config
  clock := .parked m.clock.count
  vblank := .parked
  circuit :=
    { registers := h.registers
      objects := h.objects
      evaluation := .resting
      strips := .empty
      background := .empty
      visibility := h.registers.mask.visibility
      palette := .made h.entries h.registers.mask m.circuit.palette.map
      banks := { m.circuit.banks with internal := h.internal }
      screen := m.circuit.screen
      bus := 0
      cartridge := m.circuit.cartridge }
  frames := m.frames
  oddFrame := h.odd
  burst := h.burst
  warmingUp := h.warmUp
  inFrame := false
  host := m.host

/-- The machine after it was asked to load a stream, which it may refuse. -/
def afterLoad (data : List UInt8) (m : Machine κ) : Machine κ :=
  match m.load data with
  | .ok (.ok (n, _)) => n
  | _ => m

/-- Half loaded: what the mask byte decides is left for the end. -/
structure Filled (m : Machine κ) (h : Contents) (n : Machine κ) : Prop where
  coherent : n.circuit.palette.Coherent
  entries : n.circuit.palette.entries = h.entries.map (· &&& 0x3F)
  map : n.circuit.palette.map = m.circuit.palette.map
  rest : n = (m.holding h).withCircuit fun c =>
    { c with palette := n.circuit.palette, visibility := n.circuit.visibility }

/-- A cold reset is what is held when nothing is loaded. -/
theorem reset_cold_eq (m : Machine κ) : m.reset .cold = m.holding .initial := by
  have loaded := m.circuit.palette.load_keeps Palette.powerUp
  have palette : (m.circuit.palette.load Palette.powerUp).setMask ⟨0⟩
      = .made Palette.powerUp ⟨0⟩ m.circuit.palette.map :=
    (Palette.load_sound _ _).coherent.setMask_eq loaded.1 loaded.2 _
  have same : (m.reset .cold).circuit.palette = (m.holding .initial).circuit.palette := palette
  have whole : m.reset .cold = (m.holding .initial).withCircuit fun c =>
      { c with palette := (m.reset .cold).circuit.palette } := rfl
  rw [whole, same]
  rfl

theorem Filled.reset (m : Machine κ) : m.Filled .initial (m.reset .cold) := by
  rw [reset_cold_eq]
  exact ⟨Palette.refreshAll_coherent _, rfl, rfl, rfl⟩

/-- Every section goes to a place of its own. -/
theorem Filled.apply {m n : Machine κ} {h : Contents} (filled : m.Filled h n) (s : Section) :
    m.Filled (h.put s) (n.apply s) := by
  obtain ⟨coherent, entries, map, rest⟩ := filled
  cases s with
  | palette e =>
    have loaded := n.circuit.palette.load_keeps e
    refine ⟨(Palette.load_sound _ _).coherent, loaded.1, loaded.2.trans map, ?_⟩
    rw [rest]
    rfl
  | registers | objects | nametables | parity | warmUp =>
    refine ⟨coherent, entries, map, ?_⟩
    rw [rest]
    rfl

theorem Filled.applyChunks {m n : Machine κ} {h : Contents} (filled : m.Filled h n)
    (chunks : List Chunk) :
    m.Filled ((understood chunks).foldl Contents.put h) (n.applyChunks chunks).1 := by
  induction chunks generalizing n h with
  | nil => exact filled
  | cons c rest ih =>
    unfold Machine.applyChunks
    split
    · next s read =>
      rw [understood_cons_ok read, List.foldl_cons]
      exact ih (filled.apply s)
    · next w read =>
      rw [understood_cons_error read]
      exact ih filled

/-- The mask byte settles the rest. -/
theorem Filled.settle {m n : Machine κ} {h : Contents} (filled : m.Filled h n) :
    (n.withCircuit fun c => c.setMask c.registers.mask) = m.holding h := by
  obtain ⟨coherent, entries, map, rest⟩ := filled
  have mask : n.circuit.registers.mask = h.registers.mask := by
    rw [rest]
    rfl
  have palette := coherent.setMask_eq entries map h.registers.mask
  rw [withCircuit, Circuit.setMask, mask, palette, rest]
  rfl

theorem applyChunks_warnings (chunks : List Chunk) (m : Machine κ) :
    (m.applyChunks chunks).2 = complaints chunks := by
  induction chunks generalizing m with
  | nil => rfl
  | cons c rest ih =>
    unfold applyChunks complaints
    cases read : c.understand with
    | ok s =>
      rw [List.filterMap_cons_none (by rw [read])]
      exact ih _
    | error w =>
      rw [List.filterMap_cons_some (b := w) (by rw [read])]
      exact congrArg (w :: ·) (ih m)

/-- What a stream makes of a machine, in one step. -/
theorem restore_eq (chunks : List Chunk) (m : Machine κ) :
    m.restore chunks = (m.holding (.ofSections (understood chunks)), complaints chunks) := by
  have filled := (Filled.reset m).applyChunks chunks
  rw [Contents.foldl_put] at filled
  exact Prod.ext filled.settle (applyChunks_warnings chunks _)

variable {m b : Machine κ} {data others : List UInt8} {chunks parts : List Chunk}

/-- A broken stream is refused with its first fault. -/
theorem load_broken (closed : m.inFrame = false) {fault : FramingError}
    (broken : parse data = .error fault) : m.load data = .ok (.error fault) := by
  rw [load, closed, broken]
  rfl

theorem load_parsed (closed : m.inFrame = false) (parsed : parse data = .ok chunks) :
    m.load data
      = .ok (.ok (m.holding (.ofSections (understood chunks)), complaints chunks)) := by
  rw [load, closed, parsed]
  simp only [Except.map, restore_eq]
  rfl

theorem afterLoad_broken (closed : m.inFrame = false) {fault : FramingError}
    (broken : parse data = .error fault) : m.afterLoad data = m := by
  rw [afterLoad, load_broken closed broken]

theorem afterLoad_parsed (closed : m.inFrame = false) (parsed : parse data = .ok chunks) :
    m.afterLoad data = m.holding (.ofSections (understood chunks)) := by
  rw [afterLoad, load_parsed closed parsed]

/-- A load forgets what was held before. -/
theorem holding_holding (h held : Contents) (m : Machine κ) :
    (m.holding held).holding h = m.holding h := rfl

theorem afterLoad_afterLoad (closed : m.inFrame = false) (data : List UInt8) :
    (m.afterLoad data).afterLoad data = m.afterLoad data := by
  cases parsed : parse data with
  | error fault => rw [afterLoad_broken closed parsed, afterLoad_broken closed parsed]
  | ok chunks =>
    rw [afterLoad_parsed closed parsed, afterLoad_parsed rfl parsed, holding_holding]

/-- What the board, the moment and the screen do not tell is forgotten. -/
theorem SameBoard.holding (same : m.SameBoard b) (clock : b.clock.count = m.clock.count)
    (frames : b.frames = m.frames) (host : b.host = m.host)
    (screen : b.circuit.screen = m.circuit.screen) (h : Contents) : b.holding h = m.holding h := by
  have banks : { b.circuit.banks with internal := h.internal }
      = { m.circuit.banks with internal := h.internal } := by
    rw [Banks.mk.injEq]
    exact ⟨same.rom, same.ram, rfl, same.patterns, same.names⟩
  rw [Machine.holding, Machine.holding, banks, same.config, same.map, same.cartridge, clock, frames,
    host, screen]

/-- Streams that agree on every tag leave the same. -/
theorem afterLoad_congr (closed : m.inFrame = false) (parsed : parse data = .ok chunks)
    (other : parse others = .ok parts)
    (same : ∀ kind, latest? kind (understood parts) = latest? kind (understood chunks)) :
    m.afterLoad others = m.afterLoad data := by
  rw [afterLoad_parsed closed parsed, afterLoad_parsed closed other, Contents.ofSections_congr same]

/-- A broken stream changes nothing. Any other leaves a machine that was reset, but for what the last chunk of
each kind tells that tells anything. So the order of chunks of different tags, chunks of unknown tags or other
versions or with other bodies, and loading the stream again make no difference. -/
theorem load_latest (m : Machine κ) (data : List UInt8) (closed : m.inFrame = false) :
    (∀ fault, parse data = .error fault →
      m.load data = .ok (.error fault) ∧ m.afterLoad data = m)
    ∧ (∀ chunks, parse data = .ok chunks → ∃ h : Contents,
      m.load data = .ok (.ok (m.holding h, complaints chunks)) ∧ m.afterLoad data = m.holding h
        ∧ (∀ kind s, Latest kind chunks s → h.part kind = s)
        ∧ ∀ kind, (∀ c ∈ chunks, ∀ s, c.Tells s → s.kind ≠ kind) →
          h.part kind = Contents.initial.part kind)
    ∧ m.reset .cold = m.holding .initial
    ∧ (∀ (c : Chunk) (s : Section), c.understand = .ok s ↔ c.Tells s)
    ∧ (∀ before c after others, parse data = .ok (before ++ c :: after) →
      (∀ s, ¬ c.Tells s) → parse others = .ok (before ++ after) →
        m.afterLoad others = m.afterLoad data)
    ∧ (∀ chunks parts others, parse data = .ok chunks → parse others = .ok parts →
      (∀ tag, parts.filter (·.tag = tag) = chunks.filter (·.tag = tag)) →
        m.afterLoad others = m.afterLoad data)
    ∧ (∀ b, b.inFrame = false → m.SameBoard b → b.clock.count = m.clock.count →
      b.frames = m.frames → b.host = m.host → b.circuit.screen = m.circuit.screen →
        b.load data = m.load data)
    ∧ (m.afterLoad data).afterLoad data = m.afterLoad data := by
  refine ⟨fun fault broken => ⟨load_broken closed broken, afterLoad_broken closed broken⟩,
    fun chunks parsed => ⟨.ofSections (understood chunks), load_parsed closed parsed,
      afterLoad_parsed closed parsed, fun kind s latest => ?latest, fun kind silent => ?silent⟩,
    reset_cold_eq m, fun c s => understand_iff_tells,
    ?skipped, ?permuted, ?forgotten, afterLoad_afterLoad closed data⟩
  case latest => rw [Contents.ofSections_part, latest?_eq_some_iff.mpr latest, Option.getD_some]
  case silent => rw [Contents.ofSections_part, latest?_eq_none_iff.mpr silent, Option.getD_none]
  case skipped =>
    intro before c after others parsed unread other
    refine afterLoad_congr closed parsed other fun kind => ?_
    cases read : c.understand with
    | ok s => exact absurd (understand_iff_tells.mp read) (unread s)
    | error w => simp [understood, read, Except.toOption]
  case permuted =>
    intro chunks parts others parsed other same
    refine afterLoad_congr closed parsed other fun kind => ?_
    rw [← latest?_understood, same, latest?_understood]
  case forgotten =>
    intro b blank same clock frames host screen
    cases parsed : parse data with
    | error fault => rw [load_broken blank parsed, load_broken closed parsed]
    | ok chunks =>
      rw [load_parsed blank parsed, load_parsed closed parsed,
        same.holding clock frames host screen]

/-- Two warm-up sections stand between a chunk of an unknown tag, one of another version and one whose body is
no truth value. The second section counts, and a parity whose body goes on. -/
def mixedChunks : List Chunk :=
  [(Section.warmUp false).chunk, ⟨#v[1, 2, 3, 4], 1, []⟩, ⟨Kind.parity.tag, 1, [1, 5, 9]⟩,
    (Section.warmUp true).chunk, ⟨Kind.warmUp.tag, 2, [0]⟩, ⟨Kind.warmUp.tag, 1, [7]⟩]

theorem load_latest_mixed :
    let m := Machine.new ⟨.ntsc, .hardware⟩ .new (none : Option Unit) (.new fun _ => 0)
    m.inFrame = false
      ∧ m.load (join mixedChunks) = .ok (.ok
        (m.holding { Contents.initial with odd := true, burst := .ofNat 2, warmUp := true },
          [.unknown #v[1, 2, 3, 4], .skipped Kind.warmUp.tag (.version Kind.warmUp.tag 2),
            .skipped Kind.warmUp.tag (.body .noTruthValue)]))
      ∧ (m.afterLoad (join mixedChunks)).afterLoad (join mixedChunks) = m.afterLoad (join mixedChunks) := by
  intro m
  have parsed : parse (join mixedChunks) = .ok mixedChunks := parse_join (by decide)
  obtain ⟨-, result, -, -, -, -, -, again⟩ := load_latest m (join mixedChunks) rfl
  obtain ⟨h, loaded, -, told, silent⟩ := result mixedChunks parsed
  have held : h = { Contents.initial with odd := true, burst := .ofNat 2, warmUp := true } := by
    apply Contents.ext_part
    intro kind
    cases kind with
    | registers | palette | objects | nametables => exact silent _ (latest?_eq_none_iff.mp rfl)
    | parity => exact told .parity (.parity true (.ofNat 2)) (latest?_eq_some_iff.mp rfl)
    | warmUp => exact told .warmUp (.warmUp true) (latest?_eq_some_iff.mp rfl)
  rw [held] at loaded
  exact ⟨rfl, loaded, again⟩

end Machine

end PictureUnit
