import PictureUnit.Proofs.Dots

/-!
# The sweep along a line

The tiles of a row are fetched sixteen columns ahead, so a line begins with two tiles that the line
above has fetched for it. The search of a line ends before the fetches of its objects begin, and these
end before the line below is drawn.
-/

set_option autoImplicit false

namespace PictureUnit

open Scroll.Address (right down takeHorizontal takeVertical)

namespace Works

variable {κ : Type}

/-- The works before a dot of the line. -/
def before (line : Line) (limit : SpriteLimit) (w : Works κ) : Nat → Works κ
  | 0 => w
  | d + 1 => (before line limit w d).dot line d limit

/-- Works before each dot from `first` to `last` of a line. -/
def Passing (line : Line) (limit : SpriteLimit) (first last : Nat) (u : Nat → Works κ) : Prop :=
  ∀ d, first ≤ d → d < last → u (d + 1) = (u d).dot line d limit

theorem before_passing (line : Line) (limit : SpriteLimit) (w : Works κ) (first last : Nat) :
    Passing line limit first last (w.before line limit) := fun _ _ _ => rfl

/-- What a dot of the object fetches begins with. -/
def atSlot (line : Line) (u : Nat → Works κ) (d : Nat) : Works κ := (u d).handed line d

namespace Passing

variable {line : Line} {limit : SpriteLimit} {first last d : Nat} {u : Nat → Works κ}

theorem keeps (h : Passing line limit first last u) (hd : first ≤ d ∧ d ≤ last) :
    (u d).settings = (u first).settings ∧ (u d).banks = (u first).banks
      ∧ (u d).cartridge = (u first).cartridge := by
  obtain ⟨lower, upper⟩ := hd
  induction d, lower using Nat.le_induction with
  | base => exact ⟨rfl, rfl, rfl⟩
  | succ d lower ih =>
    obtain ⟨settings, banks, cartridge⟩ := dot_keeps line d limit (u d)
    obtain ⟨settings', banks', cartridge'⟩ := ih (by omega)
    rw [h d lower upper]
    exact ⟨settings.trans settings', banks.trans banks', cartridge.trans cartridge'⟩

theorem scene (h : Passing line limit first last u) (hd : first ≤ d ∧ d ≤ last) :
    (u d).scene limit = (u first).scene limit := by
  obtain ⟨settings, banks, -⟩ := h.keeps hd
  rw [Works.scene, settings, banks]
  rfl

theorem tile (h : Passing line limit first last u) (hd : first ≤ d ∧ d < last)
    (ht : 1 ≤ d ∧ d ≤ 256 ∨ 321 ≤ d ∧ d ≤ 336) : u (d + 1) = (u d).tileDot line d limit := by
  rw [h d hd.1 hd.2, Works.dot, if_neg (by omega), if_pos (by omega)]

theorem slot (h : Passing line limit first last u) (hd : first ≤ d ∧ d < last)
    (hs : 257 ≤ d ∧ d ≤ 320) : u (d + 1) = (atSlot line u d).slotDot line d limit := by
  rw [h d hd.1 hd.2, Works.dot, if_neg (by omega), if_neg (by omega), if_pos hs.2]
  rfl

theorem rest (h : Passing line limit first last u) (hd : first ≤ d ∧ d < last) (hr : 337 ≤ d) :
    u (d + 1) = (u d).restDot d := by
  rw [h d hd.1 hd.2, Works.dot, if_neg (by omega), if_neg (by omega), if_neg (by omega)]

/-- Eight dots of the line fetch a tile. -/
theorem tiles (h : Passing line limit first last u) (base : Nat) {k : Nat} (hb : base % 8 = 1)
    (hk : k ≤ 8) (ht : 1 ≤ base ∧ base + 7 ≤ 256 ∨ 321 ≤ base ∧ base + 7 ≤ 336)
    (hd : first ≤ base ∧ base + k ≤ last) :
    (u (base + k)).pipe = (u base).pipe.tiles ((u first).scene limit) base k := by
  induction k with
  | zero => rfl
  | succ k ih =>
    have phase : Phase.ofIndex (base + k - 1) = .ofIndex k := Phase.ofIndex_congr (by omega)
    rw [← Nat.add_assoc, h.tile (by omega) (by omega), tileDot, phase, h.scene (by omega),
      ih (by omega) (by omega)]
    rfl

variable {a : Scroll.Address}

/-- The first dot does nothing. -/
theorem one (h : Passing line limit 0 last u) (hl : 0 < last) : u 1 = u 0 := by
  rw [h 0 le_rfl hl, Works.dot, if_pos rfl]

/-- Two tiles are always there when a group of eight columns begins. -/
theorem group (h : Passing line limit 0 last u) (start : Pipe.At ((u 0).scene limit) a 0 (u 0).pipe)
    {g : Nat} (hg : g ≤ 31) (hd : 8 * g + 1 ≤ last) :
    Pipe.At ((u 0).scene limit) a g (u (8 * g + 1)).pipe := by
  induction g with
  | zero =>
    rw [Nat.mul_zero, Nat.zero_add, h.one (by omega)]
    exact start
  | succ g ih =>
    have next : 8 * (g + 1) + 1 = 8 * g + 1 + 8 := by omega
    rw [next, h.tiles _ (by omega) (Nat.le_refl 8) (by omega) (by omega)]
    exact (ih (by omega) (by omega)).tiles_next (by omega) (by omega)

theorem column (h : Passing line limit 0 last u) (start : Pipe.At ((u 0).scene limit) a 0 (u 0).pipe)
    {x : Nat} (hx : x < 256) (hd : x + 1 ≤ last) :
    Pipe.At ((u 0).scene limit) a (x / 8) (u (x + 1)).pipe := by
  have place : x + 1 = 8 * (x / 8) + 1 + x % 8 := by omega
  rw [place, h.tiles _ (by omega) (by omega) (by omega) (by omega)]
  exact (h.group start (by omega) (by omega)).tiles_keeps _ (by omega)

/-- The tiles fetched at the end of a line are the first of the row below. -/
theorem prefetch (h : Passing line limit 321 last u) (hd : 337 ≤ d ∧ d ≤ last) :
    Pipe.At ((u 321).scene limit) (u 321).pipe.current 0 (u d).pipe := by
  obtain ⟨lower, upper⟩ := hd
  induction d, lower using Nat.le_induction with
  | base =>
    have first := h.tiles 321 (by decide) (Nat.le_refl 8) (by decide) (by omega)
    have second := h.tiles 329 (by decide) (Nat.le_refl 8) (by decide) (by omega)
    have current : (u 329).pipe.current = (u 321).pipe.current.right := by
      rw [first, Pipe.tiles_current, if_neg (by decide)]
    have even := (Pipe.tiles_background ((u 321).scene limit) 321 (u 321).pipe).1
    have stays := (Pipe.tiles_background ((u 321).scene limit) 329 (u 329).pipe).1
    have odd := (Pipe.tiles_background ((u 321).scene limit) 329 (u 329).pipe).2
    rw [if_pos (by decide), ← first] at even
    rw [if_neg (by decide), ← second] at stays odd
    rw [current] at odd
    refine ⟨?_, stays.trans even, odd⟩
    rw [second, Pipe.tiles_current, if_neg (by decide), current]
    rfl
  | succ d lower ih =>
    rw [h.rest (by omega) lower]
    unfold restDot
    split
    · exact ⟨(ih (by omega)).current, (ih (by omega)).near, (ih (by omega)).far⟩
    · exact ih (by omega)

theorem slot_scene (h : Passing line limit 257 last u) (hd : 257 ≤ d ∧ d ≤ last) :
    (atSlot line u d).scene limit = (u 257).scene limit := by
  rw [← h.scene hd, atSlot, handed]
  split <;> rfl

theorem slot_secondary (h : Passing line limit 257 last u) (hd : 257 ≤ d ∧ d ≤ 320 ∧ d ≤ last) :
    (atSlot line u d).evaluation.secondary = (u 257).evaluation.secondary := by
  obtain ⟨first, inside, before⟩ := hd
  induction d, first using Nat.le_induction with
  | base =>
    rw [atSlot, handed, if_pos (by rfl)]
    rfl
  | succ d first ih =>
    have onward : d + 1 ≠ objectFetchStart := by
      simp only [objectFetchStart]
      omega
    rw [← ih (by omega) (by omega), atSlot, handed_of_ne onward, h.slot (by omega) (by omega),
      slotDot_secondary]

/-- The dots of one slot. -/
theorem slot_dots (h : Passing line limit 257 321 u) {j k : Nat} (hj : j < 8) (hk : k < 8) :
    ((atSlot line u (257 + 8 * j + k)).strips, (u (257 + 8 * j + k)).pipe.bus)
      = ((u 257).scene limit).slotDots line (u 257).evaluation.secondary
        (fun k => (u (257 + 8 * j + k)).pipe.current.tileAddress) j k
        ((atSlot line u (257 + 8 * j)).strips, (u (257 + 8 * j)).pipe.bus) := by
  induction k with
  | zero => rfl
  | succ k ih =>
    have onward : 257 + 8 * j + k + 1 ≠ objectFetchStart := by
      simp only [objectFetchStart]
      omega
    -- The last dot of the last slot fetches the extra ones too, so it is left to `slot_fetched`.
    have inside : 257 + 8 * j + k ≠ objectFetchEnd := by
      simp only [objectFetchEnd]
      omega
    have phase : Phase.ofIndex (257 + 8 * j + k - 257) = .ofIndex k :=
      Phase.ofIndex_congr (by omega)
    have slot : objectSlot (257 + 8 * j + k) = j := by
      simp only [objectSlot, objectFetchStart]
      omega
    have fetched : u (257 + 8 * j + k + 1)
        = (atSlot line u (257 + 8 * j + k)).slotDot line (257 + 8 * j + k) limit :=
      h.slot (by omega) (by omega)
    have pipe : (atSlot line u (257 + 8 * j + k)).pipe = (u (257 + 8 * j + k)).pipe :=
      handed_pipe line _ _
    rw [Scene.slotDots, ← ih (by omega), ← Nat.add_assoc, atSlot, handed_of_ne onward, fetched, slotDot,
      phase, slot, h.slot_scene (by omega), h.slot_secondary (by omega), pipe]
    dsimp only
    rw [if_neg inside]

/-- The last dot of a slot completes its strip. -/
theorem slot_fetched (h : Passing line limit 257 321 u) {j : Nat} (hj : j < 8) :
    (u (264 + 8 * j + 1)).strips =
      let strips := ((u 257).scene limit).fetchSlot line (u 257).evaluation.secondary
        (atSlot line u (257 + 8 * j)).strips j
      if j = 7 then ((u 257).scene limit).fetchExtras line (u 257).evaluation.secondary strips
      else strips := by
  have dots := h.slot_dots hj (k := 7) (by decide)
  have last : 257 + 8 * j + 7 = 264 + 8 * j := by omega
  have phase : Phase.ofIndex (264 + 8 * j - 257) = .ofIndex 7 := Phase.ofIndex_congr (by omega)
  have slot : objectSlot (264 + 8 * j) = j := by
    simp only [objectSlot, objectFetchStart]
    omega
  have fetched : u (264 + 8 * j + 1)
      = (atSlot line u (264 + 8 * j)).slotDot line (264 + 8 * j) limit := h.slot (by omega) (by omega)
  have pipe : (atSlot line u (264 + 8 * j)).pipe = (u (264 + 8 * j)).pipe := handed_pipe line _ _
  have done : 264 + 8 * j = objectFetchEnd ↔ j = 7 := by
    simp only [objectFetchEnd]
    omega
  have eight := ((u 257).scene limit).slotDots_eight line (u 257).evaluation.secondary
    (fun k => (u (257 + 8 * j + k)).pipe.current.tileAddress) j
    ((atSlot line u (257 + 8 * j)).strips, (u (257 + 8 * j)).pipe.bus)
  rw [Scene.slotDots, ← dots, last] at eight
  rw [fetched, slotDot, phase, slot, h.slot_scene (by omega), h.slot_secondary (by omega), pipe]
  dsimp only
  rw [eight]
  simp only [done]

theorem slot_strips (h : Passing line limit 257 321 u) {j : Nat} (hj : j < 8) :
    (atSlot line u (257 + 8 * j)).strips
      = ((u 257).scene limit).fetchSlots line (u 257).evaluation.secondary j
        ((u 257).prepare line).strips := by
  induction j with
  | zero =>
    rw [Nat.mul_zero, Nat.add_zero, atSlot, handed, if_pos (by rfl)]
    rfl
  | succ j ih =>
    have onward : 264 + 8 * j + 1 ≠ objectFetchStart := by
      simp only [objectFetchStart]
      omega
    have next : 257 + 8 * (j + 1) = 264 + 8 * j + 1 := by omega
    rw [next, atSlot, handed_of_ne onward, h.slot_fetched (by omega), if_neg (by omega), ih (by omega),
      Scene.fetchSlots_succ]

/-- After the object fetches every object found has its strip. -/
theorem strips (h : Passing line limit 257 321 u) : (u 321).strips
    = ((u 257).scene limit).fetchSlots line (u 257).evaluation.secondary
      (8 + (((u 257).prepare line).strips.pending - 8)) ((u 257).prepare line).strips := by
  have last := h.slot_fetched (j := 7) (by decide)
  rw [h.slot_strips (by decide), ← Scene.fetchSlots_succ, if_pos rfl,
    Scene.fetchExtras_fetchSlots] at last
  exact last

theorem list (h : Passing line limit 257 321 u)
    (few : ((u 257).prepare line).strips.pending ≤ objectCount) :
    (u 321).strips.list = (List.range ((u 257).prepare line).strips.pending).map fun slot =>
      ((u 257).scene limit).stripOf line (Strips.objectIn (u 257).evaluation.secondary slot)
        (slot == 0 && (u 321).strips.zeroInRange) := by
  have empty : ((u 257).prepare line).strips.list = [] := by
    cases line <;> rfl
  rw [h.strips, (Scene.fetchSlots_pending _ _ _ _ _).2, Scene.fetchSlots_list _ _ _ _ empty few]
  congr 2
  omega

end Passing

section Line

variable (line : Line) (limit : SpriteLimit) (w : Works κ)

theorem before_keeps (d : Nat) : (w.before line limit d).settings = w.settings
    ∧ (w.before line limit d).banks = w.banks ∧ (w.before line limit d).cartridge = w.cartridge :=
  (w.before_passing line limit 0 d).keeps ⟨Nat.zero_le d, le_rfl⟩

theorem before_scene (d : Nat) : (w.before line limit d).scene limit = w.scene limit :=
  (w.before_passing line limit 0 d).scene ⟨Nat.zero_le d, le_rfl⟩

theorem before_one : w.before line limit 1 = w := (w.before_passing line limit 0 1).one (by decide)

variable {d : Nat}

theorem before_tile (hd : 1 ≤ d ∧ d ≤ 256 ∨ 321 ≤ d ∧ d ≤ 336) :
    w.before line limit (d + 1) = (w.before line limit d).tileDot line d limit :=
  (w.before_passing line limit d (d + 1)).tile ⟨le_rfl, Nat.lt_succ_self d⟩ hd

theorem before_slot (hd : 257 ≤ d ∧ d ≤ 320) :
    w.before line limit (d + 1) = ((w.before line limit d).handed line d).slotDot line d limit :=
  (w.before_passing line limit d (d + 1)).slot ⟨le_rfl, Nat.lt_succ_self d⟩ hd

theorem before_rest (hd : 337 ≤ d) :
    w.before line limit (d + 1) = (w.before line limit d).restDot d :=
  (w.before_passing line limit d (d + 1)).rest ⟨le_rfl, Nat.lt_succ_self d⟩ hd

variable {a : Scroll.Address}

/-- The last column leads down to the next row. -/
theorem before_rowEnd (h : Pipe.At (w.scene limit) a 0 w.pipe) :
    (w.before line limit 257).pipe.current = (right^[34] a).down := by
  have passing := w.before_passing line limit 0 257
  have last := (passing.group h (g := 31) (by decide) (by decide)).current
  have fetched := passing.tiles 249 (by decide) (Nat.le_refl 8) (by decide) (by decide)
  rw [fetched, Pipe.tiles_current, if_pos (by decide), last, ← Function.iterate_succ_apply' right]

/-- While objects are fetched the position goes back to the left, or to the top. -/
theorem before_rewound (hd : 257 ≤ d ∧ d ≤ 320) : (w.before line limit (d + 1)).pipe.current
    = rewound line d w.settings.pending (w.before line limit d).pipe.current := by
  have settings : ((w.before line limit d).handed line d).settings = w.settings := by
    rw [← (w.before_keeps line limit d).1]
    unfold handed
    split <;> rfl
  rw [w.before_slot line limit hd, slotDot]
  dsimp only
  rw [settings, handed_pipe]

theorem before_current (hd : 258 ≤ d ∧ d ≤ 321) : (w.before line limit d).pipe.current
    = if line = .preRender ∧ 280 < d then w.settings.pending
      else takeHorizontal w.settings.pending (w.before line limit 257).pipe.current := by
  obtain ⟨first, last⟩ := hd
  induction d, first using Nat.le_induction with
  | base =>
    rw [before_rewound line limit w (by decide), rewound, if_pos (by rfl), if_neg (by omega)]
  | succ d first ih =>
    have onward : d ≠ objectFetchStart := by
      simp only [objectFetchStart]
      omega
    rw [before_rewound line limit w (by omega), ih (by omega), rewound, if_neg onward]
    -- The top half comes back over twenty-five dots, each of which leaves the same position.
    by_cases top : line = .preRender ∧ 280 ≤ d
    · rw [if_pos (c := line = .preRender ∧ 280 < d + 1) ⟨top.1, by omega⟩]
      by_cases still : line = .preRender ∧ 280 ≤ d ∧ d ≤ 304
      · rw [if_pos still]
        split
        · rfl
        · exact Scroll.Address.takeVertical_takeHorizontal _ _
      · have below : 280 < d := by
          by_contra above
          exact still ⟨top.1, top.2, by omega⟩
        rw [if_neg still, if_pos ⟨top.1, below⟩]
    · rw [if_neg fun h => top ⟨h.1, h.2.1⟩, if_neg fun h => top ⟨h.1, h.2.le⟩,
        if_neg fun h => top ⟨h.1, Nat.le_of_lt_succ h.2⟩]

/-- The strips of a line stay until it is drawn. -/
theorem before_drawn (hd : d ≤ 257) : (w.before line limit d).strips = w.strips
    ∧ (w.before line limit d).objectAddress = w.objectAddress := by
  induction d with
  | zero => exact ⟨rfl, rfl⟩
  | succ d ih =>
    by_cases first : d = 0
    · rw [first, before_one]
      exact ⟨rfl, rfl⟩
    · obtain ⟨strips, address⟩ := search_keeps line d limit (w.before line limit d)
      obtain ⟨strips', address'⟩ := ih (by omega)
      rw [w.before_tile line limit (by omega)]
      exact ⟨strips.trans strips', address.trans address'⟩

/-- The strips of the line below stay from the end of the object fetches. -/
theorem before_fetched (hd : 321 ≤ d) :
    (w.before line limit d).strips = (w.before line limit 321).strips
      ∧ (w.before line limit d).objectAddress = 0 := by
  induction d, hd using Nat.le_induction with
  | base =>
    rw [w.before_slot line limit (by decide)]
    exact ⟨rfl, rfl⟩
  | succ d hd ih =>
    by_cases tile : d ≤ 336
    · obtain ⟨strips, address⟩ := search_keeps line d limit (w.before line limit d)
      rw [w.before_tile line limit (by omega)]
      exact ⟨strips.trans ih.1, address.trans ih.2⟩
    · rw [w.before_rest line limit (by omega)]
      unfold restDot
      split <;> exact ih

end Line

section Search

variable (y : Fin screenHeight) (limit : SpriteLimit) (w : Works κ)

theorem before_evaluation {d : Nat} (hd : 1 ≤ d ∧ d ≤ 256) :
    (w.before (.visible y) limit (d + 1)).evaluation
      = (w.before (.visible y) limit d).evaluation.onDot ((w.scene limit).inputs y.val)
        w.objectAddress d := by
  have address := (w.before_drawn (.visible y) limit (d := d) (by omega)).2
  rw [← before_scene, ← address, w.before_tile (.visible y) limit (.inl hd)]
  rfl

/-- From the second search dot on, every other dot brings the search nearer to its end. -/
theorem before_within {d : Nat} (hd : 66 ≤ d ∧ d ≤ 256) :
    Evaluation.Within ((w.scene limit).inputs y.val) (w.objectAddress.toNat / 4)
      (objectCount + 3 * limit.perLine - (d - 64) / 2)
      (w.before (.visible y) limit d).evaluation := by
  obtain ⟨first, last⟩ := hd
  induction d, first using Nat.le_induction with
  | base =>
    have started := Evaluation.start_within ((w.scene limit).inputs y.val) w.objectAddress
      (w.before (.visible y) limit 65).evaluation
    rw [w.before_evaluation y limit (by decide)]
    exact Evaluation.Within.next started
  | succ d first ih =>
    -- Only odd dots step the search, so the bound falls by one in two dots.
    have before := ih (by omega)
    have onward : d ≠ 65 := by omega
    rw [w.before_evaluation y limit (by omega), Evaluation.onDot, if_neg (by omega), if_neg (by omega),
      if_neg onward]
    by_cases odd : d % 2 = 1
    · have steps : objectCount + 3 * limit.perLine - (d + 1 - 64) / 2
          = objectCount + 3 * limit.perLine - (d - 64) / 2 - 1 := by omega
      rw [if_pos odd, steps]
      exact before.next
    · have steps : (d + 1 - 64) / 2 = (d - 64) / 2 := by omega
      rw [if_neg odd, if_neg fun h => by omega, steps]
      exact before

/-- The search is done before the object fetches begin. -/
theorem before_done : Evaluation.Done ((w.scene limit).inputs y.val) (w.objectAddress.toNat / 4)
    (w.before (.visible y) limit 257).evaluation := by
  have before := w.before_within y limit (d := 256) (by decide)
  have onward : 256 ≠ 65 := by decide
  rw [w.before_evaluation y limit (by decide), Evaluation.onDot, if_neg (by decide),
    if_neg (by decide), if_neg onward, if_neg (by decide)]
  cases limit with
  | hardware =>
    rw [if_neg fun h => by cases h.2]
    exact before.done
  | unlimited =>
    rw [if_pos ⟨rfl, rfl⟩]
    exact (before.mono (by decide)).steps

end Search

end Works

end PictureUnit
