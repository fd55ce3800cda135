import PictureUnit.Circuit.Rendering
import PictureUnit.Proofs.Scene
import PictureUnit.Proofs.Search

/-!
# The strips of a line

Eight dots fetch the strip of one slot; what is fetched past the eighth slot at once comes out the
same. So the list holds one strip for each object that the search has found, in the order in which
they were found, and a column shows the first of them that is not transparent.
-/

set_option autoImplicit false

namespace PictureUnit

namespace Scene

/-- What the fetch of a slot does to the strips. -/
def fetchSlot (s : Scene) (line : Line) (secondary : Block 256) (strips : Strips) (slot : Nat) :
    Strips :=
  let strips := strips.select slot secondary
  let address := strips.object.lowAddress line s.control
  (strips.latchLow (s.pattern address)).commit slot (s.pattern (highPlane address))

/-- The strip of an object. -/
def stripOf (s : Scene) (line : Line) (o : Object) (zero : Bool) : Strip where
  x := o.x.toNat
  palette := o.palette
  row := ⟨s.pattern (o.lowAddress line s.control), s.pattern (highPlane (o.lowAddress line s.control))⟩
  flipped := o.flippedAcross
  behind := o.behind
  zero := zero

/-- One dot of an object fetch, on the strips and the bus; `tile` is what the bus shows in between. -/
def slotDot (s : Scene) (line : Line) (secondary : Block 256) (tile slot : Nat) (phase : Phase)
    (p : Strips × Nat) : Strips × Nat :=
  match phase with
  | .openName => (p.1.select slot secondary, tile)
  | .openAttributes => (p.1, tile)
  | .name | .attributes => p
  | .openLow => (p.1, p.1.object.lowAddress line s.control)
  | .low => (p.1.latchLow (s.pattern p.2), p.2)
  | .openHigh => (p.1, highPlane p.2)
  | .high => (p.1.commit slot (s.pattern p.2), p.2)

def slotDots (s : Scene) (line : Line) (secondary : Block 256) (tile : Nat → Nat) (slot : Nat) :
    Nat → Strips × Nat → Strips × Nat
  | 0, p => p
  | k + 1, p =>
    s.slotDot line secondary (tile k) slot (.ofIndex k) (slotDots s line secondary tile slot k p)

theorem slotDots_eight (s : Scene) (line : Line) (secondary : Block 256) (tile : Nat → Nat)
    (slot : Nat) (p : Strips × Nat) :
    (s.slotDots line secondary tile slot 8 p).1 = s.fetchSlot line secondary p.1 slot := rfl

variable (s : Scene) (line : Line) (secondary : Block 256)

theorem fetchSlot_pending (strips : Strips) (slot : Nat) :
    (s.fetchSlot line secondary strips slot).pending = strips.pending
      ∧ (s.fetchSlot line secondary strips slot).zeroInRange = strips.zeroInRange := by
  unfold fetchSlot Strips.commit
  dsimp only
  split <;> exact ⟨rfl, rfl⟩

theorem fetchSlot_list {strips : Strips} {slot : Nat} (hs : slot < strips.pending)
    (hl : strips.list.length < objectCount) :
    (s.fetchSlot line secondary strips slot).list = strips.list
      ++ [s.stripOf line (Strips.objectIn secondary slot) (slot == 0 && strips.zeroInRange)] := by
  have selected : (strips.select slot secondary).object = Strips.objectIn secondary slot := if_pos hs
  have room : slot < ((strips.select slot secondary).latchLow (s.pattern
      ((strips.select slot secondary).object.lowAddress line s.control))).pending
      ∧ ((strips.select slot secondary).latchLow (s.pattern
      ((strips.select slot secondary).object.lowAddress line s.control))).list.length
        < objectCount := ⟨hs, hl⟩
  unfold fetchSlot
  dsimp only
  rw [Strips.commit, if_pos room]
  simp only [Strips.latchLow, Strips.strip, selected, stripOf]
  rfl

theorem fetchSlot_list_of_le {strips : Strips} {slot : Nat} (hs : strips.pending ≤ slot) :
    (s.fetchSlot line secondary strips slot).list = strips.list := by
  unfold fetchSlot
  dsimp only
  rw [Strips.commit_of_pending_le]
  · rfl
  · exact hs

/-- The first slots, one after the other. -/
def fetchSlots (n : Nat) (strips : Strips) : Strips :=
  (List.range n).foldl (s.fetchSlot line secondary) strips

theorem fetchSlots_succ (n : Nat) (strips : Strips) :
    s.fetchSlots line secondary (n + 1) strips
      = s.fetchSlot line secondary (s.fetchSlots line secondary n strips) n := by
  rw [fetchSlots, List.range_succ, List.foldl_append]
  rfl

theorem fetchSlots_pending (n : Nat) (strips : Strips) :
    (s.fetchSlots line secondary n strips).pending = strips.pending
      ∧ (s.fetchSlots line secondary n strips).zeroInRange = strips.zeroInRange := by
  induction n with
  | zero => exact ⟨rfl, rfl⟩
  | succ n ih =>
    rw [fetchSlots_succ]
    obtain ⟨pending, zero⟩ := s.fetchSlot_pending line secondary (s.fetchSlots line secondary n strips) n
    exact ⟨pending.trans ih.1, zero.trans ih.2⟩

/-- The slots past the eighth, all at once. -/
def fetchExtras (strips : Strips) : Strips :=
  let first := SpriteLimit.hardware.perLine
  (List.range' first (strips.pending - first)).foldl (s.fetchSlot line secondary) strips

theorem fetchExtras_fetchSlots (strips : Strips) :
    s.fetchExtras line secondary (s.fetchSlots line secondary 8 strips)
      = s.fetchSlots line secondary (8 + (strips.pending - 8)) strips := by
  have slots : List.range (8 + (strips.pending - 8))
      = List.range 8 ++ List.range' 8 (strips.pending - 8) := by
    rw [List.range_eq_range', List.range_eq_range', ← List.range'_append]
  rw [fetchExtras, (s.fetchSlots_pending line secondary 8 strips).1]
  unfold fetchSlots
  rw [slots, List.foldl_append]
  rfl

/-- Every pending slot adds its strip, in order. -/
theorem fetchSlots_list (n : Nat) {strips : Strips} (hn : strips.list = [])
    (hp : strips.pending ≤ objectCount) :
    (s.fetchSlots line secondary n strips).list = (List.range (min n strips.pending)).map fun slot =>
      s.stripOf line (Strips.objectIn secondary slot) (slot == 0 && strips.zeroInRange) := by
  induction n with
  | zero =>
    rw [Nat.zero_min]
    exact hn
  | succ n ih =>
    obtain ⟨pending, zero⟩ := s.fetchSlots_pending line secondary n strips
    rw [fetchSlots_succ]
    by_cases h : n < strips.pending
    · have length : (s.fetchSlots line secondary n strips).list.length < objectCount := by
        rw [ih, List.length_map, List.length_range]
        omega
      have this : min n strips.pending = n := by omega
      have next : min (n + 1) strips.pending = n + 1 := by omega
      rw [s.fetchSlot_list line secondary (by omega) length, ih, zero, this, next, List.range_succ,
        List.map_append]
      rfl
    · have same : min (n + 1) strips.pending = min n strips.pending := by omega
      rw [s.fetchSlot_list_of_le line secondary (by omega), ih, same]

end Scene

theorem Object.row_of_inRange {o : Object} {y : Fin screenHeight} {height : Nat}
    (hh : height = 8 ∨ height = 16) (h : inRange y.val height o.y = true) :
    o.row (.visible y) height
      = if o.flippedDown then height - 1 - (y.val - o.y.toNat) else y.val - o.y.toNat := by
  rw [inRange_iff] at h
  have down : (y.val + 256 - o.y.toNat) % height = y.val - o.y.toNat := by
    rcases hh with rfl | rfl <;> omega
  simp only [Object.row, Line.byte, down]

namespace Scene

theorem patternTable_eq (second : Bool) :
    Control.patternTable second = 0 ∨ Control.patternTable second = 0x1000 := by
  cases second
  · exact .inl rfl
  · exact .inr rfl

/-- The rows of an object in range lie where its pattern does. -/
theorem lowAddress_of_inRange (s : Scene) {o : Object} {y : Fin screenHeight}
    (h : inRange y.val s.control.objectHeight o.y = true) :
    let down := y.val - o.y.toNat
    let row := if o.flippedDown then s.control.objectHeight - 1 - down else down
    o.lowAddress (.visible y) s.control = s.objectRow o row
      ∧ highPlane (s.objectRow o row) = s.objectRow o row + 8 := by
  intro down row
  have height := s.control.objectHeight_eq
  have inside : row < s.control.objectHeight := by
    rw [inRange_iff] at h
    unfold row down
    split <;> omega
  have shown : o.row (.visible y) s.control.objectHeight = row := Object.row_of_inRange height h
  rw [Object.lowAddress, shown]
  unfold objectRow
  rcases height with hh | hh
  · have table := patternTable_eq (s.control.bits.toNat.testBit 3)
    have short : row % 8 = row := Nat.mod_eq_of_lt (by omega)
    rw [if_neg (by omega), if_neg (by omega), short]
    refine ⟨rfl, if_pos ?_⟩
    rw [Control.objectTable]
    omega
  · have table := patternTable_eq (o.tile.toNat.testBit 0)
    rw [if_pos hh, if_pos hh]
    refine ⟨rfl, if_pos ?_⟩
    omega

/-- The strip of an object in range shows the object's dots. -/
theorem pixelOf_stripOf (s : Scene) {y : Fin screenHeight} {k : Nat} (x : Nat) (zero : Bool)
    (h : inRange y.val s.control.objectHeight (s.object k).y = true) :
    (Strips.pixelOf x (s.stripOf (.visible y) (s.object k) zero)).map (fun p => (p.value, p.behind))
      = s.objectDot? x (y.val + 1) k := by
  obtain ⟨low, high⟩ := s.lowAddress_of_inRange h
  rw [stripOf, low, high]
  unfold objectDot?
  dsimp only
  rw [Nat.add_sub_cancel]
  generalize s.objectRow (s.object k) _ = address
  generalize s.object k = o
  by_cases hx : o.x.toNat ≤ x ∧ x < o.x.toNat + 8
  · by_cases hc : (s.patternRow address).color
        (if o.flippedAcross then 7 - (x - o.x.toNat) else x - o.x.toNat) = 0
    · rw [if_neg fun h => h.2.2 hc, Strips.pixelOf, Strip.at?, if_pos hx, Strip.pixel]
      simp only [patternRow] at hc
      simp [hc]
    · rw [if_pos ⟨hx.1, hx.2, hc⟩, Strips.pixelOf, Strip.at?, if_pos hx, Strip.pixel]
      simp only [patternRow] at hc ⊢
      simp [hc]
  · rw [if_neg fun h => hx ⟨h.1, h.2.1⟩, Strips.pixelOf, Strip.at?, if_neg hx]
    rfl

/-- What the search on line `y` is about. -/
def inputs (s : Scene) (y : Nat) : Evaluation.Inputs :=
  ⟨s.objects, y, s.control.objectHeight, s.limit⟩

theorem shown_succ (s : Scene) (y : Nat) : (s.inputs y).shown 0 = s.shown (y + 1) := by
  rw [Evaluation.Inputs.shown, Evaluation.Inputs.covering, ← List.range_eq_range']
  rfl

theorem inRange_of_mem {s : Scene} {y k : Nat} (h : k ∈ s.shown (y + 1)) :
    inRange y s.control.objectHeight (s.object k).y = true :=
  (List.mem_filter.mp (List.mem_of_mem_take h)).2

/-- A slot of the secondary memory holds the object that was copied there. -/
theorem objectIn_of_copied {i : Evaluation.Inputs} {e : Evaluation} {shown : List Nat}
    (h : Evaluation.Copied i e shown) {slot k : Nat} (hk : shown[slot]? = some k) :
    Strips.objectIn e.secondary slot = Strips.objectIn i.memory k := by
  have bytes := h slot k hk
  rw [Strips.objectIn, bytes 1 (by decide), bytes 2 (by decide), bytes 3 (by decide)]
  exact congrArg (Object.mk · _ _ _) (bytes 0 (by decide))

/-- The strips that the search and the fetches leave for the line below `y`. -/
def Strung (s : Scene) (y : Nat) (strips : Strips) : Prop :=
  ∀ x, (strips.pixel? x).map (fun p => (p.value, p.behind))
    = (s.shown y).findSome? (s.objectDot? x y)

theorem strung_zero {s : Scene} {strips : Strips} (h : strips.list = []) : s.Strung 0 strips := by
  intro x
  rw [Strips.pixel?, h]
  rfl

theorem strung_succ {s : Scene} {y : Fin screenHeight} {e : Evaluation} {strips : Strips}
    (h : Evaluation.Done (s.inputs y.val) 0 e)
    (hl : strips.list = (List.range e.found).map fun slot =>
      s.stripOf (.visible y) (Strips.objectIn e.secondary slot) (slot == 0 && strips.zeroInRange)) :
    s.Strung (y.val + 1) strips := by
  intro x
  have found := h.found
  have copied := h.copied
  rw [shown_succ] at found copied
  have covers (k : Nat) (hk : k ∈ s.shown (y.val + 1)) := inRange_of_mem hk
  generalize s.shown (y.val + 1) = shown at found copied covers
  have same : strips.list.map (fun strip => (Strips.pixelOf x strip).map fun p => (p.value, p.behind))
      = shown.map (s.objectDot? x (y.val + 1)) := by
    rw [hl, List.map_map, found]
    apply List.ext_getElem
    · simp
    · intro slot h₁ h₂
      have inside : slot < shown.length := by simpa using h₂
      have object : Strips.objectIn e.secondary slot = s.object shown[slot] :=
        objectIn_of_copied copied (List.getElem?_eq_getElem inside)
      simp only [List.getElem_map, List.getElem_range, Function.comp, object]
      exact s.pixelOf_stripOf x _ (covers _ (List.getElem_mem inside))
  have first := congrArg (List.findSome? id) same
  rw [List.findSome?_map, List.findSome?_map] at first
  rw [Strips.pixel?, List.map_findSome?]
  exact first

end Scene

end PictureUnit
