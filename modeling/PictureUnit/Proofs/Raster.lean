import Mathlib.Data.List.FinRange
import PictureUnit.Clock
import PictureUnit.Fetch

/-!
# The raster

A frame passes its lines from the pre-render line down, and every line from its first dot to
its last. The dots that lie ahead of a position are the dot at that position and those ahead of
the next one, so a clock that ticks until the blank passes every dot of the raster once, and in
this order.
-/

set_option autoImplicit false

namespace PictureUnit

/-- The lines of a frame from top to bottom. -/
def Line.all : List Line := .preRender :: (List.finRange screenHeight).map .visible

/-- How many lines of the frame come before this one. -/
def Line.index : Line → Nat
  | .preRender => 0
  | .visible y => y.val + 1

theorem index_eq_number (line : Line) : (line.index : Int) = line.number + 1 := by
  cases line with
  | preRender => rfl
  | visible y => simp [Line.index, Line.number]

theorem getElem?_index (line : Line) : Line.all[line.index]? = some line := by
  cases line with
  | preRender => rfl
  | visible y => simp [Line.all, Line.index]

theorem index_inj {line below : Line} (h : line.index = below.index) : line = below := by
  have own := getElem?_index line
  rw [h, getElem?_index below] at own
  exact (Option.some.inj own).symm

/-- The line below is the one after it in the frame. -/
theorem next_eq_getElem? (line : Line) : line.next = Line.all[line.index + 1]? := by
  cases line with
  | preRender => rfl
  | visible y =>
    by_cases h : y.val + 1 < screenHeight
    · simp [Line.next, Line.all, Line.index, h]
    · simp [Line.next, Line.all, Line.index, h]

theorem index_of_next {line below : Line} (h : line.next = some below) :
    below.index = line.index + 1 := by
  cases line with
  | preRender =>
    cases h
    rfl
  | visible y =>
    simp only [Line.next, Option.dite_none_right_eq_some, Option.some.injEq] at h
    obtain ⟨_, rfl⟩ := h
    rfl

theorem index_lt (line : Line) : line.index < 241 := by
  cases line with
  | preRender => decide
  | visible y =>
    have : y.val < 240 := y.isLt
    simp only [Line.index]
    omega

theorem index_of_next_none {line : Line} (h : line.next = none) : line.index = 240 := by
  have := index_lt line
  rw [next_eq_getElem?, List.getElem?_eq_none_iff] at h
  simp only [Line.all, List.length_cons, List.length_map, List.length_finRange, screenHeight] at h
  omega

theorem Position.le_lastDot (short : Bool) (line : Line) : 339 ≤ Position.lastDot short line := by
  cases line <;> cases short <;> simp [Position.lastDot, dotsPerLine]

/-- Before the length of the line matters, its dots follow one another. -/
theorem Position.next_inside {line : Line} {dot : Nat} (hd : dot < 339) (short : Bool) :
    (Position.raster line dot).next short = .raster line (dot + 1) := by
  have long := Position.le_lastDot short line
  rw [Position.next, if_pos (by omega)]

/-- A dot is followed by the next one of its line, or by the first one of another line. -/
def Position.Follows (line : Line) (dot : Nat) (p : Position) : Prop :=
  ∀ l d, p = .raster l d → d = 0 ∨ l = line ∧ d = dot + 1

theorem next_follows (short : Bool) (line : Line) (dot : Nat) :
    ((Position.raster line dot).next short).Follows line dot := by
  intro l d h
  rw [Position.next] at h
  split at h
  · cases h
    exact .inr ⟨rfl, rfl⟩
  · split at h
    · cases h
      exact .inl rfl
    · cases h

/-- The dots of a line from left to right. -/
def lineDots (short : Bool) (line : Line) : List (Line × Nat) :=
  (List.range (Position.lastDot short line + 1)).map (line, ·)

/-- All dots of a frame. -/
def raster (short : Bool) : List (Line × Nat) := Line.all.flatMap (lineDots short)

/-- The dots from a position to the end of the raster. -/
def Position.ahead (short : Bool) : Position → List (Line × Nat)
  | .blank => []
  | .raster line dot =>
    (List.range' dot (lastDot short line + 1 - dot)).map (line, ·)
      ++ (Line.all.drop (line.index + 1)).flatMap (lineDots short)

theorem ahead_start (short : Bool) : Position.start.ahead short = raster short := by
  simp [Position.start, Position.ahead, raster, Line.all, Line.index, lineDots, List.range_eq_range']

theorem ahead_line (short : Bool) (line : Line) :
    (Position.raster line 0).ahead short = (Line.all.drop line.index).flatMap (lineDots short) := by
  obtain ⟨h, hl⟩ := List.getElem?_eq_some_iff.mp (getElem?_index line)
  rw [List.drop_eq_getElem_cons h, hl]
  simp [Position.ahead, lineDots, List.range_eq_range']

/-- The dot at a position comes before those ahead of the next position. -/
theorem ahead_eq_cons (short : Bool) (line : Line) (dot : Nat)
    (h : dot ≤ Position.lastDot short line) :
    (Position.raster line dot).ahead short
      = (line, dot) :: ((Position.raster line dot).next short).ahead short := by
  by_cases hd : dot < Position.lastDot short line
  · have count : Position.lastDot short line + 1 - dot
        = (Position.lastDot short line + 1 - (dot + 1)) + 1 := by omega
    simp only [Position.next, hd, if_true, Position.ahead, count, List.range'_succ, List.map_cons,
      List.cons_append]
  · have last : Position.lastDot short line + 1 - dot = 1 := by omega
    have dots : (Position.raster line dot).ahead short
        = (line, dot) :: (Line.all.drop (line.index + 1)).flatMap (lineDots short) := by
      simp [Position.ahead, last]
    rw [dots, Position.next, if_neg hd]
    cases hn : line.next with
    | none =>
      have : Line.all.length ≤ line.index + 1 := by
        rwa [next_eq_getElem?, List.getElem?_eq_none_iff] at hn
      simp [Position.ahead, List.drop_eq_nil_of_le this]
    | some below => simp only [ahead_line, index_of_next hn]

end PictureUnit
