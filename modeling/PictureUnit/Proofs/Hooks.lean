import PictureUnit.Proofs.Passage

/-!
# What a cartridge hears of the lines

A cartridge is told of a line twice, at its first dot and when its object fetches begin. Neither an
access nor any other dot tells it of a line.
-/

set_option autoImplicit false

namespace PictureUnit

/-- A call that tells of a line. -/
inductive LineHook where
  | active (line : Line)
  | blank (line : Line)
  deriving DecidableEq, Repr

def Cartridge.Call.hook? : Cartridge.Call → Option LineHook
  | .activeStart line _ => some (.active line)
  | .blankStart line _ => some (.blank line)
  | .observe _ _ | .readPattern _ _ | .writePattern _ _ | .readName _ _ | .writeName _ _ => none

/-- The calls that told of lines, latest first. -/
def Recorded.hooks {κ : Type} (r : Recorded κ) : List LineHook :=
  r.calls.filterMap Cartridge.Call.hook?

/-- Whether each call of a dot is that of the line's start. -/
def startsAt (dot : Nat) : List Bool :=
  if dot = 0 then [true] else if dot = objectFetchStart then [false] else []

def LineHook.of (line : Line) (start : Bool) : LineHook := if start then .active line else .blank line

/-- The calls of a dot. -/
def hooksAt (line : Line) (dot : Nat) : List LineHook := (startsAt dot).map (.of line)

theorem hooks_line (short : Bool) (line : Line) :
    (lineDots short line).flatMap (fun d => hooksAt d.1 d.2) = [.active line, .blank line] := by
  have twice : (List.range (Position.lastDot short line + 1)).flatMap startsAt = [true, false] := by
    cases line with
    | preRender => cases short <;> decide +kernel
    | visible => exact (by decide +kernel : (List.range dotsPerLine).flatMap startsAt = [true, false])
  have calls := congrArg (List.map (LineHook.of line)) twice
  rw [List.map_flatMap] at calls
  rw [lineDots, List.flatMap_map]
  exact calls

/-- A raster tells of every line, from top to bottom. -/
theorem hooks_raster (short : Bool) : (raster short).flatMap (fun d => hooksAt d.1 d.2)
    = Line.all.flatMap fun line => [.active line, .blank line] := by
  rw [raster, List.flatMap_assoc]
  exact List.flatMap_congr fun line _ => hooks_line short line

/-- Whoever serves hears of no line. -/
theorem Cartridge.Served.hooks {κ : Type} [Cartridge κ] {k l : Recorded κ} (h : Served k l) :
    l.hooks = k.hooks := by
  induction h with
  | refl => rfl
  | observe _ _ _ ih | readPattern _ _ ih | writePattern _ _ _ ih | readName _ _ ih
  | writeName _ _ _ ih => exact ih

namespace Circuit

variable {κ : Type}

theorem clearFlags_cartridge (line : Line) (dot : Nat) (c : Circuit κ) :
    (c.clearFlags line dot).cartridge = c.cartridge := by
  unfold clearFlags
  split <;> rfl

theorem drawDot_cartridge (line : Line) (dot : Nat) (c : Circuit κ) :
    (c.drawDot line dot).cartridge = c.cartridge := by
  unfold drawDot drawPixel drawRendered
  split
  · rfl
  · split
    · dsimp only
      split
      · split <;> rfl
      · rfl
    · rfl

theorem concludeSearch_cartridge (result : Evaluation × Bool) (c : Circuit κ) :
    (c.concludeSearch result).cartridge = c.cartridge := by
  unfold concludeSearch
  dsimp only
  split <;> rfl

theorem evaluate_cartridge (y dot : Nat) (limit : SpriteLimit) (c : Circuit κ) :
    (c.evaluate y dot limit).cartridge = c.cartridge := by
  unfold evaluate searchStep searchToEnd
  split
  · rfl
  split
  · rfl
  dsimp only
  split
  · rw [concludeSearch_cartridge]
    split <;> rfl
  split
  · rw [concludeSearch_cartridge]
    split <;> rfl
  · split <;> rfl

theorem rewindAddress_cartridge (line : Line) (dot : Nat) (c : Circuit κ) :
    (c.rewindAddress line dot).cartridge = c.cartridge := by
  unfold rewindAddress
  split
  · rfl
  · split <;> rfl

theorem clearObjectAddress_cartridge (dot : Nat) (c : Circuit κ) :
    (c.clearObjectAddress dot).cartridge = c.cartridge := by
  unfold clearObjectAddress
  split <;> rfl

variable [Cartridge κ]

open Cartridge (Served)

theorem fetchTile_served (phase : Phase) (dot cycle : Nat) (c : Circuit κ) :
    Served c.cartridge (c.fetchTile phase dot cycle).cartridge := by
  cases phase with
  | openName | openAttributes | openLow | openHigh => exact .observe _ _ (.refl _)
  | name | attributes => exact (readName_still c.bus c).served
  | low | high => exact (readPattern_still c.bus c).served

theorem fetchObject_served (line : Line) (slot : Nat) (phase : Phase) (cycle : Nat)
    (c : Circuit κ) : Served c.cartridge (c.fetchObject line slot phase cycle).cartridge := by
  cases phase with
  | openName | openAttributes | openLow | openHigh => exact .observe _ _ (.refl _)
  | name | attributes => exact (readName_still c.bus c).served
  | low | high => exact (readPattern_still c.bus c).served

theorem fetchExtra_served (line : Line) (slot : Nat) (c : Circuit κ) :
    Served c.cartridge (c.fetchExtra line slot).cartridge := by
  let d : Circuit κ := { c with strips := c.strips.select slot c.evaluation.secondary }
  let address := d.strips.object.lowAddress line d.registers.control
  have low := (readPattern_still address d).served
  exact low.trans (readPattern_still (highPlane address) (d.readPattern address).2).served

theorem fetchExtras_served (line : Line) (c : Circuit κ) :
    Served c.cartridge (c.fetchExtras line).cartridge := by
  have fetched (slots : List Nat) (c : Circuit κ) :
      Served c.cartridge (slots.foldl (fetchExtra line) c).cartridge := by
    induction slots generalizing c with
    | nil => exact .refl _
    | cons slot rest ih => exact (fetchExtra_served line slot c).trans (ih _)
  exact fetched _ c

theorem fetch_served (line : Line) (dot cycle : Nat) (c : Circuit κ) :
    Served c.cartridge (c.fetch line dot cycle).cartridge := by
  unfold fetch
  split
  · exact .refl _
  · exact fetchTile_served _ _ _ c
  · dsimp only [latchSlot]
    split
    · exact (fetchObject_served _ _ _ _ c).trans (fetchExtras_served _ _)
    · exact fetchObject_served _ _ _ _ c
  · exact .observe _ _ (.refl _)
  · exact (readName_still _ c).served

theorem render_served (line : Line) (dot cycle : Nat) (limit : SpriteLimit) (c : Circuit κ) :
    Served c.cartridge (c.render line dot cycle limit).cartridge := by
  have searched (d : Circuit κ) (h : d.cartridge = c.cartridge) :
      Served c.cartridge
        ((if dot = objectFetchStart then d.prepareStrips line else d).fetch line dot cycle).cartridge := by
    have same : (if dot = objectFetchStart then d.prepareStrips line else d).cartridge
        = c.cartridge := by
      split <;> exact h
    rw [← same]
    exact fetch_served _ _ _ _
  unfold render
  rw [clearObjectAddress_cartridge, rewindAddress_cartridge]
  cases line with
  | preRender => exact searched c rfl
  | visible y => exact searched _ (evaluate_cartridge _ _ _ c)

theorem dot_hooks (line : Line) (dot cycle : Nat) (limit : SpriteLimit) (c : Circuit (Recorded κ)) :
    (c.dot line dot cycle limit).cartridge.hooks
      = (hooksAt line dot).reverse ++ c.cartridge.hooks := by
  have drawn : ((c.clearFlags line dot).drawDot line dot).cartridge = c.cartridge := by
    rw [drawDot_cartridge, clearFlags_cartridge]
  have rendered (d : Circuit (Recorded κ)) (h : d.cartridge = c.cartridge) :
      (if d.registers.mask.rendering then d.render line dot cycle limit else d).cartridge.hooks
        = c.cartridge.hooks := by
    split
    · rw [(render_served line dot cycle limit d).hooks, h]
    · rw [h]
  unfold Circuit.dot
  split
  · next hd =>
    subst hd
    rfl
  · next hd =>
    dsimp only
    split
    · next hb =>
      rw [hooksAt, startsAt, if_neg hd, if_pos hb]
      exact congrArg (LineHook.blank line :: ·) (rendered _ drawn)
    · next hb =>
      rw [hooksAt, startsAt, if_neg hd, if_neg hb]
      exact rendered _ drawn

end Circuit

namespace Machine

variable {κ : Type} [Cartridge κ] {ds : List (Line × Nat)} {l : List Ink}

theorem Passes.hooks {m n : Machine (Recorded κ)} (h : Passes ds l m n) :
    n.circuit.cartridge.hooks
      = (ds.flatMap fun d => hooksAt d.1 d.2).reverse ++ m.circuit.cartridge.hooks := by
  induction h with
  | refl => rfl
  | still hs _ ih => rw [ih, hs.circuit.served.hooks]
  | blank target _ _ ih => rw [ih, passBlank_cartridge]
  | dot _ _ ih =>
    rw [ih, step_circuit, Circuit.dot_hooks, List.flatMap_cons, List.reverse_append,
      List.append_assoc]

end Machine

end PictureUnit
