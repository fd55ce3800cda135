import PictureUnit.Proofs.Trail

/-!
# Sessions as lists of deeds

A session is one deed after another: the processor acts, resets the chip or loads a snapshot, and what
the machine was given is exchanged. A deed that is a misuse changes nothing, nor does a load of what is
no snapshot, so every list of deeds can be done to every machine. The states of a session are the ones
that such lists come to.
-/

set_option autoImplicit false

namespace PictureUnit

inductive Deed (κ : Type) where
  | act (a : Act)
  | reset (kind : ResetKind)
  | load (data : List UInt8)
  | swap (given : Screen)
  | recolor (map : Option ColorMap)
  | bank (change : Banks → Banks)
  | insert (cartridge : κ)

/-- A deed that reaches no register and no colour; the dots of a frame that is closed reach none either. -/
def Deed.Outside {κ : Type} : Deed κ → Prop
  | .act .opening | .act .closing | .swap _ | .bank _ | .insert _ => True
  | .act (.turn _) | .reset _ | .load _ | .recolor _ => False

namespace Machine

variable {κ : Type} [Cartridge κ]

def deed (m : Machine κ) : Deed κ → Machine κ
  | .act a => m.act a
  | .reset kind => m.reset kind
  | .load data =>
    match m.load data with
    | .ok (.ok (n, _)) => n
    | .ok (.error _) | .error _ => m
  | .swap given =>
    match m.swapScreen given with
    | .ok (_, n) => n
    | .error _ => m
  | .recolor map => m.setColorMap map
  | .bank change => m.withCircuit fun c => { c with banks := change c.banks }
  | .insert cartridge => m.withCircuit fun c => { c with cartridge := cartridge }

/-- The machine after some deeds. -/
def afterDeeds (ds : List (Deed κ)) (m : Machine κ) : Machine κ := ds.foldl deed m

variable {m n : Machine κ}

theorem afterDeeds_append (first rest : List (Deed κ)) (m : Machine κ) :
    m.afterDeeds (first ++ rest) = (m.afterDeeds first).afterDeeds rest := List.foldl_append

theorem afterDeeds_take_succ {ds : List (Deed κ)} {i : Nat} {d : Deed κ} (h : ds[i]? = some d) :
    m.afterDeeds (ds.take (i + 1)) = (m.afterDeeds (ds.take i)).deed d := by
  rw [List.take_add_one, h, afterDeeds_append]
  rfl

theorem Reachable.deed (h : m.Reachable) (d : Deed κ) : (m.deed d).Reachable := by
  cases d with
  | act a => exact h.act a
  | reset kind => exact h.move (.reset m kind)
  | load data =>
    unfold Machine.deed
    dsimp only
    split
    · next loaded => exact h.move (.loaded loaded)
    · exact h
    · exact h
  | swap given =>
    unfold Machine.deed
    dsimp only
    split
    · next swapped => exact h.move (.swapped swapped)
    · exact h
  | recolor map => exact h.move (.mapped m map)
  | bank change => exact h.move (.banked m change)
  | insert cartridge => exact h.move (.inserted m cartridge)

theorem Reachable.afterDeeds (h : m.Reachable) (ds : List (Deed κ)) : (m.afterDeeds ds).Reachable := by
  induction ds generalizing m with
  | nil => exact h
  | cons d rest ih => exact ih (h.deed d)

/-- Whatever the processor does is a deed. -/
theorem Moves.exists_deed (step : m.Moves n) : ∃ d, n = m.deed d := by
  cases step with
  | turn t => exact ⟨.act (.turn t), rfl⟩
  | opened h =>
    refine ⟨.act .opening, ?_⟩
    rw [deed, act, h]
    rfl
  | closed h =>
    refine ⟨.act .closing, ?_⟩
    rw [deed, act, h]
    rfl
  | reset kind => exact ⟨.reset kind, rfl⟩
  | @loaded _ data _ h =>
    refine ⟨.load data, ?_⟩
    rw [deed, h]
  | @swapped _ given _ h =>
    refine ⟨.swap given, ?_⟩
    rw [deed, h]
  | mapped map => exact ⟨.recolor map, rfl⟩
  | banked change => exact ⟨.bank change, rfl⟩
  | inserted cartridge => exact ⟨.insert cartridge, rfl⟩

/-- The states of a session are those that lists of deeds come to. -/
theorem reachable_iff : m.Reachable ↔ ∃ config banks cartridge host ds,
    m = (new config banks cartridge host).afterDeeds ds := by
  constructor
  · intro h
    induction h with
    | new config banks cartridge host => exact ⟨config, banks, cartridge, host, [], rfl⟩
    | move _ step ih =>
      obtain ⟨config, banks, cartridge, host, ds, rfl⟩ := ih
      obtain ⟨d, rfl⟩ := step.exists_deed
      exact ⟨config, banks, cartridge, host, ds ++ [d], (afterDeeds_append ds [d] _).symm⟩
  · intro ⟨config, banks, cartridge, host, ds, same⟩
    rw [same]
    exact (Reachable.new config banks cartridge host).afterDeeds ds

/-- An opening is a misuse, or it opens the frame. -/
theorem act_opening (m : Machine κ) : m.act .opening = m ∨ m.act .opening = m.openFrame := by
  unfold act beginFrame
  dsimp only
  split
  · exact .inr rfl
  · exact .inl rfl

theorem act_closing (m : Machine κ) : m.act .closing = m
    ∨ m.act .closing = (m.advanceTo m.clock.frameEnd).closeFrame := by
  unfold act endFrame
  dsimp only
  split
  · exact .inr rfl
  · exact .inl rfl

/-- What is told of the dots goes on through an act, if the ends of a frame do not change it. -/
theorem Telling.act {R : List (Moment κ) → Machine κ → Prop} (telling : Telling R)
    (opened : ∀ past n, R past n → R past n.openFrame) (closed : ∀ past n, R past n → R past n.closeFrame)
    {past : List (Moment κ)} (h : R past m) (a : Act) :
    R ((m.trailOfAct a).reverse ++ past) (m.act a) := by
  cases a with
  | opening =>
    obtain same | opening := m.act_opening
    · rwa [same]
    · rw [opening]
      exact opened past m h
  | closing =>
    unfold trailOfAct Machine.act endFrame
    dsimp only
    split
    · exact closed _ _ (telling.advanceTo h m.clock.frameEnd)
    · exact h
  | turn t => exact telling.turn h t

/-- What every dot, everything between two dots, and the ends of a frame keep, an act keeps. -/
theorem act_keeps {P : Machine κ → Prop} (telling : Telling fun (_ : List (Moment κ)) n => P n)
    (opened : ∀ n, P n → P n.openFrame) (closed : ∀ n, P n → P n.closeFrame) (h : P m) (a : Act) :
    P (m.act a) :=
  @Telling.act κ _ m _ telling (fun _ => opened) (fun _ => closed) [] h a

/-- A screen is refused, or it is taken. -/
theorem deed_swap (m : Machine κ) (given : Screen) : m.deed (.swap given) = m
    ∨ m.deed (.swap given) = m.withScreen given := by
  unfold deed swapScreen
  dsimp only
  split
  · next swapped =>
    split at swapped
    · cases swapped
    · cases swapped
      exact .inr rfl
  · exact .inl rfl

/-- A stream is refused, or its chunks are restored. -/
theorem deed_load (m : Machine κ) (data : List UInt8) : m.deed (.load data) = m
    ∨ ∃ chunks, m.deed (.load data) = (m.restore chunks).1 := by
  unfold deed
  dsimp only
  split
  · next loaded =>
    obtain ⟨chunks, -, same⟩ := load_eq_restore loaded
    exact .inr ⟨chunks, same⟩
  · exact .inl rfl
  · exact .inl rfl

/-- What turns, resets, loads and colour maps do not do, no deed does. -/
theorem deed_settings {d : Deed κ} (h : d.Outside) : (m.deed d).circuit.settings = m.circuit.settings := by
  cases d with
  | act a =>
    cases a with
    | opening =>
      obtain same | opened := m.act_opening
      · exact congrArg (·.circuit.settings) same
      · rw [deed, opened, openFrame_circuit]
    | closing =>
      obtain same | closed := m.act_closing
      · exact congrArg (·.circuit.settings) same
      · rw [deed, closed]
        exact advanceTo_settings _ m
    | turn t => exact h.elim
  | swap given =>
    obtain same | taken := m.deed_swap given
    · rw [same]
    · rw [taken]
      rfl
  | bank | insert => rfl
  | reset | load | recolor => exact h.elim

end Machine

end PictureUnit
