import PictureUnit.Proofs.Reload

/-!
# The story of a machine

Cold resets and loads apart, whatever the processor does comes down to dots, and to soft resets and
small things between two dots. A story keeps the moment of every dot: the machine before it, and its
place in the raster. What a dot, a soft reset and each of the small things keep, a story keeps. A
chronicle is the story of a machine since it was switched on, across all resets and loads.
-/

set_option autoImplicit false

namespace PictureUnit

/-- A dot, and the machine that is about to execute it. -/
structure Moment (κ : Type) where
  before : Machine κ
  line : Line
  dot : Nat

def Moment.place {κ : Type} (moment : Moment κ) : Line × Nat := (moment.line, moment.dot)

def Moment.after {κ : Type} [Cartridge κ] (moment : Moment κ) : Machine κ :=
  moment.before.step moment.line moment.dot

namespace Machine

variable {κ : Type} [Cartridge κ]

/-- What happens between two dots. -/
inductive Between : Machine κ → Machine κ → Prop where
  | blank {m : Machine κ} (target : Nat) (h : m.clock.position = .blank) : Between m (m.passBlank target)
  | served (m : Machine κ) (f : Host → Host) : Between m (m.withHost f)
  | latched (m : Machine κ) (byte : UInt8) : Between m (m.setLines byte)
  | looked (m : Machine κ) (register : Register) (cycle : Nat) :
      Between m (m.readRegister register cycle).2
  | written (m : Machine κ) (register : Register) (byte : UInt8) (cycle : Nat) :
      Between m (m.writeRegister register byte cycle)
  | opened {m n : Machine κ} (h : m.beginFrame = .ok n) : Between m n
  | closed {m : Machine κ} (h : m.clock.position = .blank) : Between m m.closeFrame
  | swapped (m : Machine κ) (screen : Screen) :
      Between m (m.withCircuit fun c => { c with screen := screen })
  | mapped (m : Machine κ) (map : Option ColorMap) : Between m (m.setColorMap map)
  | banked (m : Machine κ) (change : Banks → Banks) :
      Between m (m.withCircuit fun c => { c with banks := change c.banks })
  | inserted (m : Machine κ) (cartridge : κ) :
      Between m (m.withCircuit fun c => { c with cartridge := cartridge })

/-- These dots, the latest first, and nothing but small things and soft resets between them. -/
inductive Story (m : Machine κ) : List (Moment κ) → Machine κ → Prop where
  | refl : Story m [] m
  | dot {past : List (Moment κ)} {n : Machine κ} {line : Line} {dot : Nat} (h : Story m past n)
      (standing : n.clock.position = .raster line dot) :
      Story m (⟨n, line, dot⟩ :: past) (n.step line dot)
  | between {past : List (Moment κ)} {n p : Machine κ} (h : Story m past n) (small : n.Between p) :
      Story m past p
  | softened {past : List (Moment κ)} {n : Machine κ} (h : Story m past n) :
      Story m past (n.reset .soft)

variable {m n p : Machine κ} {past recent : List (Moment κ)}

theorem Story.trans (h : Story m past n) (h' : Story n recent p) : Story m (recent ++ past) p := by
  induction h' with
  | refl => exact h
  | dot _ standing ih => exact ih.dot standing
  | between _ small ih => exact ih.between small
  | softened _ ih => exact ih.softened

/-- What every dot, every small thing and every soft reset keeps, a story keeps. -/
theorem Story.keeps {P : Machine κ → Prop} (story : Story m past n)
    (stepped : ∀ m line dot, m.clock.position = .raster line dot → P m → P (m.step line dot))
    (small : ∀ m n, m.Between n → P m → P n) (softened : ∀ m : Machine κ, P m → P (m.reset .soft))
    (h : P m) : P n := by
  induction story with
  | refl => exact h
  | dot _ standing ih => exact stepped _ _ _ standing ih
  | between _ b ih => exact small _ _ b ih
  | softened _ ih => exact softened _ ih

/-! The dots of an access, in their order. -/

/-- The moments of catching up. -/
def trailTo (target : Nat) (m : Machine κ) : List (Moment κ) :=
  if m.clock.count < target then
    match m.clock.position with
    | .blank => []
    | .raster line dot => ⟨m, line, dot⟩ :: trailTo target (m.step line dot)
  else []
termination_by target - m.clock.count
decreasing_by
  have := step_count line dot m
  have := m.config.region.dot_pos
  simp only [timing, Config.timing] at *
  omega

/-- The machine that waits for a byte of a transfer to land. -/
def awaiting (m : Machine κ) (address : Nat) : Machine κ := ((m.stall 1).takeByte address).2.stall 1

/-- The moments of moving bytes one by one. -/
def trailOfBytes : List Nat → Machine κ → List (Moment κ)
  | [], _ => []
  | address :: rest, m =>
    (m.awaiting address).trailTo (m.awaiting address).host.cycle
      ++ trailOfBytes rest (m.moveByte address)

def trailOfPage (page : UInt8) (m : Machine κ) : List (Moment κ) :=
  (m.stall m.alignment).trailTo (m.stall m.alignment).host.cycle
    ++ if page.toNat < plainPages && m.align.quiet then []
      else trailOfBytes (pageAddresses page) m.align

def trailOfAccess (m : Machine κ) : Access → List (Moment κ)
  | .read _ => m.trailTo m.host.cycle
  | .write address byte =>
    if address = transferAddress then m.trailOfPage byte
    else m.trailTo (m.landing (.ofAddress address))
  | .transfer page => m.trailOfPage page
  | .catchUp target => m.trailTo target

theorem trailTo_of_le {target : Nat} (h : target ≤ m.clock.count) : m.trailTo target = [] := by
  rw [trailTo, if_neg (Nat.not_lt.mpr h)]

theorem trailTo_blank {target : Nat} (hp : m.clock.position = .blank) : m.trailTo target = [] := by
  rw [trailTo, hp]
  split <;> rfl

theorem trailTo_raster {target : Nat} {line : Line} {dot : Nat} (hp : m.clock.position = .raster line dot)
    (hc : m.clock.count < target) :
    m.trailTo target = ⟨m, line, dot⟩ :: (m.step line dot).trailTo target := by
  rw [trailTo, if_pos hc, hp]

/-- What is told of the dots so far and of the machine now. Every dot adds to it, and nothing else that
an access comes down to changes it. -/
structure Telling (R : List (Moment κ) → Machine κ → Prop) : Prop where
  dot : ∀ {past n line dot}, R past n → n.clock.position = .raster line dot →
    R (⟨n, line, dot⟩ :: past) (n.step line dot)
  blank : ∀ {past n} (target : Nat), R past n → n.clock.position = .blank → R past (n.passBlank target)
  served : ∀ {past n} (f : Host → Host), R past n → R past (n.withHost f)
  latched : ∀ {past n} (byte : UInt8), R past n → R past (n.setLines byte)
  looked : ∀ {past n} (register : Register) (cycle : Nat), R past n →
    R past (n.readRegister register cycle).2
  written : ∀ {past n} (register : Register) (byte : UInt8) (cycle : Nat), R past n →
    R past (n.writeRegister register byte cycle)

namespace Telling

variable {R : List (Moment κ) → Machine κ → Prop}

/-- The dots of a trail are told after those before. -/
theorem advanceTo (telling : Telling R) (h : R past n) (target : Nat) :
    R ((n.trailTo target).reverse ++ past) (n.advanceTo target) := by
  fun_induction Machine.advanceTo target n generalizing past with
  | case1 n _ blank =>
    rw [trailTo_blank blank]
    exact telling.blank target h blank
  | case2 n hc line dot standing ih =>
    rw [trailTo_raster standing hc, List.reverse_cons, List.append_assoc]
    exact ih (telling.dot h standing)
  | case3 n hc =>
    rw [trailTo_of_le (Nat.not_lt.mp hc)]
    exact h

theorem landByte (telling : Telling R) (h : R past n) (byte : UInt8) : R past (n.landByte byte) :=
  telling.written .objectData byte 0 (telling.latched byte h)

theorem stall (telling : Telling R) (h : R past n) (cycles : Nat) : R past (n.stall cycles) :=
  telling.served _ h

theorem takeByte (telling : Telling R) (h : R past n) (address : Nat) : R past (n.takeByte address).2 :=
  telling.served (fun host => (host.transfer address).2) h

theorem moveBytes (telling : Telling R) (h : R past n) (addresses : List Nat) :
    R ((trailOfBytes addresses n).reverse ++ past) (addresses.foldl moveByte n) := by
  induction addresses generalizing past n with
  | nil => exact h
  | cons address rest ih =>
    have waiting : R past (n.awaiting address) :=
      telling.stall (telling.takeByte (telling.stall h 1) address) 1
    rw [trailOfBytes, List.reverse_append, List.append_assoc]
    exact ih (telling.landByte (telling.advanceTo waiting _) _)

theorem transferPage (telling : Telling R) (h : R past n) (page : UInt8) :
    R ((n.trailOfPage page).reverse ++ past) (n.transferPage page) := by
  have aligned := telling.advanceTo (telling.stall h n.alignment) (n.stall n.alignment).host.cycle
  rw [trailOfPage, List.reverse_append, List.append_assoc]
  unfold Machine.transferPage
  dsimp only
  split
  · exact copyPage_keeps (P := R _)
      (fun q address hq => telling.landByte (telling.takeByte hq address) _)
      (fun q cycles hq => telling.stall hq cycles) aligned page
  · exact telling.moveBytes aligned (pageAddresses page)

theorem put (telling : Telling R) (h : R past n) (register : Register) (byte : UInt8) (cycle : Nat) :
    R past (n.put register byte cycle) := by
  have latched := telling.latched byte h
  unfold Machine.put
  dsimp only
  split
  · exact latched
  · exact telling.written register byte cycle latched

theorem perform (telling : Telling R) (h : R past n) (access : Access) :
    R ((n.trailOfAccess access).reverse ++ past) (n.perform access).2 := by
  cases access with
  | read address =>
    exact telling.latched _ (telling.looked _ _ (telling.advanceTo h n.host.cycle))
  | write address byte =>
    simp only [trailOfAccess, Machine.perform, Machine.write]
    split
    · exact telling.transferPage h byte
    · exact telling.put (telling.advanceTo h (n.landing (.ofAddress address))) _ byte _
  | transfer page => exact telling.transferPage h page
  | catchUp target => exact telling.advanceTo h target

theorem turn (telling : Telling R) (h : R past n) (t : Turn) :
    R (((n.meet t).trailOfAccess t.access).reverse ++ past) (n.turn t).2 :=
  telling.perform (telling.served _ h) t.access

end Telling

theorem story_telling (m : Machine κ) : Telling (Story m) where
  dot h standing := h.dot standing
  blank target h standing := h.between (.blank target standing)
  served f h := h.between (.served _ f)
  latched byte h := h.between (.latched _ byte)
  looked register cycle h := h.between (.looked _ register cycle)
  written register byte cycle h := h.between (.written _ register byte cycle)

/-- The dots of a trail follow on those of a story. -/
theorem Story.advanceTo (h : Story m past n) (target : Nat) :
    Story m ((n.trailTo target).reverse ++ past) (n.advanceTo target) :=
  (story_telling m).advanceTo h target

theorem Story.turn (h : Story m past n) (t : Turn) :
    Story m (((n.meet t).trailOfAccess t.access).reverse ++ past) (n.turn t).2 :=
  (story_telling m).turn h t

/-- A story of some dots leads from one machine to the other. -/
def Leads (m n : Machine κ) : Prop := ∃ past, Story m past n

theorem Leads.between (h : m.Leads n) (small : n.Between p) : m.Leads p := by
  obtain ⟨past, story⟩ := h
  exact ⟨past, story.between small⟩

/-- A session goes on by stories, cold resets and loads. -/
theorem Moves.leads (step : m.Moves n) (hm : m.inFrame = true → m.OnTime) :
    m.Leads n ∨ n = m.reset .cold
      ∨ ∃ data warnings, m.load data = .ok (.ok (n, warnings)) := by
  have here : m.Leads m := ⟨[], .refl⟩
  cases step with
  | turn t => exact .inl ⟨_, Story.refl.turn t⟩
  | opened h => exact .inl (here.between (.opened h))
  | closed h =>
    obtain ⟨open_, rfl⟩ := eq_of_endFrame h
    have blank := (advanceTo_frameEnd (hm open_)).1
    exact .inl ⟨_, (Story.refl.advanceTo _).between (.closed blank)⟩
  | reset kind =>
    cases kind with
    | cold => exact .inr (.inl rfl)
    | soft => exact .inl ⟨[], .softened .refl⟩
  | loaded h => exact .inr (.inr ⟨_, _, h⟩)
  | swapped h =>
    obtain ⟨-, rfl⟩ := eq_of_swapScreen h
    exact .inl (here.between (.swapped m _))
  | mapped map => exact .inl (here.between (.mapped m map))
  | banked change => exact .inl (here.between (.banked m change))
  | inserted cartridge => exact .inl (here.between (.inserted m cartridge))

/-- Where a story begins: a machine just switched on, reset cold, or loaded. -/
inductive Origin : Machine κ → Prop where
  | new (config : Config) (banks : Banks) (cartridge : κ) (host : Host) :
      Origin (.new config banks cartridge host)
  | cold {m : Machine κ} (h : m.Reachable) : Origin (m.reset .cold)
  | loaded {m n : Machine κ} {data : List UInt8} {warnings : List Snapshot.Warning}
      (h : m.Reachable) (hl : m.load data = .ok (.ok (n, warnings))) : Origin n

/-- One story leads to every state of a session. -/
theorem Reachable.story (h : m.Reachable) : ∃ origin past, Origin origin ∧ Story origin past m := by
  induction h with
  | new config banks cartridge host => exact ⟨_, [], .new config banks cartridge host, .refl⟩
  | move hm step ih =>
    obtain ⟨origin, past, first, told⟩ := ih
    obtain ⟨recent, story⟩ | rfl | ⟨data, warnings, loaded⟩ := step.leads hm.onTime
    · exact ⟨origin, _, first, told.trans story⟩
    · exact ⟨_, [], .cold hm, .refl⟩
    · exact ⟨_, [], .loaded hm loaded, .refl⟩

/-- Only the opening of a frame moves the raster between two dots. -/
theorem Between.position (small : m.Between n) :
    n = m.openFrame ∨ n.clock.position = m.clock.position := by
  cases small with
  | opened h => exact .inl (eq_of_beginFrame h)
  | blank target => exact .inr (passBlank_position target m)
  | looked register cycle =>
    exact .inr (congrArg Clock.position (readRegister_still register cycle m).clock)
  | written register byte cycle =>
    exact .inr (congrArg Clock.position (writeRegister_still register byte cycle m).clock)
  | served | latched | closed | swapped | mapped | banked | inserted => exact .inr rfl

omit [Cartridge κ] in
theorem OnTime.withCircuit (h : m.OnTime) (f : Circuit κ → Circuit κ) : (m.withCircuit f).OnTime :=
  h.of_eq rfl rfl rfl

theorem Between.onTime (small : m.Between n) (h : m.clock.position ≠ .blank → m.OnTime)
    (hn : n.clock.position ≠ .blank) : n.OnTime := by
  obtain rfl | same := small.position
  · exact openFrame_onTime m
  have onTime : m.OnTime := h (same ▸ hn)
  cases small with
  | opened ho =>
    rw [eq_of_beginFrame ho]
    exact openFrame_onTime m
  | blank target standing => exact absurd (same.trans standing) hn
  | closed standing => exact absurd (same.trans standing) hn
  | looked register cycle => exact (readRegister_still register cycle m).onTime onTime
  | written register byte cycle => exact (writeRegister_still register byte cycle m).onTime onTime
  | mapped | banked | inserted | swapped | latched => exact onTime.withCircuit _
  | served => exact onTime.of_eq rfl rfl rfl

/-- What happens between two dots reaches no pipeline. -/
theorem Between.pipelines (small : m.Between n) : n.circuit.strips = m.circuit.strips
    ∧ n.circuit.evaluation = m.circuit.evaluation := by
  cases small with
  | opened h =>
    rw [eq_of_beginFrame h, openFrame_circuit]
    exact ⟨rfl, rfl⟩
  | blank target =>
    rw [passBlank_circuit]
    split <;> exact ⟨rfl, rfl⟩
  | looked register cycle =>
    have still := (readRegister_still register cycle m).circuit
    exact ⟨still.strips, still.evaluation⟩
  | written register byte cycle =>
    have still := (writeRegister_still register byte cycle m).circuit
    exact ⟨still.strips, still.evaluation⟩
  | mapped map => simp only [setColorMap, withCircuit, and_self]
  | served | latched | closed | swapped | banked | inserted => exact ⟨rfl, rfl⟩

theorem Between.config (small : m.Between n) : n.config = m.config := by
  cases small with
  | opened h =>
    rw [eq_of_beginFrame h]
    exact openFrame_config m
  | blank target => exact passBlank_config target m
  | looked register cycle =>
    exact congrArg Ledger.config (readRegister_still register cycle m).ledger
  | written register byte cycle =>
    exact congrArg Ledger.config (writeRegister_still register byte cycle m).ledger
  | mapped map => simp only [setColorMap, withCircuit]
  | served | latched | closed | swapped | banked | inserted => rfl

/-- All dots of a machine since it was switched on, the latest first. -/
inductive Chronicle : List (Moment κ) → Machine κ → Prop where
  | new (config : Config) (banks : Banks) (cartridge : κ) (host : Host) :
      Chronicle [] (.new config banks cartridge host)
  | dot {past : List (Moment κ)} {m : Machine κ} {line : Line} {dot : Nat} (h : Chronicle past m)
      (standing : m.clock.position = .raster line dot) :
      Chronicle (⟨m, line, dot⟩ :: past) (m.step line dot)
  | between {past : List (Moment κ)} {m n : Machine κ} (h : Chronicle past m) (small : m.Between n) :
      Chronicle past n
  | reset {past : List (Moment κ)} {m : Machine κ} (h : Chronicle past m) (kind : ResetKind) :
      Chronicle past (m.reset kind)
  | loaded {past : List (Moment κ)} {m n : Machine κ} {data : List UInt8}
      {warnings : List Snapshot.Warning} (h : Chronicle past m)
      (hl : m.load data = .ok (.ok (n, warnings))) : Chronicle past n

theorem Chronicle.append (h : Chronicle past m) (story : Story m recent n) :
    Chronicle (recent ++ past) n := by
  induction story with
  | refl => exact h
  | dot _ standing ih => exact ih.dot standing
  | between _ small ih => exact ih.between small
  | softened _ ih => exact ih.reset .soft

/-- Every state of a session has its chronicle. -/
theorem Reachable.chronicle (h : m.Reachable) : ∃ past, Chronicle past m := by
  induction h with
  | new config banks cartridge host => exact ⟨[], .new config banks cartridge host⟩
  | move hm step ih =>
    obtain ⟨past, told⟩ := ih
    obtain ⟨recent, story⟩ | rfl | ⟨data, warnings, loaded⟩ := step.leads hm.onTime
    · exact ⟨_, told.append story⟩
    · exact ⟨past, told.reset .cold⟩
    · exact ⟨past, told.loaded loaded⟩

/-- On the raster every machine of a chronicle is on time. -/
theorem Chronicle.onTime (h : Chronicle past m) : m.clock.position ≠ .blank → m.OnTime := by
  induction h with
  | new config banks cartridge host => exact fun off => absurd rfl off
  | dot _ standing ih =>
    intro _
    exact step_onTime (ih (by rw [standing]; exact Position.noConfusion)) standing
  | between _ small ih => exact small.onTime ih
  | reset _ kind =>
    intro off
    cases kind <;> exact absurd rfl off
  | loaded _ hl =>
    intro off
    obtain ⟨chunks, -, rfl⟩ := load_eq_restore hl
    exact absurd (restore_waiting chunks _).blank off

end Machine

end PictureUnit
