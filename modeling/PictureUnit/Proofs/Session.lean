import PictureUnit.Machine.Transfer
import PictureUnit.Proofs.Passage
import PictureUnit.Snapshot

/-!
# Sessions

The processor takes turns: by the time of a turn its clock and its memory are what it likes, and
then it asks for one access. Between its turns it opens and closes frames, resets the chip, loads
snapshots, and exchanges what it owns. Whatever it does, an open frame is on time.
-/

set_option autoImplicit false

namespace PictureUnit

inductive Access where
  | read (address : Nat)
  | write (address : Nat) (byte : UInt8)
  | transfer (page : UInt8)
  | catchUp (target : Nat)

/-- An access, and the state of the processor by then. -/
structure Turn where
  cycle : Nat
  memory : Nat → UInt8
  access : Access

namespace Machine

variable {κ : Type}

/-- Gives the processor the clock and the memory of its turn. -/
def meet (t : Turn) (m : Machine κ) : Machine κ :=
  m.withHost fun h => { h with cycle := t.cycle, memory := t.memory }

/-- What no section changes, a stream of chunks leaves true. -/
theorem applyChunks_keeps {P : Machine κ → Prop} (keeps : ∀ m s, P m → P (m.apply s))
    (chunks : List Snapshot.Chunk) {m : Machine κ} (h : P m) : P (m.applyChunks chunks).1 := by
  induction chunks generalizing m with
  | nil => exact h
  | cons chunk rest ih =>
    unfold applyChunks
    split
    · next s _ => exact ih (keeps m s h)
    · exact ih h

theorem applyChunks_inFrame (chunks : List Snapshot.Chunk) (m : Machine κ) :
    (m.applyChunks chunks).1.inFrame = m.inFrame :=
  applyChunks_keeps (P := fun n => n.inFrame = m.inFrame) (fun _ s h => by cases s <;> exact h)
    chunks rfl

theorem load_inFrame {data : List UInt8} {m n : Machine κ} {warnings : List Snapshot.Warning}
    (h : m.load data = .ok (.ok (n, warnings))) : n.inFrame = false := by
  obtain ⟨chunks, -, rfl⟩ := load_eq_restore h
  exact applyChunks_inFrame chunks (m.reset .cold)

theorem withCircuit_onTime (f : Circuit κ → Circuit κ) {m : Machine κ}
    (h : m.inFrame = true → m.OnTime) (hn : (m.withCircuit f).inFrame = true) :
    (m.withCircuit f).OnTime := (h hn).of_eq rfl rfl rfl

variable [Cartridge κ]

/-- What an access returns, if it is a read, and the machine after it. -/
def perform (m : Machine κ) : Access → Option UInt8 × Machine κ
  | .read address => let (value, m) := m.read address; (some value, m)
  | .write address byte => (none, m.write address byte)
  | .transfer page => (none, m.transferPage page)
  | .catchUp target => (none, m.advanceTo target)

def turn (m : Machine κ) (t : Turn) : Option UInt8 × Machine κ := (m.meet t).perform t.access

/-- A turn keeps what every access keeps once the processor has been met. -/
theorem turn_keeps {P : Machine κ → Prop} {m : Machine κ} {t : Turn} (met : P (m.meet t))
    (advanced : ∀ n target, P n → P (n.advanceTo target))
    (read : ∀ n register cycle, P n → P (n.readRegister register cycle).2)
    (driven : ∀ n byte, P n → P (n.setLines byte))
    (written : ∀ n register byte, P n → P (n.writeInto register byte))
    (transferred : ∀ n page, P n → P (n.transferPage page)) : P (m.turn t).2 := by
  unfold turn
  cases t.access with
  | read address => exact driven _ _ (read _ _ _ (advanced _ _ met))
  | write address byte =>
    simp only [perform, write]
    split
    · exact transferred _ byte met
    · exact written _ _ byte met
  | transfer page => exact transferred _ page met
  | catchUp target => exact advanced _ target met

/-- The machine after some turns. -/
def afterTurns (ts : List Turn) (m : Machine κ) : Machine κ := ts.foldl (fun m t => (m.turn t).2) m

theorem afterTurns_cons (t : Turn) (ts : List Turn) (m : Machine κ) :
    m.afterTurns (t :: ts) = (m.turn t).2.afterTurns ts := rfl

/-- A write that lands at `cycle`, without the catch-up. -/
def put (register : Register) (byte : UInt8) (cycle : Nat) (m : Machine κ) : Machine κ :=
  let m := m.setLines byte
  if m.warmingUp && register.heldBackInWarmUp then m else m.writeRegister register byte cycle

theorem put_still (register : Register) (byte : UInt8) (cycle : Nat) (m : Machine κ) :
    m.Still (m.put register byte cycle) := by
  have latched := setLines_still byte m
  unfold put
  dsimp only
  split
  · exact latched
  · exact latched.trans (writeRegister_still _ _ _ _)

theorem writeInto_eq (register : Register) (byte : UInt8) (m : Machine κ) :
    m.writeInto register byte
      = (m.advanceTo (m.landing register)).put register byte (m.landing register) := rfl

theorem put_draws (register : Register) (byte : UInt8) (cycle : Nat) (m : Machine κ) :
    Draws (put register byte cycle) m [] [] := by
  refine Still.draws (put_still register byte cycle m) fun s => ?_
  have same : (m.withScreen s).put register byte cycle
      = if m.warmingUp && register.heldBackInWarmUp then (m.setLines byte).withScreen s
        else ((m.setLines byte).withScreen s).writeRegister register byte cycle := rfl
  rw [same, writeRegister_withScreen, ← apply_ite (withScreen s)]
  rfl

theorem read_draws (address : Nat) (m : Machine κ) :
    ∃ ds l, Draws (fun m => (m.read address).2) m ds l := by
  let reg := Register.ofAddress address
  let look (n : Machine κ) : Machine κ :=
    let (value, n) := n.readRegister reg m.host.cycle
    n.setLines value
  obtain ⟨ds, l, h⟩ := advanceTo_draws m.host.cycle m
  have looked : Draws look (m.advanceTo m.host.cycle) [] [] := by
    refine Still.draws ((readRegister_still reg _ _).trans (setLines_still _ _)) fun s => ?_
    simp only [look, readRegister_withScreen]
    rfl
  have both := h.comp looked
  exact ⟨_, _, both.passes, both.blind⟩

theorem writeInto_draws (register : Register) (byte : UInt8) (m : Machine κ) :
    ∃ ds l, Draws (fun m => m.writeInto register byte) m ds l := by
  obtain ⟨ds, l, h⟩ := advanceTo_draws (m.landing register) m
  have landed := put_draws register byte (m.landing register) (m.advanceTo (m.landing register))
  have both := h.comp landed
  exact ⟨_, _, both.passes, both.blind⟩

theorem moveByte_draws (address : Nat) (m : Machine κ) :
    ∃ ds l, Draws (fun m => m.moveByte address) m ds l := by
  let taken := ((m.stall 1).takeByte address).2.stall 1
  have first : Draws (fun m => ((m.stall 1).takeByte address).2.stall 1) m [] [] :=
    Still.draws (((stall_still 1 m).trans (takeByte_still address _)).trans (stall_still 1 _))
      fun s => rfl
  obtain ⟨ds, l, h⟩ := advanceTo_draws taken.host.cycle taken
  have landed : Draws (landByte (m.host.memory address)) (taken.advanceTo taken.host.cycle) [] [] :=
    Still.draws (landByte_still _ _) fun s => writeObjectData_withScreen s _ (setLines _ _)
  have all := (first.comp h).comp landed
  exact ⟨_, _, all.passes, all.blind⟩

theorem movePage_draws (page : UInt8) (m : Machine κ) :
    ∃ ds l, Draws (movePage page) m ds l := by
  have moved (addresses : List Nat) (m : Machine κ) :
      ∃ ds l, Draws (fun m => addresses.foldl moveByte m) m ds l := by
    induction addresses generalizing m with
    | nil => exact ⟨_, _, .id m⟩
    | cons address rest ih =>
      obtain ⟨ds, l, h⟩ := moveByte_draws address m
      obtain ⟨es, k, h'⟩ := ih (m.moveByte address)
      exact ⟨_, _, h.comp h'⟩
  exact moved _ m

theorem align_draws (m : Machine κ) : ∃ ds l, Draws align m ds l := by
  let waiting := m.stall m.alignment
  have first : Draws (fun n => n.stall m.alignment) m [] [] :=
    Still.draws (stall_still _ m) fun s => rfl
  obtain ⟨ds, l, h⟩ := advanceTo_draws waiting.host.cycle waiting
  have both := first.comp h
  exact ⟨_, _, both.passes, both.blind⟩

theorem transferPage_draws (page : UInt8) (m : Machine κ) :
    ∃ ds l, Draws (transferPage page) m ds l := by
  obtain ⟨ds, l, aligned⟩ := align_draws m
  have quiet (s : Screen) : (m.withScreen s).align.quiet = m.align.quiet := by
    rw [aligned.blind s]
    rfl
  by_cases hq : (page.toNat < plainPages && m.align.quiet) = true
  · have copied : Draws (copyPage page) m.align [] [] :=
      Still.draws (copyPage_still page _) fun s => copyPage_withScreen s page _
    have both := aligned.comp copied
    have chosen : m.transferPage page = m.align.copyPage page := if_pos hq
    refine ⟨_, _, chosen ▸ both.passes, fun s => ?_⟩
    rw [chosen, ← both.blind s]
    exact if_pos (by rw [quiet, hq])
  · obtain ⟨es, k, h'⟩ := movePage_draws page m.align
    have both := aligned.comp h'
    have chosen : m.transferPage page = m.align.movePage page := if_neg hq
    refine ⟨_, _, chosen ▸ both.passes, fun s => ?_⟩
    rw [chosen, ← both.blind s]
    exact if_neg (by
      rw [quiet]
      exact hq)

/-- Every access is a passage. -/
theorem perform_draws (a : Access) (m : Machine κ) :
    ∃ ds l, Draws (fun m => (m.perform a).2) m ds l := by
  cases a with
  | read address => exact read_draws address m
  | write address byte =>
    simp only [perform, write]
    split
    · exact transferPage_draws byte m
    · exact writeInto_draws _ byte m
  | transfer page => exact transferPage_draws page m
  | catchUp target => exact advanceTo_draws target m

theorem meet_still (t : Turn) (m : Machine κ) : m.Still (m.meet t) := withHost_still _ m

theorem turn_draws (t : Turn) (m : Machine κ) :
    ∃ ds l, Draws (fun m => (m.turn t).2) m ds l := by
  obtain ⟨ds, l, h⟩ := perform_draws t.access (m.meet t)
  have met : Draws (meet t) m [] [] := Still.draws (meet_still t m) fun _ => rfl
  exact ⟨_, _, met.comp h⟩

theorem afterTurns_draws (ts : List Turn) (m : Machine κ) :
    ∃ ds l, Draws (afterTurns ts) m ds l := by
  induction ts generalizing m with
  | nil => exact ⟨_, _, .id m⟩
  | cons t rest ih =>
    obtain ⟨ds, l, h⟩ := turn_draws t m
    obtain ⟨es, k, h'⟩ := ih (m.turn t).2
    exact ⟨_, _, h.comp h'⟩

/-- One thing that the processor can do. -/
inductive Moves : Machine κ → Machine κ → Prop where
  | turn (m : Machine κ) (t : Turn) : Moves m (m.turn t).2
  | opened {m n : Machine κ} (h : m.beginFrame = .ok n) : Moves m n
  | closed {m n : Machine κ} (h : m.endFrame = .ok n) : Moves m n
  | reset (m : Machine κ) (kind : ResetKind) : Moves m (m.reset kind)
  | loaded {m n : Machine κ} {data : List UInt8} {warnings : List Snapshot.Warning}
      (h : m.load data = .ok (.ok (n, warnings))) : Moves m n
  | swapped {m n : Machine κ} {given taken : Screen}
      (h : m.swapScreen given = .ok (taken, n)) : Moves m n
  | mapped (m : Machine κ) (map : Option ColorMap) : Moves m (m.setColorMap map)
  | banked (m : Machine κ) (change : Banks → Banks) :
      Moves m (m.withCircuit fun c => { c with banks := change c.banks })
  | inserted (m : Machine κ) (cartridge : κ) :
      Moves m (m.withCircuit fun c => { c with cartridge := cartridge })

/-- A state that a session comes to. -/
inductive Reachable : Machine κ → Prop where
  | new (config : Config) (banks : Banks) (cartridge : κ) (host : Host) :
      Reachable (.new config banks cartridge host)
  | move {m n : Machine κ} (h : Reachable m) (step : m.Moves n) : Reachable n

theorem Reachable.turn {m : Machine κ} (h : m.Reachable) (t : Turn) : (m.turn t).2.Reachable :=
  h.move (.turn m t)

theorem Reachable.afterTurns {m : Machine κ} (h : m.Reachable) (ts : List Turn) :
    (m.afterTurns ts).Reachable := by
  induction ts generalizing m with
  | nil => exact h
  | cons t rest ih => exact ih (h.turn t)

/-- Only the opening of a frame starts one, and everything in it keeps it on time. -/
theorem Moves.onTime {m n : Machine κ} (h : m.Moves n)
    (hm : m.inFrame = true → m.OnTime) : n.inFrame = true → n.OnTime := by
  intro hn
  cases h with
  | turn t =>
    obtain ⟨ds, l, h⟩ := turn_draws t m
    have inFrame : (m.turn t).2.inFrame = m.inFrame := congrArg Ledger.inFrame h.passes.ledger
    exact h.passes.onTime (hm (inFrame ▸ hn))
  | opened h =>
    rw [eq_of_beginFrame h]
    exact openFrame_onTime m
  | closed h =>
    rw [(eq_of_endFrame h).2] at hn
    cases hn
  | reset kind => cases kind <;> cases hn
  | loaded h =>
    rw [load_inFrame h] at hn
    cases hn
  | swapped h =>
    obtain ⟨-, rfl⟩ := eq_of_swapScreen h
    exact withCircuit_onTime _ hm hn
  | mapped | banked | inserted => exact withCircuit_onTime _ hm hn

theorem Reachable.onTime {m : Machine κ} (h : m.Reachable) : m.inFrame = true → m.OnTime := by
  induction h with
  | new config banks cartridge host => exact fun h => by cases h
  | move _ step ih => exact step.onTime ih

end Machine

end PictureUnit
