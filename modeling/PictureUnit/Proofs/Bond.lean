import PictureUnit.Proofs.SideBySide
import PictureUnit.Proofs.Trail

/-!
# Two machines under one script

A bond relates two machines, and the moments of all dots that the second one has executed so far. It holds
them side by side; it is kept by a dot that both execute, as long as the moments are fair, and by all that
happens to both between two dots. So a script keeps it.
-/

set_option autoImplicit false

namespace PictureUnit

open Cartridge (Coupling)

namespace Machine

variable {κ : Type} [Cartridge κ]

structure Bond (Q : List (Moment κ) → κ → κ → Prop) (Fair : List (Moment κ) → Prop)
    (R : List (Moment κ) → Machine κ → Machine κ → Prop) : Prop where
  coupling (xs : List (Moment κ)) : Coupling (Q xs)
  /-- What was fair at last was fair all along. -/
  left {xs ys : List (Moment κ)} (fair : Fair (xs ++ ys)) : Fair xs
  beside {xs : List (Moment κ)} {m n : Machine κ} (h : R xs m n) : m.Beside (Q xs) n
  step {xs : List (Moment κ)} {m n : Machine κ} {line : Line} {dot : Nat} (h : R xs m n)
    (place : m.clock.position = .raster line dot) (fair : Fair (xs ++ [⟨n, line, dot⟩])) :
    R (xs ++ [⟨n, line, dot⟩]) (m.step line dot) (n.step line dot)
  between {xs : List (Moment κ)} {m n m' n' : Machine κ} (h : R xs m n) (own : m.Between m')
    (other : n.Between n') (beside : m'.Beside (Q xs) n') : R xs m' n'
  closed {xs : List (Moment κ)} {m n : Machine κ} (h : R xs m n) : R xs m.closeFrame n.closeFrame

theorem moveByte_eq (address : Nat) (m : Machine κ) : m.moveByte address
    = ((m.awaiting address).advanceTo (m.awaiting address).host.cycle).landByte (m.host.memory address) :=
  rfl

namespace Bond

variable {Q : List (Moment κ) → κ → κ → Prop} {Fair : List (Moment κ) → Prop}
  {R : List (Moment κ) → Machine κ → Machine κ → Prop} {xs : List (Moment κ)} {m n : Machine κ}

/-! What happens between two dots. -/

theorem meet (b : Bond Q Fair R) (h : R xs m n) (t : Turn) : R xs (m.meet t) (n.meet t) :=
  b.between h (.served m _) (.served n _) ((b.beside h).withHost _)

theorem stall (b : Bond Q Fair R) (h : R xs m n) (cycles : Nat) : R xs (m.stall cycles) (n.stall cycles) :=
  b.between h (.served m _) (.served n _) ((b.beside h).stall cycles)

theorem takeByte (b : Bond Q Fair R) (h : R xs m n) (address : Nat) :
    R xs (m.takeByte address).2 (n.takeByte address).2 :=
  b.between h (.served m fun host => (host.transfer address).2)
    (.served n fun host => (host.transfer address).2) ((b.beside h).takeByte address).2

theorem setLines (b : Bond Q Fair R) (h : R xs m n) (byte byte' : UInt8) :
    R xs (m.setLines byte) (n.setLines byte') :=
  b.between h (.latched m byte) (.latched n byte') ((b.beside h).setLines byte byte')

theorem writeRegister (b : Bond Q Fair R) (h : R xs m n) (register : Register) (byte : UInt8)
    (cycle : Nat) : R xs (m.writeRegister register byte cycle) (n.writeRegister register byte cycle) :=
  b.between h (.written m register byte cycle) (.written n register byte cycle)
    ((b.beside h).writeRegister (b.coupling xs) register byte cycle)

theorem landByte (b : Bond Q Fair R) (h : R xs m n) (byte : UInt8) :
    R xs (m.landByte byte) (n.landByte byte) :=
  b.writeRegister (b.setLines h byte byte) .objectData byte 0

theorem copyPage (b : Bond Q Fair R) (h : R xs m n) (page : UInt8) :
    R xs (m.copyPage page) (n.copyPage page) := by
  have copied (addresses : List Nat) {m n : Machine κ} (h : R xs m n) :
      R xs (addresses.foldl Machine.copyByte m) (addresses.foldl Machine.copyByte n) := by
    induction addresses generalizing m n with
    | nil => exact h
    | cons address rest ih =>
      have byte := ((b.beside h).takeByte address).1
      have landed := b.landByte (b.takeByte h address) (m.takeByte address).1
      apply ih
      unfold Machine.copyByte
      dsimp only
      rw [byte]
      exact landed
  exact b.stall (copied _ h) _

theorem put (b : Bond Q Fair R) (h : R xs m n) (register : Register) (byte : UInt8) (cycle : Nat) :
    R xs (m.put register byte cycle) (n.put register byte cycle) := by
  have latched := b.setLines h byte byte
  have warming : (n.setLines byte).warmingUp = (m.setLines byte).warmingUp := by
    obtain ⟨u, rfl, -⟩ := b.beside h
    rfl
  unfold Machine.put
  dsimp only
  rw [warming]
  split
  · exact latched
  · exact b.writeRegister latched register byte cycle

theorem opening (b : Bond Q Fair R) (h : R xs m n) : R xs (m.act .opening) (n.act .opening) := by
  have beside := b.beside h
  unfold Machine.act
  cases own : m.beginFrame with
  | error e =>
    have other : n.beginFrame.toOption = none := by
      unfold beginFrame at own ⊢
      rw [beside.inFrame, beside.clock]
      split at own
      · cases own
      · rw [if_neg (by assumption)]
        rfl
    rw [other]
    exact h
  | ok o =>
    have other : n.beginFrame = .ok n.openFrame := by
      unfold beginFrame at own ⊢
      rw [beside.inFrame, beside.clock]
      split at own
      · rw [if_pos (by assumption)]
      · cases own
    rw [other]
    obtain rfl := eq_of_beginFrame own
    exact b.between h (.opened own) (.opened other) beside.openFrame

/-! What executes dots. -/

theorem advanceTo (b : Bond Q Fair R) (h : R xs m n) {target : Nat}
    (fair : Fair (xs ++ n.trailTo target)) :
    R (xs ++ n.trailTo target) (m.advanceTo target) (n.advanceTo target) := by
  fun_induction Machine.advanceTo target m generalizing xs n with
  | case1 m hc hp =>
    have clock := (b.beside h).clock
    rw [trailTo_blank (clock ▸ hp), List.append_nil, advanceTo_blank target n (clock ▸ hp) (clock ▸ hc)]
    exact b.between h (.blank target hp) (.blank target (clock ▸ hp)) ((b.beside h).passBlank target)
  | case2 m hc line dot hp ih =>
    have clock := (b.beside h).clock
    rw [trailTo_raster (clock ▸ hp) (clock ▸ hc), List.append_cons] at fair ⊢
    rw [advanceTo_raster target n line dot (clock ▸ hp) (clock ▸ hc)]
    exact ih (b.step h hp (b.left fair)) fair
  | case3 m hc =>
    have late := Nat.not_lt.mp ((b.beside h).clock ▸ hc)
    rw [trailTo_of_le late, List.append_nil, advanceTo_of_le target n late]
    exact h

theorem moveByte (b : Bond Q Fair R) (h : R xs m n) (address : Nat)
    (fair : Fair (xs ++ (n.awaiting address).trailTo (n.awaiting address).host.cycle)) :
    R (xs ++ (n.awaiting address).trailTo (n.awaiting address).host.cycle)
      (m.moveByte address) (n.moveByte address) := by
  have waiting : R xs (m.awaiting address) (n.awaiting address) :=
    b.stall (b.takeByte (b.stall h 1) address) 1
  have moved := b.advanceTo waiting fair
  rw [moveByte_eq, moveByte_eq, (b.beside h).host]
  rw [(b.beside waiting).host] at moved ⊢
  exact b.landByte moved _

theorem moveBytes (b : Bond Q Fair R) (h : R xs m n) (addresses : List Nat)
    (fair : Fair (xs ++ trailOfBytes addresses n)) :
    R (xs ++ trailOfBytes addresses n) (addresses.foldl Machine.moveByte m)
      (addresses.foldl Machine.moveByte n) := by
  induction addresses generalizing xs m n with
  | nil =>
    rw [trailOfBytes, List.append_nil]
    exact h
  | cons address rest ih =>
    rw [trailOfBytes, ← List.append_assoc] at fair ⊢
    exact ih (b.moveByte h address (b.left fair)) fair

theorem align (b : Bond Q Fair R) (h : R xs m n)
    (fair : Fair (xs ++ (n.stall n.alignment).trailTo (n.stall n.alignment).host.cycle)) :
    R (xs ++ (n.stall n.alignment).trailTo (n.stall n.alignment).host.cycle) m.align n.align := by
  have alignment : n.alignment = m.alignment := by
    obtain ⟨u, rfl, -⟩ := b.beside h
    rfl
  have waiting := b.stall h n.alignment
  have moved := b.advanceTo waiting fair
  unfold Machine.align
  rw [← alignment]
  dsimp only
  rw [(b.beside waiting).host] at moved ⊢
  exact moved

theorem transferPage (b : Bond Q Fair R) (h : R xs m n) (page : UInt8)
    (fair : Fair (xs ++ n.trailOfPage page)) :
    R (xs ++ n.trailOfPage page) (m.transferPage page) (n.transferPage page) := by
  unfold trailOfPage at fair ⊢
  rw [← List.append_assoc] at fair ⊢
  have aligned := b.align h (b.left fair)
  have quiet : n.align.quiet = m.align.quiet := by
    obtain ⟨u, same, -⟩ := b.beside aligned
    rw [same]
    rfl
  unfold Machine.transferPage
  dsimp only
  rw [quiet] at fair ⊢
  split
  · rw [List.append_nil]
    exact b.copyPage aligned page
  · next loud =>
    rw [if_neg loud] at fair
    exact b.moveBytes aligned (pageAddresses page) fair

theorem read (b : Bond Q Fair R) (h : R xs m n) (address : Nat)
    (fair : Fair (xs ++ n.trailTo n.host.cycle)) :
    R (xs ++ n.trailTo n.host.cycle) (m.read address).2 (n.read address).2 := by
  have caught := b.advanceTo h fair
  unfold Machine.read
  dsimp only
  rw [(b.beside h).host] at caught ⊢
  exact b.setLines (b.between caught (.looked _ _ _) (.looked _ _ _)
    ((b.beside caught).readRegister (b.coupling _) (.ofAddress address) _)) _ _

theorem writeInto (b : Bond Q Fair R) (h : R xs m n) (register : Register) (byte : UInt8)
    (fair : Fair (xs ++ n.trailTo (n.landing register))) :
    R (xs ++ n.trailTo (n.landing register)) (m.writeInto register byte) (n.writeInto register byte) := by
  have landing : n.landing register = m.landing register := by
    obtain ⟨u, rfl, -⟩ := b.beside h
    rfl
  have caught := b.advanceTo h fair
  rw [writeInto_eq, writeInto_eq, landing] at *
  exact b.put caught register byte _

theorem perform (b : Bond Q Fair R) (h : R xs m n) (access : Access)
    (fair : Fair (xs ++ n.trailOfAccess access)) :
    R (xs ++ n.trailOfAccess access) (m.perform access).2 (n.perform access).2 := by
  cases access with
  | read address => exact b.read h address fair
  | write address byte =>
    simp only [trailOfAccess] at fair ⊢
    simp only [Machine.perform, Machine.write]
    split
    · next transfers =>
      rw [if_pos transfers] at fair
      exact b.transferPage h byte fair
    · next elsewhere =>
      rw [if_neg elsewhere] at fair
      exact b.writeInto h _ byte fair
  | transfer page => exact b.transferPage h page fair
  | catchUp target => exact b.advanceTo h fair

theorem closing (b : Bond Q Fair R) (h : R xs m n) (fair : Fair (xs ++ n.trailOfAct .closing)) :
    R (xs ++ n.trailOfAct .closing) (m.act .closing) (n.act .closing) := by
  simp only [trailOfAct] at fair ⊢
  simp only [Machine.act, Machine.endFrame]
  rw [(b.beside h).inFrame] at fair ⊢
  split
  · next inside =>
    rw [if_pos inside] at fair
    have last := b.advanceTo h fair
    rw [(b.beside h).clock] at last ⊢
    exact b.closed last
  · rw [List.append_nil]
    exact h

theorem act (b : Bond Q Fair R) (h : R xs m n) (a : Act) (fair : Fair (xs ++ n.trailOfAct a)) :
    R (xs ++ n.trailOfAct a) (m.act a) (n.act a) := by
  cases a with
  | opening =>
    rw [trailOfAct, List.append_nil]
    exact b.opening h
  | closing => exact b.closing h fair
  | turn t => exact b.perform (b.meet h t) t.access fair

/-- A script keeps the bond. -/
theorem run (b : Bond Q Fair R) (h : R xs m n) (acts : List Act) (fair : Fair (xs ++ trail acts n)) :
    R (xs ++ trail acts n) (Machine.run acts m) (Machine.run acts n) := by
  induction acts generalizing xs m n with
  | nil =>
    rw [trail, List.append_nil]
    exact h
  | cons a rest ih =>
    rw [trail, ← List.append_assoc] at fair ⊢
    exact ih (b.act h a (b.left fair)) fair

end Bond

end Machine

end PictureUnit
