import PictureUnit.Proofs.Reload
import PictureUnit.Proofs.Unbroken

/-!
# Between frames

A machine that has caught up to the end of its last frame rests: there is nothing to execute before the
next frame is opened, at whatever cycle it is asked. So an access is only what it does to the circuit,
a transfer leaves the bytes of its page one after the other, and machines that are alike stay alike.
-/

set_option autoImplicit false

namespace PictureUnit

namespace Machine

variable {κ : Type}

/-- No frame is open, and the last one is over. -/
structure Resting (m : Machine κ) : Prop where
  waiting : m.Waiting
  ended : m.clock.frameEnd ≤ m.clock.count
  closed : m.inFrame = false

theorem Resting.betweenFrames {m : Machine κ} (h : m.Resting) : m.clock.betweenFrames = true := by
  rw [Clock.betweenFrames, h.waiting.blank, decide_eq_true h.ended]
  rfl

theorem new_resting (config : Config) (banks : Banks) (cartridge : κ) (host : Host) :
    (Machine.new config banks cartridge host).Resting :=
  ⟨reset_waiting .cold _, Nat.le_refl _, rfl⟩

/-- Lands bytes one after the other. -/
def landBytes (bytes : List UInt8) (m : Machine κ) : Machine κ :=
  bytes.foldl (fun m byte => m.landByte byte) m

/-- The bytes of a page. -/
def pageBytes (page : UInt8) (h : Host) : List UInt8 := (pageAddresses page).map h.memory

theorem landByte_withHost (byte : UInt8) (f : Host → Host) (m : Machine κ) :
    (m.withHost f).landByte byte = (m.landByte byte).withHost f := by
  unfold landByte writeObjectData
  dsimp only
  by_cases fetching : (m.setLines byte).fetching = true
  · rw [if_pos fetching, if_pos (by exact fetching)]
    rfl
  · rw [if_neg fetching, if_neg (by exact fetching)]
    rfl

/-- A machine as another one, whose processor is elsewhere but has the same memory. -/
def Elsewhere (m n : Machine κ) : Prop :=
  n.host.memory = m.host.memory ∧ n = m.withHost fun _ => n.host

variable {m n p : Machine κ}

theorem Elsewhere.trans (h : m.Elsewhere n) (h' : n.Elsewhere p) : m.Elsewhere p := by
  refine ⟨h'.1.trans h.1, ?_⟩
  rw [h.2] at h'
  exact h'.2

theorem elsewhere_stall (cycles : Nat) (m : Machine κ) : m.Elsewhere (m.stall cycles) := ⟨rfl, rfl⟩

theorem elsewhere_takeByte (address : Nat) (m : Machine κ) :
    m.Elsewhere (m.takeByte address).2 := ⟨rfl, rfl⟩

theorem Elsewhere.landByte (h : m.Elsewhere n) (byte : UInt8) :
    (m.landByte byte).Elsewhere (n.landByte byte) := by
  refine ⟨?_, ?_⟩
  · rw [landByte_host, landByte_host, h.1]
  · rw [landByte_host]
    conv_lhs => rw [h.2]
    rw [landByte_withHost]

theorem elsewhere_copyByte (m : Machine κ) (address : Nat) :
    (m.landByte (m.host.memory address)).Elsewhere (m.copyByte address) :=
  (elsewhere_takeByte address m).landByte _

variable [Cartridge κ]

theorem Resting.of_still (h : m.Resting) (still : m.Still n) : n.Resting where
  waiting := h.waiting.of_eq still.clock still.raised
  ended := by
    rw [still.clock]
    exact h.ended
  closed := (congrArg Ledger.inFrame still.ledger).trans h.closed

theorem Elsewhere.resting (h : m.Elsewhere n) (hm : m.Resting) : n.Resting := by
  rw [h.2]
  exact hm.of_still (withHost_still _ m)

theorem Resting.advanceTo (h : m.Resting) (target : Nat) : m.advanceTo target = m :=
  advanceTo_idle h.waiting.blank h.ended h.waiting.raised target

/-- A machine that a frame can be opened on rests. -/
theorem Reachable.resting (h : m.Reachable) (closed : m.inFrame = false)
    (hb : m.clock.betweenFrames = true) : m.Resting := by
  rw [Clock.betweenFrames, Bool.and_eq_true, decide_eq_true_eq] at hb
  exact ⟨h.waiting closed, hb.2, closed⟩

theorem elsewhere_moveByte (h : m.Resting) (address : Nat) :
    (m.landByte (m.host.memory address)).Elsewhere (m.moveByte address) := by
  have taken : m.Elsewhere (((m.stall 1).takeByte address).2.stall 1) :=
    ((elsewhere_stall 1 m).trans (elsewhere_takeByte address _)).trans (elsewhere_stall 1 _)
  unfold moveByte
  dsimp only
  rw [(taken.resting h).advanceTo]
  exact taken.landByte _

theorem Resting.landByte (h : m.Resting) (byte : UInt8) : (m.landByte byte).Resting :=
  h.of_still (landByte_still byte m)

/-- Whatever moves single bytes moves the bytes of the memory. -/
theorem elsewhere_foldl {move : Machine κ → Nat → Machine κ}
    (moves : ∀ u : Machine κ, u.Resting → ∀ address,
      (u.landByte (u.host.memory address)).Elsewhere (move u address))
    (addresses : List Nat) (h : m.Resting) (hn : m.Elsewhere n) :
    (m.landBytes (addresses.map m.host.memory)).Elsewhere (addresses.foldl move n) := by
  -- The processor goes on in time, the chip does not: each byte finds the memory as the first one did.
  induction addresses generalizing m n with
  | nil => exact hn
  | cons address rest ih =>
    have moved := (hn.landByte (n.host.memory address)).trans (moves n (hn.resting h) address)
    rw [hn.1] at moved
    have later := ih (h.landByte _) moved
    rw [landByte_host] at later
    exact later

/-- A transfer between frames lands the bytes of its page. -/
theorem Resting.transferPage (h : m.Resting) (page : UInt8) :
    (m.landBytes (pageBytes page m.host)).Elsewhere (m.transferPage page) := by
  have aligned : m.Elsewhere m.align := by
    unfold Machine.align
    dsimp only
    rw [((elsewhere_stall _ m).resting h).advanceTo]
    exact elsewhere_stall _ m
  unfold Machine.transferPage
  dsimp only
  split
  · exact (elsewhere_foldl (fun u _ address => elsewhere_copyByte u address) _ h aligned).trans
      (elsewhere_stall _ _)
  · exact elsewhere_foldl (fun u hu address => elsewhere_moveByte hu address) _ h aligned

/-- Machines that are alike, with nothing that is not trusted in the flags or on the lines. -/
structure Even (t : Trust) (m n : Machine κ) : Prop where
  alike : m.Alike t n
  first : m.Resting
  second : n.Resting
  flags : t.flags = true
  lines : t.lines = 0xFF

variable {t : Trust}

theorem Even.trust (h : m.Even t n) : { t with lines := 0xFF } = t := by
  rw [← h.lines]

/-- An access that leaves the byte of known lines leaves machines even. -/
theorem Even.next (h : m.Even t n) {m' n' : Machine κ} (alike : m'.Alike { t with lines := 0xFF } n')
    (first : m.Still m') (second : n.Still n') : m'.Even t n' where
  alike := by
    rw [h.trust] at alike
    exact alike
  first := h.first.of_still first
  second := h.second.of_still second
  flags := h.flags
  lines := h.lines

theorem Even.elsewhere (h : m.Even t n) {m' n' : Machine κ} (first : m.Elsewhere m')
    (second : n.Elsewhere n') : m'.Even t n' := by
  have alike : (m.withHost fun _ => m'.host).Alike t (n.withHost fun _ => n'.host) :=
    h.alike.next rfl rfl h.alike.position h.alike.raised h.alike.circuit
  rw [← first.2, ← second.2] at alike
  exact ⟨alike, first.resting h.first, second.resting h.second, h.flags, h.lines⟩

theorem Even.landByte (h : m.Even t n) (byte : UInt8) : (m.landByte byte).Even t (n.landByte byte) :=
  h.next ((h.alike.setLines byte).writeRegister .objectData byte 0 0) (landByte_still byte m)
    (landByte_still byte n)

theorem Even.landBytes (h : m.Even t n) (bytes : List UInt8) :
    (m.landBytes bytes).Even t (n.landBytes bytes) := by
  induction bytes generalizing m n with
  | nil => exact h
  | cons byte rest ih => exact ih (h.landByte byte)

/-- Between frames every bit of a register is trusted. -/
theorem Even.trustedBits (h : m.Even t n) (register : Register) :
    Machine.trustedBits register t m = 0xFF := by
  refine trustedBits_eq h.flags h.lines fun _ searching => ?_
  simp [Machine.searching, h.first.waiting.blank] at searching

theorem Even.look (h : m.Even t n) (register : Register) (cycle cycle' : Nat) :
    (n.readRegister register cycle').1 = (m.readRegister register cycle).1
      ∧ ((m.readRegister register cycle).2.setLines (m.readRegister register cycle).1).Even t
        ((n.readRegister register cycle').2.setLines (n.readRegister register cycle').1) := by
  have agree := h.alike.readRegister_agree register cycle cycle'
  have looked := h.alike.look register cycle cycle'
  rw [h.trustedBits] at agree looked
  exact ⟨agree_all.mp agree, h.next looked
    ((readRegister_still register cycle m).trans (setLines_still _ _))
    ((readRegister_still register cycle' n).trans (setLines_still _ _))⟩

theorem Even.put (h : m.Even t n) (register : Register) (byte : UInt8) (cycle cycle' : Nat) :
    (m.put register byte cycle).Even t (n.put register byte cycle') :=
  h.next (h.alike.put register byte cycle cycle') (put_still register byte cycle m)
    (put_still register byte cycle' n)

theorem Even.meet (h : m.Even t n) (v v' : Turn) : (m.meet v).Even t (n.meet v') :=
  ⟨h.alike.meet v v', h.first.of_still (meet_still v m), h.second.of_still (meet_still v' n), h.flags,
    h.lines⟩

theorem Even.writeInto (h : m.Even t n) (register : Register) (byte : UInt8) :
    (m.writeInto register byte).Even t (n.writeInto register byte) := by
  rw [writeInto_eq, writeInto_eq, h.first.advanceTo, h.second.advanceTo]
  exact h.put register byte _ _

theorem Even.transferPage (h : m.Even t n) (memory : n.host.memory = m.host.memory) (page : UInt8) :
    (m.transferPage page).Even t (n.transferPage page) := by
  have own := h.first.transferPage page
  have other := h.second.transferPage page
  have bytes : pageBytes page n.host = pageBytes page m.host := by
    rw [pageBytes, pageBytes, memory]
  rw [bytes] at other
  exact (h.landBytes _).elsewhere own other

/-- The same access between frames returns the same and leaves machines alike. -/
theorem Even.turn (h : m.Even t n) {v v' : Turn} (memory : v'.memory = v.memory)
    (access : v'.access = v.access) :
    (n.turn v').1 = (m.turn v).1 ∧ (m.turn v).2.Even t (n.turn v').2 := by
  have met := h.meet v v'
  unfold Machine.turn
  rw [access]
  cases v.access with
  | read address =>
    simp only [perform, Machine.read, met.first.advanceTo, met.second.advanceTo]
    obtain ⟨value, looked⟩ := met.look (.ofAddress address) v.cycle v'.cycle
    exact ⟨congrArg some value, looked⟩
  | write address byte =>
    refine ⟨rfl, ?_⟩
    simp only [perform, Machine.write]
    split
    · exact met.transferPage memory byte
    · exact met.writeInto _ byte
  | transfer page => exact ⟨rfl, met.transferPage memory page⟩
  | catchUp target =>
    simp only [perform, met.first.advanceTo, met.second.advanceTo]
    exact ⟨trivial, met⟩

end Machine

end PictureUnit
