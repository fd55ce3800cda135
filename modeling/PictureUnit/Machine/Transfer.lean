import PictureUnit.Machine.Access

/-!
# Page transfers

A transfer copies a page of the processor's memory into object memory. It stalls the processor
for one cycle, or two when it starts on an odd one, and then for two cycles a byte. Each byte
lands like a write to the object data register at its own cycle. When the page is plain memory and
the chip cannot be rendering meanwhile, nothing can tell when a byte lands, and all are copied
at once.
-/

set_option autoImplicit false

namespace PictureUnit.Machine

variable {κ : Type}

def transferSize : Nat := 256

/-- Pages below this one are the processor's own memory. -/
def plainPages : Nat := 0x20

def stall (cycles : Nat) (m : Machine κ) : Machine κ := m.withHost (·.stall m.timing cycles)

/-- Reads a byte of the processor's memory. -/
def takeByte (address : Nat) (m : Machine κ) : UInt8 × Machine κ :=
  let (byte, host) := m.host.transfer address
  (byte, { m with host := host })

/-- Whether the chip renders at no time of a transfer that starts now. -/
def quiet (m : Machine κ) : Bool :=
  !m.rendering || (m.clock.position == .blank
    && m.host.cycle + 2 * transferSize * m.timing.cpuCycle ≤ m.clock.frameEnd)

def landByte (byte : UInt8) (m : Machine κ) : Machine κ := (m.setLines byte).writeObjectData byte

def copyByte (m : Machine κ) (address : Nat) : Machine κ :=
  let (byte, m) := m.takeByte address
  m.landByte byte

def pageAddresses (page : UInt8) : List Nat := List.range' (page.toNat * 256) transferSize

def copyPage (page : UInt8) (m : Machine κ) : Machine κ :=
  ((pageAddresses page).foldl copyByte m).stall (2 * transferSize)

/-- Copying a page keeps what the copying of a byte and a stall keep. -/
theorem copyPage_keeps {P : Machine κ → Prop}
    (copied : ∀ n address, P n → P (n.copyByte address))
    (stalled : ∀ n cycles, P n → P (n.stall cycles)) {m : Machine κ} (h : P m) (page : UInt8) :
    P (m.copyPage page) := by
  apply stalled
  exact List.foldlRecOn _ _ h fun n hn address _ => copied n address hn

/-- Cycles the processor waits before the first byte. -/
def alignment (m : Machine κ) : Nat := if m.host.cycle / m.timing.cpuCycle % 2 = 1 then 2 else 1

/-- The cycle at which the processor goes on after a transfer that starts now. -/
def transferEnd (m : Machine κ) : Nat :=
  m.host.cycle + (m.alignment + 2 * transferSize) * m.timing.cpuCycle

@[simp]
theorem landByte_host (byte : UInt8) (m : Machine κ) : (m.landByte byte).host = m.host := by
  unfold landByte writeObjectData
  dsimp only
  split <;> rfl

@[simp]
theorem landByte_config (byte : UInt8) (m : Machine κ) : (m.landByte byte).config = m.config := by
  unfold landByte writeObjectData
  dsimp only
  split <;> rfl

@[simp]
theorem copyByte_cycle (m : Machine κ) (address : Nat) :
    (m.copyByte address).host.cycle = m.host.cycle := by
  simp only [copyByte, landByte_host]
  rfl

@[simp]
theorem copyByte_config (m : Machine κ) (address : Nat) :
    (m.copyByte address).config = m.config := by
  simp only [copyByte, landByte_config]
  rfl

theorem foldl_copyByte (addresses : List Nat) (m : Machine κ) :
    (addresses.foldl copyByte m).host.cycle = m.host.cycle
      ∧ (addresses.foldl copyByte m).config = m.config := by
  induction addresses generalizing m with
  | nil => exact ⟨rfl, rfl⟩
  | cons address rest ih =>
    rw [List.foldl_cons, (ih _).1, (ih _).2]
    exact ⟨copyByte_cycle m address, copyByte_config m address⟩

variable [Cartridge κ]

/-- One byte at its own time. -/
def moveByte (m : Machine κ) (address : Nat) : Machine κ :=
  let (byte, m) := (m.stall 1).takeByte address
  let m := m.stall 1
  (m.advanceTo m.host.cycle).landByte byte

def movePage (page : UInt8) (m : Machine κ) : Machine κ := (pageAddresses page).foldl moveByte m

/-- Stalls until the transfer may start. -/
def align (m : Machine κ) : Machine κ :=
  let m := m.stall m.alignment
  m.advanceTo m.host.cycle

def transferPage (page : UInt8) (m : Machine κ) : Machine κ :=
  let m := m.align
  if page.toNat < plainPages && m.quiet then m.copyPage page else m.movePage page

/-- A transfer keeps what the copying of a page and the moving of a byte keep. -/
theorem transferPage_keeps {P : Machine κ → Prop} {m : Machine κ} {page : UInt8} (aligned : P m.align)
    (copied : ∀ n, P n → P (n.copyPage page))
    (moved : ∀ n address, P n → P (n.moveByte address)) : P (m.transferPage page) := by
  unfold transferPage
  dsimp only
  split
  · exact copied _ aligned
  · exact List.foldlRecOn _ _ aligned fun n hn address _ => moved n address hn

/-- Writes to the register or the transfer register behind a processor address. -/
def write (address : Nat) (byte : UInt8) (m : Machine κ) : Machine κ :=
  if address = transferAddress then m.transferPage byte
  else m.writeInto (.ofAddress address) byte

@[simp]
theorem pageAddresses_length (page : UInt8) : (pageAddresses page).length = transferSize := by
  simp [pageAddresses]

theorem moveByte_cycle (m : Machine κ) (address : Nat) :
    (m.moveByte address).host.cycle = m.host.cycle + 2 * m.timing.cpuCycle := by
  simp only [moveByte, landByte_host, advanceTo_cycle]
  simp only [stall, withHost, takeByte, Host.stall, Host.transfer, timing]
  omega

@[simp]
theorem moveByte_config (m : Machine κ) (address : Nat) :
    (m.moveByte address).config = m.config := by
  simp only [moveByte, landByte_config, advanceTo_config]
  rfl

theorem foldl_moveByte (addresses : List Nat) (m : Machine κ) :
    (addresses.foldl moveByte m).host.cycle
      = m.host.cycle + 2 * addresses.length * m.timing.cpuCycle := by
  induction addresses generalizing m with
  | nil => simp
  | cons address rest ih =>
    rw [List.foldl_cons, ih, moveByte_cycle]
    simp only [timing, moveByte_config, List.length_cons, Nat.mul_add, Nat.add_mul]
    omega

/-- A transfer ends when all its bytes and the wait before them have passed. -/
theorem transferPage_cycle (page : UInt8) (m : Machine κ) :
    (m.transferPage page).host.cycle = m.transferEnd := by
  have cycle : m.align.host.cycle = m.host.cycle + m.alignment * m.timing.cpuCycle :=
    advanceTo_cycle _ _
  have config : m.align.config = m.config := advanceTo_config _ _
  unfold transferPage transferEnd
  dsimp only
  split
  · simp only [copyPage, stall, withHost, Host.stall, timing, foldl_copyByte, cycle, config]
    rw [Nat.add_mul, Nat.add_assoc]
  · simp only [movePage, foldl_moveByte, pageAddresses_length, timing, cycle, config]
    rw [Nat.add_mul, Nat.add_assoc]

end PictureUnit.Machine
