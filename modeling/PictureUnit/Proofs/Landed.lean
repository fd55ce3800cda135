import PictureUnit.Proofs.Copied
import PictureUnit.Proofs.Lull
import PictureUnit.Proofs.Story

/-!
# Where a page lands

While nothing is fetched, every byte of a transfer lands in object memory, whether the page is copied at
once or moved byte by byte across lines, the blank and the end of a frame. The address wraps and comes
back to where it was, and it alone decides which bytes lose their missing bits. Apart from these bytes
the works change only as the cartridge changes them when a dot tells it of a line.
-/

set_option autoImplicit false

namespace PictureUnit

/-- What object memory keeps of a byte. -/
def Object.stored (address : Nat) (byte : UInt8) : UInt8 :=
  if address % 4 = 2 then byte &&& storedAttributes else byte

theorem Object.stored_wrapped (address : Nat) (byte : UInt8) :
    stored (address % 256) byte = if address % 4 = 2 then byte &&& 0xE3 else byte := by
  rw [stored, Nat.mod_mod_of_dvd address (by decide)]
  rfl

theorem Scroll.Latch.ext {l k : Latch} (current : l.current = k.current) (pending : l.pending = k.pending)
    (fineX : l.fineX = k.fineX) (second : l.second = k.second) : l = k := by
  cases l
  cases k
  cases current
  cases pending
  cases fineX
  cases second
  rfl

namespace Works

variable {κ : Type}

/-- A byte lands at the object address. -/
def stow (w : Works κ) (byte : UInt8) : Works κ :=
  { w with
    settings :=
      { w.settings with
        lines := byte
        objects := w.settings.objects.store w.objectAddress.toNat
          (Object.stored w.objectAddress.toNat byte) }
    objectAddress := w.objectAddress + 1 }

def stowAll (bytes : List UInt8) (w : Works κ) : Works κ := bytes.foldl stow w

variable {w : Works κ} {bytes : List UInt8}

theorem stowAll_append (bytes others : List UInt8) (w : Works κ) :
    w.stowAll (bytes ++ others) = (w.stowAll bytes).stowAll others := List.foldl_append

theorem stowAll_singleton (byte : UInt8) (w : Works κ) : w.stowAll [byte] = w.stow byte := rfl

/-- The address counts the bytes and wraps. -/
theorem stowAll_objectAddress (w : Works κ) (bytes : List UInt8) :
    (w.stowAll bytes).objectAddress.toNat = (w.objectAddress.toNat + bytes.length) % 256 := by
  induction bytes using List.reverseRecOn with
  | nil => exact (Nat.mod_eq_of_lt w.objectAddress.toNat_lt).symm
  | append_singleton bytes byte ih =>
    have next : (w.stowAll (bytes ++ [byte])).objectAddress = (w.stowAll bytes).objectAddress + 1 := by
      rw [stowAll_append, stowAll_singleton]
      rfl
    rw [next, UInt8.toNat_add, ih, List.length_append, List.length_singleton]
    exact Nat.mod_add_mod _ _ _

/-- No more bytes than object memory holds: each is found where it landed. -/
theorem stowAll_load (w : Works κ) {i : Nat} {byte : UInt8} (room : bytes.length ≤ 256) (h : bytes[i]? = some byte) :
    (w.stowAll bytes).settings.objects.load ((w.objectAddress.toNat + i) % 256)
      = Object.stored ((w.objectAddress.toNat + i) % 256) byte := by
  induction bytes using List.reverseRecOn with
  | nil => cases h
  | append_singleton bytes last ih =>
    rw [List.length_append, List.length_singleton] at room
    have landed : (w.stowAll (bytes ++ [last])).settings.objects
        = (w.stowAll bytes).settings.objects.store ((w.objectAddress.toNat + bytes.length) % 256)
          (Object.stored ((w.objectAddress.toNat + bytes.length) % 256) last) := by
      rw [stowAll_append, stowAll_singleton, ← stowAll_objectAddress]
      rfl
    rw [landed]
    by_cases earlier : i < bytes.length
    · rw [List.getElem?_append_left earlier] at h
      rw [Block.load_store_ne _ _ _ _ (by omega)]
      exact ih (by omega) h
    · have own : i < (bytes ++ [last]).length := List.getElem?_eq_some_iff.mp h |>.1
      rw [List.length_append, List.length_singleton] at own
      obtain rfl : i = bytes.length := by omega
      rw [List.getElem?_concat_length, Option.some.injEq] at h
      rw [h]
      exact Block.load_store_same _ _ _ (Nat.mod_lt _ (by decide))

theorem stowAll_lines {byte : UInt8} (w : Works κ) (last : bytes.getLast? = some byte) :
    (w.stowAll bytes).settings.lines = byte := by
  obtain ⟨front, rfl⟩ := List.getLast?_eq_some_iff.mp last
  rw [stowAll_append, stowAll_singleton]
  rfl

/-- Landing bytes change object memory, the data lines and the object address. -/
theorem stowAll_keeps (w : Works κ) (bytes : List UInt8) :
    (w.stowAll bytes).settings
        = { w.settings with
            lines := (w.stowAll bytes).settings.lines
            objects := (w.stowAll bytes).settings.objects }
      ∧ (w.stowAll bytes).pipe = w.pipe
      ∧ (w.stowAll bytes).banks = w.banks
      ∧ (w.stowAll bytes).cartridge = w.cartridge := by
  induction bytes using List.reverseRecOn with
  | nil => exact ⟨rfl, rfl, rfl, rfl⟩
  | append_singleton bytes byte ih =>
    rw [stowAll_append, stowAll_singleton]
    generalize w.stowAll bytes = v at ih
    obtain ⟨settings, rest⟩ := ih
    refine ⟨?_, rest⟩
    rw [stow]
    conv_lhs => rw [settings]

variable [Cartridge κ]

/-- A landing byte and what the cartridge is told do not notice one another. -/
theorem told_stowAll (places : List (Line × Nat)) (bytes : List UInt8) (w : Works κ) :
    (w.told places).stowAll bytes = (w.stowAll bytes).told places := by
  induction bytes generalizing w with
  | nil => rfl
  | cons byte rest ih => exact ih (w.stow byte)

end Works

namespace Circuit

variable {κ : Type} [Cartridge κ] {c d : Circuit κ} {bytes : List UInt8} {places : List (Line × Nat)}

/-- A page of bytes has landed, and meanwhile the cartridge was told of these places. -/
structure Lands (bytes : List UInt8) (places : List (Line × Nat)) (c d : Circuit κ) : Prop where
  objects : ∀ i byte, bytes[i]? = some byte →
    d.objects.load ((c.registers.objectAddress.toNat + i) % 256)
      = if (c.registers.objectAddress.toNat + i) % 4 = 2 then byte &&& 0xE3 else byte
  objectAddress : d.registers.objectAddress = c.registers.objectAddress
  lines : ∀ byte, bytes.getLast? = some byte → d.registers.lines = byte
  scroll : d.registers.scroll = c.registers.scroll
  control : d.registers.control = c.registers.control
  mask : d.registers.mask = c.registers.mask
  buffer : d.registers.buffer = c.registers.buffer
  palette : d.palette = c.palette
  board : (d.banks, d.cartridge)
    = places.foldl (Cartridge.hook c.registers.mask.rendering) (c.banks, c.cartridge)

theorem lands_of_works (size : bytes.length = 256)
    (h : d.works = (c.works.stowAll bytes).told places) : c.Lands bytes places d := by
  obtain ⟨settings, objectAddress, pipe, board⟩ := of_told h
  obtain ⟨kept, pipes, banks, cartridge⟩ := c.works.stowAll_keeps bytes
  have own := settings.trans kept
  have address : (c.works.stowAll bytes).objectAddress = c.registers.objectAddress := by
    have wrapped := c.works.stowAll_objectAddress bytes
    rw [size, Nat.add_mod_right, Nat.mod_eq_of_lt (UInt8.toNat_lt _)] at wrapped
    exact UInt8.toNat_inj.mp wrapped
  refine ⟨fun i byte found => ?_, objectAddress.trans address, fun byte last => ?_,
    Scroll.Latch.ext (congrArg Pipe.current (pipe.trans pipes)) (congrArg Settings.pending own)
      (congrArg Settings.fineX own) (congrArg Settings.second own),
    congrArg Settings.control own, congrArg Settings.mask own, congrArg Settings.buffer own,
    congrArg Settings.palette own, ?_⟩
  · rw [← Object.stored_wrapped]
    have load := c.works.stowAll_load size.le found
    rwa [← settings] at load
  · exact (congrArg Settings.lines settings).trans (c.works.stowAll_lines last)
  · rw [board, banks, cartridge, kept]
    rfl

end Circuit

namespace Machine

variable {κ : Type} {m n : Machine κ}

theorem Calm.landByte_works (h : m.Calm) (byte : UInt8) :
    (m.landByte byte).circuit.works = m.circuit.works.stow byte := by
  rw [h.landByte_eq]
  rfl

/-- Bytes that are copied land one after the other. -/
theorem Calm.copyBytes_works (h : m.Calm) (addresses : List Nat) :
    (addresses.foldl Machine.copyByte m).circuit.works
      = m.circuit.works.stowAll (addresses.map m.host.memory) := by
  induction addresses generalizing m with
  | nil => rfl
  | cons address rest ih =>
    have memory : (m.copyByte address).host.memory = m.host.memory := by
      rw [Machine.copyByte, landByte_host]
      rfl
    have landed : (m.copyByte address).circuit.works
        = m.circuit.works.stow (m.host.memory address) :=
      Calm.landByte_works (m := (m.takeByte address).2) h (m.host.memory address)
    rw [List.foldl_cons, ih (h.copyByte address), landed, memory]
    rfl

variable [Cartridge κ]

theorem Calm.advanceTo (h : m.Calm) (target : Nat) : (m.advanceTo target).Calm := by
  fun_induction Machine.advanceTo target m with
  | case1 m _ blank => exact .inr ((passBlank_position target m).trans blank)
  | case2 m _ line dot place ih =>
    exact ih (Calm.step (h.resolve_right (by rw [place]; exact Position.noConfusion)) line dot)
  | case3 => exact h

/-- While nothing is fetched, the dots only tell the cartridge of their lines. -/
theorem Calm.advanceTo_works (h : m.Calm) (target : Nat) :
    (m.advanceTo target).circuit.works
      = m.circuit.works.told ((m.trailTo target).map Moment.place) := by
  fun_induction Machine.advanceTo target m with
  | case1 m _ blank =>
    rw [passBlank_works, trailTo_blank blank]
    rfl
  | case2 m late line dot place ih =>
    have off : m.rendering = false := h.resolve_right (by rw [place]; exact Position.noConfusion)
    have told : (m.step line dot).circuit.works = m.circuit.works.told [(line, dot)] := by
      rw [step_circuit]
      exact Circuit.dot_told (.inr off) line _ _
    rw [ih (Calm.step off line dot), told, ← Works.told_append, trailTo_raster place late]
    rfl
  | case3 m caught =>
    rw [trailTo_of_le (Nat.not_lt.mp caught)]
    rfl

/-- Catching up reads no memory and stalls nothing. -/
theorem advanceTo_host (target : Nat) (m : Machine κ) :
    (m.advanceTo target).host.memory = m.host.memory
      ∧ (m.advanceTo target).host.stalled = m.host.stalled := by
  obtain ⟨asked, asks⟩ := advanceTo_asks target m
  rw [asks.host]
  exact ⟨rfl, rfl⟩

theorem moveByte_host (m : Machine κ) (address : Nat) :
    (m.moveByte address).host.memory = m.host.memory
      ∧ (m.moveByte address).host.stalled = m.host.stalled + 2 := by
  have waited := advanceTo_host (m.awaiting address).host.cycle (m.awaiting address)
  unfold moveByte
  dsimp only
  rw [landByte_host]
  exact waited

theorem Calm.moveByte (h : m.Calm) (address : Nat) : (m.moveByte address).Calm :=
  (Calm.advanceTo (m := m.awaiting address) h _).landByte _

/-- Bytes that are moved land one after the other, and meanwhile the cartridge is told of lines. -/
theorem Calm.moveBytes_works (h : m.Calm) (addresses : List Nat) :
    (addresses.foldl Machine.moveByte m).circuit.works
      = (m.circuit.works.stowAll (addresses.map m.host.memory)).told
        ((trailOfBytes addresses m).map Moment.place) := by
  induction addresses generalizing m with
  | nil => rfl
  | cons address rest ih =>
    have waiting : (m.awaiting address).Calm := h
    have landed : (m.moveByte address).circuit.works
        = (m.circuit.works.stow (m.host.memory address)).told
          (((m.awaiting address).trailTo (m.awaiting address).host.cycle).map Moment.place) := by
      have caught := waiting.advanceTo_works (m.awaiting address).host.cycle
      have byte := (waiting.advanceTo (m.awaiting address).host.cycle).landByte_works
        (m.host.memory address)
      rw [caught] at byte
      exact byte
    rw [List.foldl_cons, ih (h.moveByte address), landed, (moveByte_host m address).1,
      Works.told_stowAll, ← Works.told_append, trailOfBytes, List.map_append]
    rfl

theorem Calm.align (h : m.Calm) : m.align.Calm := Calm.advanceTo (m := m.stall m.alignment) h _

/-- Whichever way a page is moved, its bytes land one after the other. -/
theorem Calm.transferPage_works (h : m.Calm) (page : UInt8) :
    (m.transferPage page).circuit.works
      = (m.circuit.works.stowAll (pageBytes page m.host)).told
        ((m.trailOfPage page).map Moment.place) := by
  have waited := Calm.advanceTo_works (m := m.stall m.alignment) h (m.stall m.alignment).host.cycle
  have aligned : m.align.circuit.works = m.circuit.works.told
      (((m.stall m.alignment).trailTo (m.stall m.alignment).host.cycle).map Moment.place) := waited
  have memory : m.align.host.memory = m.host.memory := (advanceTo_host _ _).1
  rw [trailOfPage, List.map_append, Works.told_append, ← Works.told_stowAll, ← aligned, pageBytes,
    ← memory]
  have stalled (n : Machine κ) (cycles : Nat) : (n.stall cycles).circuit = n.circuit := rfl
  unfold Machine.transferPage
  dsimp only
  split
  · rw [copyPage, stalled, List.map_nil, Works.told_nil]
    exact h.align.copyBytes_works (pageAddresses page)
  · rw [movePage]
    exact h.align.moveBytes_works (pageAddresses page)

omit [Cartridge κ] in
theorem copyBytes_stalled (addresses : List Nat) (m : Machine κ) :
    (addresses.foldl copyByte m).host.stalled = m.host.stalled := by
  induction addresses generalizing m with
  | nil => rfl
  | cons address rest ih =>
    rw [List.foldl_cons, ih, copyByte, landByte_host]
    rfl

theorem moveBytes_stalled (addresses : List Nat) (m : Machine κ) :
    (addresses.foldl moveByte m).host.stalled = m.host.stalled + 2 * addresses.length := by
  induction addresses generalizing m with
  | nil => rfl
  | cons address rest ih =>
    rw [List.foldl_cons, ih, (moveByte_host m address).2, List.length_cons]
    omega

/-- A transfer takes the wait before it and two cycles for each byte. -/
theorem transferPage_stalled (page : UInt8) (m : Machine κ) :
    (m.transferPage page).host.stalled = m.host.stalled + (m.alignment + 2 * transferSize) := by
  have aligned : m.align.host.stalled = m.host.stalled + m.alignment := (advanceTo_host _ _).2
  have stalled (n : Machine κ) (cycles : Nat) :
      (n.stall cycles).host.stalled = n.host.stalled + cycles := rfl
  unfold transferPage
  dsimp only
  split
  · rw [copyPage, stalled, copyBytes_stalled, aligned, Nat.add_assoc]
  · rw [movePage, moveBytes_stalled, pageAddresses_length, aligned, Nat.add_assoc]

theorem pageBytes_getElem? (page : UInt8) (h : Host) {i : Nat} (hi : i < transferSize) :
    (pageBytes page h)[i]? = some (h.memory (page.toNat * 256 + i)) := by
  rw [pageBytes, List.getElem?_map, pageAddresses, List.getElem?_range' hi, Nat.one_mul]
  rfl

omit [Cartridge κ] in
theorem alignment_eq (m : Machine κ) : m.alignment + 2 * transferSize
    = if m.host.cycle / m.timing.cpuCycle % 2 = 1 then 514 else 513 := by
  unfold alignment
  split <;> rfl

/-- While nothing is fetched, a transfer leaves every byte of the page in object memory, from the
object address on and around, without the bits that the third byte of an object lacks; the address
ends where it began and the last byte stays on the data lines. The processor loses its 513 cycles, or
514 if it began on an odd one. Nothing else of what a program has set up changes, and the memories and
the slots change only as the cartridge changes them when it is told of a line. -/
theorem Calm.transferPage_lands (calm : m.Calm) (page : UInt8) :
    let n := m.transferPage page
    let start := m.circuit.registers.objectAddress.toNat
    let byte (i : Nat) := m.host.memory (page.toNat * 256 + i)
    let lost := if m.host.cycle / m.timing.cpuCycle % 2 = 1 then 514 else 513
    (∀ i < 256, n.circuit.objects.load ((start + i) % 256)
        = if (start + i) % 4 = 2 then byte i &&& 0xE3 else byte i)
      ∧ n.circuit.registers.objectAddress = m.circuit.registers.objectAddress
      ∧ n.circuit.registers.lines = byte 255
      ∧ n.host.stalled = m.host.stalled + lost
      ∧ n.host.cycle = m.host.cycle + lost * m.timing.cpuCycle
      ∧ n.circuit.registers.scroll = m.circuit.registers.scroll
      ∧ n.circuit.registers.control = m.circuit.registers.control
      ∧ n.circuit.registers.mask = m.circuit.registers.mask
      ∧ n.circuit.registers.buffer = m.circuit.registers.buffer
      ∧ n.circuit.palette = m.circuit.palette
      ∧ (n.circuit.banks, n.circuit.cartridge)
        = ((m.trailOfPage page).map Moment.place).foldl (Cartridge.hook m.rendering)
          (m.circuit.banks, m.circuit.cartridge) := by
  intro n start byte lost
  have size : (pageBytes page m.host).length = 256 := by
    rw [pageBytes, List.length_map, pageAddresses_length]
    rfl
  have bytes {i : Nat} (hi : i < 256) : (pageBytes page m.host)[i]? = some (byte i) :=
    pageBytes_getElem? page m.host hi
  have last : (pageBytes page m.host).getLast? = some (byte 255) := by
    rw [List.getLast?_eq_getElem?, size]
    exact bytes (by decide)
  have taken : lost = m.alignment + 2 * transferSize := (alignment_eq m).symm
  have lands := Circuit.lands_of_works size (calm.transferPage_works page)
  refine ⟨fun i hi => lands.objects i _ (bytes hi), lands.objectAddress, lands.lines _ last, ?_, ?_,
    lands.scroll, lands.control, lands.mask, lands.buffer, lands.palette, lands.board⟩
  · rw [taken]
    exact transferPage_stalled page m
  · rw [taken]
    exact transferPage_cycle page m

/-- In a dark frame, on an odd cycle of the processor. -/
theorem Calm.transferPage_lands_darkFrame :
    let dark : Machine (Recorded Unit) := Machine.new ⟨.ntsc, .hardware⟩ .new ⟨(), []⟩ (.new fun _ => 0)
    let m := dark.openFrame.meet ⟨12, UInt8.ofNat, .transfer 2⟩
    let n := m.transferPage 2
    m.Calm ∧ n.circuit.objects.load 6 = 2 ∧ n.circuit.objects.load 7 = 7
      ∧ n.circuit.registers.objectAddress = 0 ∧ n.circuit.registers.lines = 255
      ∧ n.host.stalled = m.host.stalled + 514 := by
  intro dark m n
  have circuit : m.circuit = dark.circuit := openFrame_circuit dark
  have config : m.config = dark.config := openFrame_config dark
  have calm : m.Calm := .inl (by
    rw [Machine.rendering, circuit]
    decide)
  have start : m.circuit.registers.objectAddress = 0 := by
    rw [circuit]
    rfl
  obtain ⟨objects, address, lines, stalled, -⟩ := calm.transferPage_lands 2
  have memory : m.host.memory = UInt8.ofNat := rfl
  have odd : m.host.cycle / m.timing.cpuCycle % 2 = 1 := by
    rw [timing, config]
    decide
  have six := objects 6 (by decide)
  have seven := objects 7 (by decide)
  rw [start] at six seven address
  simp only [memory] at six seven lines
  rw [if_pos odd] at stalled
  exact ⟨calm, six, seven, address, lines, stalled⟩

end Machine

end PictureUnit
