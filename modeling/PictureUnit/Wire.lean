import PictureUnit.Block

/-!
# The compact wire format

Numbers are written seven bits a byte from the lowest up, with the top bit set on every byte
but the last. Truth values are one byte, and byte strings are preceded by their length.
A reader takes what it needs from the front and returns the rest. Longer spellings of a number
are accepted, but not more bytes, nor more bits, than the widest number of its kind needs.
-/

set_option autoImplicit false

namespace PictureUnit.Wire

inductive Fault where
  | endOfInput
  | unterminated
  | noTruthValue
  | refused
  deriving DecidableEq, Repr

def Fault.message : Fault → String
  | .endOfInput => "Hit the end of buffer, expected more data"
  | .unterminated => "Found a varint that didn't terminate. Is the usize too big for this platform?"
  | .noTruthValue => "Found a bool that wasn't 0 or 1"
  | .refused => "Serde Deserialization Error"

/-- Takes a value off the front of its input. -/
abbrev Reader := StateT (List UInt8) (Except Fault)

/-- How many bytes a number of some width may take, and the largest value of the last. -/
structure Width where
  bytes : Nat
  last : Nat
  deriving DecidableEq, Repr

def width16 : Width := ⟨3, 3⟩

def width64 : Width := ⟨10, 1⟩

def writeNumber (n : Nat) : List UInt8 :=
  if n < 0x80 then [UInt8.ofNat n] else UInt8.ofNat (n % 0x80 + 0x80) :: writeNumber (n / 0x80)
termination_by n

/-- Reads at most `bytes` more bytes, of which the last is at most `last`. -/
def readDigits (last : Nat) : Nat → Reader Nat
  | 0, _ => .error .unterminated
  | _ + 1, [] => .error .endOfInput
  | bytes + 1, b :: rest =>
    if b.toNat < 0x80 then
      if bytes = 0 ∧ last < b.toNat then .error .unterminated else .ok (b.toNat, rest)
    else
      match readDigits last bytes rest with
      | .ok (high, rest) => .ok (b.toNat - 0x80 + 0x80 * high, rest)
      | .error e => .error e

def readNumber (w : Width) : Reader Nat := readDigits w.last w.bytes

def readByte : Reader UInt8
  | [] => .error .endOfInput
  | b :: rest => .ok (b, rest)

def writeTruth (b : Bool) : List UInt8 := [if b then 1 else 0]

def readTruth : Reader Bool
  | [] => .error .endOfInput
  | b :: rest =>
    if b = 0 then .ok (false, rest) else if b = 1 then .ok (true, rest) else .error .noTruthValue

def writeBytes (bytes : List UInt8) : List UInt8 := writeNumber bytes.length ++ bytes

def take (length : Nat) : Reader (List UInt8) := fun input =>
  if input.length < length then .error .endOfInput
  else .ok (input.take length, input.drop length)

def readBytes : Reader (List UInt8) := do take (← readNumber width64)

def writeBlock {size : Nat} (b : Block size) : List UInt8 := writeBytes b.toList

/-- A byte string of another length is read whole before it is refused. -/
def readBlock (size : Nat) : Reader (Block size) := do
  match Block.ofBytes? (← readBytes) with
  | some b => pure b
  | none => throw .refused

/-- What a reader finds at the front of `input`, whatever follows. -/
def front {α : Type} (r : Reader α) (input : List UInt8) : Except Fault α :=
  (r input).map Prod.fst

/-- One reader after another reads what the second finds in what the first leaves. -/
theorem bind_eq_ok_iff {α β : Type} {r : Reader α} {g : α → Reader β} {input rest : List UInt8} {b : β} :
    (r >>= g) input = .ok (b, rest)
      ↔ ∃ a middle, r input = .ok (a, middle) ∧ g a middle = .ok (b, rest) := by
  change (r input >>= fun p => g p.1 p.2) = _ ↔ _
  cases read : r input with
  | error fault =>
    constructor
    · intro h
      cases h
    · rintro ⟨a, middle, failed, -⟩
      cases failed
  | ok p =>
    constructor
    · intro h
      exact ⟨p.1, p.2, rfl, h⟩
    · rintro ⟨a, middle, first, second⟩
      cases first
      exact second

/-- Numbers below this fit into one byte up to `last` after `bytes` others. -/
def room (last : Nat) : Nat → Nat
  | 0 => last + 1
  | bytes + 1 => 0x80 * room last bytes

theorem readDigits_writeNumber (last bytes n : Nat) (rest : List UInt8) (hl : last < 0x80)
    (h : n < room last bytes) :
    readDigits last (bytes + 1) (writeNumber n ++ rest) = .ok (n, rest) := by
  induction bytes generalizing n with
  | zero =>
    have hn : n ≤ last := Nat.lt_succ_iff.mp h
    have hb : (UInt8.ofNat n).toNat = n := by
      simp only [UInt8.toNat_ofNat']
      omega
    rw [writeNumber, if_pos (by omega)]
    simp [readDigits, hb, show n < 0x80 by omega, show ¬ last < n by omega]
  | succ bytes ih =>
    by_cases hn : n < 0x80
    · have hb : (UInt8.ofNat n).toNat = n := by
        simp only [UInt8.toNat_ofNat']
        omega
      rw [writeNumber, if_pos hn]
      simp [readDigits, hb, hn]
    · have hb : (UInt8.ofNat (n % 0x80 + 0x80)).toNat = n % 0x80 + 0x80 := by
        simp only [UInt8.toNat_ofNat']
        omega
      have hr : n / 0x80 < room last bytes := by
        simp only [room] at h
        omega
      rw [writeNumber, if_neg hn, List.cons_append, readDigits, hb, ih _ hr]
      simp only [show ¬ n % 0x80 + 0x80 < 0x80 by omega, if_false]
      congr 2
      omega

/-- Every number of sixteen bits is read back. -/
theorem readNumber_width16 (n : Nat) (rest : List UInt8) (h : n < 0x10000) :
    readNumber width16 (writeNumber n ++ rest) = .ok (n, rest) :=
  readDigits_writeNumber 3 2 n rest (by decide) (by simpa [room] using h)

/-- Every number of sixty-four bits is read back. -/
theorem readNumber_width64 (n : Nat) (rest : List UInt8) (h : n < 0x10000000000000000) :
    readNumber width64 (writeNumber n ++ rest) = .ok (n, rest) :=
  readDigits_writeNumber 1 9 n rest (by decide) (by simpa [room] using h)

theorem take_append (bytes rest : List UInt8) :
    take bytes.length (bytes ++ rest) = .ok (bytes, rest) := by
  simp [take]

theorem readBytes_writeBytes (bytes rest : List UInt8) (h : bytes.length < 0x10000000000000000) :
    readBytes (writeBytes bytes ++ rest) = .ok (bytes, rest) := by
  have hn := readNumber_width64 bytes.length (bytes ++ rest) h
  simp only [readBytes, writeBytes, List.append_assoc, bind, StateT.bind, Except.bind, hn]
  exact take_append bytes rest

theorem readBlock_writeBlock {size : Nat} (b : Block size) (rest : List UInt8)
    (h : size < 0x10000000000000000) :
    readBlock size (writeBlock b ++ rest) = .ok (b, rest) := by
  have hb := readBytes_writeBytes b.toList rest (by simpa using h)
  simp only [readBlock, writeBlock, bind, StateT.bind, Except.bind, hb, Block.ofBytes?_toList]
  rfl

theorem readTruth_writeTruth (b : Bool) (rest : List UInt8) :
    readTruth (writeTruth b ++ rest) = .ok (b, rest) := by
  cases b <;> rfl

end PictureUnit.Wire
