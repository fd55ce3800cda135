import PictureUnit.Wire

/-!
# Blocks are read exactly

A block is read from bytes, from integers, or from the wire. None of the readers pads, cuts off or
misreads: what they accept has the length of the block and is its content. On the wire the length
stands in front, in any spelling that its width allows, and what follows the block is left.
-/

set_option autoImplicit false

namespace PictureUnit

namespace Block

variable {size : Nat}

/-- Takes the byte strings of one length and no others, each as it is. -/
structure Exact (read : List UInt8 → Option (Block size)) : Prop where
  accepts : ∀ bytes, (∃ b, read bytes = some b) ↔ bytes.length = size
  content : ∀ bytes b, read bytes = some b → b.toList = bytes

/-- The integer is a byte. -/
def Fits (value : Int) : Prop := 0 ≤ value ∧ value < 256

instance (value : Int) : Decidable (Fits value) :=
  inferInstanceAs (Decidable (0 ≤ value ∧ value < 256))

/-- Bytes as the integers that they are. -/
def items (bytes : List UInt8) : List Int := bytes.map fun b => (b.toNat : Int)

theorem ofBytes?_exact : Exact (ofBytes? : List UInt8 → Option (Block size)) where
  accepts bytes := by
    rw [← Option.isSome_iff_exists, ofBytes?_isSome, decide_eq_true_eq]
  content bytes b h := toList_of_ofBytes? h

theorem ofBytes_toOption (bytes : List UInt8) :
    (ofBytes bytes : Except Refusal (Block size)).toOption = ofBytes? bytes := by
  unfold ofBytes
  cases (ofBytes? bytes : Option (Block size)) <;> rfl

theorem ofBytes_of_length_ne {bytes : List UInt8} (h : bytes.length ≠ size) :
    (ofBytes bytes : Except Refusal (Block size)) = .error (.length bytes.length) := by
  rw [ofBytes, ofBytes?, dif_neg h]

theorem byte_of_fits {value : Int} (h : Fits value) : byte value = .ok (UInt8.ofNat value.toNat) :=
  if_pos h

theorem byte_of_not_fits {value : Int} (h : ¬ Fits value) : byte value = .error (.item value) :=
  if_neg h

theorem fits_of_byte (b : UInt8) : Fits (b.toNat : Int) := by
  have small := b.toNat_lt
  unfold Fits
  omega

theorem toNat_of_fits {value : Int} (h : Fits value) :
    ((UInt8.ofNat value.toNat).toNat : Int) = value := by
  unfold Fits at h
  rw [UInt8.toNat_ofNat']
  omega

/-- Integers that are bytes are taken as they are. -/
theorem mapM_byte {values : List Int} (h : ∀ v ∈ values, Fits v) :
    ∃ bytes, values.mapM byte = .ok bytes ∧ items bytes = values := by
  induction values with
  | nil => exact ⟨[], rfl, rfl⟩
  | cons v rest ih =>
    rw [List.forall_mem_cons] at h
    obtain ⟨bytes, read, same⟩ := ih h.2
    refine ⟨UInt8.ofNat v.toNat :: bytes, ?_, ?_⟩
    · rw [List.mapM_cons, byte_of_fits h.1, read]
      rfl
    · rw [items, List.map_cons, toNat_of_fits h.1]
      exact congrArg (v :: ·) same

/-- The first integer that is none is refused. -/
theorem mapM_byte_misfit {front back : List Int} {v : Int} (h : ∀ u ∈ front, Fits u)
    (misfit : ¬ Fits v) : (front ++ v :: back).mapM byte = .error (.item v) := by
  obtain ⟨bytes, read, -⟩ := mapM_byte h
  rw [List.mapM_append, read, List.mapM_cons, byte_of_not_fits misfit]
  rfl

theorem items_injective {bytes others : List UInt8} (h : items bytes = items others) :
    bytes = others :=
  (List.map_inj_right fun _ _ same => UInt8.toNat_inj.mp (Int.ofNat_inj.mp same)).mp h

theorem items_length (bytes : List UInt8) : (items bytes).length = bytes.length := List.length_map _

theorem items_fit (bytes : List UInt8) : ∀ v ∈ items bytes, Fits v := by
  intro v hv
  obtain ⟨b, -, rfl⟩ := List.mem_map.mp hv
  exact fits_of_byte b

/-- Of integers that are all bytes no more is looked at than tells their number. -/
theorem ofItems_of_fits {values : List Int} (h : ∀ v ∈ values.take (size + 1), Fits v) :
    ∃ bytes, items bytes = values.take (size + 1)
      ∧ (ofItems values : Except Refusal (Block size)) = ofBytes bytes := by
  obtain ⟨bytes, read, same⟩ := mapM_byte h
  refine ⟨bytes, same, ?_⟩
  rw [ofItems, read]
  rfl

/-- The first item that is no byte is refused, if it is not past the one that is too many. -/
theorem ofItems_misfit {front back : List Int} {v : Int} (early : front.length ≤ size)
    (h : ∀ u ∈ front, Fits u) (misfit : ¬ Fits v) :
    (ofItems (front ++ v :: back) : Except Refusal (Block size)) = .error (.item v) := by
  obtain ⟨more, room⟩ := Nat.exists_eq_add_of_le early
  have looked : (front ++ v :: back).take (size + 1) = front ++ v :: back.take more := by
    rw [List.take_append, List.take_of_length_le (by omega),
      show size + 1 - front.length = more + 1 by omega, List.take_succ_cons]
  rw [ofItems, looked, mapM_byte_misfit h misfit]
  rfl

/-- Items of another number are refused with their number, or one more than the right one. -/
theorem ofItems_of_length_ne {values : List Int} (h : ∀ v ∈ values.take (size + 1), Fits v)
    (other : values.length ≠ size) : (ofItems values : Except Refusal (Block size))
      = .error (.length (min values.length (size + 1))) := by
  obtain ⟨bytes, same, read⟩ := ofItems_of_fits h
  have length : bytes.length = min values.length (size + 1) := by
    rw [← items_length, same, List.length_take, Nat.min_comm]
  rw [read, ofBytes_of_length_ne (by omega), length]

theorem ofItems_items (bytes : List UInt8) :
    (ofItems (items bytes) : Except Refusal (Block size)).toOption = ofBytes? bytes := by
  by_cases right : bytes.length = size
  · have all : (items bytes).take (size + 1) = items bytes :=
      List.take_of_length_le (by rw [items_length]; omega)
    have fit : ∀ v ∈ (items bytes).take (size + 1), Fits v := fun v hv =>
      items_fit bytes v (List.mem_of_mem_take hv)
    obtain ⟨others, same, read⟩ := ofItems_of_fits fit
    rw [read, items_injective (same.trans all), ofBytes_toOption]
  · rw [ofItems_of_length_ne (fun v hv => items_fit bytes v (List.mem_of_mem_take hv))
      (by rwa [items_length]), ofBytes?, dif_neg right]
    rfl

end Block

namespace Wire

/-- The number made of the low seven bits of these bytes, from the lowest up. -/
def value : List UInt8 → Nat
  | [] => 0
  | b :: rest => b.toNat % 0x80 + 0x80 * value rest

/-- A spelling of a number: only its last byte has the top bit clear, and it has neither more bytes nor,
if it has as many, more bits than the width allows. -/
structure Spells (w : Width) (digits : List UInt8) (n : Nat) : Prop where
  ends : ∃ front last, digits = front ++ [last] ∧ (∀ b ∈ front, 0x80 ≤ b.toNat) ∧ last.toNat < 0x80
    ∧ (digits.length = w.bytes → last.toNat ≤ w.last)
  length : digits.length ≤ w.bytes
  value : value digits = n

variable {last bytes n size : Nat} {input rest : List UInt8}

theorem Spells.single {w : Width} {b : UInt8} (low : b.toNat < 0x80) (room : 1 ≤ w.bytes)
    (fits : w.bytes = 1 → b.toNat ≤ w.last) : Spells w [b] b.toNat where
  ends := ⟨[], b, rfl, List.forall_mem_nil _, low, fun full => fits full.symm⟩
  length := room
  value := Nat.mod_eq_of_lt low

theorem Spells.cons {digits : List UInt8} {b : UInt8} (high : 0x80 ≤ b.toNat)
    (h : Spells ⟨bytes, last⟩ digits n) :
    Spells ⟨bytes + 1, last⟩ (b :: digits) (b.toNat - 0x80 + 0x80 * n) where
  ends := by
    obtain ⟨front, final, rfl, more, low, fits⟩ := h.ends
    refine ⟨b :: front, final, rfl, List.forall_mem_cons.mpr ⟨high, more⟩, low, fun full => fits ?_⟩
    exact Nat.succ.inj full
  length := Nat.succ_le_succ h.length
  value := by
    have small := b.toNat_lt
    rw [Wire.value, h.value]
    omega

/-- A spelling is one byte, or a byte with the top bit set and a shorter spelling. -/
theorem Spells.cases {digits : List UInt8} (h : Spells ⟨bytes + 1, last⟩ digits n) :
    (∃ b, digits = [b] ∧ n = b.toNat ∧ b.toNat < 0x80 ∧ (bytes = 0 → b.toNat ≤ last))
      ∨ ∃ b tail m, digits = b :: tail ∧ 0x80 ≤ b.toNat ∧ Spells ⟨bytes, last⟩ tail m
        ∧ n = b.toNat - 0x80 + 0x80 * m := by
  obtain ⟨front, final, rfl, more, low, fits⟩ := h.ends
  have length := h.length
  cases front with
  | nil =>
    refine .inl ⟨final, rfl, ?_, low, fun alone => fits (by rw [alone]; rfl)⟩
    rw [← h.value]
    exact Nat.mod_eq_of_lt low
  | cons b front =>
    rw [List.forall_mem_cons] at more
    have small := b.toNat_lt
    refine .inr ⟨b, front ++ [final], Wire.value (front ++ [final]), rfl, more.1, ⟨?_, ?_, rfl⟩, ?_⟩
    · exact ⟨front, final, rfl, more.2, low, fun full => fits (congrArg (· + 1) full)⟩
    · exact Nat.le_of_succ_le_succ length
    · rw [← h.value, List.cons_append, Wire.value]
      omega

/-- A number is read exactly where one is spelled. -/
theorem readDigits_eq_ok_iff : readDigits last bytes input = .ok (n, rest)
    ↔ ∃ digits, Spells ⟨bytes, last⟩ digits n ∧ input = digits ++ rest := by
  constructor
  · intro h
    fun_induction readDigits last bytes input generalizing n rest with
    | case1 | case2 | case3 => cases h
    | case4 bytes b input low fits =>
      cases h
      refine ⟨[b], .single low (Nat.succ_le_succ (Nat.zero_le _)) fun alone => ?_, rfl⟩
      exact Nat.not_lt.mp fun large => fits ⟨Nat.succ.inj alone, large⟩
    | case5 bytes b input high m tail read ih =>
      cases h
      obtain ⟨digits, spells, rfl⟩ := ih read
      exact ⟨b :: digits, spells.cons (Nat.not_lt.mp high), rfl⟩
    | case6 => cases h
  · rintro ⟨digits, spells, rfl⟩
    induction bytes generalizing digits n with
    | zero =>
      obtain ⟨front, final, rfl, -⟩ := spells.ends
      have length := spells.length
      rw [List.length_append] at length
      exact absurd length (Nat.not_succ_le_zero _)
    | succ bytes ih =>
      obtain ⟨b, rfl, rfl, low, fits⟩ | ⟨b, tail, m, rfl, high, shorter, rfl⟩ := spells.cases
      · have room : ¬ (bytes = 0 ∧ last < b.toNat) := fun large => Nat.not_lt.mpr (fits large.1) large.2
        rw [List.singleton_append, readDigits, if_pos low, if_neg room]
      · rw [List.cons_append, readDigits, if_neg (Nat.not_lt.mpr high), ih tail shorter]

theorem take_eq_ok_iff {taken : List UInt8} :
    take n input = .ok (taken, rest) ↔ input = taken ++ rest ∧ taken.length = n := by
  constructor
  · intro h
    unfold take at h
    split at h
    · cases h
    · next enough =>
      cases h
      exact ⟨(List.take_append_drop n input).symm, List.length_take_of_le (Nat.not_lt.mp enough)⟩
  · rintro ⟨rfl, rfl⟩
    exact take_append taken rest

/-- A byte string is read exactly where its length is spelled and it follows. -/
theorem readBytes_eq_ok_iff {taken : List UInt8} : readBytes input = .ok (taken, rest)
    ↔ ∃ digits, Spells width64 digits taken.length ∧ input = digits ++ (taken ++ rest) := by
  rw [readBytes, bind_eq_ok_iff]
  constructor
  · rintro ⟨length, left, number, following⟩
    obtain ⟨digits, spells, rfl⟩ := readDigits_eq_ok_iff.mp number
    obtain ⟨rfl, rfl⟩ := take_eq_ok_iff.mp following
    exact ⟨digits, spells, rfl⟩
  · rintro ⟨digits, spells, rfl⟩
    exact ⟨taken.length, taken ++ rest, readDigits_eq_ok_iff.mpr ⟨digits, spells, rfl⟩,
      take_append taken rest⟩

/-- A block is read exactly where its size is spelled and its bytes follow. -/
theorem readBlock_eq_ok_iff {b : Block size} : readBlock size input = .ok (b, rest)
    ↔ ∃ digits, Spells width64 digits size ∧ input = digits ++ (b.toList ++ rest) := by
  rw [readBlock, bind_eq_ok_iff]
  constructor
  · rintro ⟨taken, left, read, accepted⟩
    obtain ⟨digits, spells, rfl⟩ := readBytes_eq_ok_iff.mp read
    cases made : (Block.ofBytes? taken : Option (Block size)) with
    | none =>
      rw [made] at accepted
      cases accepted
    | some block =>
      rw [made] at accepted
      cases accepted
      rw [← Block.toList_of_ofBytes? made] at spells ⊢
      rw [Vector.length_toList] at spells
      exact ⟨digits, spells, rfl⟩
  · rintro ⟨digits, spells, rfl⟩
    refine ⟨b.toList, rest, readBytes_eq_ok_iff.mpr ⟨digits, by rwa [Vector.length_toList], rfl⟩, ?_⟩
    rw [Block.ofBytes?_toList]
    rfl

/-- Blocks of every size are read exactly: from bytes or from integers, if there are as many as the block
has, and then they are its content. Of integers the first that is no byte is refused, and otherwise too
few are told by their number and too many by one more than the size. A block that was written, with a
size of sixty-four bits as all sizes have, is read back, whatever follows. On the wire a block is read if
its size is spelled and as many bytes follow, and it is these. -/
theorem blocks_exact (size : Nat) :
    Block.Exact (Block.ofBytes? : List UInt8 → Option (Block size))
    ∧ Block.Exact (fun bytes => (Block.ofBytes bytes).toOption : List UInt8 → Option (Block size))
    ∧ Block.Exact (fun bytes => (Block.ofItems (Block.items bytes)).toOption :
        List UInt8 → Option (Block size))
    ∧ (∀ front v back, front.length ≤ size → (∀ u ∈ front, Block.Fits u) → ¬ Block.Fits v →
      (Block.ofItems (front ++ v :: back) : Except _ (Block size)) = .error (.item v))
    ∧ (∀ values, (∀ v ∈ values.take (size + 1), Block.Fits v) → values.length < size →
      (Block.ofItems values : Except _ (Block size)) = .error (.length values.length))
    ∧ (∀ values, (∀ v ∈ values.take (size + 1), Block.Fits v) → size < values.length →
      (Block.ofItems values : Except _ (Block size)) = .error (.length (size + 1)))
    ∧ (size < 0x10000000000000000 → ∀ (b : Block size) (extra : List UInt8),
      readBlock size (writeBlock b ++ extra) = .ok (b, extra))
    ∧ (∀ input, (∃ b rest, readBlock size input = .ok (b, rest))
      ↔ ∃ digits body, Spells width64 digits size ∧ input = digits ++ body ∧ size ≤ body.length)
    ∧ ∀ input b rest, readBlock size input = .ok (b, rest)
      ↔ ∃ digits, Spells width64 digits size ∧ input = digits ++ (b.toList ++ rest) := by
  have exact : Block.Exact (Block.ofBytes? : List UInt8 → Option (Block size)) := Block.ofBytes?_exact
  refine ⟨exact, ?bytes, ?items, fun front v back early fits misfit => Block.ofItems_misfit early fits misfit,
    fun values fits few => ?few, fun values fits many => ?many, fun small b extra =>
    readBlock_writeBlock b extra small, fun input => ⟨?taken, ?present⟩, fun input b rest => readBlock_eq_ok_iff⟩
  case bytes =>
    rw [funext Block.ofBytes_toOption]
    exact exact
  case items =>
    rw [funext Block.ofItems_items]
    exact exact
  case few => rw [Block.ofItems_of_length_ne fits (Nat.ne_of_lt few), Nat.min_eq_left (by omega)]
  case many => rw [Block.ofItems_of_length_ne fits (Nat.ne_of_gt many), Nat.min_eq_right many]
  case taken =>
    rintro ⟨b, rest, read⟩
    obtain ⟨digits, spells, rfl⟩ := readBlock_eq_ok_iff.mp read
    refine ⟨digits, _, spells, rfl, ?_⟩
    rw [List.length_append, Vector.length_toList]
    exact Nat.le_add_right _ _
  case present =>
    rintro ⟨digits, body, spells, rfl, enough⟩
    obtain ⟨b, made⟩ := (exact.accepts (body.take size)).mpr (List.length_take_of_le enough)
    refine ⟨b, body.drop size, readBlock_eq_ok_iff.mpr ⟨digits, spells, ?_⟩⟩
    rw [exact.content _ b made, List.take_append_drop]

/-- A block of two bytes: one item past the end is no byte, the size is spelled longer than it has to be,
and a byte follows. -/
theorem blocks_exact_pair :
    (Block.ofItems [1, 2, 300, -1] : Except _ (Block 2)) = .error (.item 300)
    ∧ (Block.ofItems [1, 2, 3, 300] : Except _ (Block 2)) = .error (.length 3)
    ∧ (Block.ofItems [1] : Except _ (Block 2)) = .error (.length 1)
    ∧ readBlock 2 (writeBlock #v[7, 9] ++ [1]) = .ok (#v[7, 9], [1])
    ∧ readBlock 2 [0x82, 0x80, 0x00, 7, 9, 1] = .ok (#v[7, 9], [1]) := by
  obtain ⟨-, -, -, misfit, few, many, back, -, read⟩ := blocks_exact 2
  refine ⟨misfit [1, 2] 300 [-1] (by decide) ?_ ?_, many [1, 2, 3, 300] ?_ (by decide), few [1] ?_ (by decide),
    back (by decide) #v[7, 9] [1], (read _ _ _).mpr ⟨[0x82, 0x80, 0x00], ⟨?_, by decide, by decide⟩, rfl⟩⟩
  · decide
  · decide
  · decide
  · decide
  · have more : ∀ b ∈ [0x82, 0x80], 0x80 ≤ UInt8.toNat b :=
      List.forall_mem_cons.mpr ⟨by decide, List.forall_mem_singleton.mpr (by decide)⟩
    exact ⟨[0x82, 0x80], 0, rfl, more, by decide, by decide⟩

end Wire

end PictureUnit
