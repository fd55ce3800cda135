import PictureUnit.Proofs.Grammar
import PictureUnit.Snapshot

/-!
# Saved states are understood

Every section that a machine saves is read back as it was, and the stream is cut into the chunks it
was joined from. So a loaded state is a reset machine with the saved sections applied.
-/

set_option autoImplicit false

namespace PictureUnit.Snapshot

theorem readByte_cons (b : UInt8) (rest : List UInt8) : Wire.readByte (b :: rest) = .ok (b, rest) :=
  rfl

theorem toNat_ofNat_fin {n : Nat} (h : n ≤ 0x100) (i : Fin n) : (UInt8.ofNat i.val).toNat = i.val := by
  have := i.isLt
  simp only [UInt8.toNat_ofNat']
  omega

theorem readRegisters_writeRegisters (r : Registers) :
    readRegisters (writeRegisters r) = .ok (r, []) := by
  obtain ⟨control, mask, status, objectAddress, ⟨current, pending, fineX, second⟩, buffer, lines⟩ := r
  have fine : Scroll.Address.fine (UInt8.ofNat fineX.val).toNat = fineX := by
    rw [toNat_ofNat_fin (by decide) fineX]
    exact wrap_val fineX _
  have number (a : Scroll.Address) (rest : List UInt8) :
      Wire.readNumber Wire.width16 (Wire.writeNumber a.raw ++ rest) = .ok (a.raw, rest) :=
    Wire.readNumber_width16 a.raw rest (Nat.lt_trans a.raw_lt (by decide))
  have truth (rest : List UInt8) :
      Wire.readTruth (Wire.writeTruth second ++ rest) = .ok (second, rest) :=
    Wire.readTruth_writeTruth second rest
  simp only [readRegisters, writeRegisters, bind, StateT.bind, Except.bind, List.cons_append,
    List.nil_append, List.append_assoc, readByte_cons, number, truth,
    Status.ofBits_bits, Scroll.Address.ofRaw_raw, fine]
  rfl

theorem readBlock_writeBlock_nil {size : Nat} (b : Block size) (h : size < 0x10000000000000000) :
    Wire.readBlock size (Wire.writeBlock b) = .ok (b, []) := by
  have read := Wire.readBlock_writeBlock b [] h
  rwa [List.append_nil] at read

/-- Every section is read back from its body. -/
theorem reader_body (s : Section) : Section.reader s.kind s.body = .ok (s, []) := by
  cases s with
  | registers r =>
    have read := readRegisters_writeRegisters r
    simp only [Section.reader, Section.kind, Section.body, Functor.map, StateT.map, bind, Except.bind,
      read]
    rfl
  | palette entries =>
    have read := readBlock_writeBlock_nil entries (by decide)
    simp only [Section.reader, Section.kind, Section.body, Functor.map, StateT.map, bind, Except.bind,
      read]
    rfl
  | objects memory =>
    have read := readBlock_writeBlock_nil memory (by decide)
    simp only [Section.reader, Section.kind, Section.body, Functor.map, StateT.map, bind, Except.bind,
      read]
    rfl
  | nametables internal =>
    have read := readBlock_writeBlock_nil internal (by decide)
    simp only [Section.reader, Section.kind, Section.body, Functor.map, StateT.map, bind, Except.bind,
      read]
    rfl
  | parity odd burst =>
    have read := Wire.readTruth_writeTruth odd [UInt8.ofNat burst.val]
    have phase : Burst.ofNat (UInt8.ofNat burst.val).toNat = burst := by
      rw [toNat_ofNat_fin (by decide) burst]
      exact wrap_val burst _
    simp only [Section.reader, Section.kind, Section.body, bind, StateT.bind, Except.bind, read,
      readByte_cons, phase]
    rfl
  | warmUp pending => cases pending <;> rfl

theorem writeNumber_length_le (n : Nat) : (Wire.writeNumber n).length ≤ n + 1 := by
  fun_induction Wire.writeNumber n with
  | case1 n small => simp
  | case2 n large ih =>
    rw [List.length_cons]
    omega

theorem writeBlock_length_le {size : Nat} (b : Block size) :
    (Wire.writeBlock b).length ≤ 2 * size + 1 := by
  have counted := writeNumber_length_le b.toList.length
  rw [Vector.length_toList] at counted
  simp only [Wire.writeBlock, Wire.writeBytes, List.length_append, Vector.length_toList]
  omega

/-- Every section is short enough for the length in its header. -/
theorem body_length_lt (s : Section) : s.body.length + 1 < 0x100000000 := by
  have block {size : Nat} (b : Block size) (h : size ≤ 0x1000) :
      (Wire.writeBlock b).length + 1 < 0x100000000 := by
    have := writeBlock_length_le b
    omega
  cases s with
  | registers r =>
    have current := writeNumber_length_le r.scroll.current.raw
    have pending := writeNumber_length_le r.scroll.pending.raw
    have := r.scroll.current.raw_lt
    have := r.scroll.pending.raw_lt
    simp only [Section.body, writeRegisters, List.length_append, List.length_cons, List.length_nil,
      Wire.writeTruth]
    omega
  | palette entries => exact block entries (by decide)
  | objects memory => exact block memory (by decide)
  | nametables internal => exact block internal (by decide)
  | parity odd burst =>
    simp only [Section.body, Wire.writeTruth, List.length_append, List.length_cons, List.length_nil]
    omega
  | warmUp pending =>
    simp only [Section.body, Wire.writeTruth, List.length_cons, List.length_nil]
    omega

/-- Every section is understood. -/
theorem understand_chunk (s : Section) : s.chunk.understand = .ok s := by
  have read := reader_body s
  simp only [Chunk.understand, Section.chunk, Kind.ofTag?_tag, if_true, Wire.front, read]
  rfl

/-- The chunks of some sections are found again. -/
theorem parse_sections (ss : List Section) :
    parse (join (ss.map Section.chunk)) = .ok (ss.map Section.chunk) := by
  apply parse_join
  intro c hc
  obtain ⟨s, -, rfl⟩ := List.mem_map.mp hc
  exact body_length_lt s

end PictureUnit.Snapshot

namespace PictureUnit.Machine

open Snapshot

variable {κ : Type}

theorem applyChunks_sections (ss : List Section) (m : Machine κ) :
    m.applyChunks (ss.map Section.chunk) = (ss.foldl apply m, []) := by
  induction ss generalizing m with
  | nil => rfl
  | cons s rest ih => simp only [List.map_cons, applyChunks, understand_chunk, ih, List.foldl_cons]

/-- Chunks that were made from sections restore them. -/
theorem restore_sections (ss : List Section) (m : Machine κ) :
    m.restore (ss.map Section.chunk) = ((ss.foldl apply (m.reset .cold)).withCircuit
      fun c => c.setMask c.registers.mask, []) := by
  simp only [restore, applyChunks_sections]

/-- What is made of sections loads whole. -/
theorem load_join {m : Machine κ} (hf : m.inFrame = false) (ss : List Section) :
    m.load (join (ss.map Section.chunk)) = .ok (.ok ((ss.foldl apply (m.reset .cold)).withCircuit
      fun c => c.setMask c.registers.mask, [])) := by
  rw [load, hf, parse_sections]
  simp only [Except.map, restore_sections]
  rfl

end PictureUnit.Machine
