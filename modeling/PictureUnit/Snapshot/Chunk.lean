import PictureUnit.Block

/-!
# Chunks

A saved state is a run of chunks. Each is a tag of four bytes, a length of four bytes from the
lowest up, and a payload of that length: one version byte and a body. A stream is cut into its
chunks first; it is broken when a header is cut short, when a payload is longer than what is
left, or when a payload has no version.
-/

set_option autoImplicit false

namespace PictureUnit.Snapshot

abbrev Tag := Block 4

def showTag (tag : Tag) : String := "[" ++ ", ".intercalate (tag.toList.map toString) ++ "]"

structure Chunk where
  tag : Tag
  version : UInt8
  body : List UInt8
  deriving DecidableEq, Repr

inductive FramingError where
  | truncatedHeader (offset : Nat)
  | truncatedChunk (tag : Tag) (offset length available : Nat)
  | emptyChunk (tag : Tag)
  deriving DecidableEq, Repr

def FramingError.message : FramingError → String
  | .truncatedHeader offset => s!"truncated chunk header at offset {offset}"
  | .truncatedChunk tag offset length available =>
    s!"chunk {showTag tag} at offset {offset} claims {length} bytes, {available} available"
  | .emptyChunk tag => s!"chunk {showTag tag} has an empty payload"

/-- Four bytes, the lowest first. -/
def lengthBytes (n : Nat) : List UInt8 :=
  [UInt8.ofNat n, UInt8.ofNat (n / 0x100), UInt8.ofNat (n / 0x10000), UInt8.ofNat (n / 0x1000000)]

def lengthOf (a b c d : UInt8) : Nat :=
  a.toNat + b.toNat * 0x100 + c.toNat * 0x10000 + d.toNat * 0x1000000

def Chunk.bytes (c : Chunk) : List UInt8 :=
  c.tag.toList ++ lengthBytes (c.body.length + 1) ++ c.version :: c.body

/-- The bytes of some chunks, one after the other. -/
def join (chunks : List Chunk) : List UInt8 := chunks.flatMap Chunk.bytes

/-- The tag and the length of the first chunk, and what follows its header. -/
def header? : List UInt8 → Option (Tag × Nat × List UInt8)
  | t₀ :: t₁ :: t₂ :: t₃ :: n₀ :: n₁ :: n₂ :: n₃ :: rest =>
    some (#v[t₀, t₁, t₂, t₃], lengthOf n₀ n₁ n₂ n₃, rest)
  | _ => none

theorem length_of_header? {data rest : List UInt8} {tag : Tag} {length : Nat}
    (h : header? data = some (tag, length, rest)) : data.length = rest.length + 8 := by
  unfold header? at h
  split at h
  · simp only [Option.some.injEq, Prod.mk.injEq] at h
    simp [h.2.2]
  · cases h

/-- Cuts a stream that begins at `offset` into its chunks. -/
def cut (offset : Nat) (data : List UInt8) : Except FramingError (List Chunk) :=
  if data = [] then .ok []
  else
    match _ : header? data with
    | none => .error (.truncatedHeader offset)
    | some (tag, length, rest) =>
      if rest.length < length then .error (.truncatedChunk tag offset length rest.length)
      else
        match rest.take length with
        | [] => .error (.emptyChunk tag)
        | version :: body =>
          match cut (offset + 8 + length) (rest.drop length) with
          | .ok chunks => .ok (⟨tag, version, body⟩ :: chunks)
          | .error e => .error e
termination_by data.length
decreasing_by
  have := length_of_header? (by assumption)
  simp only [List.length_drop]
  omega

def parse (data : List UInt8) : Except FramingError (List Chunk) := cut 0 data

theorem lengthOf_lengthBytes (n : Nat) (h : n < 0x100000000) :
    lengthOf (UInt8.ofNat n) (UInt8.ofNat (n / 0x100)) (UInt8.ofNat (n / 0x10000))
      (UInt8.ofNat (n / 0x1000000)) = n := by
  simp only [lengthOf, UInt8.toNat_ofNat']
  omega

theorem parse_nil : parse [] = .ok [] := by
  rw [parse, cut, if_pos rfl]

end PictureUnit.Snapshot
