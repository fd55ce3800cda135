import PictureUnit.Snapshot.Chunk

/-!
# The grammar of a stream

The bytes that chunks spell are described here without the loop that cuts them: a header of a tag
and a length, then a version, then as many bytes of body as the length leaves. What the loop finds
in a stream is compared with that. From the first chunk on it takes exactly the longest front
that spells chunks, and where it stops short of the end, the fault it reports is the reason why no
chunk begins there.
-/

set_option autoImplicit false

namespace PictureUnit.Snapshot

/-- Eight bytes in front of `rest`: a tag, and a length from its lowest byte up. -/
def Heads (tag : Tag) (length : Nat) (data rest : List UInt8) : Prop :=
  ∃ n₀ n₁ n₂ n₃, lengthOf n₀ n₁ n₂ n₃ = length ∧ data = tag.toList ++ [n₀, n₁, n₂, n₃] ++ rest

/-- The chunk stands in front of `rest`. -/
def Begins (c : Chunk) (data rest : List UInt8) : Prop :=
  Heads c.tag (c.body.length + 1) data (c.version :: c.body ++ rest)

/-- The bytes are those of the chunks, one chunk after the other and nothing else. -/
inductive Spells : List UInt8 → List Chunk → Prop
  | nil : Spells [] []
  | cons {c : Chunk} {chunks : List Chunk} {data rest : List UInt8} :
      Begins c data rest → Spells rest chunks → Spells data (c :: chunks)

/-- Why no chunk begins at `offset`, where a stream goes on with `data`. -/
inductive Breaks (offset : Nat) (data : List UInt8) : FramingError → Prop
  | header : data ≠ [] → data.length < 8 → Breaks offset data (.truncatedHeader offset)
  | payload {tag : Tag} {length : Nat} {rest : List UInt8} : Heads tag length data rest →
      rest.length < length → Breaks offset data (.truncatedChunk tag offset length rest.length)
  | version {tag : Tag} {rest : List UInt8} : Heads tag 0 data rest →
      Breaks offset data (.emptyChunk tag)

/-- `front` is the longest front of `data` that spells chunks, and `rest` follows it. -/
structure LongestFront (data front rest : List UInt8) (chunks : List Chunk) : Prop where
  whole : data = front ++ rest
  spelled : Spells front chunks
  longest : ∀ other after more, data = other ++ after → Spells other more →
    other.length ≤ front.length

/-! ## Headers -/

theorem Heads.header? {tag : Tag} {length : Nat} {data rest : List UInt8}
    (h : Heads tag length data rest) : header? data = some (tag, length, rest) := by
  obtain ⟨n₀, n₁, n₂, n₃, rfl, rfl⟩ := h
  obtain ⟨⟨bytes⟩, size⟩ := tag
  match bytes, size with
  | [t₀, t₁, t₂, t₃], _ => rfl

theorem Heads.of_header? {tag : Tag} {length : Nat} {data rest : List UInt8}
    (h : Snapshot.header? data = some (tag, length, rest)) : Heads tag length data rest := by
  unfold Snapshot.header? at h
  split at h
  · next t₀ t₁ t₂ t₃ n₀ n₁ n₂ n₃ after =>
    simp only [Option.some.injEq, Prod.mk.injEq] at h
    obtain ⟨rfl, rfl, rfl⟩ := h
    exact ⟨n₀, n₁, n₂, n₃, rfl, rfl⟩
  · cases h

theorem length_lt_of_header? {data : List UInt8} (h : header? data = none) : data.length < 8 := by
  unfold header? at h
  split at h
  · cases h
  · next short =>
    match data, short with
    | [], _ | [_], _ | [_, _], _ | [_, _, _], _ | [_, _, _, _], _ | [_, _, _, _, _], _
    | [_, _, _, _, _, _], _ | [_, _, _, _, _, _, _], _ => simp
    | t₀ :: t₁ :: t₂ :: t₃ :: n₀ :: n₁ :: n₂ :: n₃ :: rest, short =>
      exact absurd rfl (short t₀ t₁ t₂ t₃ n₀ n₁ n₂ n₃ rest)

theorem Heads.length_eq {tag : Tag} {length : Nat} {data rest : List UInt8}
    (h : Heads tag length data rest) : data.length = rest.length + 8 :=
  length_of_header? h.header?

/-- A stream has one header. -/
theorem Heads.unique {tag tag' : Tag} {length length' : Nat} {data rest rest' : List UInt8}
    (h : Heads tag length data rest) (h' : Heads tag' length' data rest') :
    tag = tag' ∧ length = length' ∧ rest = rest' := by
  have same := h.header?.symm.trans h'.header?
  simpa only [Option.some.injEq, Prod.mk.injEq] using same

theorem Heads.append {tag : Tag} {length : Nat} {data rest : List UInt8}
    (h : Heads tag length data rest) (more : List UInt8) :
    Heads tag length (data ++ more) (rest ++ more) := by
  obtain ⟨n₀, n₁, n₂, n₃, said, rfl⟩ := h
  exact ⟨n₀, n₁, n₂, n₃, said, by rw [List.append_assoc]⟩

/-! ## The first chunk -/

theorem Begins.length_eq {c : Chunk} {data rest : List UInt8} (h : Begins c data rest) :
    data.length = 8 + (c.body.length + 1) + rest.length := by
  have := Heads.length_eq h
  rw [List.length_append, List.length_cons] at this
  omega

theorem Begins.append {c : Chunk} {data rest : List UInt8} (h : Begins c data rest)
    (more : List UInt8) : Begins c (data ++ more) (rest ++ more) := by
  have longer := Heads.append h more
  rwa [List.append_assoc] at longer

/-- The length in the header says where the first chunk ends. -/
theorem Begins.unique {c c' : Chunk} {data rest rest' : List UInt8} (h : Begins c data rest)
    (h' : Begins c' data rest') : c = c' ∧ rest = rest' := by
  obtain ⟨tags, lengths, payloads⟩ := Heads.unique h h'
  obtain ⟨payload, rests⟩ := List.append_inj payloads (by simpa using lengths)
  obtain ⟨tag, version, body⟩ := c
  obtain ⟨tag', version', body'⟩ := c'
  obtain ⟨versions, bodies⟩ := List.cons.inj payload
  exact ⟨by rw [Chunk.mk.injEq]; exact ⟨tags, versions, bodies⟩, rests⟩

/-- Where a stream breaks, no chunk begins. -/
theorem Breaks.not_begins {offset : Nat} {data : List UInt8} {fault : FramingError}
    (h : Breaks offset data fault) (c : Chunk) (rest : List UInt8) : ¬Begins c data rest := by
  intro begun
  cases h with
  | header _ short =>
    have := begun.length_eq
    omega
  | payload headed short =>
    obtain ⟨-, rfl, rfl⟩ := Heads.unique headed begun
    simp only [List.length_append, List.length_cons] at short
    omega
  | version headed =>
    obtain ⟨-, none, -⟩ := Heads.unique headed begun
    cases none

/-- A stream that goes on breaks, or a chunk begins. -/
theorem begins_or_breaks (offset : Nat) {data : List UInt8} (h : data ≠ []) :
    (∃ fault, Breaks offset data fault) ∨ ∃ c rest, Begins c data rest := by
  cases found : header? data with
  | none => exact .inl ⟨_, .header h (length_lt_of_header? found)⟩
  | some header =>
    obtain ⟨tag, length, payload⟩ := header
    have headed := Heads.of_header? found
    by_cases short : payload.length < length
    · exact .inl ⟨_, .payload headed short⟩
    · cases taken : payload.take length with
      | nil =>
        have none : length = 0 := by
          have := congrArg List.length taken
          rw [List.length_take, List.length_nil] at this
          omega
        subst none
        exact .inl ⟨_, .version headed⟩
      | cons version body =>
        have whole : payload = version :: body ++ payload.drop length := by
          rw [← taken, List.take_append_drop]
        have counted : length = body.length + 1 := by
          have := congrArg List.length taken
          rw [List.length_take, List.length_cons] at this
          omega
        refine .inr ⟨⟨tag, version, body⟩, payload.drop length, ?_⟩
        rw [Begins, ← whole, ← counted]
        exact headed

/-! ## What the loop does with one chunk -/

theorem cut_nil (offset : Nat) : cut offset [] = .ok [] := by
  rw [cut, if_pos rfl]

theorem cut_of_header? {offset : Nat} {data rest : List UInt8} {tag : Tag} {length : Nat}
    (h : header? data = some (tag, length, rest)) :
    cut offset data =
      if rest.length < length then .error (.truncatedChunk tag offset length rest.length)
      else
        match rest.take length with
        | [] => .error (.emptyChunk tag)
        | version :: body =>
          match cut (offset + 8 + length) (rest.drop length) with
          | .ok chunks => .ok (⟨tag, version, body⟩ :: chunks)
          | .error e => .error e := by
  have some_bytes : data ≠ [] := by
    intro none
    rw [none] at h
    cases h
  rw [cut, if_neg some_bytes]
  split
  · next none =>
    rw [h] at none
    cases none
  · next shown =>
    rw [h] at shown
    simp only [Option.some.injEq, Prod.mk.injEq] at shown
    obtain ⟨rfl, rfl, rfl⟩ := shown
    rfl

/-- The loop takes the chunk that begins and goes on behind it. -/
theorem Begins.cut {c : Chunk} {data rest : List UInt8} (h : Begins c data rest) (offset : Nat) :
    cut offset data
      = (Snapshot.cut (offset + (8 + (c.body.length + 1))) rest).map (c :: ·) := by
  have taken : (c.version :: c.body ++ rest).take (c.body.length + 1) = c.version :: c.body := by
    simp
  have left : (c.version :: c.body ++ rest).drop (c.body.length + 1) = rest := by simp
  rw [cut_of_header? (Heads.header? h), if_neg (by simp), taken, left, Nat.add_assoc]
  cases Snapshot.cut (offset + (8 + (c.body.length + 1))) rest <;> rfl

/-- The loop reports why no chunk begins. -/
theorem Breaks.cut {offset : Nat} {data : List UInt8} {fault : FramingError}
    (h : Breaks offset data fault) : cut offset data = .error fault := by
  cases h with
  | header some_bytes short =>
    rw [Snapshot.cut, if_neg some_bytes]
    split
    · rfl
    · next shown =>
      have := length_of_header? shown
      omega
  | payload headed short => rw [cut_of_header? headed.header?, if_pos short]
  | version headed => rw [cut_of_header? headed.header?, if_neg (Nat.not_lt_zero _), List.take_zero]

theorem Breaks.unique {offset : Nat} {data : List UInt8} {fault fault' : FramingError}
    (h : Breaks offset data fault) (h' : Breaks offset data fault') : fault = fault' := by
  have same := h.cut.symm.trans h'.cut
  simpa only [Except.error.injEq] using same

/-! ## Runs of chunks -/

/-- Nine bytes at least for each chunk. -/
theorem Spells.length_le {data : List UInt8} {chunks : List Chunk} (h : Spells data chunks) :
    9 * chunks.length ≤ data.length := by
  induction h with
  | nil => exact Nat.le_refl 0
  | cons begun _ ih =>
    have := begun.length_eq
    rw [List.length_cons]
    omega

/-- The loop comes through the chunks that are spelled and stands behind them. -/
theorem Spells.cut_append {front : List UInt8} {chunks : List Chunk} (h : Spells front chunks)
    (offset : Nat) (rest : List UInt8) :
    cut offset (front ++ rest) = (cut (offset + front.length) rest).map (chunks ++ ·) := by
  induction h generalizing offset with
  | nil => cases found : cut offset rest <;> simp [found, Except.map]
  | @cons c chunks data after begun _ ih =>
    have shift : offset + (8 + (c.body.length + 1)) + after.length = offset + data.length := by
      rw [begun.length_eq]
      omega
    rw [(begun.append rest).cut offset, ih, shift]
    cases cut (offset + data.length) rest <;> rfl

theorem Spells.cut {data : List UInt8} {chunks : List Chunk} (h : Spells data chunks)
    (offset : Nat) : cut offset data = .ok chunks := by
  have through := h.cut_append offset []
  rwa [List.append_nil, cut_nil, Except.map, List.append_nil] at through

/-- Where no chunk begins any more, the front before is the longest. -/
theorem Spells.le_of_stuck {front rest : List UInt8} {chunks : List Chunk} (h : Spells front chunks)
    (stuck : ∀ c after, ¬Begins c rest after) {other after : List UInt8} {more : List Chunk}
    (whole : front ++ rest = other ++ after) (spelled : Spells other more) :
    other.length ≤ front.length := by
  induction h generalizing other more with
  | nil =>
    cases spelled with
    | nil => exact Nat.le_refl 0
    | cons begun _ =>
      have here := begun.append after
      rw [← whole, List.nil_append] at here
      exact absurd here (stuck _ _)
  | cons begun _ ih =>
    cases spelled with
    | nil => exact Nat.zero_le _
    | cons begun' spelled' =>
      have here := begun'.append after
      rw [← whole] at here
      obtain ⟨rfl, same⟩ := (begun.append rest).unique here
      have := ih same spelled'
      rw [begun.length_eq, begun'.length_eq]
      omega

/-- Every stream has a front that spells chunks and that ends with the stream or where it breaks. -/
theorem exists_front (offset : Nat) (data : List UInt8) :
    ∃ front rest chunks, data = front ++ rest ∧ Spells front chunks
      ∧ (rest = [] ∨ ∃ fault, Breaks (offset + front.length) rest fault) := by
  by_cases ended : data = []
  · exact ⟨[], data, [], rfl, .nil, .inl ended⟩
  · obtain broken | ⟨c, after, begun⟩ := begins_or_breaks offset ended
    · exact ⟨[], data, [], rfl, .nil, .inr broken⟩
    · obtain ⟨front, rest, chunks, rfl, spelled, stop⟩ :=
        exists_front (offset + (8 + (c.body.length + 1))) after
      obtain ⟨n₀, n₁, n₂, n₃, said, shown⟩ := begun
      have first : Begins c
          (c.tag.toList ++ [n₀, n₁, n₂, n₃] ++ (c.version :: c.body ++ front)) front :=
        ⟨n₀, n₁, n₂, n₃, said, rfl⟩
      refine ⟨_, rest, c :: chunks, ?_, .cons first spelled, ?_⟩
      · rw [shown]
        simp only [List.append_assoc, List.cons_append]
      · rwa [first.length_eq, ← Nat.add_assoc]
termination_by data.length
decreasing_by
  have := begun.length_eq
  omega

/-- The front before the end or before a break is the longest. -/
theorem Spells.longestFront {front rest : List UInt8} {chunks : List Chunk} {offset : Nat}
    (h : Spells front chunks) (stop : rest = [] ∨ ∃ fault, Breaks offset rest fault) :
    LongestFront (front ++ rest) front rest chunks := by
  refine ⟨rfl, h, fun other after more whole spelled => h.le_of_stuck ?_ whole spelled⟩
  intro c after begun
  obtain rfl | ⟨fault, broken⟩ := stop
  · have := begun.length_eq
    rw [List.length_nil] at this
    omega
  · exact broken.not_begins c after begun

/-- Two fronts of one length are one front. -/
theorem LongestFront.unique {data front front' rest rest' : List UInt8}
    {chunks chunks' : List Chunk} (h : LongestFront data front rest chunks)
    (h' : LongestFront data front' rest' chunks') : front = front' ∧ rest = rest' := by
  have long := h.longest front' rest' chunks' h'.whole h'.spelled
  have long' := h'.longest front rest chunks h.whole h.spelled
  exact List.append_inj (h.whole.symm.trans h'.whole) (Nat.le_antisymm long' long)

/-- Written chunks are spelled. -/
theorem spells_join {chunks : List Chunk} (h : ∀ c ∈ chunks, c.body.length + 1 < 0x100000000) :
    Spells (join chunks) chunks := by
  induction chunks with
  | nil => exact .nil
  | cons c rest ih =>
    rw [List.forall_mem_cons] at h
    refine .cons ⟨_, _, _, _, lengthOf_lengthBytes _ h.1, ?_⟩ (ih h.2)
    simp only [join, List.flatMap_cons, Chunk.bytes, lengthBytes, List.append_assoc, List.cons_append]

/-- Joined chunks are found again. -/
theorem parse_join {chunks : List Chunk} (h : ∀ c ∈ chunks, c.body.length + 1 < 0x100000000) :
    parse (join chunks) = .ok chunks := (spells_join h).cut 0

/-- Cutting a stream into chunks accepts the bytes that chunks spell, and as those chunks only. Of
any other stream it reports, at the end of the longest front that spells chunks, why no chunk
begins there. It comes to one of the two on every stream, after no more chunks than the front has
room for, and finds again the chunks that were written. -/
theorem parse_follows_grammar (data : List UInt8) :
    (∀ chunks, parse data = .ok chunks ↔ Spells data chunks)
      ∧ (∀ chunks chunks', Spells data chunks → Spells data chunks' → chunks = chunks')
      ∧ (∀ fault, parse data = .error fault ↔ ∃ front rest chunks,
          LongestFront data front rest chunks ∧ Breaks front.length rest fault)
      ∧ (∃ front rest chunks, LongestFront data front rest chunks
          ∧ 9 * chunks.length ≤ front.length
          ∧ (rest = [] ∧ parse data = .ok chunks
            ∨ ∃ fault, Breaks front.length rest fault ∧ parse data = .error fault))
      ∧ (∀ chunks, (∀ c ∈ chunks, c.body.length < 0xFFFFFFFF) →
          parse (join chunks) = .ok chunks) := by
  obtain ⟨front, rest, chunks, rfl, spelled, stop⟩ := exists_front 0 data
  rw [Nat.zero_add] at stop
  have longest := spelled.longestFront stop
  have through : parse (front ++ rest) = (cut front.length rest).map (chunks ++ ·) := by
    rw [parse, spelled.cut_append, Nat.zero_add]
  have outcome : rest = [] ∧ parse (front ++ rest) = .ok chunks
      ∨ ∃ fault, Breaks front.length rest fault ∧ parse (front ++ rest) = .error fault := by
    obtain rfl | ⟨fault, broken⟩ := stop
    · exact .inl ⟨rfl, by rw [through, cut_nil, Except.map, List.append_nil]⟩
    · exact .inr ⟨fault, broken, by rw [through, broken.cut, Except.map]⟩
  have accepted {found : List Chunk} (h : Spells (front ++ rest) found) :
      parse (front ++ rest) = .ok found := h.cut 0
  refine ⟨fun found => ⟨fun said => ?_, accepted⟩, fun found found' h h' => ?_,
    fun fault => ⟨fun said => ?_, ?_⟩, ⟨front, rest, chunks, longest, spelled.length_le, outcome⟩,
    fun written short => parse_join fun c hc => Nat.succ_lt_succ (short c hc)⟩
  · obtain ⟨rfl, ends⟩ | ⟨fault, -, refused⟩ := outcome
    · rw [List.append_nil] at said ends ⊢
      obtain rfl := Except.ok.inj (ends.symm.trans said)
      exact spelled
    · cases refused.symm.trans said
  · exact Except.ok.inj ((accepted h).symm.trans (accepted h'))
  · obtain ⟨-, ends⟩ | ⟨fault', broken, refused⟩ := outcome
    · cases ends.symm.trans said
    · obtain rfl := Except.error.inj (refused.symm.trans said)
      exact ⟨front, rest, chunks, longest, broken⟩
  · rintro ⟨front', rest', chunks', longest', broken⟩
    obtain ⟨rfl, rfl⟩ := longest.unique longest'
    rw [through, broken.cut, Except.map]

end PictureUnit.Snapshot
