import PictureUnit.Proofs.Alike
import PictureUnit.Proofs.Flags
import PictureUnit.Proofs.Lull

/-!
# Twin circuits

Two circuits are twins when their works are alike and everything else that can be read agrees as far
as it is trusted. A dot keeps them twins, and where the pixels are trusted both leave the same ink.
-/

set_option autoImplicit false

namespace PictureUnit

namespace Trust

theorem dot_lines (line : Line) (d : Nat) (rendering : Bool) (t : Trust) :
    (t.dot line d rendering).lines = t.lines := by
  unfold dot
  split
  · split
    · rfl
    · split <;> rfl
  · split
    · rfl
    · split <;> rfl

theorem dot_flags_idle (line : Line) {d : Nat} {rendering : Bool} (hr : d = 0 ∨ rendering = false)
    (t : Trust) :
    (t.dot line d rendering).overflow = (decide (line = .preRender ∧ d = 1) || t.overflow)
      ∧ (t.dot line d rendering).hit = (decide (line = .preRender ∧ d = 1) || t.hit) := by
  by_cases first : d = 0
  · subst first
    simp [dot]
  · have off : rendering = false := hr.resolve_left first
    subst off
    simp only [dot, if_neg first, Bool.false_eq_true, if_false]
    split
    · next top => simp only [decide_eq_true top, Bool.true_or, and_self]
    · next other => simp only [decide_eq_false other, Bool.false_or, and_self]

theorem dot_flags_rendered (line : Line) {d : Nat} (hd : d ≠ 0) (t : Trust) :
    (t.dot line d true).overflow = ((decide (line = .preRender ∧ d = 1) || t.overflow)
        && (decide (line = .preRender ∨ d ≤ 64 ∨ 256 < d) || t.walkAfter line d))
      ∧ (t.dot line d true).hit = ((decide (line = .preRender ∧ d = 1) || t.hit)
        && (decide (line = .preRender ∨ 256 < d) || t.pixels)) := by
  simp only [dot, if_neg hd, if_true]
  split
  · next top =>
    simp only [decide_eq_true top, Bool.true_or]
    exact ⟨rfl, rfl⟩
  · next other =>
    simp only [decide_eq_false other, Bool.false_or]
    exact ⟨rfl, rfl⟩

end Trust

/-- Two bytes that agree in some bits. -/
def Agree (mask a b : UInt8) : Prop := b &&& mask = a &&& mask

instance (mask a b : UInt8) : Decidable (Agree mask a b) := inferInstanceAs (Decidable (_ = _))

theorem Agree.refl (mask a : UInt8) : Agree mask a a := rfl

theorem agree_all {a b : UInt8} : Agree 0xFF a b ↔ b = a := by
  have whole (x : UInt8) : x &&& 0xFF = x := by
    apply UInt8.toBitVec_inj.mp
    exact BitVec.and_allOnes
  rw [Agree, whole, whole]

theorem agree_none (a b : UInt8) : Agree 0 a b := by
  rw [Agree, UInt8.and_zero, UInt8.and_zero]

theorem agree_iff {mask a b : UInt8} : Agree mask a b ↔
    ∀ i < 8, mask.toBitVec.getLsbD i = true → b.toBitVec.getLsbD i = a.toBitVec.getLsbD i := by
  rw [Agree, ← UInt8.toBitVec_inj]
  constructor
  · intro same i _ kept
    have bits := congrArg (BitVec.getLsbD · i) same
    simpa [kept] using bits
  · intro same
    apply BitVec.eq_of_getLsbD_eq
    intro i hi
    have bits := same i hi
    simp only [UInt8.toBitVec_and, BitVec.getLsbD_and]
    cases kept : mask.toBitVec.getLsbD i with
    | false => rw [Bool.and_false, Bool.and_false]
    | true => rw [bits kept]

/-- Values that agree one by one, each in its own bits. -/
def Agrees : List UInt8 → List UInt8 → List UInt8 → Prop
  | [], [], [] => True
  | mask :: masks, a :: as, b :: bs => Agree mask a b ∧ Agrees masks as bs
  | _, _, _ => False

theorem Agrees.append {masks as bs masks' as' bs' : List UInt8} (h : Agrees masks as bs)
    (h' : Agrees masks' as' bs') : Agrees (masks ++ masks') (as ++ as') (bs ++ bs') := by
  induction masks generalizing as bs with
  | nil =>
    match as, bs, h with
    | [], [], _ => exact h'
  | cons mask masks ih =>
    match as, bs, h with
    | a :: as, b :: bs, ⟨first, rest⟩ => exact ⟨first, ih rest⟩

/-- Two values over the lines agree where what is kept of the lines does. -/
theorem agree_over {known part mask a b x y : UInt8} (apart : known &&& part = 0)
    (same : Agree (known ||| part) x y) (lines : Agree mask a b) :
    Agree (known ||| (mask &&& part)) (x ||| (a &&& part)) (y ||| (b &&& part)) := by
  rw [agree_iff] at *
  intro i hi kept
  have value := same i hi
  have line := lines i hi
  have disjoint : known.toBitVec.getLsbD i = true → part.toBitVec.getLsbD i = false := by
    have bits := congrArg (fun x : UInt8 => x.toBitVec.getLsbD i) apart
    intro here
    simpa [here] using bits
  simp only [UInt8.toBitVec_or, UInt8.toBitVec_and, BitVec.getLsbD_or, BitVec.getLsbD_and,
    Bool.or_eq_true, Bool.and_eq_true] at kept value ⊢
  rcases kept with here | ⟨trusted, inside⟩
  · rw [value (.inl here), disjoint here, Bool.and_false, Bool.and_false]
  · rw [value (.inr inside), line trusted]

/-- The bits of the flags that come from nothing that was left. -/
def Trust.flagBits (t : Trust) : UInt8 :=
  0x80 ||| (if t.hit then 0x40 else 0) ||| (if t.overflow then 0x20 else 0)

theorem Trust.flagBits_apart (t : Trust) : t.flagBits &&& 0x1F = 0 := by
  unfold flagBits
  cases t.hit <;> cases t.overflow <;> decide

theorem Trust.flagBits_eq {t : Trust} (flags : t.flags = true) : t.flagBits = 0xE0 := by
  rw [Trust.flags, Bool.and_eq_true] at flags
  rw [flagBits, flags.1, flags.2]
  decide

theorem bits_agree {t : Trust} {s u : Status} (vblank : u.vblank = s.vblank)
    (overflow : t.overflow = true → u.overflow = s.overflow)
    (hit : t.hit = true → u.zeroHit = s.zeroHit) :
    Agree (t.flagBits ||| 0x1F) s.bits u.bits := by
  obtain ⟨overflow', hit', vblank'⟩ := s
  obtain ⟨overflow'', hit'', vblank''⟩ := u
  obtain rfl : vblank'' = vblank' := vblank
  unfold Trust.flagBits
  generalize t.overflow = trusted at *
  generalize t.hit = trusted' at *
  revert overflow' hit' vblank'' overflow'' hit'' trusted trusted'
  decide

/-- The cartridge takes no part in anything, not even in writes. -/
structure Cartridge.Idle {κ : Type} [Cartridge κ] (k : κ) : Prop extends Cartridge.Silent k where
  writePattern (address : Nat) (byte : UInt8) : Cartridge.writePattern address byte k = k
  writeName (address : Nat) (byte : UInt8) : Cartridge.writeName address byte k = k

theorem Cartridge.idle_none {κ : Type} [Cartridge κ] : Cartridge.Idle (none : Option κ) :=
  ⟨Cartridge.silent_none, fun _ _ => rfl, fun _ _ => rfl⟩

/-- Whoever serves does nothing else, and an idle cartridge not even that. -/
theorem Cartridge.Idle.served {κ : Type} [Cartridge κ] {k l : κ} (h : Cartridge.Idle k)
    (hs : Cartridge.Served k l) : l = k := by
  induction hs with
  | refl => rfl
  | observe address cycle _ ih => rw [ih, h.observe]
  | readPattern address _ ih => rw [ih, h.readPattern]
  | writePattern address byte _ ih => rw [ih, h.writePattern]
  | readName address _ ih => rw [ih, h.readName]
  | writeName address byte _ ih => rw [ih, h.writeName]

namespace Works

variable {κ : Type} {limit : SpriteLimit} {line : Line} {d : Nat} {t : Trust} {p : Position}
  {v w : Works κ}

theorem Alike.hits (h : Alike limit t p v w) {line : Line} {d : Nat}
    (trusted : (decide (line = .preRender ∨ 256 < d) || t.pixels) = true) :
    w.hits line d = v.hits line d := by
  cases line with
  | preRender => rfl
  | visible y =>
    by_cases past : 256 < d
    · have outside : ¬ d ≤ screenWidth := Nat.not_le.mpr past
      simp only [Works.hits, decide_eq_false outside, Bool.false_and]
    · rw [decide_eq_false (by simp [past]), Bool.false_or] at trusted
      obtain ⟨strips, pipe, -⟩ := h.pixels trusted
      unfold Works.hits backgroundEntry objectPixel?
      rw [h.level.settings, strips, pipe]

theorem Alike.shade (h : Alike limit t p v w) (trusted : t.pixels = true) (x : Nat) :
    w.shade x = v.shade x := by
  obtain ⟨strips, pipe, -⟩ := h.pixels trusted
  unfold Works.shade
  rw [h.level.settings, strips, pipe]

theorem Alike.overflows (h : Alike limit t (.raster line d) v w)
    (trusted : (decide (line = .preRender ∨ d ≤ 64 ∨ 256 < d) || t.walkAfter line d) = true) :
    w.overflows line d limit = v.overflows line d limit := by
  cases line with
  | preRender => rfl
  | visible y =>
    by_cases outside : 256 < d ∨ d ≤ 64
    · rw [Works.overflows, Works.overflows, Evaluation.overflowsOn, Evaluation.overflowsOn,
        if_pos outside, if_pos outside]
    · have inside : 65 ≤ d ∧ d ≤ 256 := by omega
      have elsewhere : ¬ (Line.visible y = .preRender ∨ d ≤ 64 ∨ 256 < d) := by
        rintro (top | low | high)
        · cases top
        · omega
        · omega
      rw [decide_eq_false elsewhere, Bool.false_or] at trusted
      exact (dot_searching h.level inside ((h.walks trusted).symm.imp_left And.right)).2.1

end Works

namespace Circuit

variable {κ : Type} [Cartridge κ]

/-- Two circuits of which everything that can be read agrees as far as it is trusted. -/
structure Alike (limit : SpriteLimit) (t : Trust) (p : Position) (c e : Circuit κ) : Prop where
  works : Works.Alike limit t p c.works e.works
  vblank : e.flag = c.flag
  overflow : t.overflow = true → e.registers.status.overflow = c.registers.status.overflow
  hit : t.hit = true → e.registers.status.zeroHit = c.registers.status.zeroHit
  lines : Agree t.lines c.registers.lines e.registers.lines
  idle : Cartridge.Idle c.cartridge

variable {limit : SpriteLimit} {line : Line} {d : Nat} {t : Trust} {p : Position} {c e : Circuit κ}

/-- Where all flags are trusted the whole status agrees. -/
theorem Alike.status (h : Alike limit t p c e) (flags : t.flags = true) :
    e.registers.status = c.registers.status := by
  rw [Trust.flags, Bool.and_eq_true] at flags
  have vblank : e.registers.status.vblank = c.registers.status.vblank := h.vblank
  have overflow := h.overflow flags.1
  have hit := h.hit flags.2
  cases own : c.registers.status
  cases other : e.registers.status
  rw [own, other] at vblank overflow hit
  simp only at vblank overflow hit
  rw [vblank, overflow, hit]

theorem Alike.rendering (h : Alike limit t p c e) :
    e.registers.mask.rendering = c.registers.mask.rendering := by
  have kept := congrArg (·.mask.rendering) h.works.level.settings
  exact kept

theorem Alike.objects (h : Alike limit t p c e) : e.objects = c.objects := by
  have kept := congrArg Settings.objects h.works.level.settings
  exact kept

theorem Alike.buffer (h : Alike limit t p c e) : e.registers.buffer = c.registers.buffer := by
  have kept := congrArg Settings.buffer h.works.level.settings
  exact kept

theorem Alike.palette (h : Alike limit t p c e) : e.palette = c.palette := by
  have kept := congrArg Settings.palette h.works.level.settings
  exact kept

theorem Alike.current (h : Alike limit t p c e) :
    e.registers.scroll.current = c.registers.scroll.current := h.works.level.current

theorem Alike.cartridge (h : Alike limit t p c e) : e.cartridge = c.cartridge :=
  h.works.level.cartridge

/-- A dot that renders nothing leaves the works as they are. -/
theorem dot_works_off (hs : Cartridge.Silent c.cartridge)
    (hr : d = 0 ∨ c.registers.mask.rendering = false) (line : Line) (cycle : Nat)
    (limit : SpriteLimit) : (c.dot line d cycle limit).works = c.works :=
  (dot_told hr line cycle limit).trans (Works.told_silent hs (line, d))

theorem dot_cartridge (hs : Cartridge.Silent c.cartridge) (line : Line) (d cycle : Nat)
    (limit : SpriteLimit) : (c.dot line d cycle limit).cartridge = c.cartridge := by
  by_cases off : d = 0 ∨ c.registers.mask.rendering = false
  · exact congrArg Works.cartridge (dot_works_off hs off line cycle limit)
  · have on : c.registers.mask.rendering = true := by
      by_contra h
      exact off (.inr (Bool.eq_false_iff.mpr h))
    exact (congrArg Works.cartridge (dot_works hs on line d cycle limit)).trans
      (Works.dot_keeps line d limit c.works).2.2

theorem Alike.statusAt (h : Alike limit t p c e) (line : Line) (d : Nat) :
    ((decide (line = .preRender ∧ d = 1) || t.overflow) = true →
        (e.statusAt line d).overflow = (c.statusAt line d).overflow)
      ∧ ((decide (line = .preRender ∧ d = 1) || t.hit) = true →
        (e.statusAt line d).zeroHit = (c.statusAt line d).zeroHit) := by
  unfold Circuit.statusAt
  split
  · exact ⟨fun _ => rfl, fun _ => rfl⟩
  · next other =>
    rw [decide_eq_false other, Bool.false_or, Bool.false_or]
    exact ⟨h.overflow, h.hit⟩

/-- The flags that are trusted after a dot come from what was trusted before it. -/
theorem Alike.dot_flags (h : Alike limit t (.raster line d) c e) (cycle cycle' : Nat) :
    let own := (c.dot line d cycle limit).registers.status
    let other := (e.dot line d cycle' limit).registers.status
    ((t.dot line d c.registers.mask.rendering).overflow = true → other.overflow = own.overflow)
      ∧ ((t.dot line d c.registers.mask.rendering).hit = true → other.zeroHit = own.zeroHit) := by
  obtain ⟨overflow, hit⟩ := h.statusAt line d
  by_cases first : d = 0
  · subst first
    obtain ⟨overflowed, hitted⟩ := t.dot_flags_idle line
      (show 0 = 0 ∨ c.registers.mask.rendering = false from .inl rfl)
    rw [overflowed, hitted]
    simp only [decide_eq_false (show ¬ (line = .preRender ∧ 0 = 1) by simp), Bool.false_or]
    exact ⟨h.overflow, h.hit⟩
  cases on : c.registers.mask.rendering with
  | false =>
    obtain ⟨overflowed, hitted⟩ := t.dot_flags_idle line
      (show d = 0 ∨ false = false from .inr rfl)
    rw [overflowed, hitted, dot_status_off on line first, dot_status_off (h.rendering.trans on) line first]
    exact ⟨overflow, hit⟩
  | true =>
    obtain ⟨overflowed, hitted⟩ := t.dot_flags_rendered line first
    rw [overflowed, hitted, Bool.and_eq_true, Bool.and_eq_true, dot_status on line first,
      dot_status (h.rendering.trans on) line first]
    constructor
    · rintro ⟨before, seen⟩
      simp only [Status.raise, overflow before, h.works.overflows seen]
    · rintro ⟨before, seen⟩
      simp only [Status.raise, hit before, h.works.hits seen]

/-- A dot keeps twins. -/
theorem Alike.dot (h : Alike limit t (.raster line d) c e) (hp : p.Follows line d)
    (cycle cycle' : Nat) : Alike limit (t.dot line d c.registers.mask.rendering) p
      (c.dot line d cycle limit) (e.dot line d cycle' limit) := by
  have silent := h.idle.toSilent
  have other : Cartridge.Silent e.cartridge := by
    rw [h.cartridge]
    exact silent
  obtain ⟨overflow, hit⟩ := h.dot_flags cycle cycle'
  refine ⟨?_, ?_, overflow, hit, ?_, ?_⟩
  · by_cases off : d = 0 ∨ c.registers.mask.rendering = false
    · rw [dot_works_off silent off, dot_works_off other (off.imp_right h.rendering.trans)]
      exact h.works.idle hp off
    · have first : d ≠ 0 := fun first => off (.inl first)
      have on : c.registers.mask.rendering = true := by
        by_contra none
        exact off (.inr (Bool.eq_false_iff.mpr none))
      rw [dot_works silent on, dot_works other (h.rendering.trans on), on]
      exact h.works.rendered hp first
  · rw [dot_flag, dot_flag, h.vblank]
  · have kept (u : Circuit κ) (n : Nat) :
        (u.dot line d n limit).registers.lines = u.registers.lines :=
      congrArg Settings.lines (dot_settings line d n limit u)
    rw [Trust.dot_lines, kept, kept]
    exact h.lines
  · rw [dot_cartridge silent]
    exact h.idle

/-- Where the pixels are trusted, or none is rendered, twins leave the same ink. -/
theorem Alike.inks (h : Alike limit t p c e)
    (trusted : c.registers.mask.rendering = true → t.pixels = true) (line : Line) (d : Nat) :
    e.inks line d = c.inks line d := by
  cases on : c.registers.mask.rendering with
  | true =>
    have shade := h.works.shade (trusted on)
    rw [inks_works on, inks_works (h.rendering.trans on), Works.inks, Works.inks]
    simp only [shade]
  | false =>
    have shade (x : Nat) : e.shade x = c.shade x := by
      rw [Circuit.shade, Circuit.shade, h.rendering, on, h.palette]
      simp only [backdropEntry, h.current]
      rfl
    rw [Circuit.inks, Circuit.inks]
    simp only [shade]

end Circuit

end PictureUnit
