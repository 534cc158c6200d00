import OverlaySugar.Text.Source

/-!
# Reading what was encoded

Encoded text is decoded to itself, in whatever parts its bytes come. The
decoder holds the bytes of an incomplete character from one part to the next,
and its runs can be joined and split at any byte.
-/

set_option autoImplicit false

namespace OverlaySugar.Text
namespace Utf8

inductive Decodes : (held bytes : Bytes) → (t : Text) → (rest : Bytes) → Prop
  | nil (held : Bytes) : Decodes held [] [] held
  | char {held bytes rest : Bytes} {b : UInt8} {c : Char} {t : Text}
      (hstep : step held b = .char c) (h : Decodes [] bytes t rest) :
      Decodes held (b :: bytes) (c :: t) rest
  | hold {held more bytes rest : Bytes} {b : UInt8} {t : Text}
      (hstep : step held b = .hold more) (h : Decodes more bytes t rest) :
      Decodes held (b :: bytes) t rest

namespace Decodes
variable {held bytes more rest : Bytes} {t u : Text}

theorem decodeFrom (h : Decodes held bytes t rest) (position : Nat) :
    decodeFrom position held bytes = .ok (t, rest) := by
  induction h generalizing position with
  | nil held => rfl
  | char hstep h ih => simp only [Utf8.decodeFrom, hstep, ih]
  | hold hstep h ih => simp only [Utf8.decodeFrom, hstep, ih]

theorem append {last : Bytes} (h : Decodes held bytes t rest) (h' : Decodes rest more u last) :
    Decodes held (bytes ++ more) (t ++ u) last := by
  induction h with
  | nil held => exact h'
  | char hstep h ih => exact .char hstep (ih h')
  | hold hstep h ih => exact .hold hstep (ih h')

theorem split {last : Bytes} (h : Decodes held (bytes ++ more) t last) :
    ∃ u v rest, t = u ++ v ∧ Decodes held bytes u rest ∧ Decodes rest more v last := by
  induction bytes generalizing held t with
  | nil => exact ⟨[], t, held, rfl, .nil held, h⟩
  | cons b bytes ih =>
    cases h with
    | char hstep h =>
      obtain ⟨u, v, rest, rfl, hu, hv⟩ := ih h
      exact ⟨_ :: u, v, rest, rfl, .char hstep hu, hv⟩
    | hold hstep h =>
      obtain ⟨u, v, rest, rfl, hu, hv⟩ := ih h
      exact ⟨u, v, rest, rfl, .hold hstep hu, hv⟩

end Decodes

/-! ## Characters -/

theorem toNat_toUInt8 {n : Nat} (h : n < 256) : n.toUInt8.toNat = n := by
  rw [Nat.toUInt8, UInt8.toNat_ofNat', Nat.mod_eq_of_lt h]

theorem toNat_lt (c : Char) : c.toNat < 0x110000 := by
  rcases c.valid with h | h
  · exact Nat.lt_trans h (by decide)
  · exact h.2

theorem notSurrogate (c : Char) : c.toNat < 0xD800 ∨ 0xDFFF < c.toNat := by
  rcases c.valid with h | h
  · exact .inl h
  · exact .inr h.1

theorem isContinuation_iff {b : UInt8} :
    isContinuation b = true ↔ 0x80 ≤ b.toNat ∧ b.toNat ≤ 0xBF := by
  simp [isContinuation, UInt8.le_iff_toNat_le]

theorem beq_iff_toNat {a b : UInt8} : (a == b) = true ↔ a.toNat = b.toNat := by
  rw [beq_iff_eq, UInt8.toNat_inj]

theorem isSecond_of_toNat {first b : UInt8} (hb : 0x80 ≤ b.toNat ∧ b.toNat ≤ 0xBF)
    (hE0 : first.toNat = 0xE0 → 0xA0 ≤ b.toNat) (hED : first.toNat = 0xED → b.toNat < 0xA0)
    (hF0 : first.toNat = 0xF0 → 0x90 ≤ b.toNat) (hF4 : first.toNat = 0xF4 → b.toNat < 0x90) :
    isSecond first b = true := by
  rw [isSecond, isContinuation_iff.mpr hb, Bool.true_and]
  simp only [beq_iff_toNat]
  split
  · next h => simpa [UInt8.le_iff_toNat_le] using hE0 h
  split
  · next h => simpa [UInt8.lt_iff_toNat_lt] using hED h
  split
  · next h => simpa [UInt8.le_iff_toNat_le] using hF0 h
  split
  · next h => simpa [UInt8.lt_iff_toNat_lt] using hF4 h
  · rfl

theorem startsSurrogate_of_isSecond {first b : UInt8} (h : isSecond first b = true) :
    startsSurrogate first b = false := by
  by_cases hED : first = 0xED
  · subst hED
    rw [isSecond, Bool.and_eq_true] at h
    have hlt : b < 0xA0 := of_decide_eq_true h.2
    simp [startsSurrogate, UInt8.not_le.mpr hlt]
  · simp [startsSurrogate, hED]

section
variable {b₁ b₂ b₃ b : UInt8}

theorem step_single (h : b.toNat < 0x80) : step [] b = .char (assemble b.toNat []) :=
  if_pos (UInt8.lt_iff_toNat_lt.mpr h)

theorem step_lead (h : 0xC2 ≤ b.toNat) (h' : b.toNat ≤ 0xF4) : step [] b = .hold [b] := by
  have hlow : ¬ b < 0x80 := by
    rw [UInt8.lt_iff_toNat_lt, Nat.not_lt]
    exact Nat.le_trans (by decide) h
  have hlead : (0xC2 ≤ b && b ≤ 0xF4) = true := by
    simp only [Bool.and_eq_true, decide_eq_true_eq, UInt8.le_iff_toNat_le]
    exact ⟨h, h'⟩
  rw [step, if_neg hlow, if_pos hlead]

theorem step_second (h : isSecond b₁ b = true) : step [b₁] b =
    if b₁.toNat < 0xE0 then .char (assemble (b₁.toNat % 0x20) [b]) else .hold [b₁, b] := by
  rw [step, if_pos h]
  simp only [UInt8.lt_iff_toNat_lt]
  rfl

theorem step_third (h : isSecond b₁ b₂ = true) (hb : isContinuation b = true) : step [b₁, b₂] b =
    if b₁.toNat < 0xF0 then .char (assemble (b₁.toNat % 0x10) [b₂, b]) else .hold [b₁, b₂, b] := by
  rw [step, if_neg (by simp [startsSurrogate_of_isSecond h]), if_pos hb]
  simp only [UInt8.lt_iff_toNat_lt]
  rfl

theorem step_fourth (hb : isContinuation b = true) :
    step [b₁, b₂, b₃] b = .char (assemble (b₁.toNat % 0x08) [b₂, b₃, b]) := if_pos hb

end

theorem assemble_eq {c : Char} {lead : Nat} {tail : Bytes}
    (h : tail.foldl (fun n b => n * 0x40 + b.toNat % 0x40) lead = c.toNat) :
    assemble lead tail = c := by
  rw [assemble, h, Char.ofNat_toNat]

theorem toNat_trail (n : Nat) : (0x80 + n % 0x40).toUInt8.toNat = 0x80 + n % 0x40 :=
  toNat_toUInt8 (by omega)

theorem isContinuation_trail (n : Nat) : isContinuation (0x80 + n % 0x40).toUInt8 = true := by
  rw [isContinuation_iff, toNat_trail]
  omega

theorem decodes_one {c : Char} (h : c.toNat < 0x80) : Decodes [] [c.toNat.toUInt8] [c] [] := by
  have hb : c.toNat.toUInt8.toNat = c.toNat := toNat_toUInt8 (by omega)
  have hstep := step_single (hb.symm ▸ h)
  rw [hb, assemble_eq (c := c) rfl] at hstep
  exact .char hstep (.nil [])

theorem decodes_two {c : Char} (h : 0x80 ≤ c.toNat) (h' : c.toNat < 0x800) :
    Decodes [] [(0xC0 + c.toNat / 0x40).toUInt8, (0x80 + c.toNat % 0x40).toUInt8] [c] [] := by
  have hlead : (0xC0 + c.toNat / 0x40).toUInt8.toNat = 0xC0 + c.toNat / 0x40 :=
    toNat_toUInt8 (by omega)
  have hsecond : isSecond (0xC0 + c.toNat / 0x40).toUInt8 (0x80 + c.toNat % 0x40).toUInt8 = true := by
    apply isSecond_of_toNat <;> simp only [hlead, toNat_trail] <;> omega
  have hchar := step_second hsecond
  rw [if_pos (by omega), assemble_eq (c := c)] at hchar
  · exact .hold (step_lead (by omega) (by omega)) (.char hchar (.nil []))
  · simp only [List.foldl_cons, List.foldl_nil, hlead, toNat_trail]
    omega

theorem decodes_three {c : Char} (h : 0x800 ≤ c.toNat) (h' : c.toNat < 0x10000) :
    Decodes [] [(0xE0 + c.toNat / 0x1000).toUInt8, (0x80 + c.toNat / 0x40 % 0x40).toUInt8,
      (0x80 + c.toNat % 0x40).toUInt8] [c] [] := by
  have hlead : (0xE0 + c.toNat / 0x1000).toUInt8.toNat = 0xE0 + c.toNat / 0x1000 :=
    toNat_toUInt8 (by omega)
  have hvalid := notSurrogate c
  have hsecond : isSecond (0xE0 + c.toNat / 0x1000).toUInt8
      (0x80 + c.toNat / 0x40 % 0x40).toUInt8 = true := by
    apply isSecond_of_toNat <;> simp only [hlead, toNat_trail] <;> omega
  have hhold := step_second hsecond
  rw [if_neg (by omega)] at hhold
  have hchar := step_third hsecond (isContinuation_trail c.toNat)
  rw [if_pos (by omega), assemble_eq (c := c)] at hchar
  · exact .hold (step_lead (by omega) (by omega)) (.hold hhold (.char hchar (.nil [])))
  · simp only [List.foldl_cons, List.foldl_nil, hlead, toNat_trail]
    omega

theorem decodes_four {c : Char} (h : 0x10000 ≤ c.toNat) :
    Decodes [] [(0xF0 + c.toNat / 0x40000).toUInt8, (0x80 + c.toNat / 0x1000 % 0x40).toUInt8,
      (0x80 + c.toNat / 0x40 % 0x40).toUInt8, (0x80 + c.toNat % 0x40).toUInt8] [c] [] := by
  have hmax := toNat_lt c
  have hlead : (0xF0 + c.toNat / 0x40000).toUInt8.toNat = 0xF0 + c.toNat / 0x40000 :=
    toNat_toUInt8 (by omega)
  have hsecond : isSecond (0xF0 + c.toNat / 0x40000).toUInt8
      (0x80 + c.toNat / 0x1000 % 0x40).toUInt8 = true := by
    apply isSecond_of_toNat <;> simp only [hlead, toNat_trail] <;> omega
  have hhold := step_second hsecond
  rw [if_neg (by omega)] at hhold
  have hhold' := step_third hsecond (isContinuation_trail (c.toNat / 0x40))
  rw [if_neg (by omega)] at hhold'
  have hchar := @step_fourth (0xF0 + c.toNat / 0x40000).toUInt8
    (0x80 + c.toNat / 0x1000 % 0x40).toUInt8 (0x80 + c.toNat / 0x40 % 0x40).toUInt8
    _ (isContinuation_trail c.toNat)
  rw [assemble_eq (c := c)] at hchar
  · exact .hold (step_lead (by omega) (by omega))
      (.hold hhold (.hold hhold' (.char hchar (.nil []))))
  · simp only [List.foldl_cons, List.foldl_nil, hlead, toNat_trail]
    omega

theorem decodes_encodeChar (c : Char) : Decodes [] (encodeChar c) [c] [] := by
  unfold encodeChar
  simp only
  split
  · next h => exact decodes_one h
  split
  · next h h' => exact decodes_two (Nat.not_lt.mp h) h'
  split
  · next h h' => exact decodes_three (Nat.not_lt.mp h) h'
  · next h => exact decodes_four (Nat.not_lt.mp h)

theorem decodes_encode (t : Text) : Decodes [] (encode t) t [] := by
  induction t with
  | nil => exact .nil []
  | cons c t ih => exact (decodes_encodeChar c).append ih

end Utf8

/-! ## Parts and lines -/

/-- Where the bytes are cut into parts makes no difference to text that can be decoded. -/
theorem decodeParts_of_decodes {held : Bytes} {parts : List Bytes} {t : Text}
    (h : Utf8.Decodes held parts.flatten t []) : decodeParts held parts = (t, none) := by
  induction parts generalizing held t with
  | nil =>
    cases h
    rfl
  | cons part parts ih =>
    obtain ⟨u, v, rest, rfl, hpart, hparts⟩ := h.split
    rw [decodeParts, hpart.decodeFrom 0]
    simp only [ih hparts]

/-- Encoded text is read as its lines, with their line ends made one kind. -/
theorem readLines_encode (t : Text) :
    readLines (Utf8.encode t) = ⟨chunksAfter '\n' (unifyLineEnds t), none⟩ := by
  have hparts : decodeParts [] (partsOf partSize (Utf8.encode t)) = (t, none) := by
    apply decodeParts_of_decodes
    rw [partsOf_flatten partSize _ (by decide)]
    exact Utf8.decodes_encode t
  rw [readLines, hparts]

end OverlaySugar.Text
