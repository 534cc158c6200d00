import OverlaySugar.Proofs.Decoding

/-!
# Reading what cannot be decoded

The decoder is faithful: what it has made of its bytes, encoded, is these
bytes but for those that it holds. So reading fails for no encoded text, and
the lines that are delivered in front of a fault are the first of the input,
whatever text may stand in place of the rest.
-/

set_option autoImplicit false

namespace OverlaySugar.Text
namespace Utf8

/-! ## Characters -/

def Begun : Bytes → Prop
  | [] => True
  | [b₁] => 0xC2 ≤ b₁.toNat ∧ b₁.toNat ≤ 0xF4
  | [b₁, b₂] => 0xE0 ≤ b₁.toNat ∧ b₁.toNat ≤ 0xF4 ∧
      (isSecond b₁ b₂ = true ∨ startsSurrogate b₁ b₂ = true)
  | [b₁, b₂, b₃] => 0xF0 ≤ b₁.toNat ∧ b₁.toNat ≤ 0xF4 ∧
      isSecond b₁ b₂ = true ∧ isContinuation b₃ = true
  | _ => False

section
variable {b₁ b₂ b₃ b : UInt8}

theorem continuation_of_isSecond (h : isSecond b₁ b = true) : 0x80 ≤ b.toNat ∧ b.toNat ≤ 0xBF := by
  rw [isSecond, Bool.and_eq_true] at h
  exact isContinuation_iff.mp h.1

/-- The bounds that the first byte sets for the second. -/
theorem toNat_of_isSecond (h : isSecond b₁ b = true) :
    (b₁.toNat = 0xE0 → 0xA0 ≤ b.toNat) ∧ (b₁.toNat = 0xED → b.toNat < 0xA0) ∧
      (b₁.toNat = 0xF0 → 0x90 ≤ b.toNat) ∧ (b₁.toNat = 0xF4 → b.toNat < 0x90) := by
  rw [isSecond, Bool.and_eq_true] at h
  replace h := h.2
  simp only [beq_iff_toNat] at h
  refine ⟨fun hb => ?_, fun hb => ?_, fun hb => ?_, fun hb => ?_⟩ <;>
    simpa [hb, UInt8.le_iff_toNat_le, UInt8.lt_iff_toNat_lt] using h

theorem startsSurrogate_iff :
    startsSurrogate b₁ b = true ↔ b₁.toNat = 0xED ∧ 0xA0 ≤ b.toNat ∧ b.toNat ≤ 0xBF := by
  simp only [startsSurrogate, Bool.and_eq_true, beq_iff_toNat, decide_eq_true_eq,
    UInt8.le_iff_toNat_le, and_assoc]
  rfl

end

theorem toNat_assemble {lead n : Nat} {tail : Bytes}
    (h : tail.foldl (fun n b => n * 0x40 + b.toNat % 0x40) lead = n)
    (hn : n < 0xD800 ∨ 0xDFFF < n ∧ n < 0x110000) : (assemble lead tail).toNat = n := by
  rw [assemble, h, Char.ofNat, dif_pos hn]
  rfl

theorem toUInt8_eq_of_toNat {n : Nat} {b : UInt8} (h : n = b.toNat) : n.toUInt8 = b := by
  rw [h]
  exact UInt8.toNat_inj.mp (toNat_toUInt8 b.toNat_lt)

section
variable {b₁ b₂ b₃ b : UInt8} {c : Char}

theorem encodeChar_one (hc : c.toNat = b.toNat) (hb : b.toNat < 0x80) : encodeChar c = [b] := by
  simp only [encodeChar, hc, if_pos hb]
  rw [toUInt8_eq_of_toNat rfl]

theorem encodeChar_two (hc : c.toNat = b₁.toNat % 0x20 * 0x40 + b.toNat % 0x40)
    (h₁ : 0xC2 ≤ b₁.toNat) (h₁' : b₁.toNat < 0xE0) (hb : 0x80 ≤ b.toNat) (hb' : b.toNat ≤ 0xBF) :
    encodeChar c = [b₁, b] := by
  simp only [encodeChar, hc]
  rw [if_neg (by omega), if_pos (by omega), toUInt8_eq_of_toNat (b := b₁) (by omega),
    toUInt8_eq_of_toNat (b := b) (by omega)]

theorem encodeChar_three
    (hc : c.toNat = (b₁.toNat % 0x10 * 0x40 + b₂.toNat % 0x40) * 0x40 + b.toNat % 0x40)
    (h₁ : 0xE0 ≤ b₁.toNat) (h₁' : b₁.toNat < 0xF0) (hE0 : b₁.toNat = 0xE0 → 0xA0 ≤ b₂.toNat)
    (h₂ : 0x80 ≤ b₂.toNat ∧ b₂.toNat ≤ 0xBF) (hb : 0x80 ≤ b.toNat ∧ b.toNat ≤ 0xBF) :
    encodeChar c = [b₁, b₂, b] := by
  simp only [encodeChar, hc]
  rw [if_neg (by omega), if_neg (by omega), if_pos (by omega),
    toUInt8_eq_of_toNat (b := b₁) (by omega), toUInt8_eq_of_toNat (b := b₂) (by omega),
    toUInt8_eq_of_toNat (b := b) (by omega)]

theorem encodeChar_four
    (hc : c.toNat = ((b₁.toNat % 0x08 * 0x40 + b₂.toNat % 0x40) * 0x40 + b₃.toNat % 0x40) * 0x40 +
      b.toNat % 0x40)
    (h₁ : 0xF0 ≤ b₁.toNat) (h₁' : b₁.toNat ≤ 0xF4) (hF0 : b₁.toNat = 0xF0 → 0x90 ≤ b₂.toNat)
    (h₂ : 0x80 ≤ b₂.toNat ∧ b₂.toNat ≤ 0xBF) (h₃ : 0x80 ≤ b₃.toNat ∧ b₃.toNat ≤ 0xBF)
    (hb : 0x80 ≤ b.toNat ∧ b.toNat ≤ 0xBF) : encodeChar c = [b₁, b₂, b₃, b] := by
  simp only [encodeChar, hc]
  rw [if_neg (by omega), if_neg (by omega), if_neg (by omega),
    toUInt8_eq_of_toNat (b := b₁) (by omega), toUInt8_eq_of_toNat (b := b₂) (by omega),
    toUInt8_eq_of_toNat (b := b₃) (by omega), toUInt8_eq_of_toNat (b := b) (by omega)]

end

def Step.Faithful (bytes : Bytes) : Step → Prop
  | .char c => encodeChar c = bytes
  | .hold held => held = bytes ∧ Begun held
  | .refuse _ _ => True

section
variable {b₁ b₂ b₃ b : UInt8}

theorem step_faithful_one (b : UInt8) : (step [] b).Faithful [b] := by
  unfold step
  simp only [UInt8.lt_iff_toNat_lt, UInt8.le_iff_toNat_le, Bool.and_eq_true, decide_eq_true_eq]
  split
  · next hb =>
    have hlow : b.toNat < 0x80 := hb
    exact encodeChar_one (toNat_assemble rfl (by omega)) hlow
  split
  · next hb => exact ⟨rfl, hb⟩
  · trivial

theorem step_faithful_two (h : Begun [b₁]) (b : UInt8) : (step [b₁] b).Faithful [b₁, b] := by
  obtain ⟨hlow, hhigh⟩ := h
  by_cases hsecond : isSecond b₁ b = true
  · have hb := continuation_of_isSecond hsecond
    rw [step_second hsecond]
    split
    · next hb₁ =>
      refine encodeChar_two (toNat_assemble rfl ?_) hlow hb₁ hb.1 hb.2
      omega
    · next hb₁ => exact ⟨rfl, Nat.not_lt.mp hb₁, hhigh, .inl hsecond⟩
  · rw [step, if_neg hsecond]
    split
    · next hsurrogate =>
      have hED : b₁.toNat = 0xED := (startsSurrogate_iff.mp hsurrogate).1
      exact ⟨rfl, by omega, hhigh, .inr hsurrogate⟩
    · trivial

theorem step_faithful_three (h : Begun [b₁, b₂]) (b : UInt8) :
    (step [b₁, b₂] b).Faithful [b₁, b₂, b] := by
  obtain ⟨hlow, hhigh, hsecond | hsurrogate⟩ := h
  · by_cases hthird : isContinuation b = true
    · have h₂ := continuation_of_isSecond hsecond
      obtain ⟨hE0, hED, -, -⟩ := toNat_of_isSecond hsecond
      have hb := isContinuation_iff.mp hthird
      rw [step_third hsecond hthird]
      split
      · next hb₁ =>
        refine encodeChar_three (toNat_assemble rfl ?_) hlow hb₁ hE0 h₂ hb
        omega
      · next hb₁ => exact ⟨rfl, Nat.not_lt.mp hb₁, hhigh, hsecond, hthird⟩
    · rw [step, if_neg (by simp [startsSurrogate_of_isSecond hsecond]), if_neg hthird]
      trivial
  · rw [step, if_pos hsurrogate]
    trivial

theorem step_faithful_four (h : Begun [b₁, b₂, b₃]) (b : UInt8) :
    (step [b₁, b₂, b₃] b).Faithful [b₁, b₂, b₃, b] := by
  obtain ⟨hlow, hhigh, hsecond, hthird⟩ := h
  by_cases hfourth : isContinuation b = true
  · have h₂ := continuation_of_isSecond hsecond
    obtain ⟨-, -, hF0, hF4⟩ := toNat_of_isSecond hsecond
    have h₃ := isContinuation_iff.mp hthird
    have hb := isContinuation_iff.mp hfourth
    rw [step_fourth hfourth]
    refine encodeChar_four (toNat_assemble rfl ?_) hlow hhigh hF0 h₂ h₃ hb
    omega
  · simp only [step, if_neg hfourth]
    trivial

end

theorem step_faithful {held : Bytes} (h : Begun held) (b : UInt8) :
    (step held b).Faithful (held ++ [b]) := by
  match held with
  | [] => exact step_faithful_one b
  | [_] => exact step_faithful_two h b
  | [_, _] => exact step_faithful_three h b
  | [_, _, _] => exact step_faithful_four h b

/-! ## Texts -/

theorem Decodes.bytes_eq {held bytes rest : Bytes} {t : Text} (h : Decodes held bytes t rest)
    (hbegun : Begun held) : held ++ bytes = encode t ++ rest := by
  induction h with
  | nil held => rw [encode, List.flatMap_nil, List.append_nil, List.nil_append]
  | @char held bytes rest b c t hstep h ih =>
    have hchar : encodeChar c = held ++ [b] := by
      have hfaithful := step_faithful hbegun b
      rwa [hstep] at hfaithful
    have hrest : bytes = encode t ++ rest := ih trivial
    rw [encode, List.flatMap_cons, hchar, hrest]
    simp [encode]
  | @hold held more bytes rest b t hstep h ih =>
    obtain ⟨rfl, hmore⟩ : more = held ++ [b] ∧ Begun more := by
      have hfaithful := step_faithful hbegun b
      rwa [hstep] at hfaithful
    rw [← ih hmore, List.append_assoc, List.singleton_append]

theorem decodes_of_decodeFrom {position : Nat} {held bytes rest : Bytes} {t : Text}
    (h : decodeFrom position held bytes = .ok (t, rest)) : Decodes held bytes t rest := by
  induction bytes generalizing position held t with
  | nil =>
    cases h
    exact .nil _
  | cons b bytes ih =>
    rw [decodeFrom] at h
    cases hstep : step held b with
    | char c =>
      simp only [hstep] at h
      cases hd : decodeFrom (position + held.length + 1) [] bytes with
      | error f => simp only [hd] at h; cases h
      | ok r =>
        simp only [hd] at h
        cases h
        exact .char hstep (ih hd)
    | hold more =>
      simp only [hstep] at h
      exact .hold hstep (ih h)
    | refuse width reason =>
      simp only [hstep] at h
      cases h

end Utf8

/-! ## Parts -/

inductive Breaks (held : Bytes) : List Bytes → Utf8.Fault → Prop
  | part {part : Bytes} {parts : List Bytes} {f : Utf8.Fault}
      (h : Utf8.decodeFrom 0 held part = .error f) : Breaks held (part :: parts) f
  | last (h : held ≠ []) : Breaks held [] (Utf8.endFault held)

/-- All parts are decoded, or those in front of the one that breaks the reading. -/
theorem decodes_of_decodeParts {held : Bytes} {parts : List Bytes} {t : Text}
    {fault : Option Utf8.Fault} (h : decodeParts held parts = (t, fault)) :
    (fault = none → Utf8.Decodes held parts.flatten t []) ∧
      ∀ f, fault = some f → ∃ k rest, Utf8.Decodes held (parts.take k).flatten t rest ∧
        Breaks rest (parts.drop k) f := by
  induction parts generalizing held t with
  | nil =>
    simp only [decodeParts, Prod.mk.injEq] at h
    obtain ⟨rfl, rfl⟩ := h
    by_cases hheld : held = []
    · subst hheld
      exact ⟨fun _ => .nil [], fun f hf => by simp at hf⟩
    · refine ⟨fun hnone => by simp [hheld] at hnone, fun f hf => ?_⟩
      rw [if_neg hheld, Option.some.injEq] at hf
      subst hf
      exact ⟨0, held, .nil held, .last hheld⟩
  | cons part parts ih =>
    rw [decodeParts] at h
    cases hpart : Utf8.decodeFrom 0 held part with
    | error f =>
      simp only [hpart, Prod.mk.injEq] at h
      obtain ⟨rfl, rfl⟩ := h
      refine ⟨(fun hnone => by cases hnone), fun g hg => ?_⟩
      cases hg
      exact ⟨0, held, .nil held, .part hpart⟩
    | ok r =>
      obtain ⟨u, middle⟩ := r
      simp only [hpart, Prod.mk.injEq] at h
      obtain ⟨rfl, hfault⟩ := h
      have hdecodes := Utf8.decodes_of_decodeFrom hpart
      obtain ⟨hall, hbroken⟩ := ih (Prod.ext rfl hfault)
      refine ⟨fun hnone => hdecodes.append (hall hnone), fun f hf => ?_⟩
      obtain ⟨k, rest, hrest, hbreaks⟩ := hbroken f hf
      exact ⟨k + 1, rest, hdecodes.append hrest, hbreaks⟩

theorem drop_partsOf {α : Type} {size : Nat} (h : 0 < size) (k : Nat) (xs : List α) :
    (partsOf size xs).drop k = partsOf size (xs.drop (k * size)) := by
  induction k generalizing xs with
  | zero => simp
  | succ k ih =>
    by_cases hxs : xs = []
    · subst hxs
      simp [partsOf]
    · have hne : ¬ (xs = [] ∨ size = 0) := by
        rintro (hnil | hzero)
        · exact hxs hnil
        · omega
      rw [partsOf, dif_neg hne, List.drop_succ_cons, ih, List.drop_drop, Nat.succ_mul, Nat.add_comm]

theorem flatten_take_partsOf {α : Type} {size : Nat} (h : 0 < size) (k : Nat) (xs : List α) :
    ((partsOf size xs).take k).flatten = xs.take (k * size) := by
  have hall : ((partsOf size xs).take k).flatten ++ xs.drop (k * size) = xs := by
    calc ((partsOf size xs).take k).flatten ++ xs.drop (k * size)
        = ((partsOf size xs).take k).flatten ++ ((partsOf size xs).drop k).flatten := by
          rw [drop_partsOf h, partsOf_flatten size _ h]
      _ = xs := by rw [← List.flatten_append, List.take_append_drop, partsOf_flatten size xs h]
  exact List.append_cancel_right (hall.trans (List.take_append_drop (k * size) xs).symm)

/-! ## Lines -/

/-- Only a carriage return at the end of a text depends on what follows it. -/
theorem unifyLineEnds_append {t u : Text} (h : t.getLast? ≠ some '\r' ∨ u.head? ≠ some '\n') :
    unifyLineEnds (t ++ u) = unifyLineEnds t ++ unifyLineEnds u := by
  fun_induction unifyLineEnds t with
  | case1 => rfl
  | case2 t ih =>
    have hlast : t.getLast? ≠ some '\r' ∨ u.head? ≠ some '\n' :=
      h.imp_left fun hne ht => hne (by simp [List.getLast?_cons, ht])
    simp only [List.cons_append, unifyLineEnds, ih hlast]
  | case3 c t hc ih =>
    have hlast : t.getLast? ≠ some '\r' ∨ u.head? ≠ some '\n' :=
      h.imp_left fun hne ht => hne (by simp [List.getLast?_cons, ht])
    rw [List.cons_append, unifyLineEnds, ih hlast, List.cons_append]
    -- No line feed follows a carriage return where the texts meet.
    rintro u' rfl htu
    cases t with
    | nil =>
      rw [List.nil_append] at htu
      simp [htu] at h
    | cons d t =>
      rw [List.cons_append, List.cons.injEq] at htu
      exact hc t rfl (by rw [htu.1])

theorem chunksAfter_of_notMem {c : Char} {t : Text} (h : c ∉ t) :
    ∀ chunk ∈ chunksAfter c t, chunk.getLast? ≠ some c := by
  intro chunk hchunk hlast
  have hmem : c ∈ (chunksAfter c t).flatten :=
    List.mem_flatten.mpr ⟨chunk, hchunk, List.mem_of_getLast? hlast⟩
  rw [chunksAfter_flatten] at hmem
  exact h hmem

theorem chunksAfter_append_cons {c : Char} {line : Text} (h : c ∉ line) (t : Text) :
    chunksAfter c (line ++ c :: t) = (line ++ [c]) :: chunksAfter c t := by
  induction line with
  | nil => simp [chunksAfter]
  | cons d line ih =>
    have hd : d ≠ c := fun hd => h (hd ▸ List.mem_cons_self)
    have hline : c ∉ line := fun hc => h (List.mem_cons_of_mem d hc)
    rw [List.cons_append, chunksAfter, if_neg hd, ih hline]
    rfl

/-- What ends with `c` is all but what follows the last of them. -/
theorem flatten_filter_chunksAfter (c : Char) (t : Text) : ∃ rest,
    ((chunksAfter c t).filter (·.getLast? = some c)).flatten ++ rest = t ∧ c ∉ rest := by
  by_cases hc : c ∈ t
  · obtain ⟨line, rest, ht, hline⟩ := List.eq_append_cons_of_mem hc
    obtain ⟨left, hleft, hnone⟩ := flatten_filter_chunksAfter c rest
    refine ⟨left, ?_, hnone⟩
    rw [ht, chunksAfter_append_cons hline, List.filter_cons_of_pos (by simp), List.flatten_cons,
      List.append_assoc, hleft, List.append_assoc, List.singleton_append]
  · have hnone : (chunksAfter c t).filter (·.getLast? = some c) = [] := by
      rw [List.filter_eq_nil_iff]
      intro chunk hchunk
      simpa using chunksAfter_of_notMem hc chunk hchunk
    rw [hnone]
    exact ⟨t, rfl, hc⟩
termination_by t.length
decreasing_by
  rw [ht, List.length_append, List.length_cons]
  omega

/-- The chunks that are known to end stay as they are when text is added. -/
theorem filter_chunksAfter_prefix (c : Char) (t u : Text) :
    (chunksAfter c t).filter (·.getLast? = some c) <+: chunksAfter c (t ++ u) := by
  by_cases hc : c ∈ t
  · obtain ⟨line, rest, ht, hline⟩ := List.eq_append_cons_of_mem hc
    rw [ht, List.append_assoc, List.cons_append, chunksAfter_append_cons hline,
      chunksAfter_append_cons hline, List.filter_cons_of_pos (by simp), List.prefix_cons_inj]
    exact filter_chunksAfter_prefix c rest u
  · have hnone : (chunksAfter c t).filter (·.getLast? = some c) = [] := by
      rw [List.filter_eq_nil_iff]
      intro chunk hchunk
      simpa using chunksAfter_of_notMem hc chunk hchunk
    rw [hnone]
    exact List.nil_prefix
termination_by t.length
decreasing_by
  rw [ht, List.length_append, List.length_cons]
  omega

theorem wholeLines_prefix (t u : Text) :
    wholeLines t <+: chunksAfter '\n' (unifyLineEnds (t ++ u)) := by
  unfold wholeLines
  split
  · next hlast =>
    -- The carriage return is put off: it is a line end of its own or half of one.
    obtain ⟨front, rfl⟩ : ∃ front, t = front ++ ['\r'] := List.getLast?_eq_some_iff.mp hlast
    rw [List.dropLast_concat, List.append_assoc, unifyLineEnds_append (.inr (by simp))]
    exact filter_chunksAfter_prefix _ _ _
  · next hlast =>
    rw [unifyLineEnds_append (.inl hlast)]
    exact filter_chunksAfter_prefix _ _ _

/-- A carriage return at the end is put off. What is left is the whole lines and a last one that
has not ended. -/
theorem wholeLines_flatten (t : Text) : ∃ front rest,
    (t = front ∧ t.getLast? ≠ some '\r' ∨ t = front ++ ['\r']) ∧
      (wholeLines t).flatten ++ rest = unifyLineEnds front ∧ '\n' ∉ rest := by
  unfold wholeLines
  split
  · next hlast =>
    obtain ⟨front, rfl⟩ : ∃ front, t = front ++ ['\r'] := List.getLast?_eq_some_iff.mp hlast
    rw [List.dropLast_concat]
    obtain ⟨rest, hrest⟩ := flatten_filter_chunksAfter '\n' (unifyLineEnds front)
    exact ⟨front, rest, .inr rfl, hrest⟩
  · next hlast =>
    obtain ⟨rest, hrest⟩ := flatten_filter_chunksAfter '\n' (unifyLineEnds t)
    exact ⟨t, rest, .inl ⟨rfl, hlast⟩, hrest⟩

/-! ## Faults -/

/-- The lines that are delivered in front of a fault are the whole ones of the text of some parts,
up to its last line feed, and the next part breaks the reading. -/
theorem lines_of_fault {bytes : Bytes} {f : Utf8.Fault} (h : (readLines bytes).fault = some f) :
    ∃ k t held front rest, Utf8.Decodes [] (bytes.take (k * partSize)) t held ∧
      Breaks held (partsOf partSize (bytes.drop (k * partSize))) f ∧
      (readLines bytes).lines = wholeLines t ∧
      (t = front ∧ t.getLast? ≠ some '\r' ∨ t = front ++ ['\r']) ∧
      (readLines bytes).lines.flatten ++ rest = unifyLineEnds front ∧ '\n' ∉ rest := by
  have hsize : 0 < partSize := by decide
  rw [readLines] at h ⊢
  cases hparts : decodeParts [] (partsOf partSize bytes) with
  | mk t fault =>
    simp only [hparts] at h ⊢
    cases fault with
    | none => cases h
    | some g =>
      cases h
      obtain ⟨k, held, hdecodes, hbreaks⟩ := (decodes_of_decodeParts hparts).2 f rfl
      rw [flatten_take_partsOf hsize] at hdecodes
      rw [drop_partsOf hsize] at hbreaks
      obtain ⟨front, rest, hfront, hrest⟩ := wholeLines_flatten t
      exact ⟨k, t, held, front, rest, hdecodes, hbreaks, rfl, hfront, hrest⟩

/-- Reading fails for the bytes that encode no text. -/
theorem fault_readLines_eq_none_iff {bytes : Bytes} :
    (readLines bytes).fault = none ↔ ∃ t, bytes = Utf8.encode t := by
  constructor
  · intro h
    rw [readLines] at h
    cases hparts : decodeParts [] (partsOf partSize bytes) with
    | mk t fault =>
      simp only [hparts] at h
      cases fault with
      | none =>
        have hdecodes := (decodes_of_decodeParts hparts).1 rfl
        rw [partsOf_flatten partSize bytes (by decide)] at hdecodes
        exact ⟨t, by simpa using hdecodes.bytes_eq trivial⟩
      | some f => cases h
  · rintro ⟨t, rfl⟩
    rw [readLines_encode]

/-- The lines that are delivered in front of a fault are the first lines of the text that the bytes
begin with, however it goes on. -/
theorem lines_prefix_of_fault {bytes : Bytes} (h : (readLines bytes).fault ≠ none) :
    ∃ t rest, bytes = Utf8.encode t ++ rest ∧
      ∀ u, (readLines bytes).lines <+: chunksAfter '\n' (unifyLineEnds (t ++ u)) := by
  obtain ⟨f, hf⟩ := Option.ne_none_iff_exists'.mp h
  obtain ⟨k, t, held, -, -, hdecodes, -, hlines, -⟩ := lines_of_fault hf
  have hfront : bytes.take (k * partSize) = Utf8.encode t ++ held := hdecodes.bytes_eq trivial
  refine ⟨t, held ++ bytes.drop (k * partSize), ?_, fun u => ?_⟩
  · rw [← List.append_assoc, ← hfront, List.take_append_drop]
  · rw [hlines]
    exact wholeLines_prefix t u

end OverlaySugar.Text
