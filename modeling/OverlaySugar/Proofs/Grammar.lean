import OverlaySugar.Proofs.Classification

/-!
# The grammar of a line

What a line says is given here by how it is put together from blanks, words and
marks, without reading it from left to right. Classification finds just this:
each line has one reading, and what is taken out of it is the only part that
fits.
-/

set_option autoImplicit false

namespace OverlaySugar
open Text

/-! ## Forms -/

def Blanks (t : Text) : Prop := ∀ c ∈ t, isBlank c = true

def Trims (t u : Text) : Prop :=
  (∃ a b, Blanks a ∧ Blanks b ∧ t = a ++ u ++ b) ∧
    (∀ c ∈ u.head?, isBlank c = false) ∧ ∀ c ∈ u.getLast?, isBlank c = false

def Ends (line t : Text) : Prop :=
  (∃ e : Text, (∀ c ∈ e, c = '\r' ∨ c = '\n') ∧ line = t ++ e) ∧
    ∀ c ∈ t.getLast?, ¬ (c = '\r' ∨ c = '\n')

def ReferenceLine (v t : Text) : Prop :=
  ∃ a b c d rest, Blanks a ∧ Blanks b ∧ Blanks c ∧ Blanks d ∧ '>' ∉ v ∧
    t = a ++ "target".toList ++ b ++ ['='] ++ c ++ ['<'] ++ v ++ ['>'] ++ d ++ [';'] ++ rest

def PathLine (v t : Text) : Prop :=
  ∃ a b c rest, Blanks a ∧ Blanks b ∧ Blanks c ∧ '"' ∉ v ∧
    t = a ++ "target-path".toList ++ b ++ ['='] ++ c ++ ['"'] ++ v ++ ['"'] ++ rest

def Assigns (t : Text) : Prop :=
  ∃ a w b rest, Blanks a ∧ w ≠ [] ∧ (∀ c ∈ w, isPropertyChar c = true) ∧ Blanks b ∧
    t = a ++ w ++ b ++ ['='] ++ rest

def Labelled (label rest p : Text) : Prop :=
  (∃ c w, label = c :: w ∧ isWordStart c = true ∧ ∀ d ∈ w, isWordChar d = true) ∧ '\n' ∉ rest ∧
    ∃ a b, Blanks a ∧ Blanks b ∧ p = label ++ a ++ [':'] ++ b ++ rest

inductive Names (p : Text) : Text → Text → Prop
  | labelled {label rest name : Text} (hr : p.head? ≠ some '&') (hp : p.head? ≠ some '/')
      (h : Labelled label rest p) (hn : Trims rest name) : Names p label name
  | bare (h : p.head? ≠ some '&' → p.head? ≠ some '/' → ∀ label rest, ¬ Labelled label rest p) :
      Names p [] p

def NamesFragment (name : Text) : Prop :=
  ∃ ds : Text, ds ≠ [] ∧ (∀ c ∈ ds, isDecimalDigit c = true) ∧ name = "fragment@".toList ++ ds

inductive Reads (inFragment : Bool) (t : Text) : Content → Prop
  | nodeOpen {before after p label name : Text} (h : t = before ++ '\x7b' :: after)
      (hlast : '\x7b' ∉ after) (hp : Trims before p) (hn : Names p label name) :
      Reads inFragment t (.nodeOpen label name)
  | nodeClose (ho : '\x7b' ∉ t) (hc : '\x7d' ∈ t) : Reads inFragment t .nodeClose
  | reference {v value : Text} (hb : BraceFree t) (hf : inFragment = true) (h : ReferenceLine v t)
      (hv : Trims v value) : Reads inFragment t (.target (.reference value))
  | path {v : Text} (hb : BraceFree t) (hf : inFragment = true) (h : PathLine v t) :
      Reads inFragment t (.target (.path v))
  | plain (hb : BraceFree t)
      (h : inFragment = true → ∀ v, ¬ ReferenceLine v t ∧ ¬ PathLine v t) :
      Reads inFragment t .plain

theorem Blanks.nil : Blanks [] := fun _ h => absurd h List.not_mem_nil

theorem Blanks.space : Blanks [' '] := List.forall_mem_singleton.mpr (by decide)

theorem Trims.self {t : Text} (hhead : ∀ c ∈ t.head?, isBlank c = false)
    (hlast : ∀ c ∈ t.getLast?, isBlank c = false) : Trims t t :=
  ⟨⟨[], [], .nil, .nil, (List.append_nil t).symm⟩, hhead, hlast⟩

/-! ## Runs at the ends of a text -/

section
variable {f : Char → Bool} {t u v w rest value label name p : Text}

theorem dropWhile_eq_iff : t.dropWhile f = u ↔
    (∃ a, (∀ c ∈ a, f c = true) ∧ t = a ++ u) ∧ ∀ c ∈ u.head?, f c = false := by
  constructor
  · rintro rfl
    refine ⟨⟨t.takeWhile f, fun c h => List.mem_takeWhile_imp h,
      List.takeWhile_append_dropWhile.symm⟩, fun c hc => ?_⟩
    have := List.head?_dropWhile_not f t
    rw [Option.mem_def.mp hc] at this
    simpa using this
  · rintro ⟨⟨a, ha, rfl⟩, hu⟩
    rw [List.dropWhile_append_of_pos ha]
    cases u with
    | nil => rfl
    | cons c u => exact List.dropWhile_cons_of_neg (by simp [hu c rfl])

theorem span_iff : t.takeWhile f = w ∧ t.dropWhile f = u ↔
    (∀ c ∈ w, f c = true) ∧ (∀ c ∈ u.head?, f c = false) ∧ t = w ++ u := by
  constructor
  · rintro ⟨rfl, rfl⟩
    exact ⟨fun c h => List.mem_takeWhile_imp h, (dropWhile_eq_iff.mp rfl).2,
      List.takeWhile_append_dropWhile.symm⟩
  · rintro ⟨hw, hu, rfl⟩
    refine ⟨?_, dropWhile_eq_iff.mpr ⟨⟨w, hw, rfl⟩, hu⟩⟩
    rw [List.takeWhile_append_of_pos hw]
    cases u with
    | nil => simp
    | cons c u => simp [hu c rfl]

theorem dropEndWhile_eq_iff : dropEndWhile f t = u ↔
    (∃ e, (∀ c ∈ e, f c = true) ∧ t = u ++ e) ∧ ∀ c ∈ u.getLast?, f c = false := by
  rw [dropEndWhile, List.reverse_eq_iff, dropWhile_eq_iff, List.head?_reverse]
  refine and_congr_left fun _ => ⟨?_, ?_⟩
  · rintro ⟨a, ha, h⟩
    exact ⟨a.reverse, by simpa using ha, by simpa using congrArg List.reverse h⟩
  · rintro ⟨e, he, rfl⟩
    exact ⟨e.reverse, by simpa using he, by simp⟩

theorem trim_eq_iff : trim t = u ↔ Trims t u := by
  constructor
  · intro h
    obtain ⟨⟨a, ha, hau⟩, hhead⟩ := dropWhile_eq_iff.mp h
    obtain ⟨⟨b, hb, hvb⟩, hlast⟩ := dropEndWhile_eq_iff.mp (rfl : trimEnd t = trimEnd t)
    rw [hau] at hvb hlast
    refine ⟨⟨a, b, ha, hb, hvb⟩, hhead, fun c hc => hlast c ?_⟩
    rw [List.getLast?_append, Option.mem_def.mp hc]
    rfl
  · rintro ⟨⟨a, b, ha, hb, rfl⟩, hhead, hlast⟩
    rw [List.append_assoc, trim_append ha, trim, trimEnd,
      dropEndWhile_eq_iff.mpr ⟨⟨b, hb, rfl⟩, hlast⟩]
    exact dropWhile_eq_iff.mpr ⟨⟨[], by simp, rfl⟩, hhead⟩

theorem trim_trimStart (t : Text) : trim (trimStart t) = trim t := by
  conv_rhs => rw [← leadingBlank_append_trimStart t]
  exact (trim_append (fun _ => isBlank_of_mem_leadingBlank) _).symm

theorem ends_iff {line : Text} : dropTerminator line = t ↔ Ends line t := by
  rw [dropTerminator, dropEndWhile_eq_iff, Ends]
  simp [isTerminator]

/-! ## Words and marks -/

/-- No character from `!` to `~` is blank. -/
theorem isBlank_of_graphic {c : Char} (hlo : 0x21 ≤ c.toNat) (hhi : c.toNat ≤ 0x7E) :
    isBlank c = false := by
  by_contra hb
  obtain ⟨r, hr, hrlo, hrhi⟩ := (Ranges.holds_iff blankRanges c).mp (Bool.not_eq_false _ ▸ hb)
  have hapart : ∀ r ∈ blankRanges, r.2 < 0x21 ∨ 0x7E < r.1 := by decide
  have := hapart r hr
  omega

theorem after?_trimStart_iff (word : Text) (hne : word ≠ [])
    (hw : word.head?.any isBlank = false) :
    after? word (trimStart t) = some rest ↔ ∃ a, Blanks a ∧ t = a ++ word ++ rest := by
  have hhead : ∀ c ∈ (word ++ rest).head?, isBlank c = false := by
    intro c hc
    rw [List.head?_append_of_ne_nil _ hne] at hc
    rwa [Option.mem_def.mp hc] at hw
  rw [after?_eq_some_iff, trimStart, dropWhile_eq_iff, and_iff_left hhead]
  simp only [Blanks, List.append_assoc]

theorem upTo_iff {c : Char} :
    t.takeWhile (· != c) = v ∧ after? [c] (t.dropWhile (· != c)) = some rest ↔
      c ∉ v ∧ t = v ++ [c] ++ rest := by
  rw [after?_eq_some_iff, span_iff]
  simp only [bne_iff_ne, ne_eq, List.singleton_append, List.head?_cons, Option.mem_def,
    Option.some.injEq, List.append_assoc]
  refine ⟨fun ⟨hv, _, ht⟩ => ⟨fun hc => hv c hc rfl, ht⟩, fun ⟨hv, ht⟩ => ⟨?_, ?_, ht⟩⟩
  · rintro d hd rfl
    exact hv hd
  · rintro d rfl
    exact bne_self_eq_false c

theorem referenceLine_iff : ReferenceLine v t ↔ ∃ t₁ t₂ t₃ t₄ rest,
    after? "target".toList (trimStart t) = some t₁ ∧ after? ['='] (trimStart t₁) = some t₂ ∧
      after? ['<'] (trimStart t₂) = some t₃ ∧
      (t₃.takeWhile (· != '>') = v ∧ after? ['>'] (t₃.dropWhile (· != '>')) = some t₄) ∧
      after? [';'] (trimStart t₄) = some rest := by
  simp only [upTo_iff, after?_trimStart_iff "target".toList (by decide) (by decide),
    after?_trimStart_iff ['='] (by decide) (by decide),
    after?_trimStart_iff ['<'] (by decide) (by decide),
    after?_trimStart_iff [';'] (by decide) (by decide)]
  constructor
  · rintro ⟨a, b, c, d, rest, ha, hb, hc, hd, hv, rfl⟩
    refine ⟨_, _, _, _, rest, ⟨a, ha, ?_⟩, ⟨b, hb, rfl⟩, ⟨c, hc, rfl⟩, ⟨hv, rfl⟩, d, hd, rfl⟩
    simp only [List.append_assoc]
  · rintro ⟨_, _, _, _, rest, ⟨a, ha, rfl⟩, ⟨b, hb, rfl⟩, ⟨c, hc, rfl⟩, ⟨hv, rfl⟩, d, hd, rfl⟩
    refine ⟨a, b, c, d, rest, ha, hb, hc, hd, hv, ?_⟩
    simp only [List.append_assoc]

theorem pathLine_iff : PathLine v t ↔ ∃ t₁ t₂ t₃ rest,
    after? "target-path".toList (trimStart t) = some t₁ ∧ after? ['='] (trimStart t₁) = some t₂ ∧
      after? ['"'] (trimStart t₂) = some t₃ ∧
      t₃.takeWhile (· != '"') = v ∧ after? ['"'] (t₃.dropWhile (· != '"')) = some rest := by
  simp only [upTo_iff, after?_trimStart_iff "target-path".toList (by decide) (by decide),
    after?_trimStart_iff ['='] (by decide) (by decide),
    after?_trimStart_iff ['"'] (by decide) (by decide)]
  constructor
  · rintro ⟨a, b, c, rest, ha, hb, hc, hv, rfl⟩
    refine ⟨_, _, _, rest, ⟨a, ha, ?_⟩, ⟨b, hb, rfl⟩, ⟨c, hc, rfl⟩, hv, rfl⟩
    simp only [List.append_assoc]
  · rintro ⟨_, _, _, rest, ⟨a, ha, rfl⟩, ⟨b, hb, rfl⟩, ⟨c, hc, rfl⟩, hv, rfl⟩
    refine ⟨a, b, c, rest, ha, hb, hc, hv, ?_⟩
    simp only [List.append_assoc]

theorem ReferenceLine.unique (hv : ReferenceLine v t) (hw : ReferenceLine w t) : v = w := by
  obtain ⟨t₁, t₂, t₃, t₄, _, h₁, h₂, h₃, ⟨rfl, -⟩, -⟩ := referenceLine_iff.mp hv
  obtain ⟨u₁, u₂, u₃, u₄, _, k₁, k₂, k₃, ⟨rfl, -⟩, -⟩ := referenceLine_iff.mp hw
  obtain rfl := Option.some.inj (h₁.symm.trans k₁)
  obtain rfl := Option.some.inj (h₂.symm.trans k₂)
  obtain rfl := Option.some.inj (h₃.symm.trans k₃)
  rfl

theorem PathLine.unique (hv : PathLine v t) (hw : PathLine w t) : v = w := by
  obtain ⟨t₁, t₂, t₃, _, h₁, h₂, h₃, rfl, -⟩ := pathLine_iff.mp hv
  obtain ⟨u₁, u₂, u₃, _, k₁, k₂, k₃, rfl, -⟩ := pathLine_iff.mp hw
  obtain rfl := Option.some.inj (h₁.symm.trans k₁)
  obtain rfl := Option.some.inj (h₂.symm.trans k₂)
  obtain rfl := Option.some.inj (h₃.symm.trans k₃)
  rfl

/-- No text has both forms: behind `target` stands a blank or `=` in one and `-` in the other. -/
theorem ReferenceLine.not_pathLine (hv : ReferenceLine v t) : ¬ PathLine w t := by
  intro hw
  obtain ⟨t₁, t₂, _, _, _, h₁, h₂, -⟩ := referenceLine_iff.mp hv
  obtain ⟨u₁, _, _, _, k₁, -⟩ := pathLine_iff.mp hw
  rw [after?_eq_some_iff] at h₁ k₁
  have ht : "target".toList ++ t₁ = "target".toList ++ ('-' :: ("path".toList ++ u₁)) :=
    h₁.symm.trans k₁
  rw [List.append_cancel_left ht, trimStart_of_head (by decide)] at h₂
  cases h₂

theorem targetReference?_eq_some_iff :
    targetReference? t = some value ↔ ∃ v, ReferenceLine v t ∧ trim v = value := by
  simp only [targetReference?, referenceLine_iff, Option.bind_eq_bind, Option.bind_eq_some_iff,
    Option.pure_def, Option.some.injEq]
  constructor
  · rintro ⟨t₁, h₁, t₂, h₂, t₃, h₃, t₄, h₄, rest, h₅, rfl⟩
    exact ⟨_, ⟨t₁, t₂, t₃, t₄, rest, h₁, h₂, h₃, ⟨rfl, h₄⟩, h₅⟩, rfl⟩
  · rintro ⟨_, ⟨t₁, t₂, t₃, t₄, rest, h₁, h₂, h₃, ⟨rfl, h₄⟩, h₅⟩, rfl⟩
    exact ⟨t₁, h₁, t₂, h₂, t₃, h₃, t₄, h₄, rest, h₅, rfl⟩

theorem targetReference?_eq_none_iff : targetReference? t = none ↔ ∀ v, ¬ ReferenceLine v t := by
  rw [Option.eq_none_iff_forall_ne_some]
  constructor
  · intro h v hv
    exact h _ (targetReference?_eq_some_iff.mpr ⟨v, hv, rfl⟩)
  · intro h value hvalue
    obtain ⟨v, hv, -⟩ := targetReference?_eq_some_iff.mp hvalue
    exact h v hv

theorem targetPath?_eq_some_iff : targetPath? t = some v ↔ PathLine v t := by
  simp only [targetPath?, pathLine_iff, Option.bind_eq_bind, Option.bind_eq_some_iff,
    Option.pure_def, Option.some.injEq]
  constructor
  · rintro ⟨t₁, h₁, t₂, h₂, t₃, h₃, rest, h₄, rfl⟩
    exact ⟨t₁, t₂, t₃, rest, h₁, h₂, h₃, rfl, h₄⟩
  · rintro ⟨t₁, t₂, t₃, rest, h₁, h₂, h₃, rfl, h₄⟩
    exact ⟨t₁, h₁, t₂, h₂, t₃, h₃, rest, h₄, rfl⟩

theorem targetPath?_eq_none_iff : targetPath? t = none ↔ ∀ v, ¬ PathLine v t := by
  simp only [Option.eq_none_iff_forall_ne_some, ne_eq, targetPath?_eq_some_iff]

/-! ## Names -/

theorem graphic_of_alphanum {c : Char} (h : c.isAlphanum = true) :
    0x21 ≤ c.toNat ∧ c.toNat ≤ 0x7E := by
  have hclass : c.isAlphanum = (decide (c.val ≥ 65 ∧ c.val ≤ 90) ||
      (decide (c.val ≥ 97) && decide (c.val ≤ 122)) ||
      (decide (c.val ≥ 48) && decide (c.val ≤ 57))) := rfl
  simp only [hclass, Bool.or_eq_true, Bool.and_eq_true, decide_eq_true_eq, ge_iff_le,
    UInt32.le_iff_toNat_le] at h
  rcases h with (⟨hlo, hhi⟩ | ⟨hlo, hhi⟩) | ⟨hlo, hhi⟩
  · exact ⟨le_trans (by decide) hlo, le_trans hhi (by decide)⟩
  · exact ⟨le_trans (by decide) hlo, le_trans hhi (by decide)⟩
  · exact ⟨le_trans (by decide) hlo, le_trans hhi (by decide)⟩

theorem isBlank_of_wordChar {c : Char} (h : isWordChar c = true) : isBlank c = false := by
  rw [isWordChar, Bool.or_eq_true, beq_iff_eq] at h
  rcases h with h | rfl
  · exact isBlank_of_graphic (graphic_of_alphanum h).1 (graphic_of_alphanum h).2
  · decide

theorem isBlank_of_propertyChar {c : Char} (h : isPropertyChar c = true) : isBlank c = false := by
  rw [isPropertyChar, Bool.or_eq_true, decide_eq_true_eq] at h
  rcases h with h | h
  · exact isBlank_of_graphic (graphic_of_alphanum h).1 (graphic_of_alphanum h).2
  · have hmarks : [',', '.', '_', '+', '#', '?', '-'].any isBlank = false := by decide
    exact Bool.eq_false_iff.mpr (List.any_eq_false.mp hmarks c h)

theorem head_any_iff : t.head?.any f = true ↔ t.takeWhile f ≠ [] := by
  cases t with
  | nil => simp
  | cons c t => by_cases h : f c = true <;> simp [h]

theorem head_eq_iff {c : Char} : t.head? = some c ↔ ∃ rest, after? [c] t = some rest := by
  simp only [after?_eq_some_iff, List.singleton_append, List.head?_eq_some_iff]

/-- A run of characters that are not blank ends in front of blanks and a mark. -/
theorem span_blanks {a : Text} (m : Char) (rest : Text) (hf : ∀ c, f c = true → isBlank c = false)
    (hm : f m = false) (hw : ∀ c ∈ w, f c = true) (ha : Blanks a) :
    (w ++ (a ++ [m] ++ rest)).takeWhile f = w ∧
      (w ++ (a ++ [m] ++ rest)).dropWhile f = a ++ [m] ++ rest := by
  refine span_iff.mpr ⟨hw, ?_, rfl⟩
  cases a with
  | nil =>
    rintro c hc
    obtain rfl : m = c := by simpa using hc
    exact hm
  | cons d a =>
    rintro c hc
    obtain rfl : d = c := by simpa using hc
    by_contra hd
    have hblank := hf d (Bool.not_eq_false _ ▸ hd)
    rw [ha d List.mem_cons_self] at hblank
    cases hblank

theorem assignsProperty_iff : assignsProperty t = true ↔ Assigns t := by
  simp only [assignsProperty, Bool.and_eq_true, beq_iff_eq, head_any_iff, head_eq_iff,
    after?_trimStart_iff ['='] (by decide) (by decide)]
  constructor
  · rintro ⟨hne, rest, b, hb, hu⟩
    refine ⟨leadingBlank t, (trimStart t).takeWhile isPropertyChar, b, rest,
      fun _ => isBlank_of_mem_leadingBlank, hne, fun _ h => List.mem_takeWhile_imp h, hb, ?_⟩
    conv_lhs => rw [← leadingBlank_append_trimStart t,
      ← List.takeWhile_append_dropWhile (p := isPropertyChar) (l := trimStart t), hu]
    simp only [List.append_assoc]
  · rintro ⟨a, w, b, rest, ha, hne, hw, hb, rfl⟩
    have htrim : trimStart (a ++ w ++ b ++ ['='] ++ rest) = w ++ (b ++ ['='] ++ rest) := by
      refine dropWhile_eq_iff.mpr ⟨⟨a, ha, by simp only [List.append_assoc]⟩, fun c hc => ?_⟩
      rw [List.head?_append_of_ne_nil _ hne] at hc
      exact isBlank_of_propertyChar (hw c (List.mem_of_mem_head? hc))
    obtain ⟨htake, hdrop⟩ :=
      span_blanks '=' rest (fun _ => isBlank_of_propertyChar) (by decide) hw hb
    rw [htrim, htake, hdrop]
    exact ⟨hne, rest, b, hb, rfl⟩

theorem isWordChar_of_wordStart {c : Char} (h : isWordStart c = true) : isWordChar c = true := by
  simp only [isWordStart, isWordChar, Char.isAlphanum, Bool.or_eq_true] at h ⊢
  exact h.imp_left .inl

theorem labelled?_eq_some_iff :
    labelled? p = some (label, name) ↔ ∃ rest, Labelled label rest p ∧ trim rest = name := by
  have hguard {q : Prop} [Decidable q] (x : Unit) :
      (if q then some () else failure) = some x ↔ q := by
    by_cases h : q <;> simp [h]
  simp only [labelled?, Option.bind_eq_bind, Option.bind_eq_some_iff, Option.pure_def,
    Option.some.injEq, Prod.mk.injEq, guard, hguard, exists_const, Option.any_eq_true,
    after?_trimStart_iff [':'] (by decide) (by decide), List.head?_eq_some_iff]
  constructor
  · rintro ⟨⟨c, ⟨p, rfl⟩, hc⟩, after, ⟨a, ha, hd⟩, hn, rfl, rfl⟩
    have hword := isWordChar_of_wordStart hc
    rw [List.takeWhile_cons_of_pos hword]
    rw [List.dropWhile_cons_of_pos hword] at hd
    refine ⟨trimStart after, ⟨⟨c, _, rfl, hc, fun _ h => List.mem_takeWhile_imp h⟩, hn, a,
      leadingBlank after, ha, fun _ => isBlank_of_mem_leadingBlank, ?_⟩, rfl⟩
    conv_lhs => rw [← List.takeWhile_append_dropWhile (p := isWordChar) (l := p), hd,
      ← leadingBlank_append_trimStart after]
    simp only [List.cons_append, List.append_assoc]
  · rintro ⟨rest, ⟨⟨c, w, rfl, hc, hw⟩, hn, a, b, ha, hb, rfl⟩, rfl⟩
    have hword : ∀ d ∈ c :: w, isWordChar d = true :=
      List.forall_mem_cons.mpr ⟨isWordChar_of_wordStart hc, hw⟩
    have hsplit : c :: w ++ a ++ [':'] ++ b ++ rest = (c :: w) ++ (a ++ [':'] ++ (b ++ rest)) := by
      simp only [List.append_assoc]
    obtain ⟨htake, hdrop⟩ := span_blanks ':' (b ++ rest)
      (fun _ => isBlank_of_wordChar) (by decide) hword ha
    rw [hsplit, htake, hdrop]
    refine ⟨⟨c, ⟨_, rfl⟩, hc⟩, b ++ rest, ⟨a, ha, rfl⟩, ?_, rfl, ?_⟩
    · rw [trimStart, List.dropWhile_append_of_pos hb]
      exact fun h => hn (trimStart_subset rest h)
    · rw [trim_trimStart, trim_append hb]

theorem Labelled.unique {label' rest' : Text} (h : Labelled label rest p)
    (h' : Labelled label' rest' p) : label = label' ∧ trim rest = trim rest' := by
  have hl := labelled?_eq_some_iff.mpr ⟨rest, h, rfl⟩
  rw [labelled?_eq_some_iff.mpr ⟨rest', h', rfl⟩, Option.some.injEq, Prod.mk.injEq] at hl
  exact ⟨hl.1.symm, hl.2.symm⟩

theorem splitName_eq_iff : splitName t = (label, name) ↔ ∃ p, Trims t p ∧ Names p label name := by
  have hspec : splitName t = (if (trim t).head? = some '&' ∨ (trim t).head? = some '/' then none
      else labelled? (trim t)).getD ([], trim t) := by
    rw [apply_ite (Option.getD · _)]
    rfl
  rw [hspec]
  constructor
  · intro h
    refine ⟨trim t, trim_eq_iff.mp rfl, ?_⟩
    split at h
    · next hmark =>
      cases h
      exact .bare fun hr hp => absurd hmark (not_or.mpr ⟨hr, hp⟩)
    · next hmark =>
      obtain ⟨hr, hp⟩ := not_or.mp hmark
      cases hl : labelled? (trim t) with
      | some q =>
        rw [hl] at h
        cases h
        obtain ⟨rest, hrest, hname⟩ := labelled?_eq_some_iff.mp hl
        exact .labelled hr hp hrest (trim_eq_iff.mp hname)
      | none =>
        rw [hl] at h
        cases h
        refine .bare fun _ _ label rest hrest => ?_
        rw [labelled?_eq_some_iff.mpr ⟨rest, hrest, rfl⟩] at hl
        cases hl
  · rintro ⟨p, hp, h⟩
    obtain rfl := trim_eq_iff.mpr hp
    cases h with
    | labelled hr hp h hn =>
      rw [if_neg (not_or.mpr ⟨hr, hp⟩), labelled?_eq_some_iff.mpr ⟨_, h, trim_eq_iff.mpr hn⟩]
      rfl
    | bare h =>
      split
      · rfl
      · next hmark =>
        obtain ⟨hr, hp⟩ := not_or.mp hmark
        cases hl : labelled? (trim t) with
        | none => rfl
        | some q =>
          obtain ⟨rest, hrest, -⟩ := labelled?_eq_some_iff.mp hl
          exact absurd hrest (h hr hp q.1 rest)

theorem Names.trimmed (h : Names p label name) (hp : ∀ c ∈ p.getLast?, isBlank c = false) :
    ∀ c ∈ name.getLast?, isBlank c = false := by
  cases h with
  | labelled _ _ _ hn => exact hn.2.2
  | bare => exact hp

/-- No line feed stands at the end of a trimmed name, so the digits go up to the end. -/
theorem isFragmentName_iff (h : ∀ c ∈ name.getLast?, isBlank c = false) :
    isFragmentName name = true ↔ NamesFragment name := by
  constructor
  · intro hf
    unfold isFragmentName at hf
    split at hf
    · next ds hds =>
      obtain rfl := (after?_eq_some_iff _ _ _).mp hds
      rw [Bool.and_eq_true, head_any_iff] at hf
      have hdigits := List.takeWhile_append_dropWhile (p := isDecimalDigit) (l := ds)
      obtain ⟨hne, hrest⟩ := hf
      have hnil : ds.dropWhile isDecimalDigit = [] := by
        simp only [decide_eq_true_eq, List.mem_cons, List.not_mem_nil, or_false] at hrest
        refine hrest.resolve_right fun hlf => ?_
        rw [← hdigits, hlf, ← List.append_assoc, List.getLast?_concat] at h
        exact absurd (h '\n' rfl) (by decide)
      rw [hnil, List.append_nil] at hdigits
      rw [hdigits] at hne
      refine ⟨ds, hne, fun c hc => ?_, rfl⟩
      rw [← hdigits] at hc
      exact List.mem_takeWhile_imp hc
    · cases hf
  · rintro ⟨ds, hne, hds, rfl⟩
    have hafter : after? fragmentStem ("fragment@".toList ++ ds) = some ds :=
      (after?_eq_some_iff _ _ _).mpr rfl
    obtain ⟨htake, hdrop⟩ := (span_iff (f := isDecimalDigit) (w := ds) (u := [])).mpr
      ⟨hds, by simp, (List.append_nil ds).symm⟩
    simp only [isFragmentName, hafter, hdrop, Bool.and_eq_true, head_any_iff, htake]
    exact ⟨hne, by decide⟩

/-! ## Contents -/

theorem beforeLast_append {c : Char} {before after : Text} (h : c ∉ after) :
    beforeLast c (before ++ c :: after) = before := by
  have hafter : ∀ d ∈ after.reverse, (d != c) = true := by
    intro d hd
    rw [bne_iff_ne]
    rintro rfl
    exact h (List.mem_reverse.mp hd)
  rw [beforeLast, if_pos (by simp), List.reverse_append, List.reverse_cons, List.append_assoc,
    List.dropWhile_append_of_pos hafter]
  simp

theorem exists_last {c : Char} (h : c ∈ t) :
    ∃ before after, t = before ++ c :: after ∧ c ∉ after := by
  obtain ⟨a, b, hab, ha⟩ := List.eq_append_cons_of_mem (List.mem_reverse.mpr h)
  refine ⟨b.reverse, a.reverse, ?_, fun hc => ha (List.mem_reverse.mp hc)⟩
  simpa using congrArg List.reverse hab

theorem contentOf_eq_iff {f : Bool} {c : Content} : contentOf f t = c ↔ Reads f t c := by
  constructor
  · rintro rfl
    by_cases ho : '\x7b' ∈ t
    · obtain ⟨before, after, rfl, hlast⟩ := exists_last ho
      obtain ⟨p, hp, hn⟩ := splitName_eq_iff.mp
        (rfl : splitName before = ((splitName before).1, (splitName before).2))
      rw [contentOf_of_open ho, beforeLast_append hlast]
      exact .nodeOpen rfl hlast hp hn
    · by_cases hc : '\x7d' ∈ t
      · rw [contentOf_of_close ho hc]
        exact .nodeClose ho hc
      · cases f with
        | false =>
          rw [contentOf_of_braceFree ⟨ho, hc⟩]
          exact .plain ⟨ho, hc⟩ nofun
        | true =>
          rw [contentOf, if_neg ho, if_neg hc, if_pos rfl]
          split
          · next v hv =>
            obtain ⟨w, hw, htrim⟩ := targetReference?_eq_some_iff.mp hv
            exact .reference ⟨ho, hc⟩ rfl hw (trim_eq_iff.mp htrim)
          · next v hr hv => exact .path ⟨ho, hc⟩ rfl (targetPath?_eq_some_iff.mp hv)
          · next hr hp =>
            exact .plain ⟨ho, hc⟩ fun _ v =>
              ⟨targetReference?_eq_none_iff.mp hr v, targetPath?_eq_none_iff.mp hp v⟩
  · intro h
    cases h with
    | nodeOpen h hlast hp hn =>
      subst h
      rw [contentOf_of_open (by simp), beforeLast_append hlast,
        splitName_eq_iff.mpr ⟨_, hp, hn⟩]
    | nodeClose ho hc => exact contentOf_of_close ho hc
    | reference hb hf h hv =>
      rw [contentOf, if_neg hb.1, if_neg hb.2, if_pos hf,
        targetReference?_eq_some_iff.mpr ⟨_, h, trim_eq_iff.mpr hv⟩]
    | path hb hf h =>
      have hr : targetReference? t = none :=
        targetReference?_eq_none_iff.mpr fun _ hv => hv.not_pathLine h
      rw [contentOf, if_neg hb.1, if_neg hb.2, if_pos hf, hr, targetPath?_eq_some_iff.mpr h]
    | plain hb h =>
      cases f with
      | false => exact contentOf_of_braceFree hb
      | true =>
        have hr := targetReference?_eq_none_iff.mpr fun v => (h rfl v).1
        have hp := targetPath?_eq_none_iff.mpr fun v => (h rfl v).2
        rw [contentOf, if_neg hb.1, if_neg hb.2, if_pos rfl, hr, hp]

theorem shape_target_iff {f : Bool} : (contentOf f t).shape = .target ↔
    BraceFree t ∧ f = true ∧ ∃ v, ReferenceLine v t := by
  have hshape (c : Content) : c.shape = .target ↔ ∃ value, c = .target (.reference value) := by
    rcases c with _ | _ | (_ | _) | _ <;> simp [Content.shape]
  simp only [hshape, contentOf_eq_iff]
  constructor
  · rintro ⟨_, _ | _ | ⟨hb, hf, hv, -⟩⟩
    exact ⟨hb, hf, _, hv⟩
  · rintro ⟨hb, hf, v, hv⟩
    exact ⟨trim v, .reference hb hf hv (trim_eq_iff.mp rfl)⟩

theorem shape_targetPath_iff {f : Bool} : (contentOf f t).shape = .targetPath ↔
    BraceFree t ∧ f = true ∧ ∃ v, PathLine v t := by
  have hshape (c : Content) : c.shape = .targetPath ↔ ∃ v, c = .target (.path v) := by
    rcases c with _ | _ | (_ | _) | _ <;> simp [Content.shape]
  simp only [hshape, contentOf_eq_iff]
  constructor
  · rintro ⟨_, _ | _ | _ | ⟨hb, hf, hv⟩⟩
    exact ⟨hb, hf, _, hv⟩
  · rintro ⟨hb, hf, v, hv⟩
    exact ⟨v, .path hb hf hv⟩

theorem shape_plain_iff {f : Bool} : (contentOf f t).shape = .plain ↔
    BraceFree t ∧ (f = true → ∀ v, ¬ ReferenceLine v t ∧ ¬ PathLine v t) := by
  have hshape (c : Content) : c.shape = .plain ↔ c = .plain := by
    rcases c with _ | _ | (_ | _) | _ <;> simp [Content.shape]
  rw [hshape, contentOf_eq_iff]
  constructor
  · rintro (_ | _ | _ | _ | ⟨hb, h⟩)
    exact ⟨hb, h⟩
  · rintro ⟨hb, h⟩
    exact .plain hb h

theorem isFragment_classify_iff (f : Bool) (k : Int) (line : Text) :
    (classify f k line).isFragment = true ↔ NamesFragment (classify f k line).name := by
  simp only [Line.isFragment, Line.shape, Line.name, classify, Bool.and_eq_true, beq_iff_eq]
  generalize hc : contentOf f (dropTerminator line) = c
  have hempty : ¬ NamesFragment [] := by
    rintro ⟨ds, -, -, h⟩
    cases h
  cases contentOf_eq_iff.mp hc with
  | nodeOpen _ _ hp hn =>
    rw [isFragmentName_iff (hn.trimmed hp.2.2)]
    exact and_iff_right rfl
  | nodeClose | reference | path | plain => simp [Content.shape, hempty]

/-- Each line has one reading, which is what classification finds. -/
theorem classify_grammar (f : Bool) (k : Int) (line : Text) :
    let l := classify f k line
    Ends line l.text ∧ l.number = k ∧ (∀ c, l.content = c ↔ Reads f l.text c) ∧
      ((l.shape = .nodeOpen ↔ '\x7b' ∈ l.text) ∧
        (l.shape = .nodeClose ↔ '\x7b' ∉ l.text ∧ '\x7d' ∈ l.text) ∧
        (l.shape = .target ↔ BraceFree l.text ∧ f = true ∧ ∃ v, ReferenceLine v l.text) ∧
        (l.shape = .targetPath ↔ BraceFree l.text ∧ f = true ∧ ∃ v, PathLine v l.text) ∧
        (l.shape = .plain ↔ BraceFree l.text ∧
          (f = true → ∀ v, ¬ ReferenceLine v l.text ∧ ¬ PathLine v l.text))) ∧
      ((∀ v w, ReferenceLine v l.text → ReferenceLine w l.text → v = w) ∧
        (∀ v w, PathLine v l.text → PathLine w l.text → v = w) ∧
        ∀ p label rest label' rest', Labelled label rest p → Labelled label' rest' p →
          label = label' ∧ ∀ name, Trims rest name ↔ Trims rest' name) ∧
      (l.isFragment = true ↔ NamesFragment l.name) ∧ (l.isProperty = true ↔ Assigns l.text) :=
  ⟨ends_iff.mp rfl, rfl, fun _ => contentOf_eq_iff,
    ⟨contentOf_nodeOpen_iff f _, contentOf_nodeClose_iff f _, shape_target_iff,
      shape_targetPath_iff, shape_plain_iff⟩,
    ⟨fun _ _ => ReferenceLine.unique, fun _ _ => PathLine.unique,
      fun _ _ _ _ _ h h' => ⟨(h.unique h').1, fun name => by
        rw [← trim_eq_iff, ← trim_eq_iff, (h.unique h').2]⟩⟩,
    isFragment_classify_iff f k line, assignsProperty_iff⟩

end
end OverlaySugar
