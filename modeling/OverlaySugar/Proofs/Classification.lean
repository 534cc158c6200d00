import Mathlib.Data.List.DropRight
import OverlaySugar.Line

/-!
# What classification depends on

Braces decide first: which node a line opens, and whether it closes one, does
not depend on the context. Only a line without braces can set a target, and
then all characters of the value stand in the line.
-/

set_option autoImplicit false

namespace OverlaySugar
open Text

/-! ## Ends of a text -/

theorem dropEndWhile_eq (f : Char → Bool) (t : Text) : dropEndWhile f t = t.rdropWhile f := rfl

theorem mem_dropEndWhile {f : Char → Bool} {c : Char} (hc : f c = false) (t : Text) :
    c ∈ dropEndWhile f t ↔ c ∈ t := by
  rw [dropEndWhile_eq]
  constructor
  · exact fun h => (List.rdropWhile_prefix f t).subset h
  · intro h
    rw [← List.rdropWhile_append_rtakeWhile (p := f) (l := t)] at h
    refine (List.mem_append.mp h).resolve_right fun ht => ?_
    simpa [hc] using List.mem_rtakeWhile_imp ht

theorem dropEndWhile_cons {f : Char → Bool} {c : Char} (hc : f c = false) (t : Text) :
    dropEndWhile f (c :: t) = c :: dropEndWhile f t := by
  by_cases ht : (t.reverse.dropWhile f).isEmpty = true
  · simp [dropEndWhile, List.dropWhile_append, hc, List.isEmpty_iff.mp ht]
  · simp [dropEndWhile, List.dropWhile_append, ht]

theorem open_mem_dropTerminator (t : Text) : '\x7b' ∈ dropTerminator t ↔ '\x7b' ∈ t :=
  mem_dropEndWhile (by decide) t

theorem close_mem_dropTerminator (t : Text) : '\x7d' ∈ dropTerminator t ↔ '\x7d' ∈ t :=
  mem_dropEndWhile (by decide) t

theorem dropTerminator_concat {c : Char} (h : isTerminator c = false) (t : Text) :
    dropTerminator (t ++ [c]) = t ++ [c] := by
  rw [dropTerminator, dropEndWhile_eq]
  exact List.rdropWhile_concat_neg isTerminator t c (by simp [h])

theorem dropTerminator_of_any {t : Text} (h : t.any isTerminator = false) :
    dropTerminator t = t := by
  rw [dropTerminator, dropEndWhile_eq, List.rdropWhile_eq_self_iff]
  intro hne
  exact List.any_eq_false.mp h _ (List.getLast_mem hne)

theorem dropTerminator_dropTerminator (t : Text) :
    dropTerminator (dropTerminator t) = dropTerminator t := by
  simp only [dropTerminator, dropEndWhile_eq]
  exact List.rdropWhile_idempotent isTerminator t

theorem dropTerminator_cons {c : Char} (h : isTerminator c = false) (t : Text) :
    dropTerminator (c :: t) = c :: dropTerminator t := dropEndWhile_cons h t

theorem beforeLast_concat (c : Char) (t : Text) : beforeLast c (t ++ [c]) = t := by
  simp [beforeLast]

theorem beforeLast_cons {c : Char} {t : Text} (h : c ∈ t) (d : Char) :
    beforeLast c (d :: t) = d :: beforeLast c t := by
  have ht : t.reverse.dropWhile (· != c) ≠ [] := by
    rw [Ne, List.dropWhile_eq_nil_iff]
    intro hall
    simpa using hall c (List.mem_reverse.mpr h)
  obtain ⟨a, u, hu⟩ := List.exists_cons_of_ne_nil ht
  simp [beforeLast, h, List.dropWhile_append, hu]

/-! ## Blanks -/

theorem trimEnd_concat {c : Char} (h : isBlank c = true) (t : Text) :
    trimEnd (t ++ [c]) = trimEnd t := by
  simp only [trimEnd, dropEndWhile_eq]
  exact List.rdropWhile_concat_pos isBlank t c h

theorem trim_cons {c : Char} (h : isBlank c = true) (t : Text) : trim (c :: t) = trim t := by
  by_cases ht : (t.reverse.dropWhile isBlank).isEmpty = true
  · have he : trimEnd t = [] := by simpa [trimEnd, dropEndWhile] using ht
    have hc : trimEnd (c :: t) = [] := by
      simp [trimEnd, dropEndWhile, List.dropWhile_append, ht, h]
    rw [trim, trim, hc, he]
  · have hc : trimEnd (c :: t) = c :: trimEnd t := by
      simp [trimEnd, dropEndWhile, List.dropWhile_append, ht]
    rw [trim, hc]
    exact List.dropWhile_cons_of_pos h

theorem trim_append {b : Text} (h : ∀ c ∈ b, isBlank c = true) (t : Text) :
    trim (b ++ t) = trim t := by
  induction b with
  | nil => rfl
  | cons c b ih =>
    rw [List.cons_append, trim_cons (h c (by simp))]
    exact ih fun d hd => h d (by simp [hd])

theorem trimStart_of_head {c : Char} (h : isBlank c = false) (t : Text) :
    trimStart (c :: t) = c :: t := List.dropWhile_cons_of_neg (by simp [h])

/-! ## Braces decide -/

theorem contentOf_of_open {f : Bool} {t : Text} (h : '\x7b' ∈ t) :
    contentOf f t = .nodeOpen (splitName (beforeLast '\x7b' t)).1
      (splitName (beforeLast '\x7b' t)).2 := by
  rw [contentOf, if_pos h]

theorem contentOf_of_close {f : Bool} {t : Text} (h : '\x7b' ∉ t) (h' : '\x7d' ∈ t) :
    contentOf f t = .nodeClose := by
  rw [contentOf, if_neg h, if_pos h']

def BraceFree (t : Text) : Prop := '\x7b' ∉ t ∧ '\x7d' ∉ t

instance (t : Text) : Decidable (BraceFree t) := inferInstanceAs (Decidable (_ ∧ _))

theorem braceFree_dropTerminator (t : Text) : BraceFree (dropTerminator t) ↔ BraceFree t := by
  rw [BraceFree, BraceFree, open_mem_dropTerminator, close_mem_dropTerminator]

theorem contentOf_of_braceFree {t : Text} (h : BraceFree t) : contentOf false t = .plain := by
  rw [contentOf, if_neg h.1, if_neg h.2]
  rfl

theorem splitName_of_trim {t u : Text} (h : trim t = trim u) : splitName t = splitName u := by
  simp only [splitName, h]

/-- Outside fragments a tab in front of a line makes no difference. -/
theorem contentOf_tab (t : Text) : contentOf false ('\t' :: t) = contentOf false t := by
  by_cases ho : '\x7b' ∈ t
  · have hb : splitName (beforeLast '\x7b' ('\t' :: t)) = splitName (beforeLast '\x7b' t) := by
      rw [beforeLast_cons ho]
      exact splitName_of_trim (trim_cons (by decide) _)
    rw [contentOf_of_open ho, contentOf_of_open (List.mem_cons_of_mem _ ho), hb]
  · simp [contentOf, ho]

theorem contentOf_nodeOpen {f : Bool} {t label name : Text}
    (h : contentOf f t = .nodeOpen label name) (g : Bool) :
    '\x7b' ∈ t ∧ contentOf g t = .nodeOpen label name := by
  have ho : '\x7b' ∈ t := by
    rw [← contentOf_nodeOpen_iff f, h]
    rfl
  rw [contentOf_of_open ho] at h ⊢
  exact ⟨ho, h⟩

theorem contentOf_nodeClose {f : Bool} {t : Text} (h : contentOf f t = .nodeClose) :
    '\x7b' ∉ t ∧ '\x7d' ∈ t := by
  rw [← contentOf_nodeClose_iff f, h]
  rfl

theorem contentOf_braceless {f : Bool} {t : Text}
    (ho : ∀ label name, contentOf f t ≠ .nodeOpen label name) (hc : contentOf f t ≠ .nodeClose) :
    BraceFree t := by
  have h : '\x7b' ∉ t := fun h => ho _ _ (contentOf_of_open h)
  exact ⟨h, fun h' => hc (contentOf_of_close h h')⟩

/-! ## What a value is made of -/

theorem subset_of_after {word t rest : Text} (h : after? word t = some rest) : rest ⊆ t := by
  rw [(after?_eq_some_iff word t rest).mp h]
  exact List.subset_append_right word rest

theorem trimStart_subset (t : Text) : trimStart t ⊆ t := List.dropWhile_subset isBlank

theorem trim_subset (t : Text) : trim t ⊆ t :=
  List.Subset.trans (trimStart_subset _) (List.rdropWhile_prefix isBlank t).subset

theorem subset_of_after_trimStart {word t rest : Text}
    (h : after? word (trimStart t) = some rest) : rest ⊆ t :=
  List.Subset.trans (subset_of_after h) (trimStart_subset t)

theorem targetReference?_subset {t v : Text} (h : targetReference? t = some v) : v ⊆ t := by
  simp only [targetReference?, Option.bind_eq_bind, Option.bind_eq_some_iff, Option.pure_def,
    Option.some.injEq] at h
  obtain ⟨t₁, h₁, t₂, h₂, t₃, h₃, _, _, _, _, rfl⟩ := h
  have hv : trim (t₃.takeWhile (· != '>')) ⊆ t₃ :=
    List.Subset.trans (trim_subset _) (List.takeWhile_subset _)
  have h : t₃ ⊆ t := List.Subset.trans (subset_of_after_trimStart h₃)
    (List.Subset.trans (subset_of_after_trimStart h₂) (subset_of_after_trimStart h₁))
  exact List.Subset.trans hv h

theorem targetPath?_subset {t v : Text} (h : targetPath? t = some v) : v ⊆ t := by
  simp only [targetPath?, Option.bind_eq_bind, Option.bind_eq_some_iff, Option.pure_def,
    Option.some.injEq] at h
  obtain ⟨t₁, h₁, t₂, h₂, t₃, h₃, _, _, rfl⟩ := h
  have h : t₃ ⊆ t := List.Subset.trans (subset_of_after_trimStart h₃)
    (List.Subset.trans (subset_of_after_trimStart h₂) (subset_of_after_trimStart h₁))
  exact List.Subset.trans (List.takeWhile_subset _) h

theorem contentOf_target {f : Bool} {t : Text} {v : Target} (h : contentOf f t = .target v) :
    f = true ∧ BraceFree t ∧ v.value ⊆ t := by
  have hb : BraceFree t := contentOf_braceless (f := f) (by simp [h]) (by simp [h])
  cases f with
  | false => simp [contentOf_of_braceFree hb] at h
  | true =>
    refine ⟨rfl, hb, ?_⟩
    simp only [contentOf, hb.1, hb.2, if_false, if_true] at h
    split at h
    · next hr => cases h; exact targetReference?_subset hr
    · next hp => cases h; exact targetPath?_subset hp
    · cases h

theorem contentOf_target_braceFree {f : Bool} {t : Text} {v : Target}
    (h : contentOf f t = .target v) : BraceFree v.value := by
  obtain ⟨-, hb, hs⟩ := contentOf_target h
  exact ⟨fun ho => hb.1 (hs ho), fun hc => hb.2 (hs hc)⟩

/-! ## Names and labels -/

theorem BraceFree.append {t u : Text} (ht : BraceFree t) (hu : BraceFree u) :
    BraceFree (t ++ u) := by
  simp [BraceFree, ht.1, ht.2, hu.1, hu.2]

theorem braceFree_of_forall {f : Char → Bool} (ho : f '{' = false) (hc : f '}' = false)
    {t : Text} (h : ∀ c ∈ t, f c = true) : BraceFree t :=
  ⟨fun hm => by simp [h _ hm] at ho, fun hm => by simp [h _ hm] at hc⟩

theorem labelled?_label {spec : Text} {p : Text × Text} (h : labelled? spec = some p) :
    p.1 = spec.takeWhile isWordChar := by
  rw [labelled?] at h
  obtain ⟨_, -, h⟩ := Option.bind_eq_some_iff.mp h
  obtain ⟨_, -, h⟩ := Option.bind_eq_some_iff.mp h
  obtain ⟨_, -, h⟩ := Option.bind_eq_some_iff.mp h
  rw [← Option.some.inj h]

theorem splitName_label_braceFree (spec : Text) : BraceFree (splitName spec).1 := by
  simp only [splitName]
  split
  · simp [BraceFree]
  · cases hl : labelled? (trim spec) with
    | none => simp [BraceFree]
    | some p =>
      rw [Option.getD_some, labelled?_label hl]
      exact braceFree_of_forall (by decide) (by decide) fun _ h => List.mem_takeWhile_imp h

/-- A fragment name holds the stem, digits and perhaps a line feed. -/
theorem isFragmentName_braceFree {name : Text} (h : isFragmentName name) : BraceFree name := by
  unfold isFragmentName at h
  split at h
  · next t ht =>
    rw [(after?_eq_some_iff _ _ _).mp ht]
    have hd : BraceFree (t.takeWhile isDecimalDigit) :=
      braceFree_of_forall (by decide) (by decide) fun _ h => List.mem_takeWhile_imp h
    have hr : BraceFree (t.dropWhile isDecimalDigit) := by
      simp only [Bool.and_eq_true, decide_eq_true_eq, List.mem_cons, List.not_mem_nil,
        or_false] at h
      rcases h.2 with h | h <;> simp [h, BraceFree]
    rw [← List.takeWhile_append_dropWhile (p := isDecimalDigit) (l := t)]
    exact BraceFree.append (by decide) (hd.append hr)
  · cases h

end OverlaySugar
