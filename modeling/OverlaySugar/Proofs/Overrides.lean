import OverlaySugar.Proofs.ConfigFaults

/-!
# What overrides leave behind

An override of one section sets one key, and the last one of several counts.
This holds for values without dots and equals signs that differ from their
key. No other value is set as it stands, and one for the defaults takes all
other defaults away.
-/

set_option autoImplicit false

namespace OverlaySugar
open Text

/-! ## Pieces -/

section
variable {c : Char} {t p : Text}

theorem pieces_of_notMem (h : c ∉ t) : pieces c t = [t] := by
  induction t with
  | nil => rfl
  | cons d t ih =>
    rw [pieces, if_neg (List.ne_of_not_mem_cons h).symm, ih (List.not_mem_of_not_mem_cons h)]

theorem pieces_append (c : Char) (t u : Text) :
    pieces c (t ++ c :: u) = pieces c t ++ pieces c u := by
  induction t with
  | nil => simp [pieces]
  | cons d t ih =>
    by_cases hd : d = c
    · simp [pieces, hd, ih]
    · obtain ⟨q, qs, hq⟩ := List.exists_cons_of_ne_nil (pieces_ne_nil c t)
      simp [pieces, hd, ih, hq]

theorem notMem_of_mem_pieces (h : p ∈ pieces c t) : c ∉ p := by
  induction t generalizing p with
  | nil =>
    rw [List.mem_singleton.mp h]
    exact List.not_mem_nil
  | cons d t ih =>
    by_cases hd : d = c
    · rw [pieces, if_pos hd] at h
      rcases List.mem_cons.mp h with rfl | h
      · exact List.not_mem_nil
      · exact ih h
    · obtain ⟨q, qs, hq⟩ := List.exists_cons_of_ne_nil (pieces_ne_nil c t)
      rw [hq] at ih
      rw [pieces, if_neg hd, hq] at h
      rcases List.mem_cons.mp h with rfl | h
      · exact List.not_mem_cons_of_ne_of_not_mem (Ne.symm hd) (ih List.mem_cons_self)
      · exact ih (List.mem_cons_of_mem _ h)

theorem mem_of_mem_pieces {d : Char} (hp : p ∈ pieces c t) (hd : d ∈ p) : d ∈ t := by
  induction t generalizing p with
  | nil =>
    rw [List.mem_singleton.mp hp] at hd
    cases hd
  | cons e t ih =>
    by_cases he : e = c
    · rw [pieces, if_pos he] at hp
      rcases List.mem_cons.mp hp with rfl | hp
      · cases hd
      · exact List.mem_cons_of_mem _ (ih hp hd)
    · obtain ⟨q, qs, hq⟩ := List.exists_cons_of_ne_nil (pieces_ne_nil c t)
      rw [hq] at ih
      rw [pieces, if_neg he, hq] at hp
      rcases List.mem_cons.mp hp with rfl | hp
      · exact (List.mem_cons.mp hd).elim (fun h => h ▸ List.mem_cons_self)
          fun hd => List.mem_cons_of_mem _ (ih List.mem_cons_self hd)
      · exact List.mem_cons_of_mem _ (ih (List.mem_cons_of_mem _ hp) hd)

theorem pieces_of_mem (h : c ∈ t) :
    ∃ rest, rest ≠ [] ∧ pieces c t = t.takeWhile (· != c) :: rest := by
  obtain ⟨a, b, rfl, ha⟩ := List.eq_append_cons_of_mem h
  have hall : ∀ d ∈ a, (d != c) = true := by
    intro d hd
    rw [bne_iff_ne]
    rintro rfl
    exact ha hd
  refine ⟨pieces c b, pieces_ne_nil c b, ?_⟩
  rw [pieces_append, pieces_of_notMem ha, List.takeWhile_append_of_pos hall]
  simp

theorem length_pieces_lt_two_iff : (pieces c t).length < 2 ↔ c ∉ t := by
  constructor
  · intro hlength h
    obtain ⟨rest, hne, hparts⟩ := pieces_of_mem h
    obtain ⟨q, qs, rfl⟩ := List.exists_cons_of_ne_nil hne
    rw [hparts, List.length_cons, List.length_cons] at hlength
    omega
  · intro h
    rw [pieces_of_notMem h]
    exact Nat.one_lt_two

end

/-! ## Assignments -/

section
variable {key value : Text}

theorem overrideAssignment_bare (hk : '=' ∉ key) : overrideAssignment key = (key, trueValue) := by
  simp [overrideAssignment, pieces_of_notMem hk]

theorem overrideAssignment_value (hk : '=' ∉ key) (hv : '=' ∉ value) :
    overrideAssignment (key ++ '=' :: value) =
      (key, if key = value then trueValue else value) := by
  simp [overrideAssignment, pieces_append, pieces_of_notMem hk, pieces_of_notMem hv]

theorem mem_pieces_last (c : Char) (t : Text) : (pieces c t).getLast?.getD [] ∈ pieces c t := by
  rw [List.getLast?_eq_some_getLast (pieces_ne_nil c t), Option.getD_some]
  exact List.getLast_mem _

end

namespace Config

/-- The value that is set stands behind all marks. -/
theorem overrideValue_unmarked (override : Text) :
    '.' ∉ overrideValue override ∧ '=' ∉ overrideValue override := by
  have hdot := notMem_of_mem_pieces (mem_pieces_last '.' override)
  have hlast := mem_pieces_last '=' ((pieces '.' override).getLast?.getD [])
  simp only [overrideValue, overrideAssignment]
  split
  · decide
  · exact ⟨fun h => hdot (mem_of_mem_pieces hlast h), notMem_of_mem_pieces hlast⟩

/-! ## One value -/

def store (c : Config) (name key value : Text) : Config :=
  (c.ensureSection name).put name (lower key) value

section
variable {c : Config} {name key value : Text}

theorem setIn_eq_foldl (hv : strayPercent? value = none) (names : List Text) :
    setIn key value names c = ⟨names.foldl (fun c name => c.store name key value) c, none⟩ := by
  induction names generalizing c with
  | nil => rfl
  | cons name names ih =>
    simp only [setIn, set, hv, ih]
    rfl

theorem setIn_of_stray {n : Nat} (hv : strayPercent? value = some n) (names : List Text) :
    setIn key value (name :: names) c =
      ⟨c.ensureSection name, some (.strayPercent value n)⟩ := by
  simp only [setIn, set, hv]

theorem applyOverride_single {part : Text} (hn : '.' ∉ name) (hp : '.' ∉ part)
    (hpart : overrideAssignment part = (key, value)) (hv : strayPercent? value = none) :
    c.applyOverride (name ++ '.' :: part) = ⟨c.store name key value, none⟩ := by
  have hparts : pieces '.' (name ++ '.' :: part) = [name, part] := by
    rw [pieces_append, pieces_of_notMem hn, pieces_of_notMem hp]
    rfl
  have hlength : ¬ [name, part].length < 2 := Nat.lt_irrefl 2
  simp only [applyOverride, hparts]
  rw [if_neg hlength]
  simp only [List.getLast?_cons_cons, List.getLast?_singleton, Option.getD_some, hpart]
  exact setIn_eq_foldl hv [name]

end

/-! ## What is stored -/

section
variable (c : Config) (name key value : Text)

theorem hasSection_eq (n : Text) : c.hasSection n = (c.sections.lookup n).isSome := by
  rw [Bool.eq_iff_iff, hasSection, List.any_eq_true, List.lookup_isSome_iff]
  simp only [beq_iff_eq, eq_comm (a := n)]

theorem storesToDefaults_iff (n : Text) :
    storesToDefaults n = true ↔ n = [] ∨ n = defaultSection := by
  simp [storesToDefaults]

theorem storesToDefaults_eq_false_iff (n : Text) :
    storesToDefaults n = false ↔ n ≠ [] ∧ n ≠ defaultSection := by
  simp [storesToDefaults]

theorem lookup_assign {α : Type} (k n : Text) (v : α) (xs : List (Text × α)) :
    (assign k v xs).lookup n = if n = k then some v else xs.lookup n := by
  split
  · next h =>
    subst h
    exact lookup_assign_self n v xs
  · next h => exact lookup_assign_ne h v xs

variable {name} in
theorem lookup_ensureSection (hn : name ≠ defaultSection) (n : Text) :
    (c.ensureSection name).sections.lookup n =
      if n = name then some ((c.sections.lookup name).getD []) else c.sections.lookup n := by
  have hsome := hasSection_eq c name
  rw [ensureSection]
  split
  · next hsection =>
    rw [hsection] at hsome
    obtain ⟨es, hes⟩ := Option.isSome_iff_exists.mp hsome.symm
    split
    · next h => rw [h, hes, Option.getD_some]
    · rfl
  · next hsection =>
    rw [eq_false_of_ne_true hsection, eq_comm, Option.isSome_eq_false_iff,
      Option.isNone_iff_eq_none] at hsome
    rw [clear, if_neg hn, lookup_assign, hsome]
    rfl

/-- Only the defaults can lose values. -/
theorem own?_ensureSection (n k : Text) : (c.ensureSection name).own? n k =
    if storesToDefaults n = true ∧ name = defaultSection ∧ c.hasSection name = false then none
    else c.own? n k := by
  by_cases hd : name = defaultSection
  · cases hsection : c.hasSection name with
    | true => simp [ensureSection, hsection]
    | false =>
      rw [ensureSection, hsection, clear, if_pos hd, own?, own?, entries, entries]
      cases storesToDefaults n <;> simp [hd]
  · have hdefaults : (c.ensureSection name).defaults = c.defaults := by
      rw [ensureSection, clear, if_neg hd]
      split <;> rfl
    rw [if_neg fun h => hd h.2.1, own?, own?, entries, entries, hdefaults,
      lookup_ensureSection c hd]
    by_cases h : n = name
    · rw [if_pos h, h]
      rfl
    · rw [if_neg h]

theorem own?_put (n k : Text) : (c.put name key value).own? n k =
    if k = key ∧ (n = name ∨ storesToDefaults n = true ∧ storesToDefaults name = true) then
      some value
    else c.own? n k := by
  rw [own?, own?, put]
  cases hm : storesToDefaults name with
  | true =>
    cases hn : storesToDefaults n with
    | true => simp [entries, hn, lookup_assign]
    | false =>
      have hne : n ≠ name := fun h => by simp [h, hm] at hn
      simp [entries, hn, hne]
  | false =>
    by_cases h : n = name
    · simp [entries, h, hm, lookup_assign]
    · simp [entries, h, lookup_assign]

theorem lookup_put_of_ne {n : Text} (hn : n ≠ name) :
    (c.put name key value).sections.lookup n = c.sections.lookup n := by
  rw [put]
  split
  · rfl
  · rw [lookup_assign, if_neg hn]

theorem lookup_store_of_ne {n : Text} (hn : n ≠ name) :
    (c.store name key value).sections.lookup n = c.sections.lookup n := by
  rw [store, lookup_put_of_ne _ _ _ _ hn]
  by_cases hd : name = defaultSection
  · rw [ensureSection, clear, if_pos hd]
    split <;> rfl
  · rw [lookup_ensureSection c hd, if_neg hn]

theorem raw?_eq_some_iff {n k v : Text} : c.raw? n k = some v ↔
    c.own? n k = some v ∨ c.own? n k = none ∧ c.own? defaultSection k = some v :=
  Option.or_eq_some_iff

/-- What is found afterwards was set or stood there before. -/
theorem raw?_ensureSection {n k v : Text} (h : (c.ensureSection name).raw? n k = some v) :
    c.raw? n k = some v := by
  simp only [raw?_eq_some_iff, own?_ensureSection] at h ⊢
  rcases h with h | ⟨hnone, h⟩
  · split at h
    · cases h
    · exact .inl h
  · split at h
    · cases h
    · next hkept =>
      rw [if_neg fun hn => hkept ⟨rfl, hn.2⟩] at hnone
      exact .inr ⟨hnone, h⟩

theorem raw?_put {n k v : Text} (h : (c.put name key value).raw? n k = some v) :
    v = value ∨ c.raw? n k = some v := by
  simp only [raw?_eq_some_iff, own?_put] at h ⊢
  split at h
  · next hset =>
    simp only [Option.some.injEq, reduceCtorEq, false_and, or_false] at h
    exact .inl h.symm
  · refine h.elim (fun h => .inr (.inl h)) fun ⟨hnone, h⟩ => ?_
    split at h
    · exact .inl (Option.some.inj h).symm
    · exact .inr (.inr ⟨hnone, h⟩)

theorem raw?_setIn (names : List Text) {n k v : Text}
    (h : (setIn key value names c).config.raw? n k = some v) : v = value ∨ c.raw? n k = some v := by
  induction names generalizing c with
  | nil => exact .inr h
  | cons name names ih =>
    cases hv : strayPercent? value with
    | some m =>
      rw [setIn_of_stray hv] at h
      exact .inr (raw?_ensureSection c name h)
    | none =>
      simp only [setIn, set, hv] at h
      refine (ih _ h).elim .inl fun h => ?_
      exact (raw?_put _ _ _ _ h).imp_right (raw?_ensureSection c name)

theorem raw?_applyOverride (override : Text) {n k v : Text}
    (h : (c.applyOverride override).config.raw? n k = some v) :
    v = overrideValue override ∨ c.raw? n k = some v := by
  rw [applyOverride] at h
  split at h
  · exact .inr h
  · exact raw?_setIn c _ _ _ h

theorem own?_store (n k : Text) : (c.store name key value).own? n k =
    if k = lower key ∧ (n = name ∨ storesToDefaults n = true ∧ storesToDefaults name = true) then
      some value
    else if storesToDefaults n = true ∧ name = defaultSection ∧ c.hasSection name = false then none
    else c.own? n k := by
  rw [store, own?_put, own?_ensureSection]

end

/-! ## Overrides of one section -/

def stored? (c : Config) (name key : Text) : Option Text :=
  if name = defaultSection then c.defaults.lookup key
  else (c.sections.lookup name).bind (·.lookup key)

structure SetsOnly (c c' : Config) (name key value : Text) : Prop where
  found : c'.raw? name key = some value
  sections : ∀ n, n ≠ name → c'.hasSection n = c.hasSection n
  rest : ∀ n k, ¬ (n = name ∧ k = key) → c'.stored? n k = c.stored? n k

section
variable {c : Config} {name key value : Text}

theorem stored?_eq_own? {n : Text} (hn : n ≠ []) (k : Text) : c.stored? n k = c.own? n k := by
  rw [own?, entries, stored?]
  by_cases hd : n = defaultSection
  · rw [if_pos hd, hd]
    rfl
  · rw [if_neg hd, (storesToDefaults_eq_false_iff n).mpr ⟨hn, hd⟩]
    cases c.sections.lookup n <;> rfl

/-- The section of no name has nothing of its own before and after. -/
theorem stored?_nil_store (k : Text) : (c.store name key value).stored? [] k = c.stored? [] k := by
  change ((c.store name key value).sections.lookup []).bind _ = (c.sections.lookup []).bind _
  by_cases hn : [] = name
  · subst hn
    change ((c.ensureSection []).sections.lookup []).bind _ = _
    rw [lookup_ensureSection c (by decide), if_pos rfl]
    cases c.sections.lookup [] <;> rfl
  · rw [lookup_store_of_ne c name key value hn]

theorem setsOnly_store_iff : c.SetsOnly (c.store name key value) name (lower key) value ↔
    (name = defaultSection → c.hasSection name = false →
      ∀ k, k ≠ lower key → c.defaults.lookup k = none) ∧
    (name = [] → c.defaults.lookup (lower key) = some value) := by
  constructor
  · rintro ⟨-, -, hrest⟩
    constructor
    · rintro rfl hd k hk
      have hdefault := hrest defaultSection k (not_and_of_not_right _ hk)
      rw [stored?_eq_own? (by decide), stored?_eq_own? (by decide), own?_store,
        if_neg (not_and_of_not_left _ hk), if_pos ⟨rfl, rfl, hd⟩] at hdefault
      exact hdefault.symm
    · rintro rfl
      have hdefault := hrest defaultSection (lower key) (not_and_of_not_left _ (by decide))
      rw [stored?_eq_own? (by decide), stored?_eq_own? (by decide), own?_store,
        if_pos ⟨rfl, .inr ⟨rfl, rfl⟩⟩] at hdefault
      exact hdefault.symm
  · rintro ⟨hdefault, hnil⟩
    refine ⟨?_, fun n hn => ?_, fun n k hnk => ?_⟩
    · rw [raw?, own?_store, if_pos ⟨rfl, .inl rfl⟩]
      rfl
    · rw [hasSection_eq, hasSection_eq, lookup_store_of_ne c name key value hn]
    · by_cases hn : n = []
      · rw [hn, stored?_nil_store]
      -- Of the names that share the defaults, only that of the defaults is left.
      have hstores (h : storesToDefaults n = true) : n = defaultSection :=
        ((storesToDefaults_iff n).mp h).resolve_left hn
      rw [stored?_eq_own? hn, stored?_eq_own? hn, own?_store]
      split
      · next hset =>
        obtain ⟨rfl, hname | ⟨hn, hname⟩⟩ := hset
        · exact absurd ⟨hname, rfl⟩ hnk
        · obtain rfl := hstores hn
          have hname := ((storesToDefaults_iff name).mp hname).resolve_right
            fun h => hnk ⟨h.symm, rfl⟩
          exact (hnil hname).symm
      · split
        · next hset hcleared =>
          obtain ⟨hn, hname, hsection⟩ := hcleared
          obtain rfl := hstores hn
          exact (hdefault hname hsection k fun hk => hnk ⟨hname.symm, hk⟩).symm
        · rfl

end

def Settable (key value : Text) : Prop :=
  '.' ∉ value ∧ '=' ∉ value ∧ (value = key → value = trueValue)

instance (key value : Text) : Decidable (Settable key value) :=
  inferInstanceAs (Decidable (_ ∧ _ ∧ _))

section
variable {name key value : Text}

theorem overrideAssignment_of_settable (hk : '=' ∉ key) (h : Settable key value) :
    overrideAssignment (key ++ '=' :: value) = (key, value) := by
  obtain ⟨-, hv, htrue⟩ := h
  rw [overrideAssignment_value hk hv]
  split
  · next heq => rw [← htrue heq.symm]
  · rfl

theorem overrideValue_ne (hn : '.' ∉ name) (hk : '.' ∉ key) (hk' : '=' ∉ key)
    (h : ¬ Settable key value) : overrideValue (name ++ '.' :: (key ++ '=' :: value)) ≠ value := by
  intro hvalue
  obtain ⟨hdot, hmark⟩ := overrideValue_unmarked (name ++ '.' :: (key ++ '=' :: value))
  rw [hvalue] at hdot hmark
  refine h ⟨hdot, hmark, fun heq => ?_⟩
  have hpart : '.' ∉ key ++ '=' :: value := by simp [hk, hdot]
  rw [overrideValue, pieces_append, pieces_of_notMem hn, pieces_of_notMem hpart] at hvalue
  change (overrideAssignment (key ++ '=' :: value)).2 = value at hvalue
  rw [overrideAssignment_value hk' hmark, if_pos heq.symm] at hvalue
  exact hvalue.symm

/-- A settable value is set and all else stays, but for two names: what goes to the section of no
name goes to the defaults, and setting one of the defaults takes all others away (no section that
is read has their name). A value that is not settable is never set as it stands. -/
theorem override_sets_iff (c : Config) (hn : '.' ∉ name) (hk : '.' ∉ key) (hk' : '=' ∉ key)
    (hv : strayPercent? value = none) :
    let r := c.applyOverrides [name ++ '.' :: (key ++ '=' :: value)]
    (Settable key value → r.fault = none ∧
      (c.SetsOnly r.config name (lower key) value ↔
        (name = defaultSection → c.hasSection name = false →
          ∀ k, k ≠ lower key → c.defaults.lookup k = none) ∧
        (name = [] → c.defaults.lookup (lower key) = some value))) ∧
    (¬ Settable key value → c.raw? name (lower key) ≠ some value →
      r.config.raw? name (lower key) ≠ some value) := by
  constructor
  · intro h
    have hpart : '.' ∉ key ++ '=' :: value := by simp [hk, h.1]
    have hassign := overrideAssignment_of_settable hk' h
    simp only [applyOverrides, applyOverride_single hn hpart hassign hv]
    exact ⟨trivial, setsOnly_store_iff⟩
  · intro h hbefore hafter
    have hconfig : (c.applyOverrides [name ++ '.' :: (key ++ '=' :: value)]).config =
        (c.applyOverride (name ++ '.' :: (key ++ '=' :: value))).config := by
      rw [applyOverrides]
      split <;> rfl
    rw [hconfig] at hafter
    rcases raw?_applyOverride c _ hafter with hvalue | hraw
    · exact overrideValue_ne hn hk hk' h hvalue.symm
    · exact hbefore hraw

theorem override_sets_iff_in_new_section :
    let r := packaged.applyOverrides ["extra.key=value".toList]
    Settable "key".toList "value".toList ∧ r.fault = none ∧
      packaged.SetsOnly r.config "extra".toList (lower "key".toList) "value".toList :=
  have h : Settable "key".toList "value".toList := by decide
  have hsets := (override_sets_iff packaged (show '.' ∉ "extra".toList by decide)
    (by decide) (by decide) (by decide +kernel)).1 h
  ⟨h, hsets.1, hsets.2.mpr ⟨fun hname => absurd hname (by decide), fun hname => nomatch hname⟩⟩

/-- A value with an equals sign loses what stands in front of it. -/
theorem override_cut_at_mark :
    let r := packaged.applyOverrides ["extra.args=a=b".toList]
    ('.' ∉ "extra".toList ∧ '.' ∉ "args".toList ∧ '=' ∉ "args".toList ∧
        strayPercent? "a=b".toList = none) ∧
      r.config.raw? "extra".toList (lower "args".toList) = some "b".toList ∧
      ¬ packaged.SetsOnly r.config "extra".toList (lower "args".toList) "a=b".toList := by
  have hraw : (packaged.applyOverrides ["extra.args=a=b".toList]).config.raw? "extra".toList
      (lower "args".toList) = some "b".toList := by decide +kernel
  refine ⟨by decide +kernel, hraw, fun h => ?_⟩
  have hfound := h.found
  rw [hraw] at hfound
  exact absurd hfound (by decide)

end
end Config
end OverlaySugar
