import OverlaySugar.Proofs.Overrides

/-!
# Lists of overrides

Overrides are applied in order up to the first one that fails, and nothing is
taken back. Where each names one section, the last one for a key counts, and
those for other keys may stand anywhere.
-/

set_option autoImplicit false

namespace OverlaySugar
open Text

structure Override where
  name : Text
  key : Text
  value : Option Text
  named : name ≠ []
  notDefault : name ≠ defaultSection
  undotted : '.' ∉ name
  plainKey : '.' ∉ key ∧ '=' ∉ key
  plainValue : ∀ v ∈ value, '.' ∉ v ∧ '=' ∉ v ∧ v ≠ key

namespace Override

def part (o : Override) : Text :=
  match o.value with
  | some v => o.key ++ '=' :: v
  | none => o.key

def text (o : Override) : Text := o.name ++ '.' :: o.part

def setting (o : Override) : Text := o.value.getD trueValue

def sets (o : Override) (name key : Text) : Bool := o.name == name && lower o.key == key

def last? (os : List Override) (name key : Text) : Option Text :=
  (os.filter (·.sets name key)).getLast?.map setting

variable (o : Override)

theorem sets_iff {name key : Text} :
    o.sets name key = true ↔ o.name = name ∧ lower o.key = key := by
  simp [sets]

theorem dot_notMem_part : '.' ∉ o.part := by
  unfold part
  split
  · next v hv => simp [o.plainKey.1, (o.plainValue v hv).1]
  · exact o.plainKey.1

theorem overrideAssignment_part : overrideAssignment o.part = (o.key, o.setting) := by
  unfold part setting
  split
  · next v hv =>
    obtain ⟨-, hmark, hne⟩ := o.plainValue v hv
    rw [overrideAssignment_value o.plainKey.2 hmark, if_neg hne.symm, hv]
    rfl
  · next hv =>
    rw [overrideAssignment_bare o.plainKey.2, hv]
    rfl

theorem overrideValue_text : Config.overrideValue o.text = o.setting := by
  rw [Config.overrideValue, text, pieces_append, pieces_of_notMem o.undotted,
    pieces_of_notMem o.dot_notMem_part]
  exact congrArg Prod.snd o.overrideAssignment_part

theorem storesToDefaults_name : Config.storesToDefaults o.name = false :=
  (Config.storesToDefaults_eq_false_iff o.name).mpr ⟨o.named, o.notDefault⟩

end Override

namespace Config

/-! ## Failing overrides -/

inductive Fails : Text → ConfigFault → Prop
  | noSection {o : Text} (h : '.' ∉ o) : Fails o (.noSection o)
  | strayPercent {o : Text} {n : Nat} (h : '.' ∈ o)
      (hv : strayPercent? (overrideValue o) = some n) :
      Fails o (.strayPercent (overrideValue o) n)

def addSection (c : Config) (name : Text) : Config :=
  { c with sections := c.sections ++ [(name, [])] }

section
variable {c : Config} {o : Text} {f : ConfigFault} {before rest : List Text}

theorem overrideFault?_eq_some_iff : overrideFault? o = some f ↔ Fails o f := by
  rw [overrideFault?]
  split
  · next h =>
    rw [length_pieces_lt_two_iff] at h
    rw [Option.some.injEq]
    constructor
    · rintro rfl
      exact .noSection h
    · rintro (_ | ⟨hdot, -⟩)
      · rfl
      · exact absurd hdot h
  · next h =>
    rw [length_pieces_lt_two_iff, Decidable.not_not] at h
    rw [Option.map_eq_some_iff]
    constructor
    · rintro ⟨n, hn, rfl⟩
      exact .strayPercent h hn
    · rintro (hno | ⟨-, hn⟩)
      · exact absurd h hno
      · exact ⟨_, hn, rfl⟩

theorem fault_eq_none_iff {os : List Text} :
    (c.applyOverrides os).fault = none ↔ ∀ o ∈ os, ∀ f, ¬ Fails o f := by
  rw [fault_applyOverrides, List.findSome?_eq_none_iff]
  simp only [Option.eq_none_iff_forall_ne_some, ← overrideFault?_eq_some_iff, ne_eq]

theorem applyOverrides_append (h : (c.applyOverrides before).fault = none) :
    c.applyOverrides (before ++ rest) = (c.applyOverrides before).config.applyOverrides rest := by
  induction before generalizing c with
  | nil => rfl
  | cons o before ih =>
    rw [List.cons_append, applyOverrides, applyOverrides]
    rw [applyOverrides] at h
    cases hfault : (c.applyOverride o).fault with
    | some f =>
      simp only [hfault] at h
      cases h
    | none =>
      simp only [hfault] at h
      exact ih h

theorem assign_of_lookup_eq_none {α : Type} {k : Text} (v : α) {xs : List (Text × α)}
    (h : xs.lookup k = none) : assign k v xs = xs ++ [(k, v)] := by
  induction xs with
  | nil => rfl
  | cons x xs ih =>
    obtain ⟨hx, hxs⟩ := List.forall_mem_cons.mp (List.lookup_eq_none_iff.mp h)
    rw [assign_cons_ne (bne_iff_ne.mp hx).symm, ih (List.lookup_eq_none_iff.mpr hxs)]
    rfl

theorem ensureSection_cases {name : Text} (hn : name ≠ defaultSection) :
    c.ensureSection name = c ∨
      c.hasSection name = false ∧ c.ensureSection name = c.addSection name := by
  rw [ensureSection]
  split
  · exact .inl rfl
  · next h =>
    have hlookup := hasSection_eq c name
    rw [eq_false_of_ne_true h, eq_comm, Option.isSome_eq_false_iff,
      Option.isNone_iff_eq_none] at hlookup
    rw [clear, if_neg hn, assign_of_lookup_eq_none [] hlookup]
    exact .inr ⟨eq_false_of_ne_true h, rfl⟩

/-- A failing override has come to its first section at most. -/
theorem applyOverride_of_fails (h : Fails o f) : c.applyOverride o =
    ⟨if '.' ∈ o then c.ensureSection (o.takeWhile (· != '.')) else c, some f⟩ := by
  cases h with
  | noSection h => rw [applyOverride, if_pos (length_pieces_lt_two_iff.mpr h), if_neg h]
  | strayPercent h hv =>
    obtain ⟨parts, hne, hparts⟩ := pieces_of_mem h
    have hnames : (pieces '.' o).dropLast = o.takeWhile (· != '.') :: parts.dropLast := by
      rw [hparts, List.dropLast_cons_of_ne_nil hne]
    rw [applyOverride, if_neg (mt length_pieces_lt_two_iff.mp (not_not_intro h)), if_pos h]
    simp only [hnames]
    exact setIn_of_stray hv parts.dropLast

/-- A failing override leaves behind what was done before it, and one new section at most. -/
theorem applyOverrides_of_fails (hbefore : (c.applyOverrides before).fault = none)
    (h : Fails o f) :
    let done := (c.applyOverrides before).config
    let r := c.applyOverrides (before ++ o :: rest)
    let name := o.takeWhile (· != '.')
    r.fault = some f ∧ ('.' ∉ o → r.config = done) ∧
      (name ≠ defaultSection → r.config = done ∨
        '.' ∈ o ∧ done.hasSection name = false ∧ r.config = done.addSection name) := by
  have hr : c.applyOverrides (before ++ o :: rest) =
      ⟨if '.' ∈ o then (c.applyOverrides before).config.ensureSection (o.takeWhile (· != '.'))
        else (c.applyOverrides before).config, some f⟩ := by
    rw [applyOverrides_append hbefore, applyOverrides, applyOverride_of_fails h]
  rw [hr]
  refine ⟨rfl, fun hdot => if_neg hdot, fun hname => ?_⟩
  by_cases hdot : '.' ∈ o
  · simp only [if_pos hdot]
    exact (ensureSection_cases hname).imp_right fun hnew => ⟨hdot, hnew⟩
  · exact .inl (if_neg hdot)

end

/-! ## Overrides of one section -/

section
variable {c : Config}

theorem own?_store_override (o : Override) (name key : Text) :
    (c.store o.name o.key o.setting).own? name key =
      if o.sets name key then some o.setting else c.own? name key := by
  rw [own?_store]
  split
  · next h =>
    obtain ⟨hkey, hname | ⟨-, hname⟩⟩ := h
    · rw [if_pos (o.sets_iff.mpr ⟨hname.symm, hkey.symm⟩)]
    · rw [o.storesToDefaults_name] at hname
      cases hname
  · next h =>
    rw [if_neg fun h => o.notDefault h.2.1, if_neg]
    intro hsets
    obtain ⟨hname, hkey⟩ := o.sets_iff.mp hsets
    exact h ⟨hkey.symm, .inl hname.symm⟩

theorem applyOverrides_text {os : List Override}
    (h : ∀ o ∈ os, strayPercent? o.setting = none) :
    c.applyOverrides (os.map Override.text) =
      ⟨os.foldl (fun c o => c.store o.name o.key o.setting) c, none⟩ := by
  induction os generalizing c with
  | nil => rfl
  | cons o os ih =>
    obtain ⟨ho, hos⟩ := List.forall_mem_cons.mp h
    have hfirst : c.applyOverride o.text = ⟨c.store o.name o.key o.setting, none⟩ :=
      applyOverride_single o.undotted o.dot_notMem_part o.overrideAssignment_part ho
    simp only [List.map_cons, applyOverrides, hfirst, List.foldl_cons, ih hos]

/-- What one override sets, a run of them keeps unless a later one sets it again. -/
theorem own?_foldl_store (os : List Override) (name key : Text) :
    (os.foldl (fun c o => c.store o.name o.key o.setting) c).own? name key =
      (Override.last? os name key).or (c.own? name key) := by
  induction os generalizing c with
  | nil => rfl
  | cons o os ih =>
    rw [List.foldl_cons, ih, own?_store_override, Override.last?, Override.last?, List.filter_cons]
    by_cases h : o.sets name key
    · rw [if_pos h, if_pos h, List.getLast?_cons]
      cases (os.filter (·.sets name key)).getLast? <;> rfl
    · rw [if_neg h, if_neg h]

theorem fails_text_iff (o : Override) :
    (∀ f, ¬ Fails o.text f) ↔ strayPercent? o.setting = none := by
  have hdot : '.' ∈ o.text := by simp [Override.text]
  rw [← o.overrideValue_text, Option.eq_none_iff_forall_ne_some]
  constructor
  · intro h n hn
    exact h _ (.strayPercent hdot hn)
  · rintro h f (hno | ⟨-, hn⟩)
    · exact hno hdot
    · exact h _ hn

/-- The same overrides for each key, in the same order, make the same values. -/
theorem last?_congr {os os' : List Override} {name key : Text}
    (h : os.filter (·.sets name key) = os'.filter (·.sets name key)) :
    Override.last? os name key = Override.last? os' name key := by
  rw [Override.last?, Override.last?, h]

theorem mem_of_filter_eq {os os' : List Override}
    (h : ∀ name key, os.filter (·.sets name key) = os'.filter (·.sets name key)) {o : Override}
    (ho : o ∈ os') : o ∈ os := by
  have hmem : o ∈ os'.filter (·.sets o.name (lower o.key)) :=
    List.mem_filter.mpr ⟨ho, o.sets_iff.mpr ⟨rfl, rfl⟩⟩
  rw [← h] at hmem
  exact (List.mem_filter.mp hmem).1

theorem own?_applyOverrides {os : List Override} (h : ∀ o ∈ os, ∀ f, ¬ Fails o.text f)
    (name key : Text) : (c.applyOverrides (os.map Override.text)).config.own? name key =
      (Override.last? os name key).or (c.own? name key) := by
  rw [applyOverrides_text fun o ho => (fails_text_iff o).mp (h o ho)]
  exact own?_foldl_store os name key

end

/-- The fault of a list is that of the first override that fails, and no later one is looked at.
What has been done is kept. Of overrides that all name one section the last one for a key counts,
so only the order of those for the same key matters. -/
theorem overrides_last_wins (c : Config) :
    (∀ os, (c.applyOverrides os).fault = none ↔ ∀ o ∈ os, ∀ f, ¬ Fails o f) ∧
    (∀ before rest, (∀ o ∈ before, ∀ f, ¬ Fails o f) →
      c.applyOverrides (before ++ rest) = (c.applyOverrides before).config.applyOverrides rest) ∧
    (∀ before o rest f, (∀ p ∈ before, ∀ g, ¬ Fails p g) → Fails o f →
      let done := (c.applyOverrides before).config
      let r := c.applyOverrides (before ++ o :: rest)
      let name := o.takeWhile (· != '.')
      r.fault = some f ∧ ('.' ∉ o → r.config = done) ∧
        (name ≠ defaultSection → r.config = done ∨
          '.' ∈ o ∧ done.hasSection name = false ∧ r.config = done.addSection name)) ∧
    ∀ os : List Override, (∀ o ∈ os, ∀ f, ¬ Fails o.text f) →
      let r := c.applyOverrides (os.map Override.text)
      (∀ name key, r.config.own? name key =
        (Override.last? os name key).or (c.own? name key)) ∧
      ∀ os' : List Override,
        (∀ name key, os.filter (·.sets name key) = os'.filter (·.sets name key)) →
        let r' := c.applyOverrides (os'.map Override.text)
        r'.fault = none ∧ ∀ name key, r'.config.raw? name key = r.config.raw? name key := by
  refine ⟨fun os => fault_eq_none_iff,
    fun before rest h => applyOverrides_append (fault_eq_none_iff.mpr h),
    fun before o rest f h ho => applyOverrides_of_fails (fault_eq_none_iff.mpr h) ho,
    fun os h => ⟨own?_applyOverrides h, fun os' hsame => ?_⟩⟩
  have h' : ∀ o ∈ os', ∀ f, ¬ Fails o.text f := fun o ho =>
    h o (mem_of_filter_eq hsame ho)
  have hown (name key : Text) : (c.applyOverrides (os'.map Override.text)).config.own? name key =
      (c.applyOverrides (os.map Override.text)).config.own? name key := by
    rw [own?_applyOverrides h', own?_applyOverrides h, last?_congr (hsame name key)]
  refine ⟨fault_eq_none_iff.mpr (List.forall_mem_map.mpr h'), fun name key => ?_⟩
  change (Config.own? _ name key).or (Config.own? _ defaultSection key) = _
  rw [hown, hown]
  rfl

theorem overrides_last_wins_of_packaged :
    let o : Override := ⟨"options".toList, "force".toList, some "on".toList, by decide, by decide,
      by decide, by decide, by decide⟩
    let bare : Override := ⟨"options".toList, "Force".toList, none, by decide, by decide,
      by decide, by decide, by decide⟩
    let other : Override := ⟨"extra".toList, "key".toList, some "a".toList, by decide, by decide,
      by decide, by decide, by decide⟩
    let done := (packaged.applyOverrides [o.text]).config
    let failed := packaged.applyOverrides [o.text, "new.key=%".toList, bare.text]
    let r := packaged.applyOverrides [o.text, bare.text, other.text]
    let r' := packaged.applyOverrides [other.text, o.text, bare.text]
    failed.fault = some (.strayPercent "%".toList 0) ∧
      (failed.config = done ∨ failed.config = done.addSection "new".toList) ∧
      r.config.own? "options".toList "force".toList = some trueValue ∧
      ∀ name key, r'.config.raw? name key = r.config.raw? name key := by
  intro o bare other done failed r r'
  obtain ⟨hnone, -, hfails, hlast⟩ := overrides_last_wins packaged
  have ho : ∀ p ∈ [o.text], ∀ f, ¬ Fails p f := (hnone _).mp (by decide +kernel)
  have hf : Fails "new.key=%".toList (.strayPercent "%".toList 0) :=
    overrideFault?_eq_some_iff.mp (by decide +kernel)
  obtain ⟨hfault, -, hnew⟩ := hfails [o.text] _ [bare.text] _ ho hf
  have hos : ∀ p ∈ [o, bare, other], ∀ f, ¬ Fails p.text f :=
    List.forall_mem_map.mp ((hnone _).mp (by decide +kernel))
  obtain ⟨hown, horder⟩ := hlast [o, bare, other] hos
  refine ⟨hfault, (hnew (by decide)).imp_right fun h => h.2.2, ?_, ?_⟩
  · exact (hown _ _).trans (by decide +kernel)
  · refine (horder [other, o, bare] fun name key => ?_).2
    cases h : other.sets name key with
    | false => simp [List.filter_cons, h]
    | true =>
      have hname := (other.sets_iff.mp h).1
      have hne : "options".toList ≠ name := fun h => absurd (hname.trans h.symm) (by decide)
      have hleft (p : Override) (hp : p.name = "options".toList) : p.sets name key = false := by
        rw [Bool.eq_false_iff]
        exact fun hsets => hne (hp ▸ (p.sets_iff.mp hsets).1)
      simp [h, hleft o rfl, hleft bare rfl]

end Config
end OverlaySugar
