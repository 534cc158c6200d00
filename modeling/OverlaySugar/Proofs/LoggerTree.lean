import Mathlib.Data.List.TakeWhile
import Mathlib.Logic.Relation
import OverlaySugar.Proofs.LoggerNames

/-!
# The tree of loggers

A logger hangs below the nearest logger above it, in whatever order they
became known. The exception are `r`, `ro` and `roo`: a logger below the root
stays there when one of them is made, as the root's own name starts with it.
-/

set_option autoImplicit false

namespace OverlaySugar.Log
namespace Registry
variable {r : Registry} {x c n a : String}

def isLogger (r : Registry) (name : String) : Bool := (r.logger? name).isSome

def waiting (r : Registry) (name : String) : List String :=
  match r.find? name with
  | some (.placeholder below) => below
  | _ => []

def parentOf (r : Registry) (name : String) : Option String := (r.logger? name).bind (·.parent)

def nearest? (r : Registry) (name : String) : Option String :=
  (ancestorNames name).find? r.isLogger

def passedOver (r : Registry) (name : String) : List String :=
  (ancestorNames name).takeWhile (!r.isLogger ·)

/-! ## Entries that are put -/

theorem find?_put_self (r : Registry) (x : String) (e : Entry) : (r.put x e).find? x = some e :=
  lookup_assign_self x e r.entries

theorem find?_put_ne (hne : c ≠ x) (e : Entry) : (r.put x e).find? c = r.find? c :=
  lookup_assign_ne hne e r.entries

theorem logger?_put_logger (r : Registry) (x c : String) (l : Logger) :
    (r.put x (.logger l)).logger? c = if c = x then some l else r.logger? c := by
  by_cases h : c = x
  · subst h
    rw [if_pos rfl, logger?, find?_put_self]
  · rw [if_neg h, logger?, find?_put_ne h, logger?]

theorem waiting_put_logger (r : Registry) (x c : String) (l : Logger) :
    (r.put x (.logger l)).waiting c = if c = x then [] else r.waiting c := by
  by_cases h : c = x
  · subst h
    rw [if_pos rfl, waiting, find?_put_self]
  · rw [if_neg h, waiting, find?_put_ne h, waiting]

theorem logger?_put_placeholder (h : r.isLogger x = false) (below : List String) :
    (r.put x (.placeholder below)).logger? c = r.logger? c := by
  by_cases hc : c = x
  · subst hc
    rw [logger?, find?_put_self]
    exact (Option.not_isSome_iff_eq_none.mp (by simpa [isLogger] using h)).symm
  · rw [logger?, find?_put_ne hc, logger?]

theorem waiting_put_placeholder (r : Registry) (x c : String) (below : List String) :
    (r.put x (.placeholder below)).waiting c = if c = x then below else r.waiting c := by
  by_cases h : c = x
  · subst h
    rw [if_pos rfl, waiting, find?_put_self]
  · rw [if_neg h, waiting, find?_put_ne h, waiting]

theorem find?_of_logger? {l : Logger} (h : r.logger? x = some l) : r.find? x = some (.logger l) := by
  unfold logger? at h
  split at h
  · next l' hfind =>
    cases h
    exact hfind
  · cases h

theorem waiting_of_isLogger (h : r.isLogger x = true) : r.waiting x = [] := by
  obtain ⟨l, hl⟩ := Option.isSome_iff_exists.mp h
  rw [waiting, find?_of_logger? hl]

theorem logger?_update (r : Registry) (x c : String) (f : Logger → Logger) :
    (r.update x f).logger? c = (r.logger? c).map fun l => if c = x then f l else l := by
  unfold update
  split
  · next l hl =>
    rw [logger?_put_logger]
    by_cases h : c = x
    · subst h
      simp [hl]
    · simp [h]
  · next hl =>
    by_cases h : c = x
    · subst h
      simp [hl]
    · simp [h]

theorem waiting_update (r : Registry) (x c : String) (f : Logger → Logger) :
    (r.update x f).waiting c = r.waiting c := by
  unfold update
  split
  · next l hl =>
    rw [waiting_put_logger]
    by_cases h : c = x
    · subst h
      rw [if_pos rfl, waiting_of_isLogger (by simp [isLogger, hl])]
    · rw [if_neg h]
  · rfl

/-! ## Making a logger -/

theorem logger?_adopt (x : String) (below : List String) (r : Registry) (c : String) :
    (adopt x below r).logger? c = (r.logger? c).map fun l =>
      if c ∈ below ∧ x.toList.isPrefixOf (l.parent.getD rootName).toList = false then
        { l with parent := some x } else l := by
  induction below generalizing r with
  | nil => simp [adopt]
  | cons child rest ih =>
    unfold adopt
    split
    · next hnone =>
      rw [ih]
      by_cases hc : c = child
      · simp [hc, hnone]
      · simp [hc]
    · next l hl =>
      split
      · next hp =>
        rw [ih]
        by_cases hc : c = child
        · subst hc
          simp [hl, hp]
        · simp [hc]
      · next hp =>
        rw [ih, setParent, logger?_update]
        by_cases hc : c = child
        · subst hc
          have hself : x.toList.isPrefixOf x.toList = true := by simp
          simp [hl, hp, hself]
        · simp [hc]

theorem waiting_adopt (x : String) (below : List String) (r : Registry) (a : String) :
    (adopt x below r).waiting a = r.waiting a := by
  induction below generalizing r with
  | nil => rfl
  | cons child rest ih =>
    unfold adopt
    split
    · exact ih r
    · split
      · exact ih r
      · rw [ih, setParent, waiting_update]

theorem isLogger_adopt (x : String) (below : List String) (r : Registry) :
    (adopt x below r).isLogger = r.isLogger := by
  funext c
  rw [isLogger, logger?_adopt, Option.isSome_map, isLogger]

theorem isLogger_put_placeholder (h : r.isLogger x = false) (below : List String) :
    (r.put x (.placeholder below)).isLogger = r.isLogger := by
  funext c
  rw [isLogger, logger?_put_placeholder h, isLogger]

theorem logger?_attach {above : List String} (hx : x ∉ above) (r : Registry) (c : String) :
    (attach x above r).logger? c = (r.logger? c).map fun l =>
      if c = x then { l with parent := above.find? r.isLogger } else l := by
  induction above generalizing r with
  | nil => exact logger?_update r x c _
  | cons b rest ih =>
    have hrest : x ∉ rest := fun h => hx (List.mem_cons_of_mem _ h)
    unfold attach
    split
    · next l hl =>
      have hb : r.isLogger b = true := by simp [isLogger, logger?, hl]
      rw [setParent, logger?_update, List.find?_cons_of_pos hb]
    all_goals
      next hl =>
      have hb : r.isLogger b = false := by simp [isLogger, logger?, hl]
      rw [ih hrest, logger?_put_placeholder hb, isLogger_put_placeholder hb,
        List.find?_cons_of_neg (by simp [hb])]

theorem mem_waiting_attach {above : List String} (r : Registry) :
    c ∈ (attach x above r).waiting a ↔
      c ∈ r.waiting a ∨ c = x ∧ a ∈ above.takeWhile (!r.isLogger ·) := by
  induction above generalizing r with
  | nil => simp [attach, setParent, waiting_update]
  | cons b rest ih =>
    unfold attach
    split
    · next l hl =>
      have hb : r.isLogger b = true := by simp [isLogger, logger?, hl]
      simp [setParent, waiting_update, hb]
    · next below hl =>
      have hb : r.isLogger b = false := by simp [isLogger, logger?, hl]
      have hwaiting : r.waiting b = below := by rw [waiting, hl]
      rw [ih, waiting_put_placeholder, isLogger_put_placeholder hb,
        List.takeWhile_cons_of_pos (by simp [hb]), List.mem_cons]
      by_cases ha : a = b
      · subst ha
        rw [if_pos rfl, hwaiting]
        by_cases hmem : x ∈ below
        · rw [if_pos hmem]
          grind
        · rw [if_neg hmem, List.mem_append, List.mem_singleton]
          grind
      · simp [ha]
    · next hl =>
      have hb : r.isLogger b = false := by simp [isLogger, logger?, hl]
      have hwaiting : r.waiting b = [] := by rw [waiting, hl]
      rw [ih, waiting_put_placeholder, isLogger_put_placeholder hb,
        List.takeWhile_cons_of_pos (by simp [hb]), List.mem_cons]
      by_cases ha : a = b
      · subst ha
        rw [if_pos rfl, hwaiting, List.mem_singleton]
        grind
      · simp [ha]

theorem ensure_of_root (h : isRootName x = true) (r : Registry) : r.ensure x = r := by
  rw [ensure, if_pos h]

theorem ensure_of_isLogger (h : r.isLogger x = true) : r.ensure x = r := by
  obtain ⟨l, hl⟩ := Option.isSome_iff_exists.mp h
  unfold ensure
  split
  · rfl
  · rw [find?_of_logger? hl]

structure Fresh (r : Registry) (x : String) : Prop where
  notRoot : isRootName x = false
  notLogger : r.isLogger x = false

theorem ensure_cases (r : Registry) (x : String) : r.ensure x = r ∨ r.Fresh x := by
  by_cases hroot : isRootName x = true
  · exact .inl (ensure_of_root hroot r)
  by_cases hlogger : r.isLogger x = true
  · exact .inl (ensure_of_isLogger hlogger)
  exact .inr ⟨by simpa using hroot, by simpa using hlogger⟩

theorem notMem_ancestorNames (x : String) : x ∉ ancestorNames x :=
  fun h => Nat.lt_irrefl _ (heads_of_mem_ancestorNames h).length_lt

/-- The logger takes over what the placeholder of its name keeps, if there is one. -/
theorem ensure_of_fresh (h : r.Fresh x) : r.ensure x = attach x (ancestorNames x)
    (adopt x (r.waiting x) (r.put x (.logger ⟨x, none, false, true, none⟩))) := by
  unfold ensure
  rw [if_neg (by simp [h.notRoot])]
  split
  · next l hl =>
    have hlogger : r.isLogger x = true := by simp [isLogger, logger?, hl]
    rw [h.notLogger] at hlogger
    cases hlogger
  · next below hl => rw [waiting, hl]
  · next hl =>
    rw [waiting, hl]
    rfl

theorem isLogger_put_logger (r : Registry) (x : String) (l : Logger) :
    (r.put x (.logger l)).isLogger = fun c => r.isLogger c || c == x := by
  funext c
  rw [isLogger, logger?_put_logger]
  by_cases hc : c = x <;> simp [hc, isLogger]

theorem find?_or_eq {p : String → Bool} (hx : p x = false) (above : List String) :
    above.find? (fun b => p b || b == x) =
      if x ∈ above.takeWhile (!p ·) then some x else above.find? p := by
  induction above with
  | nil => simp
  | cons b rest ih =>
    by_cases hb : b = x
    · subst hb
      simp [hx]
    · by_cases hp : p b = true
      · simp [hp]
      · simp only [Bool.not_eq_true] at hp
        simp [hp, hb, ih, Ne.symm hb]

theorem takeWhile_or_eq {p : String → Bool} {above : List String} (hx : x ∉ above) :
    above.takeWhile (fun b => !(p b || b == x)) = above.takeWhile (!p ·) := by
  induction above with
  | nil => rfl
  | cons b rest ih =>
    have hb : b ≠ x := fun h => hx (h ▸ List.mem_cons_self)
    have hrest : x ∉ rest := fun h => hx (List.mem_cons_of_mem _ h)
    simp only [List.takeWhile_cons, ih hrest, beq_eq_false_iff_ne.mpr hb, Bool.or_false]

theorem mem_takeWhile_of_or {p : String → Bool} {above : List String}
    (h : a ∈ above.takeWhile (fun b => !(p b || b == x))) : a ∈ above.takeWhile (!p ·) := by
  induction above with
  | nil => cases h
  | cons b rest ih =>
    by_cases hp : p b = true
    · simp [hp] at h
    · simp only [Bool.not_eq_true] at hp
      rw [List.takeWhile_cons_of_pos (by simp [hp])]
      by_cases hb : b = x
      · simp [hb] at h
      · rw [List.takeWhile_cons_of_pos (by simp [hp, hb])] at h
        exact List.mem_cons.mpr ((List.mem_cons.mp h).imp_right ih)

theorem logger?_ensure (h : r.Fresh x) (c : String) : (r.ensure x).logger? c =
    if c = x then some ⟨x, none, false, true, r.nearest? x⟩
    else (r.logger? c).map fun l =>
      if c ∈ r.waiting x ∧ x.toList.isPrefixOf (l.parent.getD rootName).toList = false then
        { l with parent := some x } else l := by
  rw [ensure_of_fresh h, logger?_attach (notMem_ancestorNames x), isLogger_adopt,
    isLogger_put_logger, find?_or_eq h.notLogger, logger?_adopt, logger?_put_logger]
  have hx : x ∉ (ancestorNames x).takeWhile (!r.isLogger ·) :=
    fun hmem => notMem_ancestorNames x (List.takeWhile_subset _ hmem)
  rw [if_neg hx]
  by_cases hc : c = x
  · simp only [hc, if_true, Option.map_some, nearest?]
    split <;> rfl
  · simp only [hc, if_false, Option.map_id_fun', id_eq]

theorem isLogger_ensure (h : r.Fresh x) :
    (r.ensure x).isLogger = fun c => r.isLogger c || c == x := by
  funext c
  rw [isLogger, logger?_ensure h]
  by_cases hc : c = x <;> simp [hc, isLogger]

theorem mem_waiting_ensure (h : r.Fresh x) : c ∈ (r.ensure x).waiting a ↔
    a ≠ x ∧ c ∈ r.waiting a ∨ c = x ∧ a ∈ r.passedOver x := by
  rw [ensure_of_fresh h, mem_waiting_attach, isLogger_adopt, isLogger_put_logger,
    takeWhile_or_eq (notMem_ancestorNames x), waiting_adopt, waiting_put_logger]
  by_cases ha : a = x <;> simp [ha, passedOver]

theorem nearest?_ensure (h : r.Fresh x) (n : String) : (r.ensure x).nearest? n =
    if x ∈ r.passedOver n then some x else r.nearest? n := by
  rw [nearest?, isLogger_ensure h, find?_or_eq h.notLogger, passedOver, nearest?]

theorem parentOf_ensure_self (h : r.Fresh x) : (r.ensure x).parentOf x = r.nearest? x := by
  rw [parentOf, logger?_ensure h, if_pos rfl]
  rfl

theorem parentOf_ensure_ne (h : r.Fresh x) (hne : n ≠ x) (hn : r.isLogger n = true) :
    (r.ensure x).parentOf n =
      if n ∈ r.waiting x ∧ x.toList.isPrefixOf ((r.parentOf n).getD rootName).toList = false then
        some x else r.parentOf n := by
  obtain ⟨l, hl⟩ := Option.isSome_iff_exists.mp hn
  rw [parentOf, logger?_ensure h, if_neg hne, parentOf, hl]
  simp only [Option.map_some, Option.bind_some]
  split <;> rfl

/-! ## Where loggers hang -/

def shortRootNames : List String := ["r", "ro", "roo"]

theorem isPrefixOf_rootName_iff (h : isRootName x = false) :
    x.toList.isPrefixOf rootName.toList = true ↔ x ∈ shortRootNames := by
  constructor
  · intro hprefix
    have hall : ∀ t ∈ rootName.toList.inits, isRootName (String.ofList t) = false →
        String.ofList t ∈ shortRootNames := by decide
    have hx := hall x.toList ((List.mem_inits _ _).mpr (List.isPrefixOf_iff_prefix.mp hprefix))
    rw [String.ofList_toList] at hx
    exact hx h
  · intro hmem
    have hall : ∀ m ∈ shortRootNames, m.toList.isPrefixOf rootName.toList = true := by decide
    exact hall x hmem

theorem notMem_shortRootNames (h : '.' ∈ x.toList) : x ∉ shortRootNames := by
  have hall : ∀ m ∈ shortRootNames, '.' ∉ m.toList := by decide
  exact fun hmem => hall x hmem h

section
variable {p : String → Bool} {l : List String} {m : String} {R : String → String → Prop}

theorem rel_of_mem_takeWhile (hl : l.Pairwise R) (hx : x ∈ l.takeWhile (!p ·))
    (hm : l.find? p = some m) : R x m := by
  induction hl with
  | nil => cases hx
  | @cons b rest hb hrest ih =>
    by_cases hp : p b = true
    · simp [hp] at hx
    · rw [List.find?_cons_of_neg hp] at hm
      rw [List.takeWhile_cons_of_pos (by simpa using hp)] at hx
      rcases List.mem_cons.mp hx with rfl | hx
      · exact hb m (List.mem_of_find?_eq_some hm)
      · exact ih hx hm

theorem rel_of_find? (hl : l.Pairwise R) (hx : x ∈ l) (hp : p x = true)
    (hm : l.find? p = some m) (hne : x ≠ m) : R m x := by
  induction hl with
  | nil => cases hx
  | @cons b rest hb hrest ih =>
    by_cases hpb : p b = true
    · rw [List.find?_cons_of_pos hpb] at hm
      cases hm
      exact hb x ((List.mem_cons.mp hx).resolve_left hne)
    · rw [List.find?_cons_of_neg hpb] at hm
      have hxb : x ≠ b := fun h => hpb (h ▸ hp)
      exact ih ((List.mem_cons.mp hx).resolve_left hxb) hm

theorem exists_find?_of_notMem_takeWhile (hl : l.Pairwise R) (hx : x ∈ l) (hp : p x = false)
    (hx' : x ∉ l.takeWhile (!p ·)) : ∃ m, l.find? p = some m ∧ R m x := by
  induction hl with
  | nil => cases hx
  | @cons b rest hb hrest ih =>
    by_cases hpb : p b = true
    · rcases List.mem_cons.mp hx with rfl | hx
      · rw [hp] at hpb
        cases hpb
      · exact ⟨b, List.find?_cons_of_pos hpb, hb x hx⟩
    · rw [List.takeWhile_cons_of_pos (by simpa using hpb)] at hx'
      rw [List.find?_cons_of_neg hpb]
      have hne : x ≠ b := fun h => hx' (h ▸ List.mem_cons_self)
      exact ih ((List.mem_cons.mp hx).resolve_left hne) fun h => hx' (List.mem_cons_of_mem _ h)

end

/-- Loggers hang below the nearest one above them, those that a short name took no notice of below
the root, and a placeholder keeps at least the loggers for which it was passed over. -/
structure Wired (r : Registry) : Prop where
  waits : ∀ {n a}, r.isLogger n = true → a ∈ r.passedOver n → n ∈ r.waiting a
  waited : ∀ {n a}, n ∈ r.waiting a → r.isLogger n = true ∧ a ∈ ancestorNames n
  parent : ∀ {n}, r.isLogger n = true → r.parentOf n = r.nearest? n ∨
    r.parentOf n = none ∧ ∃ m ∈ shortRootNames, r.nearest? n = some m

theorem heads_of_nearest? {m : String} (h : r.nearest? n = some m) : Heads m n :=
  heads_of_mem_ancestorNames (List.mem_of_find?_eq_some h)

theorem isLogger_of_nearest? {m : String} (h : r.nearest? n = some m) : r.isLogger m = true :=
  List.find?_some h

namespace Wired

theorem nearest?_of_parentOf (h : r.Wired) {m : String} (hn : r.isLogger n = true)
    (hm : r.parentOf n = some m) : r.nearest? n = some m := by
  rcases h.parent hn with hparent | ⟨hnone, -⟩
  · exact hparent.symm.trans hm
  · rw [hnone] at hm
    cases hm

/-- A new logger between one and its nearest takes it over, but not from the root if its name is
short. -/
theorem parentOf_of_passedOver (h : r.Wired) (hx : r.Fresh x) (hne : n ≠ x)
    (hn : r.isLogger n = true) (hover : x ∈ r.passedOver n) :
    (r.ensure x).parentOf n = if x ∈ shortRootNames then none else some x := by
  rw [parentOf_ensure_ne hx hne hn]
  have hwaits : n ∈ r.waiting x := h.waits hn hover
  cases hp : r.parentOf n with
  | none =>
    by_cases hshort : x ∈ shortRootNames
    · have hprefix := (isPrefixOf_rootName_iff hx.notRoot).mpr hshort
      simp [hshort, hprefix]
    · have hprefix := mt (isPrefixOf_rootName_iff hx.notRoot).mp hshort
      simp [hshort, hwaits, hprefix]
  | some m =>
    have hheads : Heads m x := rel_of_mem_takeWhile (R := fun a b => Heads b a)
      (pairwise_ancestorNames n) hover (h.nearest?_of_parentOf hn hp)
    have hprefix : x.toList.isPrefixOf m.toList = false := by
      rw [Bool.eq_false_iff, Ne, List.isPrefixOf_iff_prefix]
      exact fun hle => Nat.not_lt.mpr hle.length_le hheads.length_lt
    simp [notMem_shortRootNames hheads.dot_mem, hwaits, hprefix]

/-- A new logger that is not between one and its nearest leaves it where it is. -/
theorem parentOf_of_not_passedOver (h : r.Wired) (hx : r.Fresh x) (hne : n ≠ x)
    (hn : r.isLogger n = true) (hover : x ∉ r.passedOver n) :
    (r.ensure x).parentOf n = r.parentOf n := by
  rw [parentOf_ensure_ne hx hne hn]
  by_cases hwaits : n ∈ r.waiting x
  · obtain ⟨m, hm, hheads⟩ := exists_find?_of_notMem_takeWhile (pairwise_ancestorNames n)
      (h.waited hwaits).2 hx.notLogger hover
    have hparent : r.parentOf n = some m := by
      rcases h.parent hn with hparent | ⟨-, m', hshort, hm'⟩
      · exact hparent.trans hm
      · obtain rfl : m = m' := Option.some.inj (hm.symm.trans hm')
        exact absurd hshort (notMem_shortRootNames hheads.dot_mem)
    simp [hparent, hheads.isPrefix]
  · rw [if_neg (fun hc => hwaits hc.1)]

theorem ensure (h : r.Wired) (x : String) : (r.ensure x).Wired := by
  rcases r.ensure_cases x with hsame | hx
  · rwa [hsame]
  refine ⟨fun {n a} hn ha => ?_, fun {n a} ha => ?_, fun {n} hn => ?_⟩
  · rw [passedOver, isLogger_ensure hx] at ha
    have hne : a ≠ x := by
      rintro rfl
      simpa using List.mem_takeWhile_imp ha
    have hover : a ∈ r.passedOver n := mem_takeWhile_of_or ha
    rw [mem_waiting_ensure hx]
    by_cases hnx : n = x
    · exact .inr ⟨hnx, hnx ▸ hover⟩
    · exact .inl ⟨hne, h.waits (by simpa [isLogger_ensure hx, hnx] using hn) hover⟩
  · rw [isLogger_ensure hx]
    rcases (mem_waiting_ensure hx).mp ha with ⟨-, ha⟩ | ⟨rfl, ha⟩
    · obtain ⟨hn, hmem⟩ := h.waited ha
      exact ⟨by simp [hn], hmem⟩
    · exact ⟨by simp, List.takeWhile_subset _ ha⟩
  · rw [nearest?_ensure hx]
    by_cases hnx : n = x
    · subst hnx
      have hover : n ∉ r.passedOver n :=
        fun hmem => notMem_ancestorNames n (List.takeWhile_subset _ hmem)
      rw [if_neg hover]
      exact .inl (parentOf_ensure_self hx)
    · have hn' : r.isLogger n = true := by simpa [isLogger_ensure hx, hnx] using hn
      by_cases hover : x ∈ r.passedOver n
      · rw [h.parentOf_of_passedOver hx hnx hn' hover, if_pos hover]
        by_cases hshort : x ∈ shortRootNames
        · exact .inr ⟨if_pos hshort, x, hshort, rfl⟩
        · exact .inl (if_neg hshort)
      · rw [h.parentOf_of_not_passedOver hx hnx hn' hover, if_neg hover]
        exact h.parent hn'

end Wired

/-! ## The way up -/

def room (r : Registry) (name : String) : Nat :=
  r.entries.countP (·.1.toList.length ≤ name.toList.length)

theorem room_le (r : Registry) (name : String) : r.room name ≤ r.entries.length :=
  List.countP_le_length

theorem room_pos (hn : r.isLogger n = true) : 0 < r.room n := by
  obtain ⟨l, hl⟩ := Option.isSome_iff_exists.mp hn
  obtain ⟨front, back, hentries, -⟩ := List.lookup_eq_some_iff.mp (find?_of_logger? hl)
  exact List.countP_pos_iff.mpr ⟨(n, .logger l), by simp [hentries], by simp⟩

/-- A logger takes room that the names above it do not have. -/
theorem room_lt {m : String} (hn : r.isLogger n = true) (hm : Heads m n) : r.room m < r.room n := by
  obtain ⟨l, hl⟩ := Option.isSome_iff_exists.mp hn
  obtain ⟨front, back, hentries, -⟩ := List.lookup_eq_some_iff.mp (find?_of_logger? hl)
  have hlt := hm.length_lt
  have hmono : ∀ es : List (String × Entry), es.countP (·.1.toList.length ≤ m.toList.length) ≤
      es.countP (·.1.toList.length ≤ n.toList.length) := by
    intro es
    refine List.countP_mono_left fun e _ he => ?_
    simp only [decide_eq_true_eq] at he ⊢
    omega
  have hfront := hmono front
  have hback := hmono back
  simp only [room, hentries, List.countP_append, List.countP_cons, decide_eq_true_eq, Nat.le_refl,
    if_true, if_neg (Nat.not_le.mpr hlt)]
  omega

theorem lineageFrom_none (r : Registry) (k : Nat) : r.lineageFrom k none = [] := by
  cases k <;> rfl

theorem lineageFrom_of_unknown (hn : r.logger? n = none) (k : Nat) :
    r.lineageFrom k (some n) = [] := by
  cases k with
  | zero => rfl
  | succ k => simp only [lineageFrom, hn]

theorem logger?_of_mem_lineageFrom {l : Logger} {k : Nat} {start : Option String}
    (h : l ∈ r.lineageFrom k start) : ∃ m, r.logger? m = some l := by
  induction k generalizing start with
  | zero => cases h
  | succ k ih =>
    cases start with
    | none => cases h
    | some n =>
      cases hl : r.logger? n with
      | none =>
        rw [lineageFrom_of_unknown hl] at h
        cases h
      | some l' =>
        simp only [lineageFrom, hl] at h
        rcases List.mem_cons.mp h with rfl | h
        · exact ⟨n, hl⟩
        · exact ih h

def Parent (r : Registry) (n m : String) : Prop := r.parentOf n = some m

namespace Wired

theorem heads_of_parent (h : r.Wired) {l : Logger} {m : String} (hl : r.logger? n = some l)
    (hm : l.parent = some m) : Heads m n := by
  refine heads_of_nearest? (h.nearest?_of_parentOf (by simp [isLogger, hl]) ?_)
  rw [parentOf, hl]
  exact hm

/-- More steps than there is room for make no difference. -/
theorem lineageFrom_eq (h : r.Wired) {k k' : Nat} (hk : r.room n ≤ k) (hk' : r.room n ≤ k') :
    r.lineageFrom k (some n) = r.lineageFrom k' (some n) := by
  induction k generalizing n k' with
  | zero =>
    have hn : r.logger? n = none := by
      rw [← Option.not_isSome_iff_eq_none]
      exact fun hn => Nat.not_le.mpr (room_pos hn) hk
    rw [lineageFrom_of_unknown hn, lineageFrom_of_unknown hn]
  | succ k ih =>
    cases hl : r.logger? n with
    | none => rw [lineageFrom_of_unknown hl, lineageFrom_of_unknown hl]
    | some l =>
      have hn : r.isLogger n = true := by simp [isLogger, hl]
      obtain ⟨k', rfl⟩ : ∃ j, k' = j + 1 :=
        Nat.exists_eq_add_one.mpr (Nat.lt_of_lt_of_le (room_pos hn) hk')
      simp only [lineageFrom, hl]
      cases hm : l.parent with
      | none => rw [lineageFrom_none, lineageFrom_none]
      | some m =>
        have hlt := room_lt hn (h.heads_of_parent hl hm)
        exact congrArg (l :: ·) (ih (by omega) (by omega))

theorem lineage_cons (h : r.Wired) {l : Logger} (hl : r.logger? n = some l) :
    r.lineage n = l :: (l.parent.elim [] r.lineage) := by
  have hn : r.isLogger n = true := by simp [isLogger, hl]
  have hroom := r.room_le n
  obtain ⟨k, hk⟩ : ∃ k, r.entries.length = k + 1 :=
    Nat.exists_eq_add_one.mpr (Nat.lt_of_lt_of_le (room_pos hn) hroom)
  rw [lineage, hk]
  simp only [lineageFrom, hl]
  cases hm : l.parent with
  | none => rw [lineageFrom_none, Option.elim_none]
  | some m =>
    have hlt := room_lt hn (h.heads_of_parent hl hm)
    rw [Option.elim_some, lineage, hk]
    exact congrArg (l :: ·) (h.lineageFrom_eq (by omega) (by omega))

/-- The loggers on the way up are those that one gets to from parent to parent. -/
theorem mem_lineage_iff (h : r.Wired) {l : Logger} : l ∈ r.lineage n ↔
    ∃ m, Relation.ReflTransGen r.Parent n m ∧ r.logger? m = some l := by
  constructor
  · intro hmem
    unfold lineage at hmem
    generalize r.entries.length = k at hmem
    induction k generalizing n with
    | zero => cases hmem
    | succ k ih =>
      cases hl : r.logger? n with
      | none =>
        rw [lineageFrom_of_unknown hl] at hmem
        cases hmem
      | some l' =>
        simp only [lineageFrom, hl] at hmem
        rcases List.mem_cons.mp hmem with rfl | hmem
        · exact ⟨n, .refl, hl⟩
        · cases hm : l'.parent with
          | none =>
            rw [hm, lineageFrom_none] at hmem
            cases hmem
          | some m =>
            rw [hm] at hmem
            obtain ⟨top, hpath, htop⟩ := ih hmem
            have hparent : r.Parent n m := by rw [Parent, parentOf, hl, Option.bind_some, hm]
            exact ⟨top, .head hparent hpath, htop⟩
  · rintro ⟨m, hpath, hl⟩
    induction hpath using Relation.ReflTransGen.head_induction_on with
    | refl =>
      rw [h.lineage_cons hl]
      exact List.mem_cons_self
    | @head n k hparent hpath ih =>
      obtain ⟨l', hl', hk⟩ := Option.bind_eq_some_iff.mp hparent
      rw [h.lineage_cons hl', hk]
      exact List.mem_cons_of_mem _ ih

end Wired
end Registry
end OverlaySugar.Log
