/-!
# Ordered tables

Lists of keys with values, in the order in which the keys were first set.
-/

set_option autoImplicit false

namespace OverlaySugar

def assign {κ α : Type} [BEq κ] (key : κ) (value : α) : List (κ × α) → List (κ × α)
  | [] => [(key, value)]
  | (k, v) :: rest => if k == key then (key, value) :: rest else (k, v) :: assign key value rest

variable {κ α : Type} [BEq κ] [LawfulBEq κ]

theorem assign_cons_self (key : κ) (v value : α) (rest : List (κ × α)) :
    assign key value ((key, v) :: rest) = (key, value) :: rest := by
  simp [assign]

theorem assign_cons_ne {k key : κ} (h : k ≠ key) (v value : α) (rest : List (κ × α)) :
    assign key value ((k, v) :: rest) = (k, v) :: assign key value rest := by
  simp [assign, h]

theorem lookup_assign_self (key : κ) (value : α) (xs : List (κ × α)) :
    (assign key value xs).lookup key = some value := by
  induction xs with
  | nil => simp [assign]
  | cons p xs ih =>
    obtain ⟨k, v⟩ := p
    by_cases h : k = key
    · subst h
      simp [assign_cons_self]
    · have hk : (key == k) = false := beq_eq_false_iff_ne.2 (Ne.symm h)
      rw [assign_cons_ne h, List.lookup_cons, hk]
      exact ih

theorem lookup_assign_ne {key other : κ} (hne : other ≠ key) (value : α) (xs : List (κ × α)) :
    (assign key value xs).lookup other = xs.lookup other := by
  have ho : (other == key) = false := beq_eq_false_iff_ne.2 hne
  induction xs with
  | nil => simp only [assign, List.lookup_cons, ho, List.lookup_nil]
  | cons p xs ih =>
    obtain ⟨k, v⟩ := p
    by_cases h : k = key
    · subst h
      rw [assign_cons_self, List.lookup_cons, List.lookup_cons, ho]
    · rw [assign_cons_ne h, List.lookup_cons, List.lookup_cons, ih]

theorem lookup_map_values {β : Type} (f : κ → α → β) (key : κ) (xs : List (κ × α)) :
    (xs.map fun p => (p.1, f p.1 p.2)).lookup key = (xs.lookup key).map (f key) := by
  induction xs with
  | nil => rfl
  | cons p xs ih =>
    obtain ⟨k, v⟩ := p
    by_cases h : key = k
    · subst h
      simp
    · have hk : (key == k) = false := beq_eq_false_iff_ne.2 h
      simp only [List.map_cons, List.lookup_cons, hk, ih]

theorem assign_assign (key : κ) (v value : α) (xs : List (κ × α)) :
    assign key value (assign key v xs) = assign key value xs := by
  induction xs with
  | nil => exact assign_cons_self key v value []
  | cons p xs ih =>
    obtain ⟨k, w⟩ := p
    by_cases h : k = key
    · subst h
      rw [assign_cons_self, assign_cons_self, assign_cons_self]
    · rw [assign_cons_ne h, assign_cons_ne h, assign_cons_ne h, ih]

theorem mem_assign_self (key : κ) (value : α) (xs : List (κ × α)) :
    (key, value) ∈ assign key value xs := by
  induction xs with
  | nil => exact List.mem_cons_self
  | cons p xs ih =>
    obtain ⟨k, v⟩ := p
    by_cases h : k = key
    · subst h
      rw [assign_cons_self]
      exact List.mem_cons_self
    · rw [assign_cons_ne h]
      exact List.mem_cons_of_mem _ ih

theorem mem_assign_of_ne {key : κ} {p : κ × α} (hne : p.1 ≠ key) (value : α)
    {xs : List (κ × α)} (h : p ∈ xs) : p ∈ assign key value xs := by
  induction xs with
  | nil => cases h
  | cons q xs ih =>
    obtain ⟨k, v⟩ := q
    by_cases hk : k = key
    · subst hk
      rw [assign_cons_self]
      rcases List.mem_cons.mp h with rfl | h
      · exact absurd rfl hne
      · exact List.mem_cons_of_mem _ h
    · rw [assign_cons_ne hk]
      rcases List.mem_cons.mp h with rfl | h
      · exact List.mem_cons_self
      · exact List.mem_cons_of_mem _ (ih h)

theorem eq_or_mem_of_mem_assign {key : κ} {value : α} {p : κ × α} {xs : List (κ × α)}
    (h : p ∈ assign key value xs) : p = (key, value) ∨ p ∈ xs := by
  induction xs with
  | nil => exact .inl (List.mem_singleton.mp h)
  | cons q xs ih =>
    obtain ⟨k, v⟩ := q
    by_cases hk : k = key
    · subst hk
      rw [assign_cons_self] at h
      exact (List.mem_cons.mp h).imp_right (List.mem_cons_of_mem _)
    · rw [assign_cons_ne hk] at h
      rcases List.mem_cons.mp h with rfl | h
      · exact .inr List.mem_cons_self
      · exact (ih h).imp_right (List.mem_cons_of_mem _)

end OverlaySugar
