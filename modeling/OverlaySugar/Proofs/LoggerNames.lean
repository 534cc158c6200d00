import Mathlib.Data.List.Infix
import OverlaySugar.Log.Registry

/-!
# Names of loggers

The names above a name are texts in front of its dots, the nearest first. All
of them are there if no two dots of the name stand side by side.
-/

set_option autoImplicit false

namespace OverlaySugar.Log
variable {a b c : String}

def Heads (a b : String) : Prop := ∃ rest, b.toList = a.toList ++ '.' :: rest

namespace Heads

theorem trans (h : Heads a b) (h' : Heads b c) : Heads a c := by
  obtain ⟨u, hb⟩ := h
  obtain ⟨v, hc⟩ := h'
  refine ⟨u ++ '.' :: v, ?_⟩
  rw [hc, hb]
  simp

theorem length_lt (h : Heads a b) : a.toList.length < b.toList.length := by
  obtain ⟨rest, hb⟩ := h
  rw [hb]
  simp

theorem isPrefix (h : Heads a b) : a.toList.isPrefixOf b.toList = true := by
  obtain ⟨rest, hb⟩ := h
  rw [hb, List.isPrefixOf_iff_prefix]
  exact List.prefix_append _ _

theorem dot_mem (h : Heads a b) : '.' ∈ b.toList := by
  obtain ⟨rest, hb⟩ := h
  rw [hb]
  simp

end Heads

/-! ## The names above a name -/

/-- A name above one that is read backwards stands in front of one of its dots. -/
theorem of_mem_namesAbove {cs : List Char} (h : a ∈ namesAbove cs) :
    a ≠ "" ∧ ∃ u, cs = u ++ '.' :: a.toList.reverse := by
  fun_induction namesAbove cs with
  | case1 => cases h
  | case2 => cases h
  | case3 c rest ih =>
    rcases List.mem_cons.mp h with rfl | h
    · exact ⟨by simp, [], by simp⟩
    · obtain ⟨hne, u, rfl⟩ := ih h
      exact ⟨hne, '.' :: c :: u, rfl⟩
  | case4 c rest hne hdot ih =>
    obtain ⟨hne', u, rfl⟩ := ih h
    exact ⟨hne', c :: u, rfl⟩

theorem heads_of_mem_ancestorNames (h : a ∈ ancestorNames b) : Heads a b := by
  obtain ⟨-, u, hu⟩ := of_mem_namesAbove h
  refine ⟨u.reverse, ?_⟩
  rw [← List.reverse_reverse b.toList, hu]
  simp

/-- Each of the names above heads those before it. -/
theorem pairwise_namesAbove (cs : List Char) : (namesAbove cs).Pairwise (fun a b => Heads b a) := by
  fun_induction namesAbove cs with
  | case1 => exact .nil
  | case2 => exact .nil
  | case3 c rest ih =>
    refine List.pairwise_cons.mpr ⟨fun b hb => ?_, ih⟩
    obtain ⟨-, u, rfl⟩ := of_mem_namesAbove hb
    exact ⟨u.reverse ++ [c], by simp⟩
  | case4 c rest hne hdot ih => exact ih

theorem pairwise_ancestorNames (a : String) :
    (ancestorNames a).Pairwise (fun a b => Heads b a) :=
  pairwise_namesAbove _

def SingleDots (a : String) : Prop := ¬ ['.', '.'] <:+: a.toList

instance (a : String) : Decidable (SingleDots a) :=
  inferInstanceAs (Decidable (¬ ['.', '.'] <:+: a.toList))

theorem SingleDots.of_heads (h : SingleDots b) (hab : Heads a b) : SingleDots a := by
  obtain ⟨rest, hb⟩ := hab
  intro hdots
  apply h
  rw [hb]
  exact hdots.trans (List.prefix_append _ _).isInfix

theorem mem_namesAbove {u v : List Char} (hdots : ¬ ['.', '.'] <:+: u ++ '.' :: v) (hv : v ≠ []) :
    String.ofList v.reverse ∈ namesAbove (u ++ '.' :: v) := by
  generalize hcs : u ++ '.' :: v = cs at hdots ⊢
  fun_induction namesAbove cs generalizing u with
  | case1 => simp at hcs
  | case2 =>
    cases u with
    | nil => simp_all
    | cons d u => simp at hcs
  | case3 c rest ih =>
    cases u with
    | nil =>
      obtain rfl : v = c :: rest := by simpa using hcs
      exact List.mem_cons_self
    | cons d u =>
      obtain ⟨rfl, hcs⟩ : d = '.' ∧ u ++ '.' :: v = c :: rest := by simpa using hcs
      cases u with
      | nil =>
        -- The dot that is passed over would be the second of two.
        obtain ⟨rfl, rfl⟩ : '.' = c ∧ v = rest := by simpa using hcs
        exact absurd ⟨[], v, rfl⟩ hdots
      | cons e u =>
        obtain ⟨rfl, hrest⟩ : e = c ∧ u ++ '.' :: v = rest := by simpa using hcs
        refine List.mem_cons_of_mem _ (ih hrest fun h => hdots ?_)
        exact h.trans ⟨['.', e], [], by simp⟩
  | case4 c rest hne hdot ih =>
    cases u with
    | nil =>
      obtain ⟨rfl, rfl⟩ : '.' = c ∧ v = rest := by simpa using hcs
      cases v with
      | nil => exact absurd rfl hv
      | cons d v => exact absurd rfl (hdot d v rfl)
    | cons d u =>
      obtain ⟨rfl, hrest⟩ : d = c ∧ u ++ '.' :: v = rest := by simpa using hcs
      refine ih hrest fun h => hdots ?_
      exact h.trans ⟨[d], [], by simp⟩

theorem mem_ancestorNames (hb : SingleDots b) (ha : a ≠ "") (h : Heads a b) :
    a ∈ ancestorNames b := by
  obtain ⟨rest, hrest⟩ := h
  have hreverse : b.toList.reverse = rest.reverse ++ '.' :: a.toList.reverse := by
    rw [hrest]
    simp
  have hdots : ¬ ['.', '.'] <:+: rest.reverse ++ '.' :: a.toList.reverse := by
    rw [← hreverse]
    intro hinfix
    exact hb (by simpa using List.reverse_infix.mpr hinfix)
  rw [ancestorNames, hreverse]
  have hne : a.toList.reverse ≠ [] := by simpa using ha
  simpa using mem_namesAbove hdots hne

end OverlaySugar.Log
