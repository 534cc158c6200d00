import OverlaySugar.Files

/-!
# Files that are written

A path can be opened for writing when all routes in front of its own are those
of directories and its own is not. The file there is then what was written,
and every other route has what it had before.
-/

set_option autoImplicit false

namespace OverlaySugar
open Text

theorem exists_of_bind_ok {ε α β : Type} {x : Except ε α} {f : α → Except ε β} {b : β}
    (h : x >>= f = .ok b) : ∃ a, x = .ok a ∧ f a = .ok b := by
  cases x with
  | error e => cases h
  | ok a => exact ⟨a, rfl, h⟩

namespace Files
variable {fs : Files} {q r : Route}

/-! ## Directories -/

theorem isDirectory_iff : fs.isDirectory q = true ↔ q = [] ∨ q <+: fs.here ∨
    ∃ p ∈ fs.nodes, (p.1 = q ∧ p.2 = .directory) ∨ (q <+: p.1 ∧ q ≠ p.1) := by
  simp only [isDirectory, Bool.or_eq_true, beq_iff_eq, List.isPrefixOf_iff_prefix, List.any_eq_true,
    Bool.and_eq_true, bne_iff_ne, or_assoc]

theorem isDirectory_of_node? (h : fs.node? q = some .directory) : fs.isDirectory q = true := by
  by_cases hq : fs.isDirectory q = true
  · exact hq
  · rw [node?, if_neg hq] at h
    obtain ⟨before, after, hnodes, -⟩ := List.lookup_eq_some_iff.mp h
    have hmem : (q, Node.directory) ∈ fs.nodes := by simp [hnodes]
    exact isDirectory_iff.mpr (.inr (.inr ⟨_, hmem, .inl ⟨rfl, rfl⟩⟩))

def Rooted (fs : Files) (r : Route) : Prop := ∀ q, q <+: r → fs.isDirectory q = true

theorem rooted_nil (fs : Files) : fs.Rooted [] := by
  intro q hq
  exact isDirectory_iff.mpr (.inl (List.prefix_nil.mp hq))

theorem rooted_here (fs : Files) : fs.Rooted fs.here :=
  fun _ hq => isDirectory_iff.mpr (.inr (.inl hq))

theorem Rooted.dropLast (h : fs.Rooted r) : fs.Rooted r.dropLast :=
  fun q hq => h q (hq.trans (List.dropLast_prefix r))

theorem Rooted.concat (h : fs.Rooted r) {name : Text} (hname : fs.isDirectory (r ++ [name]) = true) :
    fs.Rooted (r ++ [name]) := by
  intro q hq
  rcases List.prefix_concat_iff.mp hq with rfl | hq
  · exact hname
  · exact h q hq

theorem Rooted.enter (h : fs.Rooted r) {name : Text} {r' : Route}
    (he : fs.enter r name = .ok r') : fs.Rooted r' := by
  unfold Files.enter at he
  split at he
  · cases he
    exact h
  split at he
  · cases he
    exact h.dropLast
  split at he
  · cases he
  split at he
  · next hnode =>
    cases he
    exact h.concat (isDirectory_of_node? hnode)
  · cases he
  · cases he

theorem Rooted.walk (h : fs.Rooted r) {names : List Text} {r' : Route}
    (hw : fs.walk r names = .ok r') : fs.Rooted r' := by
  induction names generalizing r with
  | nil =>
    cases hw
    exact h
  | cons name names ih =>
    obtain ⟨next, henter, hrest⟩ := exists_of_bind_ok hw
    exact ih (h.enter henter) hrest

theorem rooted_of_locate {path : Text} {name : Option Text}
    (h : fs.locate path = .ok (r, name)) : fs.Rooted r := by
  unfold locate at h
  split at h
  · cases h
  split at h
  · cases h
  obtain ⟨start, hwalk, h⟩ := exists_of_bind_ok h
  have hstart : fs.Rooted start := by
    refine Rooted.walk ?_ hwalk
    split
    · exact rooted_nil fs
    · exact rooted_here fs
  split at h
  · cases h
    exact hstart
  split at h
  · obtain ⟨last, henter, h⟩ := exists_of_bind_ok h
    cases h
    exact hstart.enter henter
  · cases h
    exact hstart

/-! ## Routes of files that can be written -/

structure Writable (fs : Files) (r : Route) : Prop where
  parents : ∀ q, q <+: r → q ≠ r → fs.isDirectory q = true
  notDirectory : fs.isDirectory r = false

theorem writable_of_openOutput {path : Text} (h : fs.openOutput path = .ok r) :
    fs.Writable r := by
  unfold openOutput at h
  obtain ⟨⟨parent, name?⟩, hlocate, h⟩ := exists_of_bind_ok h
  cases name? with
  | none => cases h
  | some name =>
    simp only at h
    split at h
    · cases h
    split at h
    · cases h
    split at h
    · cases h
    · next hdir =>
      cases h
      refine ⟨fun q hq hne => ?_, by simpa using hdir⟩
      exact rooted_of_locate hlocate q ((List.prefix_concat_iff.mp hq).resolve_left hne)

theorem write_write (fs : Files) (r : Route) (a b : Bytes) :
    (fs.write r a).write r b = fs.write r b := by
  simp only [write, assign_assign]

namespace Writable

/-- What is written makes no directory and removes none. -/
theorem isDirectory_write (h : fs.Writable r) (bytes : Bytes) (q : Route) :
    (fs.write r bytes).isDirectory q = fs.isDirectory q := by
  rw [Bool.eq_iff_iff]
  constructor
  · intro hq
    rcases isDirectory_iff.mp hq with hq | hq | ⟨p, hp, hq⟩
    · exact isDirectory_iff.mpr (.inl hq)
    · exact isDirectory_iff.mpr (.inr (.inl hq))
    · rcases eq_or_mem_of_mem_assign hp with rfl | hp
      · rcases hq with ⟨-, hq⟩ | ⟨hq, hne⟩
        · cases hq
        · exact h.parents q hq hne
      · exact isDirectory_iff.mpr (.inr (.inr ⟨p, hp, hq⟩))
  · intro hq
    rcases isDirectory_iff.mp hq with hq | hq | ⟨p, hp, hq⟩
    · exact isDirectory_iff.mpr (.inl hq)
    · exact isDirectory_iff.mpr (.inr (.inl hq))
    · by_cases hr : p.1 = r
      · -- What is at `r` is replaced, but it was no directory.
        have hfile : (r, Node.file bytes) ∈ (fs.write r bytes).nodes :=
          mem_assign_self r (.file bytes) fs.nodes
        rcases hq with ⟨hq, hdir⟩ | hq
        · have hr' : fs.isDirectory r = true :=
            isDirectory_iff.mpr (.inr (.inr ⟨p, hp, .inl ⟨hr, hdir⟩⟩))
          rw [h.notDirectory] at hr'
          cases hr'
        · rw [hr] at hq
          exact isDirectory_iff.mpr (.inr (.inr ⟨_, hfile, .inr hq⟩))
      · have hmem : p ∈ (fs.write r bytes).nodes := mem_assign_of_ne hr (.file bytes) hp
        exact isDirectory_iff.mpr (.inr (.inr ⟨p, hmem, hq⟩))

theorem node?_write_self (h : fs.Writable r) (bytes : Bytes) :
    (fs.write r bytes).node? r = some (.file bytes) := by
  rw [node?, h.isDirectory_write, h.notDirectory]
  exact lookup_assign_self r _ _

theorem node?_write_ne (h : fs.Writable r) (bytes : Bytes) (hne : q ≠ r) :
    (fs.write r bytes).node? q = fs.node? q := by
  rw [node?, node?, h.isDirectory_write]
  congr 1
  exact lookup_assign_ne hne _ _

theorem bytesAt_write_ne (h : fs.Writable r) (bytes : Bytes) (hne : q ≠ r) :
    (fs.write r bytes).bytesAt q = fs.bytesAt q := by
  rw [bytesAt, bytesAt, h.node?_write_ne bytes hne]

end Writable
end Files
end OverlaySugar
