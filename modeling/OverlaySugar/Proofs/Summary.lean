import Mathlib.Algebra.Order.BigOperators.Group.List
import Mathlib.Algebra.Order.Ring.Nat
import OverlaySugar.Proofs.Remarks
import OverlaySugar.Quantity
import OverlaySugar.Text.Utf8

/-!
# The summary of a conversion

Its figures are those of the lines that were read, the fatal one included: how
many they are, how many bytes they take, and what was counted about them. It
can be put into words wherever the words for such figures are as documented.
Those of the program are, for every source that fits in memory.
-/

set_option autoImplicit false

namespace OverlaySugar
open Text

/-! ## Figures in words -/

section
variable {w : Wording} {limit : Nat}

theorem Wording.Documented.mono (h : w.Documented limit) {n : Nat} (hn : n ≤ limit) :
    w.Documented n where
  pluralize m hm := h.pluralize m (hm.trans hn)
  formatSize m hm := h.formatSize m (hm.trans hn)

namespace Tally

def words (t : Tally) (lines : Nat) (size : String) : String :=
  let lines := countText lines "line" none
  let errors := countText t.errors "error" none
  let warnings := countText t.warnings "warning" none
  let properties := countText t.rootProperties "root property" (some "root properties")
  s!"converted {lines} ({size}): {errors}, {warnings}, {properties}"

def AtMost (t : Tally) (lines : Nat) : Prop :=
  t.errors ≤ lines ∧ t.warnings ≤ lines ∧ t.rootProperties ≤ lines

theorem summary_eq {t : Tally} {lines : Nat} {bytes : Int} {size : String}
    (hw : w.Documented lines) (ht : t.AtMost lines) (hb : w.formatSize bytes = .ok size) :
    t.summary w lines bytes = .ok (t.words lines size) := by
  obtain ⟨herrors, hwarnings, hproperties⟩ := ht
  simp only [summary, hw.pluralize lines le_rfl, hb, hw.pluralize t.errors herrors,
    hw.pluralize t.warnings hwarnings, hw.pluralize t.rootProperties hproperties]
  rfl

end Tally
end

/-! ## Lines and bytes -/

theorem length_encodeChar (c : Char) : (Utf8.encodeChar c).length = c.utf8Size := by
  have hle (n : UInt32) : c.val ≤ n ↔ c.toNat ≤ n.toNat := UInt32.le_iff_toNat_le
  simp only [Utf8.encodeChar, Char.utf8Size, hle]
  repeat' split
  all_goals simp_all
  all_goals omega

theorem length_encode (t : Text) : (Utf8.encode t).length = utf8Length t := by
  induction t with
  | nil => rfl
  | cons c t ih =>
    rw [Utf8.encode] at ih ⊢
    rw [List.flatMap_cons, List.length_append, length_encodeChar, ih, utf8Length]

theorem length_encode_le (t : Text) : (Utf8.encode t).length ≤ t.length * 4 := by
  have hchar (c : Char) : (Utf8.encodeChar c).length ≤ 4 := by
    rw [length_encodeChar]
    exact c.utf8Size_le_four
  induction t with
  | nil => exact Nat.le_refl 0
  | cons c t ih =>
    rw [Utf8.encode] at ih ⊢
    rw [List.flatMap_cons, List.length_append, List.length_cons]
    have hc := hchar c
    omega

def byteCount (lines : List Text) : Nat := (lines.map fun line => (Utf8.encode line).length).sum

theorem byteCount_append (xs ys : List Text) :
    byteCount (xs ++ ys) = byteCount xs + byteCount ys := by
  simp [byteCount]

theorem byteCount_concat (lines : List Text) (line : Text) :
    byteCount (lines ++ [line]) = byteCount lines + utf8Length line := by
  simp [byteCount, length_encode]

theorem State.bytesRead_feed (o : Options) (s : State) (line : Text) :
    (s.feed o line).state.bytesRead = s.bytesRead + utf8Length line := by
  obtain ⟨r, hr, ⟨n, -, hrule⟩ | ⟨-, hrule⟩ | ⟨-, hrule⟩⟩ := s.feed_cases o line
  all_goals
    rw [hr, Outcome.state_after]
    cases hrule <;> rfl

structure CountsRead (lines : List Text) (s : State) : Prop where
  linesRead : s.linesRead = lines.length
  bytesRead : s.bytesRead = byteCount lines

theorem CountsRead.next {lines : List Text} {s : State} (h : CountsRead lines s) (o : Options)
    (line : Text) : CountsRead (lines ++ [line]) (s.feed o line).state := by
  constructor
  · rw [State.linesRead_feed, h.linesRead, List.length_append]
    rfl
  · rw [State.bytesRead_feed, h.bytesRead, byteCount_concat]

theorem length_positions (lines : List Text) : (positions lines).length = lines.length := by
  induction lines using List.reverseRecOn with
  | nil => rfl
  | append_singleton lines line ih => simp [positions_concat, ih]

/-! ## Conversions -/

def Conversion.exit (c : Conversion) (w : Wording) : Except WordingFault ExitStatus :=
  (c.logged w).result.map Conversion.status

theorem exit_of_summary {c : Conversion} {w : Wording} {text : String}
    (h : c.summary w = .ok text) : c.exit w = .ok c.status := by
  rw [Conversion.exit, logged_of_summary h]
  rfl

theorem exit_of_fault {c : Conversion} {w : Wording} {f : WordingFault}
    (h : c.summary w = .error f) : c.exit w = .error f := by
  rw [Conversion.exit, logged_of_fault h]
  rfl

section
variable (o : Options) (lines : List Text)

theorem verbose_convert : (convert o lines).verbose = o.verbose := by
  cases hf : (run o lines).fatal with
  | none => rw [convert_of_run hf]
  | some f => rw [convert_of_stop hf]

theorem countsRead_convert : CountsRead (linesThrough lines (convert o lines).fatal)
    (convert o lines).outcome.state := by
  have hrun : CountsRead (linesThrough lines (run o lines).fatal) (run o lines).state :=
    through_induction (P := fun lines r => CountsRead lines r.state) ⟨rfl, rfl⟩
      (fun _ line _ h => h.next o line) lines
  rw [fatal_convert]
  cases hf : (run o lines).fatal with
  | none =>
    rw [hf] at hrun
    rw [convert_of_run hf]
    exact ⟨hrun.linesRead, hrun.bytesRead⟩
  | some f =>
    rw [hf] at hrun
    rwa [convert_of_stop hf]

/-- A line gives one message at most. -/
theorem atMost_convert : (convert o lines).tally.AtMost
    (linesThrough lines (convert o lines).fatal).length := by
  have hmessages : (convert o lines).messages.length ≤
      (linesThrough lines (convert o lines).fatal).length := by
    rw [messages_through, ← length_positions]
    exact List.length_filterMap_le _ _
  have hreported (v : Severity) := (reported_convert o lines v).le.trans List.countP_le_length
  refine ⟨(hreported .error).trans hmessages, (hreported .warning).trans hmessages, ?_⟩
  obtain ⟨-, hproperties, -⟩ := (reported_through o lines).grows.from_zero
  rw [tally_convert, fatal_convert, hproperties, ← length_positions]
  exact List.countP_le_length

theorem summary_convert (w : Wording) :
    let c := convert o lines
    let fed := linesThrough lines c.fatal
    c.summary w = c.tally.summary w fed.length (byteCount fed) := by
  intro c fed
  have hread : CountsRead fed c.outcome.state := countsRead_convert o lines
  rw [Conversion.summary, hread.linesRead, hread.bytesRead]

def largestFigure : Nat := max lines.length (byteCount lines)

theorem exists_summary {w : Wording} (hw : w.Documented (largestFigure lines)) :
    let c := convert o lines
    let fed := linesThrough lines c.fatal
    ∃ size, w.formatSize (byteCount fed) = .ok size ∧
      c.summary w = .ok (c.tally.words fed.length size) := by
  intro c fed
  obtain ⟨rest, hrest⟩ : fed <+: lines := linesThrough_prefix lines c.fatal
  have hlength : fed.length ≤ largestFigure lines := by
    rw [largestFigure, ← hrest, List.length_append]
    omega
  have hbytes : byteCount fed ≤ largestFigure lines := by
    rw [largestFigure, ← hrest, byteCount_append]
    omega
  obtain ⟨size, hsize⟩ := hw.formatSize _ hbytes
  refine ⟨size, hsize, ?_⟩
  rw [summary_convert]
  exact Tally.summary_eq (hw.mono hlength) (atMost_convert o lines) hsize

theorem exit_of_documented {w : Wording} (hw : w.Documented (largestFigure lines)) :
    (convert o lines).exit w = .ok (convert o lines).status := by
  obtain ⟨size, -, hsummary⟩ := exists_summary o lines hw
  exact exit_of_summary hsummary

end

/-! ## The wording of the program -/

theorem documented_wording {limit : Nat} (h : limit < Quantity.binary64Limit) :
    Quantity.wording.Documented limit := by
  have hsmall {n : Nat} (hn : n ≤ limit) : ¬ (n : Int).natAbs ≥ Quantity.binary64Limit := by
    rw [Int.natAbs_natCast]
    omega
  have hcount {n : Nat} (hn : n ≤ limit) (one : String) (many? : Option String) :
      Quantity.pluralize n one many? = .ok (countText n one many?) := by
    have hone : ((n : Int) = 1) = (n = 1) := propext (by omega)
    rw [Quantity.pluralize, if_neg (hsmall hn)]
    simp only [hone]
    rfl
  refine ⟨fun n hn => hcount hn, fun n hn => ?_⟩
  change ∃ text, Quantity.formatSize n = .ok text
  unfold Quantity.formatSize
  split
  · exact ⟨_, hcount hn "byte" none⟩
  · exact ⟨_, if_neg (hsmall hn)⟩

/-- The lines and characters of a list in memory can be counted with 64 bits. -/
theorem documented_of_lengths {lines : List Text} (hlines : lines.length < 2 ^ 64)
    (hline : ∀ line ∈ lines, line.length < 2 ^ 64) :
    Quantity.wording.Documented (largestFigure lines) := by
  have hlimit : 2 ^ 64 * 2 ^ 66 ≤ Quantity.binary64Limit := by decide +kernel
  have hbytes : byteCount lines ≤ lines.length * 2 ^ 66 := by
    have hsum := List.sum_le_card_nsmul (lines.map fun line => (Utf8.encode line).length) (2 ^ 66)
    rw [List.length_map, Nat.nsmul_eq_mul] at hsum
    refine hsum fun k hk => ?_
    obtain ⟨line, hmem, rfl⟩ := List.mem_map.mp hk
    have hle := length_encode_le line
    have hlt := hline line hmem
    omega
  refine documented_wording (Nat.lt_of_lt_of_le (Nat.max_lt.mpr ⟨?_, ?_⟩) hlimit)
  · exact Nat.lt_of_lt_of_le hlines (by decide)
  · exact Nat.lt_of_le_of_lt hbytes (Nat.mul_lt_mul_of_pos_right hlines (by decide))

end OverlaySugar
