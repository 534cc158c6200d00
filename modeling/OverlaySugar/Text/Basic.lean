/-!
# Text as a list of characters

Overlay source, configuration files and arguments are read as lists of
characters, so that the rules below are recursions on lists. A class of
characters is a list of first and last code points.
-/

set_option autoImplicit false

namespace OverlaySugar

abbrev Text := List Char

namespace Text

def dropEndWhile (p : Char → Bool) (t : Text) : Text := (t.reverse.dropWhile p).reverse

def beforeLast (c : Char) (t : Text) : Text :=
  if c ∈ t then ((t.reverse.dropWhile (· != c)).drop 1).reverse else t

def pieces (c : Char) : Text → List Text
  | [] => [[]]
  | d :: t => if d = c then [] :: pieces c t else
      match pieces c t with
      | [] => [[d]]
      | p :: ps => (d :: p) :: ps

def chunksAfter (c : Char) : Text → List Text
  | [] => []
  | d :: t => if d = c then [d] :: chunksAfter c t else
      match chunksAfter c t with
      | [] => [[d]]
      | p :: ps => (d :: p) :: ps

def after? : Text → Text → Option Text
  | [], t => some t
  | _ :: _, [] => none
  | w :: word, c :: t => if w = c then after? word t else none

theorem pieces_ne_nil (c : Char) (t : Text) : pieces c t ≠ [] := by
  cases t with
  | nil => simp [pieces]
  | cons d t =>
    by_cases h : d = c
    · simp [pieces, h]
    · simp only [pieces, h, if_false]; split <;> simp

theorem chunksAfter_flatten (c : Char) (t : Text) : (chunksAfter c t).flatten = t := by
  induction t with
  | nil => rfl
  | cons d t ih =>
    by_cases h : d = c
    · simp [chunksAfter, h, ih]
    · simp only [chunksAfter, h, if_false]
      split <;> simp_all

theorem after?_eq_some_iff (word t rest : Text) :
    after? word t = some rest ↔ t = word ++ rest := by
  induction word generalizing t with
  | nil => simp [after?, eq_comm]
  | cons w word ih =>
    cases t with
    | nil => simp [after?]
    | cons c t => by_cases h : w = c <;> simp [after?, h, ih, eq_comm]

def utf8Length : Text → Nat
  | [] => 0
  | c :: t => c.utf8Size + utf8Length t

def hexDigits (width n : Nat) : Text := (Nat.toDigits 16 n).leftpad width '0'

/-! ## Character classes -/

abbrev Ranges := List (Nat × Nat)

def Ranges.holds (r : Ranges) (c : Char) : Bool :=
  r.any fun (lo, hi) => lo ≤ c.toNat && c.toNat ≤ hi

theorem Ranges.holds_iff (r : Ranges) (c : Char) :
    r.holds c = true ↔ ∃ p ∈ r, p.1 ≤ c.toNat ∧ c.toNat ≤ p.2 := by
  simp [Ranges.holds]

/-! ## White space

Twenty-nine characters are blank: those with the White_Space property and the four information
separators U+001C to U+001F. Trimming removes them at an end of a text and nowhere else. -/

def blankRanges : Ranges :=
  [(0x09, 0x0D), (0x1C, 0x20), (0x85, 0x85), (0xA0, 0xA0), (0x1680, 0x1680), (0x2000, 0x200A),
   (0x2028, 0x2029), (0x202F, 0x202F), (0x205F, 0x205F), (0x3000, 0x3000)]

def isBlank (c : Char) : Bool := blankRanges.holds c

def trimStart (t : Text) : Text := t.dropWhile isBlank

def trimEnd (t : Text) : Text := dropEndWhile isBlank t

def trim (t : Text) : Text := trimStart (trimEnd t)

def leadingBlank (t : Text) : Text := t.takeWhile isBlank

theorem leadingBlank_append_trimStart (t : Text) : leadingBlank t ++ trimStart t = t :=
  List.takeWhile_append_dropWhile

theorem isBlank_of_mem_leadingBlank {c : Char} {t : Text} (h : c ∈ leadingBlank t) :
    isBlank c = true := by
  induction t with
  | nil => simp [leadingBlank] at h
  | cons d t ih =>
    by_cases hd : isBlank d = true
    · simp only [leadingBlank, List.takeWhile_cons, hd, if_true, List.mem_cons] at h
      exact h.elim (fun e => e ▸ hd) ih
    · simp [leadingBlank, hd] at h

end Text
end OverlaySugar
