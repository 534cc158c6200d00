import OverlaySugar.Text.Utf8

/-!
# Reading lines from bytes

Bytes are decoded part by part, and a line is delivered once the part with
its end is decoded. A part that cannot be decoded ends the reading: whole
lines of the parts before it have been delivered, the rest is lost. Each of
the line ends CR LF, CR and LF becomes a line feed; a CR at the end of a part
waits for the next part.
-/

set_option autoImplicit false

namespace OverlaySugar.Text

def partSize : Nat := 8192

def partsOf {α : Type} (size : Nat) (xs : List α) : List (List α) :=
  if _h : xs = [] ∨ size = 0 then []
  else xs.take size :: partsOf size (xs.drop size)
termination_by xs.length
decreasing_by
  have : xs.length ≠ 0 := fun e => _h (.inl (List.length_eq_zero_iff.1 e))
  simp only [List.length_drop]
  omega

def unifyLineEnds : Text → Text
  | [] => []
  | '\r' :: '\n' :: t => '\n' :: unifyLineEnds t
  | c :: t => (if c = '\r' then '\n' else c) :: unifyLineEnds t

def decodeParts (held : Bytes) : List Bytes → Text × Option Utf8.Fault
  | [] => ([], if held = [] then none else some (Utf8.endFault held))
  | part :: parts =>
    match Utf8.decodeFrom 0 held part with
    | .error f => ([], some f)
    | .ok (t, held) =>
      let (rest, fault) := decodeParts held parts
      (t ++ rest, fault)

structure Reading where
  lines : List Text
  fault : Option Utf8.Fault
  deriving DecidableEq, Repr

def wholeLines (t : Text) : List Text :=
  let t := if t.getLast? = some '\r' then t.dropLast else t
  (chunksAfter '\n' (unifyLineEnds t)).filter (·.getLast? = some '\n')

/-- A file and the standard input are read alike: as strict UTF-8 whatever the surroundings say,
with each line end made a line feed. -/
def readLines (bytes : Bytes) : Reading :=
  match decodeParts [] (partsOf partSize bytes) with
  | (t, none) => ⟨chunksAfter '\n' (unifyLineEnds t), none⟩
  | (t, some f) => ⟨wholeLines t, some f⟩

theorem partsOf_flatten {α : Type} (size : Nat) (xs : List α) (h : 0 < size) :
    (partsOf size xs).flatten = xs := by
  fun_induction partsOf size xs with
  | case1 xs hx => rcases hx with rfl | e <;> simp_all
  | case2 xs hx ih => simp [ih]

end OverlaySugar.Text
