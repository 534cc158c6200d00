import OverlaySugar.Text.Basic

/-!
# Decimal digits and numerals

The characters of general category Nd come in decades: ten consecutive code
points with the values 0 to 9. A numeral is a sign, then decimal digits of
any script, where single underscores may stand between digits. Blanks around
it do not count, but the information separators are no blanks here. Numerals
of more than 4300 digits are refused.
-/

set_option autoImplicit false

namespace OverlaySugar.Text

def digitZeros : List Nat :=
  [0x30, 0x660, 0x6F0, 0x7C0, 0x966, 0x9E6, 0xA66, 0xAE6, 0xB66, 0xBE6, 0xC66, 0xCE6, 0xD66,
   0xDE6, 0xE50, 0xED0, 0xF20, 0x1040, 0x1090, 0x17E0, 0x1810, 0x1946, 0x19D0, 0x1A80, 0x1A90,
   0x1B50, 0x1BB0, 0x1C40, 0x1C50, 0xA620, 0xA8D0, 0xA900, 0xA9D0, 0xA9F0, 0xAA50, 0xABF0, 0xFF10,
   0x104A0, 0x10D30, 0x11066, 0x110F0, 0x11136, 0x111D0, 0x112F0, 0x11450, 0x114D0, 0x11650,
   0x116C0, 0x11730, 0x118E0, 0x11950, 0x11C50, 0x11D50, 0x11DA0, 0x16A60, 0x16AC0, 0x16B50,
   0x1D7CE, 0x1D7D8, 0x1D7E2, 0x1D7EC, 0x1D7F6, 0x1E140, 0x1E2F0, 0x1E950, 0x1FBF0]

def digitValue? (c : Char) : Option Nat :=
  (digitZeros.find? fun z => z ≤ c.toNat && c.toNat < z + 10).map (c.toNat - ·)

def isDecimalDigit (c : Char) : Bool := (digitValue? c).isSome

/-! ## Numerals -/

def maxDigits : Nat := 4300

def isNumeralBlank (c : Char) : Bool := isBlank c && !(0x1C ≤ c.toNat && c.toNat ≤ 0x1F)

def digitRun? : Text → Option (List Nat)
  | [] => none
  | [c] => (digitValue? c).map ([·])
  | c :: '_' :: t => do return (← digitValue? c) :: (← digitRun? t)
  | c :: t => do return (← digitValue? c) :: (← digitRun? t)

def ofDigits (ds : List Nat) : Nat := ds.foldl (10 * · + ·) 0

def natural? (t : Text) : Option Nat := do
  let ds ← digitRun? t
  guard (ds.length ≤ maxDigits)
  return ofDigits ds

def integer? (t : Text) : Option Int :=
  match dropEndWhile isNumeralBlank (t.dropWhile isNumeralBlank) with
  | '-' :: t => (natural? t).map fun n => -(n : Int)
  | '+' :: t => (natural? t).map Int.ofNat
  | t => (natural? t).map Int.ofNat

end OverlaySugar.Text
