import OverlaySugar.Diagnostics

/-!
# The wording of the program

A count is a number and a noun, singular for one alone. A size of a thousand
bytes or more is given in the largest decimal unit that it reaches, with at
most two decimals. Both are refused where the number is beyond the binary64
range. A half is rounded to the even neighbour, on ratios of natural numbers
whose exponents are not bounded.
-/

set_option autoImplicit false

namespace OverlaySugar.Quantity

def roundHalfEven (num den : Nat) : Nat :=
  let q := num / den
  let r := num % den
  if 2 * r < den then q
  else if den < 2 * r then q + 1
  else if q % 2 = 0 then q else q + 1

structure Ratio where
  num : Nat
  den : Nat
  deriving DecidableEq, Repr

/-- The number with 53 significant bits nearest to a ratio that is at least one. -/
def Ratio.toBits53 (r : Ratio) : Ratio :=
  let exponent := (r.num / r.den).log2
  if exponent ≤ 52 then
    ⟨roundHalfEven (r.num <<< (52 - exponent)) r.den, 1 <<< (52 - exponent)⟩
  else
    ⟨roundHalfEven r.num (r.den <<< (exponent - 52)) <<< (exponent - 52), 1⟩

def Ratio.over (r s : Ratio) : Ratio := ⟨r.num * s.den, r.den * s.num⟩

def Ratio.ofNat (n : Nat) : Ratio := ⟨n, 1⟩

def binary64Limit : Nat := (1 <<< 1024) - (1 <<< 970)

def tooLarge : WordingFault := ⟨"int too large to convert to float"⟩

def pluralize (n : Int) (one : String) (many? : Option String) : Except WordingFault String :=
  let many := many?.getD (one ++ "s")
  if n.natAbs ≥ binary64Limit then .error tooLarge
  else .ok s!"{n} {if n = 1 then one else many}"

def thousandTo : Nat → Nat
  | 0 => 1
  | n + 1 => 1000 * thousandTo n

def sizeUnits : List (String × Nat) :=
  [("YB", thousandTo 8), ("ZB", thousandTo 7), ("EB", thousandTo 6), ("PB", thousandTo 5),
   ("TB", thousandTo 4), ("GB", thousandTo 3), ("MB", thousandTo 2), ("KB", thousandTo 1)]

def showHundredths (h : Nat) : String :=
  if h % 100 = 0 then toString (h / 100)
  else if h % 10 = 0 then s!"{h / 100}.{h / 10 % 10}"
  else s!"{h / 100}.{h / 10 % 10}{h % 10}"

def hundredthsOf (n unit : Nat) : Nat :=
  let q := ((Ratio.ofNat n).toBits53.over (Ratio.ofNat unit).toBits53).toBits53
  roundHalfEven (100 * q.num) q.den

def formatSize (n : Int) : Except WordingFault String :=
  match sizeUnits.find? fun (_, unit) => (unit : Int) ≤ n with
  | none => pluralize n "byte" none
  | some (symbol, unit) =>
    if n.natAbs ≥ binary64Limit then .error tooLarge
    else .ok s!"{showHundredths (hundredthsOf n.natAbs unit)} {symbol}"

def wording : Wording := ⟨pluralize, formatSize⟩

end OverlaySugar.Quantity
