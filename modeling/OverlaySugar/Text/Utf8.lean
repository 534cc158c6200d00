import OverlaySugar.Text.Basic

/-!
# UTF-8

The strict encoding. The decoder takes one byte at a time and holds the bytes
of a character that is not complete. It refuses a byte as soon as no
character can go on with it, but for the start of a surrogate, which is
refused with the byte after it or at the end.
-/

set_option autoImplicit false

namespace OverlaySugar.Text

abbrev Bytes := List UInt8

namespace Utf8

def encodeChar (c : Char) : Bytes :=
  let n := c.toNat
  if n < 0x80 then [n.toUInt8]
  else if n < 0x800 then [(0xC0 + n / 0x40).toUInt8, (0x80 + n % 0x40).toUInt8]
  else if n < 0x10000 then
    [(0xE0 + n / 0x1000).toUInt8, (0x80 + n / 0x40 % 0x40).toUInt8, (0x80 + n % 0x40).toUInt8]
  else
    [(0xF0 + n / 0x40000).toUInt8, (0x80 + n / 0x1000 % 0x40).toUInt8,
     (0x80 + n / 0x40 % 0x40).toUInt8, (0x80 + n % 0x40).toUInt8]

def encode (t : Text) : Bytes := t.flatMap encodeChar

inductive Reason
  | invalidStart | invalidContinuation | unexpectedEnd
  deriving DecidableEq, Repr

def Reason.message : Reason → String
  | .invalidStart => "invalid start byte"
  | .invalidContinuation => "invalid continuation byte"
  | .unexpectedEnd => "unexpected end of data"

structure Fault where
  position : Nat
  bytes : Bytes
  reason : Reason
  deriving DecidableEq, Repr

def hexByte (b : UInt8) : String := String.ofList (hexDigits 2 b.toNat)

def Fault.message (f : Fault) : String :=
  let place := match f.bytes with
    | [b] => s!"byte 0x{hexByte b} in position {f.position}"
    | bs => s!"bytes in position {f.position}-{f.position + bs.length - 1}"
  s!"'utf-8' codec can't decode {place}: {f.reason.message}"

def isContinuation (b : UInt8) : Bool := 0x80 ≤ b && b ≤ 0xBF

def isSecond (first b : UInt8) : Bool :=
  isContinuation b &&
    if first == 0xE0 then 0xA0 ≤ b
    else if first == 0xED then b < 0xA0
    else if first == 0xF0 then 0x90 ≤ b
    else if first == 0xF4 then b < 0x90
    else true

def startsSurrogate (first b : UInt8) : Bool := first == 0xED && 0xA0 ≤ b && b ≤ 0xBF

def assemble (lead : Nat) (tail : Bytes) : Char :=
  Char.ofNat (tail.foldl (fun n b => n * 0x40 + b.toNat % 0x40) lead)

inductive Step
  | char (c : Char)
  | hold (held : Bytes)
  | refuse (width : Nat) (reason : Reason)
  deriving DecidableEq, Repr

def step (held : Bytes) (b : UInt8) : Step :=
  match held with
  | [] =>
    if b < 0x80 then .char (assemble b.toNat [])
    else if 0xC2 ≤ b && b ≤ 0xF4 then .hold [b]
    else .refuse 1 .invalidStart
  | [b₁] =>
    if isSecond b₁ b then
      if b₁ < 0xE0 then .char (assemble (b₁.toNat % 0x20) [b]) else .hold [b₁, b]
    else if startsSurrogate b₁ b then .hold [b₁, b]
    else .refuse 1 .invalidContinuation
  | [b₁, b₂] =>
    if startsSurrogate b₁ b₂ then .refuse 1 .invalidContinuation
    else if isContinuation b then
      if b₁ < 0xF0 then .char (assemble (b₁.toNat % 0x10) [b₂, b]) else .hold [b₁, b₂, b]
    else .refuse 2 .invalidContinuation
  | b₁ :: bs =>
    if isContinuation b then .char (assemble (b₁.toNat % 0x08) (bs ++ [b]))
    else .refuse bs.length.succ .invalidContinuation

def decodeFrom (position : Nat) (held : Bytes) : Bytes → Except Fault (Text × Bytes)
  | [] => .ok ([], held)
  | b :: bs =>
    match step held b with
    | .char c =>
      match decodeFrom (position + held.length + 1) [] bs with
      | .ok (t, rest) => .ok (c :: t, rest)
      | .error f => .error f
    | .hold held => decodeFrom position held bs
    | .refuse width reason => .error ⟨position, (held ++ [b]).take width, reason⟩

def endFault (held : Bytes) : Fault :=
  match held with
  | [b₁, b₂] => if startsSurrogate b₁ b₂ then ⟨0, [b₁], .invalidContinuation⟩ else ⟨0, held, .unexpectedEnd⟩
  | _ => ⟨0, held, .unexpectedEnd⟩

end Utf8
end OverlaySugar.Text
