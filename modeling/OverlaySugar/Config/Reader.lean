import OverlaySugar.Config.Store
import OverlaySugar.Text.Quoted
import OverlaySugar.Text.Source

/-!
# Reading a configuration file

A file is a list of lines: blank ones, comments, section headers, options
and the further lines of a value, which stand deeper than its option. A key
without a delimiter is noted and reading goes on; other faults end it.
-/

set_option autoImplicit false

namespace OverlaySugar
open Text

inductive ReadFault
  | missingHeader (number : Nat) (line : Text)
  | duplicateSection (number : Nat) (name : Text)
  | duplicateOption (number : Nat) (name key : Text)
  | malformed (lines : List (Nat × Text))
  | undecodable (fault : Utf8.Fault)
  deriving DecidableEq, Repr

namespace ReadFault

def padded (n : Nat) : String := String.ofList ((toString n).toList.leftpad 2 ' ')

def message (file : String) : ReadFault → String
  | .missingHeader n line => s!"File contains no section headers.\nfile: {file}, line: {n}\n{quote line}"
  | .duplicateSection n name =>
    s!"While reading from {file} [line {padded n}]: section {quote name} already exists"
  | .duplicateOption n name key =>
    s!"While reading from {file} [line {padded n}]: option {quote key} in section {quote name} already exists"
  | .malformed lines =>
    s!"Source contains parsing errors: {file}" ++
      String.join (lines.map fun (n, line) => s!"\n\t[line {padded n}]: {quote line}")
  | .undecodable f => f.message

end ReadFault

namespace Config

structure Cursor where
  config : Config
  current : Option Text
  key : Option Text
  indent : Nat
  malformed : List (Nat × Text)
  deriving DecidableEq, Repr

def Cursor.initial : Cursor := ⟨empty, none, none, 0, []⟩

namespace Cursor

def openValue? (s : Cursor) : Option (Text × Text) :=
  match s.current, s.key with
  | some name, some (c :: key) => some (name, c :: key)
  | _, _ => none

def extend (s : Cursor) (name key more : Text) : Cursor :=
  { s with config := s.config.put name key (((s.config.own? name key).getD []) ++ '\n' :: more) }

def note (s : Cursor) (n : Nat) (line : Text) : Cursor :=
  { s with malformed := s.malformed ++ [(n, line)] }

def blankLine (s : Cursor) : Cursor :=
  match s.openValue? with
  | some (name, key) => s.extend name key []
  | none => s

def header? (t : Text) : Option Text :=
  match t with
  | '[' :: t =>
    let name := beforeLast ']' t
    if ']' ∈ t ∧ name ≠ [] then some name else none
  | _ => none

def isDelimiter (c : Char) : Bool := c == '=' || c == ':'

def option? (t : Text) : Option (Text × Text) :=
  match t.dropWhile (!isDelimiter ·) with
  | _ :: value => some (lower (trimEnd (t.takeWhile (!isDelimiter ·))), trim value)
  | [] => none

def openSection (s : Cursor) (n : Nat) (name : Text) : Except ReadFault Cursor :=
  if s.config.hasSection name then .error (.duplicateSection n name)
  else
    let config := if name = defaultSection then s.config
      else { s.config with sections := s.config.sections ++ [(name, [])] }
    .ok { s with config, current := some name, key := none }

def setOption (s : Cursor) (n : Nat) (line name key value : Text) : Except ReadFault Cursor :=
  if (s.config.own? name key).isSome then .error (.duplicateOption n name key)
  else
    let s := if key = [] then s.note n line else s
    .ok { s with config := s.config.put name key value, key := some key }

def start (s : Cursor) (n : Nat) (line value : Text) : Except ReadFault Cursor :=
  match header? value, s.current, option? value with
  | some name, _, _ => s.openSection n name
  | none, none, _ => .error (.missingHeader n line)
  | none, some name, some (key, v) => s.setOption n line name key v
  | none, some _, none => .ok (s.note n line)

def isComment (value : Text) : Bool := value.head? == some '#' || value.head? == some ';'

def readLine (s : Cursor) (n : Nat) (line : Text) : Except ReadFault Cursor :=
  let value := trim line
  let column := (leadingBlank line).length
  if value = [] then .ok s.blankLine
  else if isComment value then .ok s
  else match s.openValue? with
    | some (name, key) =>
      if column > s.indent then .ok (s.extend name key value)
      else { s with indent := column }.start n line value
    | none => { s with indent := column }.start n line value

def readLines (s : Cursor) (n : Nat) : List Text → Except ReadFault Cursor
  | [] => .ok s
  | line :: rest => do (← s.readLine n line).readLines (n + 1) rest

end Cursor

def ofReading (r : Reading) : Except ReadFault Config := do
  let s ← Cursor.initial.readLines 1 r.lines
  match r.fault with
  | some f => throw (.undecodable f)
  | none => if s.malformed = [] then return s.config.mapValues trimEnd else throw (.malformed s.malformed)

def ofBytes (bytes : Bytes) : Except ReadFault Config := ofReading (Text.readLines bytes)

end Config
end OverlaySugar
