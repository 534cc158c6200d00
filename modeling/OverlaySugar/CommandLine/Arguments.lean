import OverlaySugar.Text.Basic

/-!
# Command line arguments

What the command line prints about itself, and how its arguments are read.
Options come before the input. A long option may be shortened as long as it
is not ambiguous and takes its value after `=` or from the next argument;
short options may be joined. `--` ends the options.
-/

set_option autoImplicit false

namespace OverlaySugar.CommandLine
open Text

def version : String := "0.9.0"

def usageLines : List String :=
  ["Usage: dtsugar [OPTION] [<overlay dts>]",
   "  Convert a fragment@N/__overlay__ overlay source to the syntactic sugar form.",
   "  The overlay is read from standard input if no file (or \"-\") is given.",
   "",
   "  -f, --force         continue past illegal node names and missing targets",
   "    , --no-indent-fix keep the original indentation of converted nodes",
   "  -v, --verbose       report every warning and print a summary (specify twice for a line trace)",
   "  -o, --output        output file (default: standard output)",
   "    , --cfgfile       specify a dtsugar configuration file to use (configparser format) ",
   "    , --cfgval        specify a configuration value to use (in configparser section format). Can be specified multiple times",
   "  -h, --help          display this help and exit",
   "    , --version       output the version and exit",
   "",
   "Exit status:",
   "   0  no errors or warnings",
   "   1  invalid arguments or configuration",
   "   2  the input could not be read",
   "   3  warnings were reported",
   "  10  errors were reported (with --force)",
   "  11  illegal node name",
   "  12  __overlay__ node with no target",
   ""]

def usage : String := String.join (usageLines.map (· ++ "\n"))

inductive Switch
  | force | noIndentFix | verbose | help | version
  deriving DecidableEq, Repr

inductive Parameter
  | output | configFile | configValue
  deriving DecidableEq, Repr

inductive Setting
  | switch (s : Switch)
  | parameter (p : Parameter) (value : Text)
  deriving DecidableEq, Repr

abbrev Kind := Switch ⊕ Parameter

def longOptions : List (Text × Kind) :=
  [("force".toList, .inl .force), ("no-indent-fix".toList, .inl .noIndentFix),
   ("verbose".toList, .inl .verbose), ("help".toList, .inl .help), ("output".toList, .inr .output),
   ("cfgfile".toList, .inr .configFile), ("cfgval".toList, .inr .configValue),
   ("version".toList, .inl .version)]

def shortOptions : List (Char × Kind) :=
  [('f', .inl .force), ('v', .inl .verbose), ('h', .inl .help), ('o', .inr .output)]

inductive UsageFault
  | unknown (option : Text)
  | ambiguous (option : Text)
  | needsValue (option : Text)
  | takesNoValue (option : Text)
  deriving DecidableEq, Repr

def UsageFault.message : UsageFault → String
  | .unknown o => s!"option {String.ofList o} not recognized"
  | .ambiguous o => s!"option {String.ofList o} not a unique prefix"
  | .needsValue o => s!"option {String.ofList o} requires argument"
  | .takesNoValue o => s!"option {String.ofList o} must not have an argument"

def resolveLong (name : Text) : Except UsageFault (Text × Kind) :=
  match longOptions.lookup name, longOptions.filter fun (n, _) => name.isPrefixOf n with
  | some kind, _ => .ok (name, kind)
  | none, [] => .error (.unknown ("--".toList ++ name))
  | none, [option] => .ok option
  | none, _ => .error (.ambiguous ("--".toList ++ name))

structure Given where
  settings : List Setting
  waiting : Option (Parameter × Text)
  deriving DecidableEq, Repr

def readLong (body : Text) : Except UsageFault Given := do
  let (name, kind) ← resolveLong (body.takeWhile (· != '='))
  let spelled := "--".toList ++ name
  match kind, body.dropWhile (· != '=') with
  | .inl s, [] => return ⟨[.switch s], none⟩
  | .inl _, _ :: _ => throw (.takesNoValue spelled)
  | .inr p, [] => return ⟨[], some (p, spelled)⟩
  | .inr p, _ :: value => return ⟨[.parameter p value], none⟩

def readShort : Text → Except UsageFault Given
  | [] => .ok ⟨[], none⟩
  | c :: rest =>
    match shortOptions.lookup c, rest with
    | none, _ => .error (.unknown ['-', c])
    | some (.inl s), _ => do
      let r ← readShort rest
      return ⟨.switch s :: r.settings, r.waiting⟩
    | some (.inr p), [] => .ok ⟨[], some (p, ['-', c])⟩
    | some (.inr p), _ :: _ => .ok ⟨[.parameter p rest], none⟩

def readArgument : Text → Except UsageFault Given
  | '-' :: '-' :: body => readLong body
  | '-' :: letters => readShort letters
  | _ => .ok ⟨[], none⟩

def isOperand : Text → Bool
  | '-' :: _ :: _ => false
  | _ => true

structure Arguments where
  settings : List Setting
  operands : List Text
  deriving DecidableEq, Repr

def Arguments.after (settings : List Setting) (a : Arguments) : Arguments :=
  { a with settings := settings ++ a.settings }

def scan : List Text → Except UsageFault Arguments
  | [] => .ok ⟨[], []⟩
  | arg :: rest =>
    if isOperand arg then .ok ⟨[], arg :: rest⟩
    else if arg = "--".toList then .ok ⟨[], rest⟩
    else
      match readArgument arg, rest with
      | .error f, _ => .error f
      | .ok ⟨settings, none⟩, rest => (scan rest).map (.after settings)
      | .ok ⟨_, some (_, spelled)⟩, [] => .error (.needsValue spelled)
      | .ok ⟨settings, some (p, _)⟩, value :: rest =>
        (scan rest).map (.after (settings ++ [.parameter p value]))

namespace Arguments

def information? (a : Arguments) : Option Switch :=
  a.settings.findSome? fun
    | .switch .help => some .help
    | .switch .version => some .version
    | _ => none

def count (a : Arguments) (s : Switch) : Nat := a.settings.count (.switch s)

def has (a : Arguments) (s : Switch) : Bool := a.settings.contains (.switch s)

def values (a : Arguments) (p : Parameter) : List Text :=
  a.settings.filterMap fun
    | .parameter q v => if q = p then some v else none
    | _ => none

def last (a : Arguments) (p : Parameter) : Text := (a.values p).getLast?.getD []

end Arguments
end OverlaySugar.CommandLine
