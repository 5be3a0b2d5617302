import DiceNotation.Toml.Reader

/-!
# Settings

The settings file is a TOML document with three optional tables:

* `[display]` with `show_rolls`, a truth value (default true);
* `[logging]` with `level`, the name of a log level in any case (default `WARNING`);
* `[variables]`, names bound to integers or floats.

Other keys are ignored.  Values are accepted leniently: a truth value may be written as the
integer or float `0` or `1` or as one of the words `0 1 f t n y no on off yes true false` in any
case; a variable may be an integer, a float, a truth value (as `0` or `1`), or a text that reads
as an integer or else as a float.  Validation goes through every field and reports every
problem, each as the path of its place and the kind of problem.
-/

-- Powers of numbers are core's, also in a file where Mathlib is in scope, so that each
-- definition below is the same term wherever it is read.
attribute [local instance (high)] instPowNat

namespace DiceNotation

/-- The settings of the command line. -/
structure Settings where
  /-- Whether `roll` prints the table of rolls. -/
  showRolls : Bool
  /-- The log level, in upper case. -/
  level : String
  /-- The values of the `[variables]` table, in order. -/
  named : List (String × Number)
  deriving Inhabited

namespace Settings

/-- The settings when there is no file. -/
def defaults : Settings := ⟨true, "WARNING", []⟩

/-- The kinds of problems validation reports. -/
inductive IssueKind where
  | boolParsing
  | boolType
  | stringType
  | valueError
  | intType
  | intParsing
  | floatType
  | floatParsing
  | modelType
  | dictType
  deriving DecidableEq, Inhabited, Repr

/-- The name of a kind of problem. -/
def IssueKind.name : IssueKind → String
  | .boolParsing => "bool_parsing"
  | .boolType => "bool_type"
  | .stringType => "string_type"
  | .valueError => "value_error"
  | .intType => "int_type"
  | .intParsing => "int_parsing"
  | .floatType => "float_type"
  | .floatParsing => "float_parsing"
  | .modelType => "model_type"
  | .dictType => "dict_type"

/-- A problem found by validation, at a path of keys. -/
structure Issue where
  path : List String
  kind : IssueKind
  deriving DecidableEq, Inhabited, Repr

/-- An issue as `path.to.place: kind`. -/
def Issue.text (i : Issue) : String := ".".intercalate i.path ++ ": " ++ i.kind.name

/-- The summary of several issues. -/
def issuesText (is : List Issue) : String := "; ".intercalate (is.map Issue.text)

/-- White space at the ends of texts read as numbers: the Unicode `White_Space` characters. -/
def isTrimmed (c : Char) : Bool := Text.isBlank c && !(0x1C ≤ c.toNat && c.toNat ≤ 0x1F)

/-- A text without white space at both ends. -/
def trim (s : String) : List Char :=
  ((s.toList.dropWhile isTrimmed).reverse.dropWhile isTrimmed).reverse

/-- Whether a text equals an ASCII word, ignoring the case of ASCII letters. -/
def sameWord (s w : String) : Bool := s.toList.map Char.toLower == w.toList

/-- A truth value written as a word or digit. -/
def boolOfText? (s : String) : Option Bool :=
  if s == "0" || ["f", "n", "no", "off", "false"].any (sameWord s) then some false
  else if s == "1" || ["t", "y", "on", "yes", "true"].any (sameWord s) then some true
  else none

/-- Whether an integer lies in the 64-bit signed range. -/
def inWordRange (n : Int) : Bool := -(2 ^ (63 : Nat)) ≤ n && n < 2 ^ (63 : Nat)

/-- A truth value given as an integer: zero or one; other integers of the 64-bit range are
misread truth values, and the integers beyond it are not truth values at all. -/
def intBool (n : Int) : Except IssueKind Bool :=
  if n = 0 then .ok false else if n = 1 then .ok true
  else if inWordRange n then .error .boolParsing else .error .boolType

/-- Validates a truth value.  A float counts as the integer it equals, strictly inside the
64-bit range. -/
def boolOf (v : Toml.Value) : Except IssueKind Bool :=
  match v with
  | .bool b => .ok b
  | .text s => (boolOfText? s).elim (.error .boolParsing) .ok
  | .int n => intBool n
  | .float x =>
    match x.floor? with
    | some n => if x.isInteger && -(2 ^ (63 : Nat)) < n then intBool n else .error .boolType
    | none => .error .boolType
  | _ => .error .boolType

/-- Upper case as far as log level names need it: ASCII letters, and the characters whose
upper case is ASCII. -/
def upperChar (c : Char) : List Char :=
  match c.toNat with
  | 0xDF => ['S', 'S']
  | 0x131 => ['I']
  | 0x17F => ['S']
  | 0xFB00 => ['F', 'F']
  | 0xFB01 => ['F', 'I']
  | 0xFB02 => ['F', 'L']
  | 0xFB03 => ['F', 'F', 'I']
  | 0xFB04 => ['F', 'F', 'L']
  | 0xFB05 => ['S', 'T']
  | 0xFB06 => ['S', 'T']
  | _ => [c.toUpper]

/-- The names of the log levels. -/
def levelNames : List String :=
  ["CRITICAL", "FATAL", "ERROR", "WARN", "WARNING", "INFO", "DEBUG", "NOTSET"]

/-- Validates a log level: its upper case must name a level. -/
def levelOf (v : Toml.Value) : Except IssueKind String :=
  match v with
  | .text s =>
    let up := String.ofList (s.toList.flatMap upperChar)
    if levelNames.contains up then .ok up else .error .valueError
  | _ => .error .stringType

/-- Underscores may group the characters of a number written in a text, but not start or end it
and not come two in a row; then they are dropped. -/
def dropGrouping (t : List Char) : Option (List Char) :=
  if t.head? == some '_' || t.getLast? == some '_' || (t.zip t.tail).any (· == ('_', '_')) then
    none
  else some (t.filter (· != '_'))

/-- A text without a point and the zeros after the last point, if nothing else follows it. -/
def dropZeroFraction (t : List Char) : List Char :=
  match (t.reverse.dropWhile (· == '0')) with
  | '.' :: rest => rest.reverse
  | _ => t

/-- An integer written in a text: optional sign and ASCII digits, perhaps followed by a point
and zeros.  At most 4300 digits may follow the leading zeros. -/
def intOfText? (s : String) : Option Int :=
  (dropGrouping (trim s)).bind fun t =>
  let (neg, ds) := match dropZeroFraction t with
    | '-' :: rest => (true, rest)
    | '+' :: rest => (false, rest)
    | cs => (false, cs)
  if ds.isEmpty || !ds.all Char.isDigit || 4300 < (ds.dropWhile (· == '0')).length then none
  else
    let n := Numeral.digitsValue ds
    some (if neg then -(n : Int) else n)

/-- A float written in a text: optional sign, then `inf`, `infinity` or `nan` in any case, or
digits with optional point and exponent. -/
def floatOfText? (s : String) : Option Binary64 :=
  (dropGrouping (trim s)).bind fun t =>
  if t.any (fun c => 127 < c.toNat || Numeral.isAsciiSpace c) then none
  else Numeral.readFloat? (String.ofList t)

/-- Validates a variable: an integer, else a float; each alternative reports its own issue. -/
def numberOf (v : Toml.Value) : Except (IssueKind × IssueKind) Number :=
  match v with
  | .int n => .ok (.int n)
  | .float x => .ok (.float x)
  | .bool b => .ok (.int (if b then 1 else 0))
  | .text s =>
    match intOfText? s with
    | some n => .ok (.int n)
    | none =>
      match floatOfText? s with
      | some x => .ok (.float x)
      | none => .error (.intParsing, .floatParsing)
  | _ => .error (.intType, .floatType)

/-- A field of a table validated at a path, with the default when it is missing. -/
def field {α : Type} (t : Toml.Table) (path : List String) (k : String) (dflt : α)
    (check : Toml.Value → Except IssueKind α) : α × List Issue :=
  match t.get? k with
  | none => (dflt, [])
  | some v =>
    match check v with
    | .ok a => (a, [])
    | .error kind => (dflt, [⟨path ++ [k], kind⟩])

/-- A table of the document validated by `inner`, or the issue that it is no table. -/
def tableField {α : Type} (doc : Toml.Table) (k : String) (dflt : α) (kind : IssueKind)
    (inner : Toml.Table → α × List Issue) : α × List Issue :=
  match doc.get? k with
  | none => (dflt, [])
  | some (.table t) => inner t
  | some _ => (dflt, [⟨[k], kind⟩])

/-- The variables of a `[variables]` table, validated one by one in order. -/
def variablesOf (t : Toml.Table) : List (String × Number) × List Issue :=
  t.foldl (fun (acc : List (String × Number) × List Issue) (k, v) =>
    match numberOf v with
    | .ok n => (acc.1 ++ [(k, n)], acc.2)
    | .error (a, b) =>
      (acc.1, acc.2 ++ [⟨["variables", k, "int"], a⟩, ⟨["variables", k, "float"], b⟩])) ([], [])

/-- Validates a settings document. -/
def ofTable (doc : Toml.Table) : Except (List Issue) Settings :=
  let (showRolls, i1) := tableField doc "display" true .modelType fun t =>
    field t ["display"] "show_rolls" true boolOf
  let (level, i2) := tableField doc "logging" "WARNING" .modelType fun t =>
    field t ["logging"] "level" "WARNING" levelOf
  let (vars, i3) := tableField doc "variables" [] .dictType variablesOf
  let issues := i1 ++ i2 ++ i3
  if issues.isEmpty then .ok ⟨showRolls, level, vars⟩ else .error issues

/-- Why settings cannot be loaded. -/
inductive LoadError where
  | unreadable (f : Toml.Fault) (src : Array Char)
  | invalid (issues : List Issue)

/-- The message of a load error. -/
def LoadError.message : LoadError → String
  | .unreadable f src => f.message src
  | .invalid is => issuesText is

/-- The name of the kind of error a load error is reported as. -/
def LoadError.className : LoadError → String
  | .unreadable (.at _ _) _ => "TOMLDecodeError"
  | .unreadable (.intTooLong _) _ => "ValueError"
  | .unreadable (.tooDeep _) _ => "RecursionError"
  | .invalid _ => "ValidationError"

/-- Loads settings from the text of a settings file, read in a frame at level `d`; no file gives
the defaults. -/
def load (d : Nat) (text : Option String) : Except LoadError Settings :=
  match text with
  | none => .ok defaults
  | some t =>
    match Toml.read d t with
    | .error (f, src) => .error (.unreadable f src)
    | .ok doc => (ofTable doc).mapError .invalid

end Settings

end DiceNotation
