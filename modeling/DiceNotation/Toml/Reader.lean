import DiceNotation.Toml.Value
import DiceNotation.Numeral
import DiceNotation.Text.Quoted
import DiceNotation.CallDepth

/-!
# Reading TOML

A TOML document is read statement by statement: blank lines, comments, key/value pairs, table
headers `[a.b]` and array-of-tables headers `[[a.b]]`.  A carriage return before a line feed is
dropped first.  The first fault stops the reading; it is reported with its reason and its
place, as line and column, or as the end of the document.

Namespaces carry two marks.  A table made by a header, or a table that dotted keys pass through,
is *explicit*: no later header may declare it again, and no dotted key of a later section may
pass through it.  An inline table or array is *frozen*, with everything in it: nothing may be
added to it later.  The marks that dotted keys leave take effect at the next header.

Every step of the reader takes a character of the text within at most four nested calls, so four
times the text's length bounds both the number of steps of every loop and the depth of nesting;
the reader carries that bound as fuel, and running out of it is unreachable.
-/

namespace DiceNotation

namespace Toml

/-- Why a TOML text cannot be read. -/
inductive Problem where
  | invalidStatement
  | expectedNewline
  | declaredTwice (key : List String)
  | overwrite
  | expectedTableEnd
  | immutable (key : List String)
  | expectedArrayTableEnd
  | redefined (key : List String)
  | expectedEquals
  | invalidKeyStart
  | unclosedArray
  | duplicateInlineKey (k : String)
  | unclosedInlineTable
  | unescapedBackslash
  | invalidHex
  | notScalar
  | expected (s : String)
  | invalidCharacter (c : Char)
  | unterminatedString
  | illegalCharacter (c : Char)
  | invalidDate
  | invalidValue
  deriving DecidableEq, Inhabited, Repr

/-- A key path written as a tuple of quoted parts: `('a',)`, `('a', 'b')`. -/
def keyText (key : List String) : String :=
  match key with
  | [k] => "(" ++ Text.quoted k ++ ",)"
  | _ => "(" ++ ", ".intercalate (key.map Text.quoted) ++ ")"

namespace Problem

def reason : Problem → String
  | invalidStatement => "Invalid statement"
  | expectedNewline => "Expected newline or end of document after a statement"
  | declaredTwice key => "Cannot declare " ++ keyText key ++ " twice"
  | overwrite => "Cannot overwrite a value"
  | expectedTableEnd => "Expected ']' at the end of a table declaration"
  | immutable key => "Cannot mutate immutable namespace " ++ keyText key
  | expectedArrayTableEnd => "Expected ']]' at the end of an array declaration"
  | redefined key => "Cannot redefine namespace " ++ keyText key
  | expectedEquals => "Expected '=' after a key in a key/value pair"
  | invalidKeyStart => "Invalid initial character for a key part"
  | unclosedArray => "Unclosed array"
  | duplicateInlineKey k => "Duplicate inline table key " ++ Text.quoted k
  | unclosedInlineTable => "Unclosed inline table"
  | unescapedBackslash => "Unescaped '\\' in a string"
  | invalidHex => "Invalid hex value"
  | notScalar => "Escaped character is not a Unicode scalar value"
  | expected s => "Expected " ++ Text.quoted s
  | invalidCharacter c => "Found invalid character " ++ Text.quoted c.toString
  | unterminatedString => "Unterminated string"
  | illegalCharacter c => "Illegal character " ++ Text.quoted c.toString
  | invalidDate => "Invalid date or datetime"
  | invalidValue => "Invalid value"

end Problem

/-- A fault met while reading: a problem at a position of the text, or an integer with more
digits than an integer may have. -/
inductive Fault where
  | at (p : Problem) (pos : Nat)
  | intTooLong (digits : Nat)
  | tooDeep (e : Entry)
  deriving DecidableEq, Inhabited, Repr

/-- Where a position lies: line and column, counted from one, or none past the end. -/
def coordinates (src : Array Char) (pos : Nat) : Option (Nat × Nat) :=
  if src.size ≤ pos then none else
  let before := (src.extract 0 pos).toList
  let line := before.count '\n' + 1
  let column := (before.reverse.takeWhile (· != '\n')).length + 1
  some (line, column)

/-- The message of a fault of reading `src`. -/
def Fault.message (src : Array Char) : Fault → String
  | .at p pos =>
    p.reason ++ " (at " ++
      (match coordinates src pos with
        | none => "end of document"
        | some (l, c) => "line " ++ toString l ++ ", column " ++ toString c) ++ ")"
  | .intTooLong n =>
    "Exceeds the limit (4300 digits) for integer string conversion: value has " ++ toString n ++
      " digits; use sys.set_int_max_str_digits() to increase the limit"
  | .tooDeep e => "maximum recursion depth exceeded" ++ e.suffix

/-- The two marks a namespace can carry. -/
inductive Mark where
  | frozen
  | explicit
  deriving DecidableEq, Inhabited, Repr

/-- A mark on a key path; a recursive one covers everything below the path too. -/
structure MarkEntry where
  path : List String
  mark : Mark
  recursive : Bool
  deriving Inhabited

/-- The marks of a document. -/
abbrev Marks := List MarkEntry

namespace Marks

/-- Whether a key path carries a mark: on itself, or recursively on a table above it.  The
document itself carries none. -/
def has (ms : Marks) (key : List String) (m : Mark) : Bool :=
  !key.isEmpty && ms.any fun e =>
    e.mark == m && (e.path == key ||
      (e.recursive && !e.path.isEmpty && e.path.length < key.length && e.path.isPrefixOf key))

/-- Adds a mark. -/
def add (ms : Marks) (key : List String) (m : Mark) (recursive : Bool) : Marks :=
  ms ++ [⟨key, m, recursive⟩]

/-- Removes every mark on a key path and below it. -/
def clear (ms : Marks) (key : List String) : Marks := ms.filter fun e => !key.isPrefixOf e.path

end Marks

/-- A document being read: its tables, its marks, and the marks waiting for the next header. -/
structure Doc where
  data : Table
  marks : Marks
  pending : List (List String)
  deriving Inhabited

/-- Whether a value is an array or a table, which freezes its namespace. -/
def Value.isContainer : Value → Bool
  | .array _ => true
  | .table _ => true
  | _ => false

section Reader

variable (src : Array Char)

/-- The text between two positions. -/
def slice (a b : Nat) : String := String.ofList (src.extract a b).toList

/-- The character at a position. -/
def charAt (pos : Nat) : Option Char := src[pos]?

/-- Whether the text at `pos` starts with `cs`. -/
def startsWithAt (pos : Nat) : List Char → Bool
  | [] => true
  | c :: cs => src[pos]? == some c && startsWithAt (pos + 1) cs

/-- The first position from `pos` on that is not in the class `p`. -/
def skipWhile (p : Char → Bool) (pos : Nat) : Nat :=
  if h : pos < src.size then (if p src[pos] then skipWhile p (pos + 1) else pos) else pos
termination_by src.size - pos

/-- The first position from `pos` on where `cs` starts. -/
def findFrom (cs : List Char) (pos : Nat) : Option Nat :=
  if pos < src.size then (if startsWithAt src pos cs then some pos else findFrom cs (pos + 1))
  else none
termination_by src.size - pos

/-- The first position in `[pos, stop)` holding a character of the class `p`. -/
def firstIn (p : Char → Bool) (pos stop : Nat) : Option Nat :=
  if pos < stop then
    match src[pos]? with
    | some c => if p c then some pos else firstIn p (pos + 1) stop
    | none => none
  else none
termination_by stop - pos

/-- Spaces and tabs. -/
def isBlank (c : Char) : Bool := c == ' ' || c == '\t'

/-- Spaces, tabs and line feeds. -/
def isBlankOrNewline (c : Char) : Bool := isBlank c || c == '\n'

/-- ASCII control characters and delete. -/
def isControl (c : Char) : Bool := c.toNat < 32 || c.toNat == 127

/-- Characters not allowed in a one-line string or a comment: controls other than tab. -/
def isIllegal (c : Char) : Bool := isControl c && c != '\t'

/-- Characters not allowed in a multi-line string: controls other than tab and line feed. -/
def isIllegalMultiline (c : Char) : Bool := isIllegal c && c != '\n'

/-- Characters of a bare key. -/
def isBareKeyChar (c : Char) : Bool := c.isAlphanum || c == '-' || c == '_'

/-- Skips to where `cs` starts, refusing a character of `bad` on the way; the end of the text
is refused when `mustFind` says so, and otherwise taken as the place. -/
def skipUntil (pos : Nat) (cs : List Char) (bad : Char → Bool) (mustFind : Bool) :
    Except Fault Nat :=
  match findFrom src cs pos with
  | none =>
    if mustFind then .error (.at (.expected (String.ofList cs)) src.size)
    else match firstIn src bad pos src.size with
      | some i => .error (.at (.invalidCharacter (src[i]?.getD ' ')) i)
      | none => .ok src.size
  | some e =>
    match firstIn src bad pos e with
    | some i => .error (.at (.invalidCharacter (src[i]?.getD ' ')) i)
    | none => .ok e

/-- Skips a comment, if one starts here. -/
def skipComment (pos : Nat) : Except Fault Nat :=
  if src[pos]? == some '#' then skipUntil src (pos + 1) ['\n'] isIllegal false else .ok pos

/-- Skips blanks, line feeds and comments, as between the elements of an array. -/
def skipArraySpace (pos : Nat) : Except Fault Nat :=
  let p := skipWhile src isBlankOrNewline pos
  match skipComment src p with
  | .error e => .error e
  | .ok q => if _h : pos < q ∧ q ≤ src.size then skipArraySpace q else .ok q
termination_by src.size - pos

/-- A literal string whose opening `'` is at `pos`: its end and its text. -/
def literalString (pos : Nat) : Except Fault (Nat × String) := do
  let e ← skipUntil src (pos + 1) ['\''] isIllegal true
  pure (e + 1, slice src (pos + 1) e)

/-- The value of hexadecimal digits. -/
def hexValue (cs : List Char) : Nat :=
  cs.foldl (fun acc c =>
    16 * acc + (if c.isDigit then c.toNat - 48 else if c.isLower then c.toNat - 87 else c.toNat - 55)) 0

/-- Whether a character is a hexadecimal digit. -/
def isHexDigit (c : Char) : Bool :=
  c.isDigit || ('a' ≤ c && c ≤ 'f') || ('A' ≤ c && c ≤ 'F')

/-- The character written by `n` hexadecimal digits at `pos`. -/
def hexChar (pos n : Nat) : Except Fault (Nat × String) :=
  let ds := (src.extract pos (pos + n)).toList
  if ds.length != n || !ds.all isHexDigit then .error (.at .invalidHex pos) else
  let v := hexValue ds
  if v ≤ 0xD7FF || (0xE000 ≤ v && v ≤ 0x10FFFF) then .ok (pos + n, (Char.ofNat v).toString)
  else .error (.at .notScalar (pos + n))

/-- The escape whose backslash is at `pos`: where it ends and what it stands for.  In a
multi-line string a backslash at the end of a line drops the line break and the blanks after. -/
def escape (multiline : Bool) (pos : Nat) : Except Fault (Nat × String) :=
  let p := pos + 2
  match src[pos + 1]? with
  | none => .error (.at .unescapedBackslash p)
  | some c =>
    if multiline && (c == ' ' || c == '\t') then
      let q := skipWhile src isBlank p
      match src[q]? with
      | none => .ok (q, "")
      | some '\n' => .ok (skipWhile src isBlankOrNewline (q + 1), "")
      | some _ => .error (.at .unescapedBackslash q)
    else if multiline && c == '\n' then .ok (skipWhile src isBlankOrNewline p, "")
    else match c with
      | 'u' => hexChar src p 4
      | 'U' => hexChar src p 8
      | 'b' => .ok (p, "\x08")
      | 't' => .ok (p, "\t")
      | 'n' => .ok (p, "\n")
      | 'f' => .ok (p, "\x0c")
      | 'r' => .ok (p, "\r")
      | '"' => .ok (p, "\"")
      | '\\' => .ok (p, "\\")
      | _ => .error (.at .unescapedBackslash p)

/-- The rest of a basic string from `pos`, its text so far being `acc` and the text from
`start` to `pos`: where it ends and its text. -/
def basicString (multiline : Bool) : Nat → Nat → Nat → String → Except Fault (Nat × String)
  | 0, pos, _, _ => .error (.at .unterminatedString pos)
  | fuel + 1, pos, start, acc =>
    match src[pos]? with
    | none => .error (.at .unterminatedString pos)
    | some '"' =>
      if !multiline then .ok (pos + 1, acc ++ slice src start pos)
      else if startsWithAt src pos ['"', '"', '"'] then .ok (pos + 3, acc ++ slice src start pos)
      else basicString multiline fuel (pos + 1) start acc
    | some '\\' =>
      match escape src multiline pos with
      | .error e => .error e
      | .ok (q, s) => basicString multiline fuel q q (acc ++ slice src start pos ++ s)
    | some c =>
      if (if multiline then isIllegalMultiline c else isIllegal c) then
        .error (.at (.illegalCharacter c) pos)
      else basicString multiline fuel (pos + 1) start acc

/-- A multi-line string whose opening quotes are at `pos`.  A line break right after them is
dropped, and up to two quotes before the closing three belong to the text. -/
def multilineString (fuel : Nat) (literal : Bool) (pos : Nat) : Except Fault (Nat × String) := do
  let p := pos + 3
  let p := if src[p]? == some '\n' then p + 1 else p
  let (q, body) ← if literal then do
      let e ← skipUntil src p ['\'', '\'', '\''] isIllegalMultiline true
      pure (e + 3, slice src p e)
    else basicString src true fuel p p ""
  let d := if literal then '\'' else '"'
  if src[q]? != some d then pure (q, body)
  else if src[q + 1]? != some d then pure (q + 1, body.push d)
  else pure (q + 2, (body.push d).push d)

/-- One part of a key: bare, literal or basic. -/
def keyPart (fuel : Nat) (pos : Nat) : Except Fault (Nat × String) :=
  match src[pos]? with
  | some c =>
    if isBareKeyChar c then
      let e := skipWhile src isBareKeyChar pos
      .ok (e, slice src pos e)
    else if c == '\'' then literalString src pos
    else if c == '"' then basicString src false fuel (pos + 1) (pos + 1) ""
    else .error (.at .invalidKeyStart pos)
  | none => .error (.at .invalidKeyStart pos)

/-- A key of dotted parts, blanks allowed around the dots; `acc` holds the parts so far. -/
def keyRest : Nat → Nat → List String → Except Fault (Nat × List String)
  | 0, pos, acc => .ok (pos, acc)
  | fuel + 1, pos, acc =>
    if src[pos]? != some '.' then .ok (pos, acc) else
    let p := skipWhile src isBlank (pos + 1)
    match keyPart src fuel p with
    | .error e => .error e
    | .ok (q, part) => keyRest fuel (skipWhile src isBlank q) (acc ++ [part])

/-- A key. -/
def key (fuel : Nat) (pos : Nat) : Except Fault (Nat × List String) := do
  let (p, part) ← keyPart src fuel pos
  keyRest src fuel (skipWhile src isBlank p) [part]

/-- A run of digits of the class `d` with single underscores between them, from `pos`: its
end. -/
def digitRun (d : Char → Bool) (pos : Nat) : Option Nat :=
  match src[pos]? with
  | some c => if d c then some (go (pos + 1)) else none
  | none => none
where
  go (p : Nat) : Nat :=
    if h : p < src.size then
      if d src[p] then go (p + 1)
      else if src[p] == '_' && (src[p + 1]?.map d).getD false then go (p + 2)
      else p
    else p
  termination_by src.size - p

/-- A number at `pos`: its end, and whether it is a float. -/
def matchNumber (pos : Nat) : Option (Nat × Bool) :=
  let based : Option Nat :=
    if src[pos]? == some '0' then
      match src[pos + 1]? with
      | some 'x' => digitRun src isHexDigit (pos + 2)
      | some 'b' => digitRun src (fun c => c == '0' || c == '1') (pos + 2)
      | some 'o' => digitRun src (fun c => '0' ≤ c && c ≤ '7') (pos + 2)
      | _ => none
    else none
  match based with
  | some e => some (e, false)
  | none =>
    let p := if src[pos]? == some '+' || src[pos]? == some '-' then pos + 1 else pos
    let whole : Option Nat :=
      if src[p]? == some '0' then some (p + 1)
      else if (src[p]?.map fun c => '1' ≤ c && c ≤ '9').getD false then digitRun src Char.isDigit p
      else none
    whole.map fun w =>
      let f := if src[w]? == some '.' then (digitRun src Char.isDigit (w + 1)).getD w else w
      let x :=
        if src[f]? == some 'e' || src[f]? == some 'E' then
          let q := if src[f + 1]? == some '+' || src[f + 1]? == some '-' then f + 2 else f + 1
          (digitRun src Char.isDigit q).getD f
        else f
      (x, w < x)

/-- Whether the characters at `pos` are `n` digits. -/
def digitsAt (pos n : Nat) : Bool := (List.range n).all fun i => (src[pos + i]?.map Char.isDigit).getD false

/-- The value of `n` digits at `pos`. -/
def digitsValueAt (pos n : Nat) : Nat := Numeral.digitsValue (src.extract pos (pos + n)).toList

/-- Two digits at `pos` whose value is at most `hi`. -/
def twoDigitsUpTo (pos hi : Nat) : Bool := digitsAt src pos 2 && digitsValueAt src pos 2 ≤ hi

/-- A time `hh:mm:ss` with optional fraction at `pos`: its end. -/
def matchTime (pos : Nat) : Option Nat :=
  if twoDigitsUpTo src pos 23 && src[pos + 2]? == some ':' && twoDigitsUpTo src (pos + 3) 59 &&
      src[pos + 5]? == some ':' && twoDigitsUpTo src (pos + 6) 59 then
    let p := pos + 8
    if src[p]? == some '.' && digitsAt src (p + 1) 1 then some (skipWhile src Char.isDigit (p + 1))
    else some p
  else none

/-- The number of days of a month. -/
def daysIn (year month : Nat) : Nat :=
  if month == 2 then
    (if year % 4 == 0 && (year % 100 != 0 || year % 400 == 0) then 29 else 28)
  else if month == 4 || month == 6 || month == 9 || month == 11 then 30 else 31

/-- A date with optional time and offset at `pos`: its end, and whether the date exists. -/
def matchDateTime (pos : Nat) : Option (Nat × Bool) :=
  if digitsAt src pos 4 && src[pos + 4]? == some '-' && digitsAt src (pos + 5) 2 &&
      src[pos + 7]? == some '-' && digitsAt src (pos + 8) 2 then
    let year := digitsValueAt src pos 4
    let month := digitsValueAt src (pos + 5) 2
    let day := digitsValueAt src (pos + 8) 2
    if month < 1 || 12 < month || day < 1 || 31 < day then none else
    let valid := 1 ≤ year && day ≤ daysIn year month
    let dateEnd := pos + 10
    let sep := src[dateEnd]? == some 'T' || src[dateEnd]? == some 't' || src[dateEnd]? == some ' '
    match (if sep then matchTime src (dateEnd + 1) else none) with
    | none => some (dateEnd, valid)
    | some t =>
      if src[t]? == some 'Z' || src[t]? == some 'z' then some (t + 1, valid)
      else if (src[t]? == some '+' || src[t]? == some '-') && twoDigitsUpTo src (t + 1) 23 &&
          src[t + 3]? == some ':' && twoDigitsUpTo src (t + 4) 59 then some (t + 6, valid)
      else some (t, valid)
  else none

/-- The value of an integer as written: optional sign, `0x`, `0o` or `0b` prefix, digits and
underscores. -/
def intValue (text : List Char) : Except Fault Int :=
  let (neg, body) := match text with
    | '-' :: rest => (true, rest)
    | '+' :: rest => (false, rest)
    | cs => (false, cs)
  let clean (cs : List Char) := cs.filter (· != '_')
  let v : Except Fault Nat := match body with
    | '0' :: 'x' :: ds => .ok (hexValue (clean ds))
    | '0' :: 'o' :: ds => .ok ((clean ds).foldl (fun a c => 8 * a + (c.toNat - 48)) 0)
    | '0' :: 'b' :: ds => .ok ((clean ds).foldl (fun a c => 2 * a + (c.toNat - 48)) 0)
    | ds =>
      let ds := clean ds
      if 4300 < ds.length then .error (.intTooLong ds.length) else .ok (Numeral.digitsValue ds)
  v.map fun n => if neg then -(n : Int) else n

/-- Takes the steps of an excursion from a frame at level `d`: the first step past the call
depth limit is a fault. -/
def reach (d : Nat) (x : Excursion) : Except Fault Unit :=
  match x.firstPast d with
  | some e => .error (.tooDeep e)
  | none => .ok ()

/-- Skipping blanks and comments between the elements of an array: a frame, with the skipping of
blanks and of a comment each in a frame of its own. -/
def arraySpaceSteps : Excursion := [(1, .frame), (2, .frame)]

/-- What reading a date, a time, a number or a special float at `pos` does in the value's
frame: a match is converted in a frame of its own that reads the match's groups, and a special
float is converted and checked against the containers in a frame of its own. -/
def scalarSteps (pos : Nat) : Excursion :=
  if (matchDateTime src pos).isSome || (matchTime src pos).isSome || (matchNumber src pos).isSome
  then [(1, .frame), (2, .call)]
  else if ["inf", "nan"].contains (slice src pos (pos + 3)) ||
    ["-inf", "+inf", "-nan", "+nan"].contains (slice src pos (pos + 4))
  then [(1, .frame), (2, .instanceCheck)]
  else []

/-- What reading a value at `pos` that holds no other value does in the value's frame: a string
is told by a prefix test and read in frames of its own, a literal one searching for its closing
quote through a call; a truth value is told by a prefix test.  At the end of the text the missing
character is compared in full before the fault is built. -/
def leafSteps (pos : Nat) : Excursion :=
  match src[pos]? with
  | some '"' =>
    if startsWithAt src pos ['"', '"', '"'] then [(1, .call), (1, .frame), (2, .call), (2, .frame)]
    else [(1, .call), (1, .frame), (2, .frame)]
  | some '\'' =>
    if startsWithAt src pos ['\'', '\'', '\''] then
      [(1, .call), (1, .frame), (2, .call), (2, .frame), (3, .call)]
    else [(1, .call), (1, .frame), (2, .frame), (3, .call)]
  | some 't' => (1, .call) :: (if startsWithAt src pos "true".toList then [] else scalarSteps src pos)
  | some 'f' =>
    (1, .call) :: (if startsWithAt src pos "false".toList then [] else scalarSteps src pos)
  | some _ => scalarSteps src pos
  | none => [(1, .comparison)]

/-- What reading a key at `pos` does in the frame of the pair it starts: the key and its first
part are read in frames of their own, where a bare part is skipped in one more frame, a literal
part is searched for its closing quote through a call, and a basic part is read in two more
frames. -/
def keySteps (pos : Nat) : Excursion :=
  [(1, .frame), (2, .frame)] ++
    match src[pos]? with
    | some '\'' => [(3, .frame), (4, .frame), (5, .call)]
    | some '"' => [(3, .frame), (4, .frame)]
    | _ => [(3, .frame)]

/-- Building the fault of a problem at `pos`: a frame of its own describes the place in one
more frame, counting lines through calls when the place lies inside the text, and then calls
the class of the fault. -/
def faultSteps (pos : Nat) : Excursion :=
  [(1, .frame), (2, .frame)] ++ (if pos < src.size then [(3, .call)] else []) ++ [(2, .call)]

/-- Whether the message of a problem shows a piece of text by its representation, which is
taken before the fault is built. -/
def Problem.showsText : Problem → Bool
  | .expected _ | .invalidCharacter _ | .illegalCharacter _ | .duplicateInlineKey _ => true
  | _ => false

/-- A result whose fault, if it has one, is built `k` levels above the frame at level `d`. -/
def raisedFrom {α : Type} (d k : Nat) : Except Fault α → Except Fault α
  | .error (.at p pos) => do
    reach d ((((if p.showsText then [(1, .reprOf)] else []) : Excursion) ++ faultSteps src pos).lift k)
    .error (.at p pos)
  | r => r

mutual

/-- A value at `pos`, read in a frame at level `d`: its end and the value.  An array or an
inline table is read one level further down. -/
def value : Nat → Nat → Nat → Except Fault (Nat × Value)
  | 0, _, pos => .error (.at .invalidValue pos)
  | fuel + 1, d, pos => do
    reach d [(0, .frame)]
    match src[pos]? with
    | some '[' => array fuel (d + 1) (pos + 1)
    | some '{' => inlineTable fuel (d + 1) (pos + 1)
    | c =>
      reach d (leafSteps src pos)
      match c with
      | some '"' =>
        raisedFrom src d 2 <|
          if startsWithAt src pos ['"', '"', '"'] then
            (multilineString src fuel false pos).map fun (p, s) => (p, .text s)
          else (basicString src false fuel (pos + 1) (pos + 1) "").map fun (p, s) => (p, .text s)
      | some '\'' =>
        raisedFrom src d 2 <|
          if startsWithAt src pos ['\'', '\'', '\''] then
            (multilineString src fuel true pos).map fun (p, s) => (p, .text s)
          else (literalString src pos).map fun (p, s) => (p, .text s)
      | _ =>
        if startsWithAt src pos "true".toList then .ok (pos + 4, .bool true)
        else if startsWithAt src pos "false".toList then .ok (pos + 5, .bool false)
        else raisedFrom src d 0 (scalar pos)

/-- A date, time, number or special float at `pos`. -/
def scalar (pos : Nat) : Except Fault (Nat × Value) :=
  match matchDateTime src pos with
  | some (e, valid) =>
    if valid then .ok (e, .moment (slice src pos e)) else .error (.at .invalidDate pos)
  | none =>
  match matchTime src pos with
  | some e => .ok (e, .moment (slice src pos e))
  | none =>
  match matchNumber src pos with
  | some (e, isFloat) =>
    let text := slice src pos e
    if isFloat then .ok (e, .float ((Numeral.readFloat? text).getD .nan))
    else (intValue text.toList).map fun n => (e, .int n)
  | none =>
    let three := slice src pos (pos + 3)
    let four := slice src pos (pos + 4)
    if three == "inf" || three == "nan" then .ok (pos + 3, .float ((Numeral.readFloat? three).getD .nan))
    else if four == "-inf" || four == "+inf" || four == "-nan" || four == "+nan" then
      .ok (pos + 4, .float ((Numeral.readFloat? four).getD .nan))
    else .error (.at .invalidValue pos)

/-- An array whose `[` is just before `pos`, read in a frame at level `d`; its elements are
read one level further down. -/
def array : Nat → Nat → Nat → Except Fault (Nat × Value)
  | 0, _, pos => .error (.at .unclosedArray pos)
  | fuel + 1, d, pos => do
    reach d ((0, .frame) :: arraySpaceSteps)
    let p ← raisedFrom src d 3 (skipArraySpace src pos)
    reach d [(1, .call)]
    if src[p]? == some ']' then pure (p + 1, .array []) else arrayItems fuel d p []

/-- The elements of an array from `pos`, after the elements `acc`, in the array's frame at
level `d`. -/
def arrayItems : Nat → Nat → Nat → List Value → Except Fault (Nat × Value)
  | 0, _, pos, _ => .error (.at .unclosedArray pos)
  | fuel + 1, d, pos, acc => do
    let (p, v) ← value fuel (d + 1) pos
    let acc := acc ++ [v]
    reach d arraySpaceSteps
    let p ← raisedFrom src d 3 (skipArraySpace src p)
    match src[p]? with
    | some ']' => pure (p + 1, .array acc)
    | some ',' =>
      reach d arraySpaceSteps
      let q ← raisedFrom src d 3 (skipArraySpace src (p + 1))
      reach d [(1, .call)]
      if src[q]? == some ']' then pure (q + 1, .array acc) else arrayItems fuel d q acc
    | _ => raisedFrom src d 0 (.error (.at .unclosedArray p))

/-- A key, `=`, and a value, at `pos`, read in a frame at level `d`: the key is read two frames
up, and the value one level further down. -/
def keyValue : Nat → Nat → Nat → Except Fault (Nat × List String × Value)
  | 0, _, pos => .error (.at .invalidValue pos)
  | fuel + 1, d, pos => do
    reach d ((0, .frame) :: keySteps src pos)
    let (p, k) ← raisedFrom src d 2 (key src fuel pos)
    if src[p]? != some '=' then raisedFrom src d 0 (.error (.at .expectedEquals p)) else
    reach d [(1, .frame)]
    let (q, v) ← value fuel (d + 1) (skipWhile src isBlank (p + 1))
    pure (q, k, v)

/-- An inline table whose `{` is just before `pos`, read in a frame at level `d`, after setting
up its table and its marks; its pairs are read one level further down. -/
def inlineTable : Nat → Nat → Nat → Except Fault (Nat × Value)
  | 0, _, pos => .error (.at .unclosedInlineTable pos)
  | fuel + 1, d, pos => do
    reach d [(0, .frame), (1, .call), (2, .frame), (1, .frame), (1, .call)]
    let p := skipWhile src isBlank pos
    if src[p]? == some '}' then pure (p + 1, .table []) else inlineItems fuel d p [] []

/-- The pairs of an inline table from `pos`, after the table `t` with marks `ms`, in the
table's frame at level `d`. -/
def inlineItems : Nat → Nat → Nat → Table → Marks → Except Fault (Nat × Value)
  | 0, _, pos, _, _ => .error (.at .unclosedInlineTable pos)
  | fuel + 1, d, pos, t, ms => do
    let (p, k, v) ← keyValue fuel (d + 1) pos
    let stem := k.getLast?.getD ""
    reach d [(1, .frame)]
    if ms.has k .frozen then raisedFrom src d 0 (.error (.at (.immutable k) p)) else
    reach d [(1, .frame)]
    let t ← raisedFrom src d 0 <| Table.modifyAt false (fun nest =>
      if nest.has stem then .error (.at (.duplicateInlineKey stem) p) else .ok (nest.set stem v))
      (.at .overwrite p) k.dropLast t
    let p := skipWhile src isBlank p
    match src[p]? with
    | some '}' => pure (p + 1, .table t)
    | some ',' =>
      reach d [(1, .instanceCheck)]
      let ms := if v.isContainer then ms.add k .frozen true else ms
      inlineItems fuel d (skipWhile src isBlank (p + 1)) t ms
    | _ => raisedFrom src d 0 (.error (.at .unclosedInlineTable p))

end

/-- A key/value statement at `pos` under the header `header`, read in a frame at level `d`;
the pair is read one level further down. -/
def keyValueRule (fuel d pos : Nat) (header : List String) (doc : Doc) :
    Except Fault (Nat × Doc) := do
  reach d [(0, .frame)]
  let (p, k, v) ← keyValue src fuel (d + 1) pos
  let stem := k.getLast?.getD ""
  let parent := header ++ k.dropLast
  let passed := (List.range (k.length - 1)).map fun i => header ++ k.take (i + 1)
  match passed.find? fun c => doc.marks.has c .explicit with
  | some c => .error (.at (.redefined c) p)
  | none =>
  if doc.marks.has parent .frozen then .error (.at (.immutable parent) p) else
  let data ← Table.modifyAt true (fun nest =>
    if nest.has stem then .error (.at .overwrite p) else .ok (nest.set stem v))
    (.at .overwrite p) parent doc.data
  let marks := if v.isContainer then doc.marks.add (header ++ k) .frozen true else doc.marks
  pure (p, { data := data, marks := marks, pending := doc.pending ++ passed })

/-- A table header `[key]` at `pos`. -/
def tableRule (fuel pos : Nat) (doc : Doc) : Except Fault (Nat × List String × Doc) := do
  let (p, k) ← key src fuel (skipWhile src isBlank (pos + 1))
  if doc.marks.has k .explicit || doc.marks.has k .frozen then .error (.at (.declaredTwice k) p) else
  let marks := doc.marks.add k .explicit false
  let data ← Table.modifyAt true .ok (.at .overwrite p) k doc.data
  if src[p]? != some ']' then .error (.at .expectedTableEnd p) else
  pure (p + 1, k, { doc with data := data, marks := marks })

/-- An array-of-tables header `[[key]]` at `pos`. -/
def arrayTableRule (fuel pos : Nat) (doc : Doc) : Except Fault (Nat × List String × Doc) := do
  let (p, k) ← key src fuel (skipWhile src isBlank (pos + 2))
  if doc.marks.has k .frozen then .error (.at (.immutable k) p) else
  let marks := (doc.marks.clear k).add k .explicit false
  let stem := k.getLast?.getD ""
  let data ← Table.modifyAt true (fun cont =>
    match cont.get? stem with
    | some (.array xs) => .ok (cont.set stem (.array (xs ++ [.table []])))
    | some _ => .error (.at .overwrite p)
    | none => .ok (cont.set stem (.array [.table []]))) (.at .overwrite p) k.dropLast doc.data
  if !startsWithAt src p [']', ']'] then .error (.at .expectedArrayTableEnd p) else
  pure (p + 2, k, { doc with data := data, marks := marks })

/-- The marks left by dotted keys take effect. -/
def Doc.settle (doc : Doc) : Doc :=
  { doc with marks := doc.pending.foldl (fun ms k => ms.add k .explicit false) doc.marks,
             pending := [] }

/-- The statements from `pos` on, under the header `header`, read in a frame at level `d`; a
key/value statement is read one level further down. -/
def statements (d : Nat) : Nat → Nat → List String → Doc → Except Fault Doc
  | 0, _, _, doc => .ok doc
  | fuel + 1, pos, header, doc =>
    let p := skipWhile src isBlank pos
    match src[p]? with
    | none => .ok doc
    | some '\n' => statements d fuel (p + 1) header doc
    | some c =>
      let stmt : Except Fault (Nat × List String × Doc) :=
        if isBareKeyChar c || c == '"' || c == '\'' then
          (keyValueRule src fuel (d + 1) p header doc).map fun (q, d) => (skipWhile src isBlank q, header, d)
        else if c == '[' then
          let doc := doc.settle
          let r := if src[p + 1]? == some '[' then arrayTableRule src fuel p doc
            else tableRule src fuel p doc
          r.map fun (q, h, d) => (skipWhile src isBlank q, h, d)
        else if c == '#' then .ok (p, header, doc)
        else .error (.at .invalidStatement p)
      match stmt with
      | .error e => .error e
      | .ok (q, header, doc) =>
        match skipComment src q with
        | .error e => .error e
        | .ok q =>
          match src[q]? with
          | none => .ok doc
          | some '\n' => statements d fuel (q + 1) header doc
          | some _ => .error (.at .expectedNewline q)

end Reader

/-- Line breaks `\r\n` become `\n`. -/
def normalizeNewlines : List Char → List Char
  | '\r' :: '\n' :: rest => '\n' :: normalizeNewlines rest
  | c :: rest => c :: normalizeNewlines rest
  | [] => []

/-- Reads a TOML document in a frame at level `d`: its top-level table, or the fault and the
text it refers to. -/
def read (d : Nat) (text : String) : Except (Fault × Array Char) Table :=
  let src := (normalizeNewlines text.toList).toArray
  match statements src d (4 * src.size + 16) 0 [] ⟨[], [], []⟩ with
  | .ok doc => .ok doc.data
  | .error e => .error (e, src)

end Toml

end DiceNotation
