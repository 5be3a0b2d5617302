import DiceNotation.ParseError
import DiceNotation.Text.Blank

/-!
# Scanning text into tokens

Blanks between tokens are skipped.  At each position the first of these patterns that matches
gives the token; the character classes are ASCII:

* a **name**: a letter, `_` or `$`, then letters, digits, `_`, `$` and `.`;
* a **roll**: digits, `d`, digits, and an optional keep letter `h` or `l`;
* a **number**: an optional `-`, digits, and an optional `.` followed by digits;
* a **symbol**: one of `+ - * / ( )`.

The first pattern that matches wins even when a later one would match more: `d6` is a name, and
`1d6h2` is the roll `1d6h` and the number `2`.  A number with a point is a float, the nearest to
its digits; one without is an integer.

Scanning stops at the first fault: no pattern matches (`Unexpected input`), a digit run of a roll
or an integer is longer than 4300 digits (`Invalid number`), or a roll has no dice or no sides
(`Invalid dice roll`).  A `Scan` keeps the tokens before the fault, with their positions, so that
a reader that stops earlier never sees the fault.
-/

namespace DiceNotation

/-- The tokens of a text with their positions, and the fault that ended the scan, if any. -/
structure Scan where
  tokens : List (Nat × Token)
  stop : Option ParseError
  deriving DecidableEq, Inhabited, Repr

namespace Scan

/-- First character of a name. -/
def isNameStart (c : Char) : Bool := c.isAlpha || c == '_' || c == '$'

/-- Later characters of a name. -/
def isNameChar (c : Char) : Bool := c.isAlphanum || c == '_' || c == '$' || c == '.'

/-- The value of ASCII digits. -/
def digitsValue (ds : List Char) : Nat := ds.foldl (fun acc c => 10 * acc + (c.toNat - 48)) 0

/-- The most digits an integer may have. -/
def digitLimit : Nat := 4300

/-- A name at the front: its length. -/
def matchName : List Char → Option Nat
  | c :: rest => if isNameStart c then some (1 + (rest.takeWhile isNameChar).length) else none
  | [] => none

/-- A roll at the front: the digits of the count and of the sides, the keep letter, and the
length. -/
def matchRoll (cs : List Char) : Option (List Char × List Char × Option Keep × Nat) :=
  let count := cs.takeWhile Char.isDigit
  if count.isEmpty then none else
  match cs.drop count.length with
  | 'd' :: rest =>
    let sides := rest.takeWhile Char.isDigit
    if sides.isEmpty then none else
    let keep : Option Keep := match rest.drop sides.length with
      | 'h' :: _ => some .highest
      | 'l' :: _ => some .lowest
      | _ => none
    some (count, sides, keep, count.length + 1 + sides.length + (if keep.isSome then 1 else 0))
  | _ => none

/-- A number at the front: its sign, whole digits, fraction digits if a point is followed by
digits, and the length. -/
def matchNumber (cs : List Char) : Option (Bool × List Char × Option (List Char) × Nat) :=
  let (neg, body) := match cs with
    | '-' :: rest => (true, rest)
    | _ => (false, cs)
  let whole := body.takeWhile Char.isDigit
  if whole.isEmpty then none else
  let signLen := if neg then 1 else 0
  match body.drop whole.length with
  | '.' :: rest =>
    let frac := rest.takeWhile Char.isDigit
    if frac.isEmpty then some (neg, whole, none, signLen + whole.length)
    else some (neg, whole, some frac, signLen + whole.length + 1 + frac.length)
  | _ => some (neg, whole, none, signLen + whole.length)

/-- A symbol token. -/
def symbolToken? : Char → Option Token
  | '+' => some (.oper .add)
  | '-' => some (.oper .sub)
  | '*' => some (.oper .mul)
  | '/' => some (.oper .div)
  | '(' => some .openParen
  | ')' => some .closeParen
  | _ => none

/-- The token at the front of `cs`, which starts at `pos` and has no blank in front, and the
number of characters it takes beyond the first. -/
def lexAt (cs : List Char) (pos : Nat) : Except ParseError (Token × Nat) :=
  let here := String.ofList cs
  match matchName cs with
  | some n => .ok (.name (String.ofList (cs.take n)), n - 1)
  | none =>
  match matchRoll cs with
  | some (count, sides, keep, n) =>
    let lexeme := String.ofList (cs.take n)
    if digitLimit < count.length || digitLimit < sides.length then
      .error ⟨.invalidNumber lexeme, here, pos⟩
    else
      let d := digitsValue count
      let s := digitsValue sides
      if d < 1 || s < 1 then .error ⟨.invalidDice lexeme, lexeme, pos⟩
      else .ok (.dice ⟨d, s, keep⟩, n - 1)
  | none =>
  match matchNumber cs with
  | some (neg, whole, some frac, n) =>
    .ok (.number (.float (Binary64.ofDecimal neg (digitsValue (whole ++ frac))
      (-(frac.length : Int)))), n - 1)
  | some (neg, whole, none, n) =>
    if digitLimit < whole.length then
      .error ⟨.invalidNumber (String.ofList (cs.take n)), here, pos⟩
    else
      let v := digitsValue whole
      .ok (.number (.int (if neg then -(v : Int) else v)), n - 1)
  | none =>
  match cs.head?.bind symbolToken? with
  | some t => .ok (t, 0)
  | none => .error ⟨.unexpectedInput here, here, pos⟩

/-- Scans `cs`, whose first character is at position `pos`. -/
def scanFrom (cs : List Char) (pos : Nat) : Scan :=
  match cs with
  | [] => ⟨[], none⟩
  | c :: rest =>
    if Text.isBlank c then scanFrom rest (pos + 1) else
    match lexAt (c :: rest) pos with
    | .error e => ⟨[], some e⟩
    | .ok (t, k) =>
      let s := scanFrom (rest.drop k) (pos + k + 1)
      ⟨(pos, t) :: s.tokens, s.stop⟩
termination_by cs.length
decreasing_by all_goals simp only [List.length_cons, List.length_drop]; omega

end Scan

/-- The scan of a whole text. -/
def scan (s : String) : Scan := Scan.scanFrom s.toList 0

end DiceNotation
