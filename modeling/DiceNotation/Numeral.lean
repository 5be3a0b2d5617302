import DiceNotation.Number.Basic
import DiceNotation.Text.Blank
import DiceNotation.Text.Digit

/-!
# Numerals: reading integer and float text

A numeral may be surrounded by white space and may use the decimal digits of any script.  Before
it is read every non-ASCII blank becomes a space, every non-ASCII digit its ASCII digit, and every
other non-ASCII character one that no numeral contains; then ASCII white space at both ends goes.

* An **integer numeral** is an optional sign and decimal digits, with single underscores allowed
  between two digits.  It has at most 4300 digits.
* A **float numeral** is an optional sign and either `inf`, `infinity` or `nan` in any case, or
  digits with an optional point and fraction (or a point and a fraction), then an optional
  exponent: `e` or `E`, an optional sign and digits.  An underscore must stand between two digits.
  The value is the binary64 number nearest to the decimal.
-/

namespace DiceNotation

namespace Numeral

/-- The character a numeral reader sees in place of `c`. -/
def prepare (c : Char) : Char :=
  if c.toNat < 127 then c
  else if Text.isBlank c then ' '
  else match Text.digitValue? c with
    | some d => Char.ofNat (48 + d)
    | none => '?'

/-- ASCII white space: space, tab, line feed, vertical tab, form feed, carriage return. -/
def isAsciiSpace (c : Char) : Bool := c == ' ' || ('\t' ≤ c && c ≤ '\r')

/-- The prepared characters of a text without the white space at both ends. -/
def prepared (s : String) : List Char :=
  let cs := s.toList.map prepare
  ((cs.dropWhile isAsciiSpace).reverse.dropWhile isAsciiSpace).reverse

/-- Splits off an optional sign: whether it is a minus, and the rest. -/
def sign : List Char → Bool × List Char
  | '-' :: rest => (true, rest)
  | '+' :: rest => (false, rest)
  | cs => (false, cs)

/-- The value of ASCII digits, most significant first. -/
def digitsValue (ds : List Char) : Nat :=
  ds.foldl (fun acc c => 10 * acc + (c.toNat - 48)) 0

/-- Whether every underscore stands between two digits. -/
def underscoresBetweenDigits : List Char → Bool
  | [] => true
  | '_' :: _ => false
  | c :: rest => go c rest
where
  go (prev : Char) : List Char → Bool
    | [] => prev != '_'
    | '_' :: rest => prev.isDigit && (match rest with
        | c :: _ => c.isDigit
        | [] => false) && go '_' rest
    | c :: rest => go c rest

/-- Reads an integer numeral; nothing for any other text or more than 4300 digits. -/
def readInt? (s : String) : Option Int :=
  let (neg, body) := sign (prepared s)
  if body.isEmpty || !underscoresBetweenDigits body then none else
  let ds := body.filter (· != '_')
  if !ds.all Char.isDigit || 4300 < ds.length then none else
  let n := digitsValue ds
  some (if neg then -(n : Int) else n)

/-- Lower-case ASCII letters, for words read in any case. -/
def lowerAscii (cs : List Char) : List Char := cs.map Char.toLower

/-- The digits at the front and the rest. -/
def spanDigits (cs : List Char) : List Char × List Char :=
  (cs.takeWhile Char.isDigit, cs.dropWhile Char.isDigit)

/-- An exponent `e±digits` that makes up the whole rest, as an integer. -/
def readExponent : List Char → Option Int
  | [] => some 0
  | c :: rest =>
    if c != 'e' && c != 'E' then none else
    let (neg, body) := sign rest
    let (ds, tail) := spanDigits body
    if ds.isEmpty || !tail.isEmpty then none
    else some (if neg then -(digitsValue ds : Int) else digitsValue ds)

/-- Reads an unsigned decimal with optional fraction and exponent: its digits and the power of
ten they are scaled by. -/
def readDecimal (cs : List Char) : Option (Nat × Int) :=
  let (whole, rest) := spanDigits cs
  let (frac, rest) := match rest with
    | '.' :: more => spanDigits more
    | _ => ([], rest)
  if whole.isEmpty && frac.isEmpty then none
  else (readExponent rest).map fun x => (digitsValue (whole ++ frac), x - frac.length)

/-- Reads a float numeral; nothing for any other text. -/
def readFloat? (s : String) : Option Binary64 :=
  let cs := prepared s
  if !underscoresBetweenDigits cs then none else
  let (neg, body) := sign (cs.filter (· != '_'))
  let word := lowerAscii body
  if word == "inf".toList || word == "infinity".toList then some (.inf neg)
  else if word == "nan".toList then some .nan
  else (readDecimal body).map fun (d, x) => Binary64.ofDecimal neg d x

/-- The sign bit of the float a numeral reads as.  A NaN has no sign of its own here, so for
`-nan` the sign written in front of it stands in. -/
def floatSign? (s : String) : Option Bool :=
  (readFloat? s).map fun x => if x.isNaN then (sign (prepared s)).1 else x.signBit

end Numeral

end DiceNotation
