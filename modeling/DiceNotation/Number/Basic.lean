import DiceNotation.Binary64.Arith

/-!
# Numbers

The numbers of a dice expression are integers of any size and binary64 floats, kept apart: `8 / 2`
is the float `4.0`, never the integer `4`.  A truth value may stand where a number does; it counts
as the integer `0` or `1` but keeps its own spelling.

Comparisons between numbers are exact, whatever their kinds: an integer is compared with a float
by value, not through a rounded conversion, and NaN is unordered.
-/

-- Powers of numbers are core's, also in a file where Mathlib is in scope, so that each
-- definition below is the same term wherever it is read.
attribute [local instance (high)] instPowNat

namespace DiceNotation

/-- An integer, a binary64 float, or a truth value counting as `0` or `1`. -/
inductive Number where
  | int (n : Int)
  | float (x : Binary64)
  | bool (b : Bool)
  deriving DecidableEq, Inhabited, Repr

namespace Number

/-- The number with a truth value replaced by its integer. -/
def arith : Number → Number
  | bool b => int (if b then 1 else 0)
  | x => x

/-- The float nearest to a number; an integer beyond the finite range becomes an infinity. -/
def toBinary64 : Number → Binary64
  | int n => Binary64.ofInt n
  | float x => x
  | bool b => Binary64.ofInt (if b then 1 else 0)

/-- Whether the number is an integer or a truth value rather than a float. -/
def isIntegral : Number → Bool
  | float _ => false
  | _ => true

/-- Either zero of either kind, or `false`. -/
def isZero : Number → Bool
  | int n => n = 0
  | float x => x.isZero
  | bool b => !b

def isNaN : Number → Bool
  | float x => x.isNaN
  | _ => false

/-- The sign as a float carries it: negative integers, `-0.0`, `-∞` and negative floats. -/
def signBit : Number → Bool
  | int n => n < 0
  | float x => x.signBit
  | bool _ => false

/-- The exact value of a number: `a * 2^e` with integers `a` and `e`, an infinity, or NaN. -/
inductive Exact where
  | scaled (a e : Int)
  | inf (neg : Bool)
  | nan

/-- The exact value of a number. -/
def exact : Number → Exact
  | int n => .scaled n 0
  | bool b => .scaled (if b then 1 else 0) 0
  | float (.finite s m e) => .scaled (Binary64.signedSignificand s m) e
  | float (.inf neg) => .inf neg
  | float .nan => .nan

/-- Order of exact values; `none` when either is NaN. -/
def Exact.compare? : Exact → Exact → Option Ordering
  | .nan, _ => none
  | _, .nan => none
  | .scaled a ea, .scaled b eb => some (Binary64.compareScaled a ea b eb)
  | .inf a, .inf b => some (if a = b then .eq else if a then .lt else .gt)
  | .inf a, .scaled _ _ => some (if a then .lt else .gt)
  | .scaled _ _, .inf b => some (if b then .gt else .lt)

/-- Exact order of two numbers; `none` when either is NaN. -/
def compare? (x y : Number) : Option Ordering := x.exact.compare? y.exact

/-- Exact equality; false whenever NaN is involved. -/
def eq (x y : Number) : Bool := x.compare? y == some .eq

/-- Exact "greater than"; false whenever NaN is involved. -/
def gt (x y : Number) : Bool := x.compare? y == some .gt

/-- Whether an integer has at most 4300 decimal digits, the most that is written as text. -/
def withinDigitLimit (n : Int) : Bool := n.natAbs < 10 ^ (4300 : Nat)

end Number

end DiceNotation
