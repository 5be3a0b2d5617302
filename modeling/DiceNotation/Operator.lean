import DiceNotation.Number.Basic

/-!
# Operators and their arithmetic

The four operators of a dice expression, their symbols and precedence, and `Operator.apply`,
which never fails:

* `+`, `-` and `*` are exact on integers.  With a float on either side the integer is rounded to
  the nearest float, an integer beyond the finite range counting as an infinity of its sign, and
  the float operation is done.
* `/` is true division: its result is always a float.  Two integers give the float nearest to
  their exact quotient, an infinity of the quotient's sign when that is beyond the finite range.
* Division by a zero (`0`, `0.0` or `-0.0`) gives NaN when the dividend is zero or NaN, and else
  an infinity whose sign is the product of the signs of dividend and divisor, where the integer
  zero counts as positive.

A truth value counts as the integer `0` or `1` on either side.
-/

namespace DiceNotation

/-- A binary operator. -/
inductive Operator where
  | add
  | sub
  | mul
  | div
  deriving DecidableEq, Inhabited, Repr

namespace Operator

/-- The operator's symbol. -/
def symbol : Operator → Char
  | add => '+'
  | sub => '-'
  | mul => '*'
  | div => '/'

/-- The operator a text names, if it is one of the four symbols. -/
def ofText? : String → Option Operator
  | "+" => some add
  | "-" => some sub
  | "*" => some mul
  | "/" => some div
  | _ => none

/-- Binding strength: `*` and `/` bind more tightly than `+` and `-`. -/
def precedence : Operator → Nat
  | add => 0
  | sub => 0
  | mul => 1
  | div => 1

/-- Whether the operator is `+` or `-`. -/
def isAdditive : Operator → Bool
  | add => true
  | sub => true
  | _ => false

/-- True division of numbers other than truth values, as described in the module header. -/
def divide (x y : Number) : Number :=
  if y.isZero then
    if x.isZero || x.isNaN then .float .nan else .float (.inf (x.signBit != y.signBit))
  else match x, y with
    | .int a, .int b => .float (Binary64.ofRatio a b)
    | _, _ => .float (x.toBinary64 / y.toBinary64)

/-- The result of `x op y`, as described in the module header. -/
def apply (op : Operator) (x y : Number) : Number :=
  match op, x.arith, y.arith with
  | add, .int a, .int b => .int (a + b)
  | sub, .int a, .int b => .int (a - b)
  | mul, .int a, .int b => .int (a * b)
  | add, a, b => .float (a.toBinary64 + b.toBinary64)
  | sub, a, b => .float (a.toBinary64 - b.toBinary64)
  | mul, a, b => .float (a.toBinary64 * b.toBinary64)
  | div, a, b => divide a b

end Operator

end DiceNotation
