import DiceNotation.Fault
import DiceNotation.Numeral

/-!
# Values

A name may be bound to a number, a text or nothing, and evaluation hands back whatever it finds.
Arithmetic on numbers never fails (`Operator.apply`).  With a text or nothing among the operands
the rules are those of dynamically typed values:

* `+` joins two texts; a text with anything else, or nothing with anything, is a fault.
* `*` repeats a text by a whole number (none, if it is below one); a count beyond the 64-bit
  range, or a result longer than a text can be, instead makes both operands floats, a text read
  as a float numeral.  Repeating by anything else is a fault, and so is a result too large for
  the memory.
* `-` and `/` have no rule for texts or nothing, except that dividing anything but a zero or NaN
  by a zero is an infinity: then the dividend is read as a float to take its sign.
-/

-- Powers of numbers are core's, also in a file where Mathlib is in scope, so that each
-- definition below is the same term wherever it is read.
attribute [local instance (high)] instPowNat

namespace DiceNotation

/-- A bound value or the result of an evaluation. -/
inductive Value where
  | num (n : Number)
  | text (s : String)
  | none
  deriving DecidableEq, Inhabited, Repr

namespace Value

/-- The name of a value's kind, as faults spell it. -/
def kindName : Value → String
  | num (.int _) => "int"
  | num (.float _) => "float"
  | num (.bool _) => "bool"
  | text _ => "str"
  | none => "NoneType"

/-- The sign bit of the value read as a float, for the sign of an infinite quotient. -/
def signBit : Value → Except Fault Bool
  | num n => .ok n.signBit
  | text s =>
    match Numeral.floatSign? s with
    | some b => .ok b
    | Option.none => .error (.floatOfText s)
  | none => .error .floatOfNothing

/-- The whole number a repetition count stands for, if it is one. -/
def count? : Value → Option Int
  | num (.int n) => some n
  | num (.bool b) => some (if b then 1 else 0)
  | _ => Option.none

/-- The largest length a text may have: lengths are signed 64-bit words. -/
def maxLength : Nat := 2 ^ (63 : Nat) - 1

/-- Bytes per character of a text: one if all its characters are below 256, two if all are
below 65536, else four. -/
def charBytes (s : String) : Nat :=
  let top := s.toList.foldl (fun m c => max m c.toNat) 0
  if top < 256 then 1 else if top < 65536 then 2 else 4

/-- The most bytes a text made by repetition may take; a larger one runs out of memory. -/
def memoryBytes : Nat := 2 ^ (32 : Nat)

/-- The float product of a text and a count, the text read as a float numeral. -/
def floatProduct (s : String) (n : Int) : Except Fault Value :=
  match Numeral.readFloat? s with
  | some x => .ok (num (.float (x * Binary64.ofInt n)))
  | Option.none => .error (.floatOfText s)

/-- A text repeated `n` times.  A count beyond the 64-bit range, or a result longer than the
longest text, overflows and gives the float product instead; a result that fits the length but
not the memory is a fault. -/
def repeatText (s : String) (n : Int) : Except Fault Value :=
  if n < -(2 ^ (63 : Nat)) || 2 ^ (63 : Nat) ≤ n then floatProduct s n
  else if n < 1 || s.isEmpty then .ok (text "")
  else
    let k := n.toNat
    if maxLength / k < s.length then floatProduct s n
    else if memoryBytes < s.length * k * charBytes s then .error .outOfMemory
    else .ok (text (String.join (List.replicate k s)))

/-- `x op y` for values, as described in the module header. -/
def apply (o : Operator) (x y : Value) : Except Fault Value :=
  match o, x, y with
  | o, num a, num b => .ok (num (o.apply a b))
  | .add, text a, text b => .ok (text (a ++ b))
  | .add, text _, y => .error (.joinText y.kindName)
  | .mul, text a, y =>
    match y.count? with
    | some n => repeatText a n
    | Option.none => .error (.repeatText y.kindName)
  | .mul, x, text a =>
    match x.count? with
    | some n => repeatText a n
    | Option.none => .error (.repeatText x.kindName)
  | .div, x, num b =>
    if b.isZero then
      match x.signBit with
      | .ok neg => .ok (num (.float (.inf (neg != b.signBit))))
      | .error e => .error e
    else .error (.operandKinds .div x.kindName (num b).kindName)
  | o, x, y => .error (.operandKinds o x.kindName y.kindName)

end Value

end DiceNotation
