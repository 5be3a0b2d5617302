import DiceNotation.Expr.Basic
import DiceNotation.Text.Quoted
import DiceNotation.CallDepth

/-!
# Faults

Why printing, evaluating or simplifying an expression fails, one constructor per cause, and the
message each one reads as.  A number always has a value: faults come from integers too long to
write, missing nodes, draws that cannot become a die, running out of draws, and operands of the
wrong kind.
-/

namespace DiceNotation

/-- The cause of a failed step. -/
inductive Fault where
  /-- An integer of more than 4300 digits was to be written as text. -/
  | digitLimit
  /-- A missing node was to be printed. -/
  | unprintable
  /-- A missing node was to be evaluated or simplified; the text names the step. -/
  | missingNode (step : String)
  /-- A NaN draw was to become a whole number. -/
  | floorOfNaN
  /-- An infinite draw was to become a whole number. -/
  | floorOfInfinity
  /-- An integer beyond the float range was to become a float. -/
  | intTooLarge
  /-- The highest or lowest of no dice. -/
  | emptyKeep (k : Keep)
  /-- The draw source was asked once more than the number of draws it holds. -/
  | outOfDraws (given : Nat)
  /-- An operator applied to operands of kinds it has no rule for. -/
  | operandKinds (o : Operator) (left right : String)
  /-- Text joined with something that is not text. -/
  | joinText (right : String)
  /-- Text repeated by something that is not a whole number. -/
  | repeatText (count : String)
  /-- Nothing was to become a float. -/
  | floatOfNothing
  /-- Text that is no float numeral was to become a float. -/
  | floatOfText (s : String)
  /-- A value that is no number was to be written as a number; the text names its kind. -/
  | notReal (kind : String)
  /-- A result too large for the memory there is. -/
  | outOfMemory
  /-- A step went past the call depth limit; the entry says what kind of step it was. -/
  | tooDeep (e : Entry)
  deriving DecidableEq, Inhabited, Repr

namespace Fault

/-- The message of a fault. -/
def message : Fault → String
  | digitLimit =>
    "Exceeds the limit (4300 digits) for integer string conversion; " ++
      "use sys.set_int_max_str_digits() to increase the limit"
  | unprintable => "Cannot render NoneType"
  | missingNode step => "'NoneType' object has no attribute '" ++ step ++ "'"
  | floorOfNaN => "cannot convert float NaN to integer"
  | floorOfInfinity => "cannot convert float infinity to integer"
  | intTooLarge => "int too large to convert to float"
  | emptyKeep .highest => "max() arg is an empty sequence"
  | emptyKeep .lowest => "min() arg is an empty sequence"
  | outOfDraws given =>
    "random source called " ++ toString (given + 1) ++ " times, but only " ++ toString given ++
      " draws given"
  | operandKinds o left right =>
    "unsupported operand type(s) for " ++ o.symbol.toString ++ ": '" ++ left ++ "' and '" ++
      right ++ "'"
  | joinText right => "can only concatenate str (not \"" ++ right ++ "\") to str"
  | repeatText count => "can't multiply sequence by non-int of type '" ++ count ++ "'"
  | floatOfNothing => "float() argument must be a string or a real number, not 'NoneType'"
  | floatOfText s => "could not convert string to float: " ++ Text.quoted s
  | notReal kind => "must be real number, not " ++ kind
  | outOfMemory => ""
  | tooDeep e => "maximum recursion depth exceeded" ++ e.suffix

/-- The name of the kind of error a fault is reported as. -/
def className : Fault → String
  | digitLimit => "ValueError"
  | unprintable => "TypeError"
  | missingNode _ => "AttributeError"
  | floorOfNaN => "ValueError"
  | floorOfInfinity => "OverflowError"
  | intTooLarge => "OverflowError"
  | emptyKeep _ => "ValueError"
  | outOfDraws _ => "RngExhausted"
  | operandKinds .. => "TypeError"
  | joinText _ => "TypeError"
  | repeatText _ => "TypeError"
  | floatOfNothing => "TypeError"
  | floatOfText _ => "ValueError"
  | notReal _ => "TypeError"
  | outOfMemory => "MemoryError"
  | tooDeep _ => "RecursionError"

end Fault

/-- Enters a frame at level `d`: a recursion fault when `d` is past the limit. -/
def enterAt (d : Nat) : Except Fault Unit :=
  if depthLimit < d then .error (.tooDeep .frame) else .ok ()

namespace Excursion

/-- Makes an excursion from level `d`: a recursion fault at its first entry past the limit. -/
def run (d : Nat) (x : Excursion) : Except Fault Unit :=
  match x.firstPast d with
  | some e => .error (.tooDeep e)
  | none => .ok ()

end Excursion

end DiceNotation
