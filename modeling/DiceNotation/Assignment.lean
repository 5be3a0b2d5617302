import DiceNotation.Fault
import DiceNotation.Numeral

/-!
# Assignments `NAME=VALUE`

Values of names can be given as text `NAME=VALUE`.  The name is what stands before the first
`=`, without blanks at both ends, and must not be empty.  The value is read as an integer
numeral if it is one, and else as a float numeral, after blanks at both ends are removed.  Of
several assignments to one name the last counts; the name keeps the place of its first
assignment.
-/

namespace DiceNotation

namespace Number

/-- Reads a number from text: an integer numeral as an integer, else a float numeral as a float. -/
def read (s : String) : Except Fault Number :=
  let t := Text.strip s
  match Numeral.readInt? t with
  | some n => .ok (.int n)
  | none =>
    match Numeral.readFloat? t with
    | some x => .ok (.float x)
    | none => .error (.floatOfText t)

end Number

/-- Why a list of assignments cannot be read. -/
inductive AssignmentError where
  /-- The text has no `=`, or nothing but blanks before it. -/
  | noName (pair : String)
  /-- The value of a name is no number. -/
  | notANumber (name raw : String)
  deriving DecidableEq, Inhabited, Repr

namespace AssignmentError

def message : AssignmentError → String
  | noName pair => "Expected NAME=VALUE, got " ++ Text.quoted pair
  | notANumber name raw => "Value for " ++ Text.quoted name ++ " is not a number: " ++ Text.quoted raw

end AssignmentError

namespace Assignment

/-- Splits at the first `=`: what stands before it and after it, or nothing without one. -/
def split? (s : String) : Option (String × String) :=
  let cs := s.toList
  let before := cs.takeWhile (· != '=')
  match cs.drop before.length with
  | _ :: after => some (String.ofList before, String.ofList after)
  | [] => none

/-- One assignment read. -/
def read (pair : String) : Except AssignmentError (String × Number) :=
  match split? pair with
  | none => .error (.noName pair)
  | some (before, raw) =>
    let name := Text.strip before
    if name.isEmpty then .error (.noName pair) else
    match Number.read raw with
    | .ok n => .ok (name, n)
    | .error _ => .error (.notANumber name raw)

/-- Sets a name's value, in place if the name is there, else at the end. -/
def set (vs : List (String × Number)) (name : String) (n : Number) : List (String × Number) :=
  if vs.any (·.1 == name) then vs.map fun (k, v) => if k == name then (k, n) else (k, v)
  else vs ++ [(name, n)]

/-- Reads assignments in order; the first one that cannot be read stops the reading. -/
def readAll (pairs : List String) : Except AssignmentError (List (String × Number)) :=
  pairs.foldlM (fun vs pair => do
    let (name, n) ← read pair
    pure (set vs name n)) []

end Assignment

end DiceNotation
