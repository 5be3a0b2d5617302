import DiceNotation.Fault
import DiceNotation.Decimal.Layout

/-!
# Printing expressions

The canonical text of an expression.  Numbers are never written with an exponent: integers and
whole floats as their exact integer, other floats as the digits of their shortest decimal placed
positionally, and the special floats as `NaN`, `Infinity` and `-Infinity`.  A roll is written
`2d20h`; an operation as its operands around the operator, with single spaces.

Parentheses are the fewest that let the text be read back as the same tree: operators of one
precedence group to the left, so a left operand is parenthesised only when its operator binds
less tightly than the parent's, and a right operand also when it binds equally tightly.

`Expr.text` writes every tree; `Expr.render?` refuses, at the first offending node from the left,
a missing node and an integer of more than 4300 digits.  `Expr.renderAt` prints a tree in a frame
at a given call depth, one frame deeper for each level of the tree, and fails with a recursion
fault where the printer would pass the call depth limit.
-/

namespace DiceNotation

namespace Number

/-- How floats that are not whole are written in expressions: always positionally. -/
def plainLayout : Layout := ⟨none, none, false, "e", false, 1, "Infinity", "NaN"⟩

/-- The text of a number in an expression. -/
def text : Number → String
  | int n => toString n
  | bool b => if b then "True" else "False"
  | float x => if x.isInteger then toString (x.floor?.getD 0) else plainLayout.writeBinary64 x

/-- The text of a number, refused for an integer of more than 4300 digits. -/
def text? (n : Number) : Except Fault String :=
  match n with
  | int i => if withinDigitLimit i then .ok n.text else .error .digitLimit
  | _ => .ok n.text

end Number

namespace Roll

/-- A roll as written: count, `d`, sides, and the keep letter. -/
def text (r : Roll) : String :=
  toString r.dice ++ "d" ++ toString r.sides ++
    (match r.keep with
      | some k => k.symbol.toString
      | none => "")

end Roll

namespace Expr

/-- Whether an operand needs parentheses on the left of operator `o`. -/
def parenLeft (o : Operator) : Expr → Bool
  | op c _ _ => c.precedence < o.precedence
  | _ => false

/-- Whether an operand needs parentheses on the right of operator `o`. -/
def parenRight (o : Operator) : Expr → Bool
  | op c _ _ => c.precedence ≤ o.precedence
  | _ => false

/-- A text between parentheses when asked. -/
def wrap (b : Bool) (s : String) : String := if b then "(" ++ s ++ ")" else s

/-- The canonical text of a tree.  A missing node is never printed (`render?` refuses it); it
writes as nothing here. -/
def text : Expr → String
  | lit n => n.text
  | ref x => x
  | roll r => r.text
  | op o l r => wrap (parenLeft o l) l.text ++ " " ++ o.symbol.toString ++ " " ++
      wrap (parenRight o r) r.text
  | missing => ""

/-- The first node, from the left, that cannot be printed, and why. -/
def printFault? : Expr → Option Fault
  | lit (.int n) => if Number.withinDigitLimit n then none else some .digitLimit
  | lit _ => none
  | ref _ => none
  | roll r =>
    if Number.withinDigitLimit r.dice && Number.withinDigitLimit r.sides then none
    else some .digitLimit
  | op _ l r => l.printFault?.or r.printFault?
  | missing => some .unprintable

/-- The canonical text of a tree that can be printed. -/
def render? (e : Expr) : Except Fault String :=
  match e.printFault? with
  | some f => .error f
  | none => .ok e.text

/-- What writing a number does on top of the printer's frame: a frame of its own, where an
integer gets its text through a conversion, and a float is tested by built-in calls for being
NaN, infinite or whole; a float that is none of these has its representation taken. -/
def numberExcursion : Number → Excursion
  | .float x =>
    if x.isFinite && !x.isInteger then [(1, .frame), (2, .call), (3, .reprOf)]
    else [(1, .frame), (2, .call)]
  | _ => [(1, .frame), (2, .textOf)]

/-- What printing a roll does in its frame: the node is turned down as a literal and as a
reference, the keep letter is read through the enumeration's value property, and the counts get
their text through conversions. -/
def rollExcursion (r : Roll) : Excursion :=
  Excursion.otherKindCheck ++ Excursion.otherKindCheck ++
    (if r.keep.isSome then [(1, .frame), (2, .frame)] else []) ++ [(1, .textOf)]

/-- What deciding whether an operand needs parentheses does: a frame of its own, where an
operation's precedence and the parent's are read through properties and compared, and any other
node is turned down as an operation. -/
def parensExcursion : Expr → Excursion
  | op .. => [(1, .frame), (2, .frame), (2, .comparison)]
  | _ => Excursion.enterFrame ++ Excursion.otherKindCheck.lift 1

/-- What printing a missing node does before it fails: it is turned down as every kind of node,
and the fault is built by calling its class. -/
def missingExcursion : Excursion :=
  Excursion.otherKindCheck ++ Excursion.otherKindCheck ++ Excursion.otherKindCheck ++
    Excursion.otherKindCheck ++ [(1, .call)]

/-- The canonical text of a tree printed in a frame at level `d`: the nodes are visited in the
order of `render?`, each in a frame one level below its parent's, and the first step past the
call depth limit is a recursion fault. -/
def renderAt (d : Nat) : Expr → Except Fault String
  | lit n => do
    enterAt d
    Excursion.run d (numberExcursion n)
    Number.text? n
  | ref x => do
    enterAt d
    Excursion.run d Excursion.otherKindCheck
    pure x
  | roll r => do
    enterAt d
    Excursion.run d (rollExcursion r)
    if Number.withinDigitLimit r.dice && Number.withinDigitLimit r.sides then pure r.text
    else .error .digitLimit
  | op o l r => do
    enterAt d
    Excursion.run d
      (Excursion.otherKindCheck ++ Excursion.otherKindCheck ++ Excursion.otherKindCheck)
    let ls ← renderAt (d + 1) l
    Excursion.run d (parensExcursion l)
    let rs ← renderAt (d + 1) r
    Excursion.run d (parensExcursion r)
    Excursion.run d [(1, .frame), (2, .frame)]
    pure (wrap (parenLeft o l) ls ++ " " ++ o.symbol.toString ++ " " ++ wrap (parenRight o r) rs)
  | missing => do
    enterAt d
    Excursion.run d missingExcursion
    .error .unprintable

/-- The text of a tree asked for in a frame at level `h`: the conversion and the tree's text
method take a level each, and the printer runs below them. -/
def textAt (h : Nat) (e : Expr) : Except Fault String := do
  Excursion.run h [(1, .textOf), (2, .frame)]
  renderAt (h + 3) e

/-- The text of a tree put into a formatted string in a frame at level `h`: the formatting
call, the conversion and the tree's text method take a level each. -/
def formattedAt (h : Nat) (e : Expr) : Except Fault String := do
  Excursion.run h [(1, .call), (2, .textOf), (3, .frame)]
  renderAt (h + 4) e

end Expr

end DiceNotation
