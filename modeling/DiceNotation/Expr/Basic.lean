import DiceNotation.Operator

/-!
# Dice expressions

An expression is a tree whose leaves are number literals, references to named values, and
rolls such as `2d20h` (two twenty-sided dice, keep the highest), and whose inner nodes apply an
operator to two subexpressions.

A tree assembled by hand may also have a missing node where a subtree should be.  Printing,
evaluating or simplifying such a tree is a fault when the missing node is reached; trees read from
text never have one.
-/

namespace DiceNotation

/-- Which die of a roll counts, when not all of them are added up. -/
inductive Keep where
  | highest
  | lowest
  deriving DecidableEq, Inhabited, Repr

namespace Keep

/-- The letter written after a roll. -/
def symbol : Keep → Char
  | highest => 'h'
  | lowest => 'l'

/-- The keep rule a text names. -/
def ofText? : String → Option Keep
  | "h" => some highest
  | "l" => some lowest
  | _ => none

end Keep

/-- A roll of `dice` dice with `sides` sides each.  Text always gives positive counts; a tree
assembled by hand may hold any integers. -/
structure Roll where
  dice : Int
  sides : Int
  keep : Option Keep
  deriving DecidableEq, Inhabited, Repr

/-- A dice expression. -/
inductive Expr where
  | lit (n : Number)
  | ref (name : String)
  | roll (r : Roll)
  | op (o : Operator) (l r : Expr)
  | missing
  deriving DecidableEq, Inhabited, Repr

namespace Expr

/-- Whether the tree has no missing node. -/
def complete : Expr → Bool
  | op _ l r => l.complete && r.complete
  | missing => false
  | _ => true

/-- The rolls of a tree, left to right. -/
def rolls : Expr → List Roll
  | roll r => [r]
  | op _ l r => l.rolls ++ r.rolls
  | _ => []

/-- The names a tree refers to, left to right, repeats kept. -/
def refs : Expr → List String
  | ref x => [x]
  | op _ l r => l.refs ++ r.refs
  | _ => []

end Expr

end DiceNotation
