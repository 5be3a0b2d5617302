import DiceNotation.Expr.Printer

/-!
# Tokens

The words of dice notation: number literals, names, rolls, the four operator symbols and the two
parentheses.  The first three are the leaves of expressions; a token prints as its leaf does, or
as its symbol.
-/

namespace DiceNotation

/-- A token of dice notation. -/
inductive Token where
  | number (n : Number)
  | name (x : String)
  | dice (r : Roll)
  | oper (o : Operator)
  | openParen
  | closeParen
  deriving DecidableEq, Inhabited, Repr

namespace Token

/-- The expression a token stands for, if it is a leaf. -/
def leaf? : Token → Option Expr
  | number n => some (.lit n)
  | name x => some (.ref x)
  | dice r => some (.roll r)
  | _ => none

/-- The symbol of a punctuation token. -/
def symbol? : Token → Option Char
  | oper o => some o.symbol
  | openParen => some '('
  | closeParen => some ')'
  | _ => none

/-- A token as it is printed in messages. -/
def text : Token → String
  | number n => n.text
  | name x => x
  | dice r => r.text
  | oper o => o.symbol.toString
  | openParen => "("
  | closeParen => ")"

end Token

end DiceNotation
