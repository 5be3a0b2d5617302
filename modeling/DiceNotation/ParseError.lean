import DiceNotation.Token.Basic
import DiceNotation.CallDepth

/-!
# Syntax errors

Reading dice notation stops at the first fault.  A `ParseError` says what went wrong, which piece
of the text it concerns, and where that piece starts, counting characters from the start of the
text that was read.
-/

namespace DiceNotation

/-- What went wrong while reading dice notation. -/
inductive SyntaxFault where
  /-- The text ended where an operand was expected. -/
  | incomplete
  /-- A `(` has no matching `)`. -/
  | unmatchedParen
  /-- An operator or `)` stands where an operand was expected. -/
  | unexpectedOperator (c : Char)
  /-- A complete expression is followed by another token. -/
  | unexpectedToken (t : Token) (e : Expr)
  /-- No token starts here; the rest of the text is given. -/
  | unexpectedInput (rest : String)
  /-- A roll with no dice or no sides, as written. -/
  | invalidDice (lexeme : String)
  /-- A digit run longer than 4300 digits, in the token as written. -/
  | invalidNumber (lexeme : String)
  deriving DecidableEq, Inhabited, Repr

namespace SyntaxFault

/-- The message of a syntax fault. -/
def message : SyntaxFault → String
  | incomplete => "Incomplete expression"
  | unmatchedParen => "Unmatched parenthesis"
  | unexpectedOperator c => "Unexpected operator \"" ++ c.toString ++ "\""
  | unexpectedToken t e => "Unexpected token: " ++ t.text ++ " after " ++ e.text
  | unexpectedInput rest => "Unexpected input: " ++ rest
  | invalidDice lexeme => "Invalid dice roll: " ++ lexeme
  | invalidNumber lexeme => "Invalid number: " ++ lexeme

end SyntaxFault

/-- A syntax fault, the piece of text it concerns, and the position where that piece starts. -/
structure ParseError where
  fault : SyntaxFault
  text : String
  position : Nat
  deriving DecidableEq, Inhabited, Repr

namespace ParseError

def message (e : ParseError) : String := e.fault.message

end ParseError

/-- Why reading dice notation failed: a syntax error, or a step past the call depth limit. -/
inductive ReadError where
  | malformed (e : ParseError)
  | tooDeep (e : Entry)
  deriving DecidableEq, Inhabited, Repr

end DiceNotation
