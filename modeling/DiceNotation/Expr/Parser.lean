import DiceNotation.Token.Scan

/-!
# Reading dice notation

The grammar, over the tokens of the text with blanks at both ends removed:

```
expr   = term   { ("+" | "-") term }
term   = factor { ("*" | "/") factor }
factor = name | roll | number | "(" expr ")"
```

Each repetition folds to the left, so `a - b + c` is `(a - b) + c`, and parentheses leave no
trace in the tree.  The reader looks one token ahead and asks for tokens in order; a fault of the
scan is met when the reader first asks for the token that could not be scanned, so a syntax fault
found earlier wins over it.

Faults and the piece of text they point at:

* `Incomplete expression`: the text ended where an operand was expected; the whole text, at its
  length.
* `Unmatched parenthesis`: the token after a parenthesised expression is not `)`; the text from
  the `(`.
* `Unexpected operator`: an operator or `)` where an operand was expected; the text from it.
* `Unexpected token`: a token after a complete expression; the text from it.
-/

namespace DiceNotation

namespace Parser

/-- Positioned tokens still to be read. -/
abbrev Tokens := List (Nat × Token)

variable (whole : List Char) (stop : Option ParseError)

/-- The text from a position on. -/
def textFrom (pos : Nat) : String := String.ofList (whole.drop pos)

/-- A fault pointing at the text from `pos` on. -/
def faultAt (f : SyntaxFault) (pos : Nat) : ParseError := ⟨f, textFrom whole pos, pos⟩

mutual

/-- `factor`: an operand, or a parenthesised expression. -/
def factor (ts : Tokens) : Except ParseError (Expr × { r : Tokens // r.length < ts.length }) :=
  match ts with
  | [] =>
    match stop with
    | some e => .error e
    | none => .error ⟨.incomplete, String.ofList whole, whole.length⟩
  | (pos, t) :: rest =>
    match t with
    | .number n => .ok (.lit n, ⟨rest, by simp⟩)
    | .name x => .ok (.ref x, ⟨rest, by simp⟩)
    | .dice r => .ok (.roll r, ⟨rest, by simp⟩)
    | .oper o => .error (faultAt whole (.unexpectedOperator o.symbol) pos)
    | .closeParen => .error (faultAt whole (.unexpectedOperator ')') pos)
    | .openParen =>
      match expr rest with
      | .error e => .error e
      | .ok (e, ⟨r, hr⟩) =>
        match r with
        | (_, t') :: r' =>
          if t' = .closeParen then .ok (e, ⟨r', by simp at hr ⊢; omega⟩)
          else .error (faultAt whole .unmatchedParen pos)
        | [] =>
          match stop with
          | some err => .error err
          | none => .error (faultAt whole .unmatchedParen pos)
termination_by (ts.length, 0)

/-- `term`: factors joined by `*` and `/`. -/
def term (ts : Tokens) : Except ParseError (Expr × { r : Tokens // r.length < ts.length }) :=
  match factor ts with
  | .error e => .error e
  | .ok (e, ⟨r, hr⟩) =>
    match termRest e r with
    | .error err => .error err
    | .ok (e', ⟨r', hr'⟩) => .ok (e', ⟨r', by omega⟩)
termination_by (ts.length, 1)

/-- The `*` and `/` steps after the first factor, folded onto `acc`. -/
def termRest (acc : Expr) (ts : Tokens) :
    Except ParseError (Expr × { r : Tokens // r.length ≤ ts.length }) :=
  match ts with
  | [] =>
    match stop with
    | some e => .error e
    | none => .ok (acc, ⟨[], by simp⟩)
  | (pos, t) :: rest =>
    match t with
    | .oper o =>
      if o.isAdditive then .ok (acc, ⟨(pos, t) :: rest, Nat.le_refl _⟩) else
      match factor rest with
      | .error e => .error e
      | .ok (e, ⟨r, hr⟩) =>
        match termRest (.op o acc e) r with
        | .error err => .error err
        | .ok (e', ⟨r', hr'⟩) => .ok (e', ⟨r', by simp; omega⟩)
    | _ => .ok (acc, ⟨(pos, t) :: rest, Nat.le_refl _⟩)
termination_by (ts.length, 0)

/-- `expr`: terms joined by `+` and `-`. -/
def expr (ts : Tokens) : Except ParseError (Expr × { r : Tokens // r.length < ts.length }) :=
  match term ts with
  | .error e => .error e
  | .ok (e, ⟨r, hr⟩) =>
    match exprRest e r with
    | .error err => .error err
    | .ok (e', ⟨r', hr'⟩) => .ok (e', ⟨r', by omega⟩)
termination_by (ts.length, 2)

/-- The `+` and `-` steps after the first term, folded onto `acc`. -/
def exprRest (acc : Expr) (ts : Tokens) :
    Except ParseError (Expr × { r : Tokens // r.length ≤ ts.length }) :=
  match ts with
  | [] =>
    match stop with
    | some e => .error e
    | none => .ok (acc, ⟨[], by simp⟩)
  | (pos, t) :: rest =>
    match t with
    | .oper o =>
      if !o.isAdditive then .ok (acc, ⟨(pos, t) :: rest, Nat.le_refl _⟩) else
      match term rest with
      | .error e => .error e
      | .ok (e, ⟨r, hr⟩) =>
        match exprRest (.op o acc e) r with
        | .error err => .error err
        | .ok (e', ⟨r', hr'⟩) => .ok (e', ⟨r', by simp; omega⟩)
    | _ => .ok (acc, ⟨(pos, t) :: rest, Nat.le_refl _⟩)
termination_by (ts.length, 0)

end

end Parser

namespace Expr

/-- Reads dice notation: the text without blanks at both ends must be one expression. -/
def parse (text : String) : Except ParseError Expr :=
  let whole := Text.stripList text.toList
  let sc := Scan.scanFrom whole 0
  match Parser.expr whole sc.stop sc.tokens with
  | .error e => .error e
  | .ok (e, ⟨r, _⟩) =>
    match r with
    | [] =>
      match sc.stop with
      | some err => .error err
      | none => .ok e
    | (pos, t) :: _ => .error (Parser.faultAt whole (.unexpectedToken t e) pos)

end Expr

end DiceNotation
