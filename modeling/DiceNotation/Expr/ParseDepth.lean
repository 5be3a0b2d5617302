import DiceNotation.Expr.Parser

/-!
# Reading dice notation within the call depth limit

`Expr.parse` reads the grammar; `Expr.parseAt` reads it as the interpreter that runs the reader
does, nesting one call per rule and counting the levels against the call depth limit (see
`DiceNotation.CallDepth`).  It gives the same tree and the same syntax faults as `Expr.parse`,
except that a text nested deeply enough fails with a recursion fault at the first step that
passes the limit.

The reader asks a token stream for its tokens.  The stream has one token of look-ahead and takes
its tokens from a lazy scan, so the scan runs, in a frame of its own, each time the stream needs
a token it has not seen yet.  The steps, from the frame of the rule that takes them:

* an operand rule takes a token through two methods of the stream, which resume the scan: the
  scan is three levels up, and makes the token one level above that;
* the `*` `/` rule looks at the next token through the stream's look-ahead method, which
  resumes the scan two levels up; the `+` `-` rule finds that token already looked at;
* a rule that meets a symbol compares it with its operators;
* after each right operand, the rule finds the operator by its symbol and builds the node.

A syntax fault the scan meets is raised when the reader first asks for the token that could not
be scanned, as in `Expr.parse`.
-/

namespace DiceNotation

namespace Parser

/-- Takes the steps of an excursion from a frame at level `d`: the first step past the limit is
a recursion fault. -/
def reach (d : Nat) (x : Excursion) : Except ReadError Unit :=
  match x.firstPast d with
  | some e => .error (.tooDeep e)
  | none => .ok ()

/-- Enters a frame at level `d`. -/
def enter (d : Nat) : Except ReadError Unit := reach d [(0, .frame)]

/-- Building a roll that keeps one die: its keep letter is checked against the enumeration of
keep modes and looked up there by its value. -/
def keepingRoll : Excursion :=
  [(1, .call), (2, .frame), (3, .call), (4, .instanceCheck), (5, .call), (6, .call), (7, .call)]

/-- What making a token does on top of the scan's frame: reading the groups of the match, and
building the node of an operand. -/
def makeSteps : Token → Excursion
  | .number _ | .name _ => Excursion.construct
  | .dice r => if r.keep.isSome then keepingRoll else Excursion.construct
  | _ => [(1, .call)]

/-- What the scan does in its frame to hand out a token: it makes the token in a frame of its
own. -/
def scanSteps (t : Token) : Excursion := (1, .frame) :: (makeSteps t).lift 1

/-- What the scan does in its frame when it stops: nothing at the end of the text, building the
fault when no pattern matches, and making the token, whose counts fail to convert or are zero,
before building the fault. -/
def stopSteps : Option ParseError → Excursion
  | none => []
  | some e =>
    match e.fault with
    | .invalidDice _ | .invalidNumber _ => [(1, .frame), (2, .call), (3, .frame), (4, .call)]
    | _ => Excursion.construct

/-- The two stream methods an operand rule calls to take a token, and the scan they resume. -/
def takeFrames : Excursion := [(1, .frame), (2, .frame), (3, .frame)]

/-- Taking a token the stream has already looked at: two stream methods, and at the end of the
text the signal that the stream is exhausted. -/
def takeSeen (atEnd : Bool) : Excursion :=
  [(1, .frame), (2, .frame)] ++ (if atEnd then [(3, .call)] else [])

/-- The look-ahead method and the scan it resumes. -/
def peekFrames : Excursion := [(1, .frame), (2, .frame)]

/-- Looking up an operator by its symbol and building the operation node, which checks its
operator in a method of its own. -/
def buildSteps : Excursion :=
  Excursion.memberByValue ++ Excursion.construct ++ [(3, .frame)]

/-- Whether a token is one of the symbols, which a rule compares with its operators. -/
def isSymbol : Token → Bool
  | .oper _ | .openParen | .closeParen => true
  | _ => false

/-- The recursion fault of printing an expression into a message, if printing it fails there. -/
def printStep : Except Fault String → Except ReadError Unit
  | .error (.tooDeep e) => .error (.tooDeep e)
  | _ => .ok ()

variable (whole : List Char) (stop : Option ParseError)

mutual

/-- `factor`, in a frame at level `f`. -/
def factorAt (f : Nat) (ts : Tokens) :
    Except ReadError (Expr × { r : Tokens // r.length < ts.length }) :=
  match ts with
  | [] => do
    enter f
    reach f (takeFrames ++ (stopSteps stop).lift 3)
    match stop with
    | some e => throw (.malformed e)
    | none =>
      reach f ((3, .call) :: Excursion.construct)
      throw (.malformed ⟨.incomplete, String.ofList whole, whole.length⟩)
  | (pos, t) :: rest => do
    enter f
    reach f (takeFrames ++ (scanSteps t).lift 3)
    match t with
    | .number n => pure (.lit n, ⟨rest, by simp⟩)
    | .name x => pure (.ref x, ⟨rest, by simp⟩)
    | .dice r => pure (.roll r, ⟨rest, by simp⟩)
    | .oper o =>
      reach f ((1, .frame) :: Excursion.construct)
      throw (.malformed (faultAt whole (.unexpectedOperator o.symbol) pos))
    | .closeParen =>
      reach f ((1, .frame) :: Excursion.construct)
      throw (.malformed (faultAt whole (.unexpectedOperator ')') pos))
    | .openParen =>
      let (e, ⟨r, hr⟩) ← exprAt (f + 1) rest
      match r, hr with
      | (_, t') :: r', hr =>
        reach f (takeSeen false)
        if t' = .closeParen then pure (e, ⟨r', by simp at hr ⊢; omega⟩) else
        reach f ((1, .comparison) :: Excursion.construct)
        throw (.malformed (faultAt whole .unmatchedParen pos))
      | [], _ =>
        match stop with
        | some err => throw (.malformed err)
        | none =>
          reach f (takeSeen true ++ (1, .comparison) :: Excursion.construct)
          throw (.malformed (faultAt whole .unmatchedParen pos))
termination_by (ts.length, 0)

/-- `term`, in a frame at level `t`. -/
def termAt (t : Nat) (ts : Tokens) :
    Except ReadError (Expr × { r : Tokens // r.length < ts.length }) := do
  enter t
  let (e, ⟨r, hr⟩) ← factorAt (t + 1) ts
  let (e', ⟨r', hr'⟩) ← termRestAt t e r
  pure (e', ⟨r', by omega⟩)
termination_by (ts.length, 1)

/-- The `*` and `/` steps of `term` in its frame at level `t`, folded onto `acc`: each starts by
looking at the next token. -/
def termRestAt (t : Nat) (acc : Expr) (ts : Tokens) :
    Except ReadError (Expr × { r : Tokens // r.length ≤ ts.length }) :=
  match ts with
  | [] => do
    reach t (peekFrames ++ (stopSteps stop).lift 2)
    match stop with
    | some e => throw (.malformed e)
    | none => pure (acc, ⟨[], by simp⟩)
  | (pos, tok) :: rest => do
    reach t (peekFrames ++ (scanSteps tok).lift 2)
    if isSymbol tok then reach t [(1, .comparison)]
    match tok with
    | .oper o =>
      if o.isAdditive then pure (acc, ⟨(pos, tok) :: rest, Nat.le_refl _⟩) else
      reach t [(1, .frame)]
      let (e, ⟨r, hr⟩) ← factorAt (t + 1) rest
      reach t buildSteps
      let (e', ⟨r', hr'⟩) ← termRestAt t (.op o acc e) r
      pure (e', ⟨r', by simp; omega⟩)
    | _ => pure (acc, ⟨(pos, tok) :: rest, Nat.le_refl _⟩)
termination_by (ts.length, 0)

/-- `expr`, in a frame at level `e`. -/
def exprAt (e : Nat) (ts : Tokens) :
    Except ReadError (Expr × { r : Tokens // r.length < ts.length }) := do
  enter e
  let (x, ⟨r, hr⟩) ← termAt (e + 1) ts
  let (x', ⟨r', hr'⟩) ← exprRestAt e x r
  pure (x', ⟨r', by omega⟩)
termination_by (ts.length, 2)

/-- The `+` and `-` steps of `expr` in its frame at level `e`, folded onto `acc`: each starts by
looking again at the token that `term` stopped at. -/
def exprRestAt (e : Nat) (acc : Expr) (ts : Tokens) :
    Except ReadError (Expr × { r : Tokens // r.length ≤ ts.length }) :=
  match ts with
  | [] => do
    reach e [(1, .frame)]
    match stop with
    | some err => throw (.malformed err)
    | none => pure (acc, ⟨[], by simp⟩)
  | (pos, tok) :: rest => do
    reach e [(1, .frame)]
    if isSymbol tok then reach e [(1, .comparison)]
    match tok with
    | .oper o =>
      if !o.isAdditive then pure (acc, ⟨(pos, tok) :: rest, Nat.le_refl _⟩) else
      reach e [(1, .frame)]
      let (x, ⟨r, hr⟩) ← termAt (e + 1) rest
      reach e buildSteps
      let (x', ⟨r', hr'⟩) ← exprRestAt e (.op o acc x) r
      pure (x', ⟨r', by simp; omega⟩)
    | _ => pure (acc, ⟨(pos, tok) :: rest, Nat.le_refl _⟩)
termination_by (ts.length, 0)

end

end Parser

namespace Expr

/-- Reads dice notation in a frame at level `p`: the stream is set up, the expression is read
one level down, and the stream must then be at its end.  A token after the expression is
reported with both printed into the message. -/
def parseAt (p : Nat) (text : String) : Except ReadError Expr := do
  let whole := Text.stripList text.toList
  let sc := Scan.scanFrom whole 0
  Parser.reach p [(1, .call), (2, .frame), (3, .frame)]
  let (e, ⟨r, _⟩) ← Parser.exprAt whole sc.stop (p + 1) sc.tokens
  match r with
  | [] =>
    match sc.stop with
    | some err => throw (.malformed err)
    | none =>
      Parser.reach p (Parser.takeSeen true ++ [(1, .frame), (2, .frame)])
      pure e
  | (pos, t) :: _ =>
    Parser.reach p (Parser.takeSeen false)
    match t.leaf? with
    | some x => Parser.printStep (x.formattedAt p)
    | none => pure ()
    Parser.printStep (e.formattedAt p)
    Parser.reach p ((1, .frame) :: Excursion.construct)
    throw (.malformed (Parser.faultAt whole (.unexpectedToken t e) pos))

end Expr

end DiceNotation
