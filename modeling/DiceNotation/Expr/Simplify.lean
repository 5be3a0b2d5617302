import DiceNotation.Expr.Eval

/-!
# Simplifying expressions

Simplification does the arithmetic that needs no dice, bottom up:

* a name bound to an integer or a float (not a truth value) becomes that literal;
* an operation on two literals becomes the literal of its result;
* a chain `x lo a ro b` of two literal steps of one precedence merges into one step, or cancels.

Rolls are never touched, since throwing dice is the evaluator's business.  `rewrite` also tells
whether anything changed; a tree where nothing changes comes back as it is.

Merging keeps the value of `(x lo a) ro b` in exact arithmetic: the same operator twice combines
the literals by sum (for `+` and `-`) or product (for `*` and `/`) under that operator;
different operators and equal literals cancel and leave `x`; otherwise the operator written
before the larger literal is kept, with the difference or quotient of larger over smaller.
-/

namespace DiceNotation

/-- Two literal steps after merging: they cancel, or they are one step. -/
inductive Merged where
  | cancel
  | step (o : Operator) (c : Number)
  deriving DecidableEq, Inhabited, Repr

namespace Merged

/-- The two steps `lo a` and `ro b`, of one precedence, merged. -/
def of (lo : Operator) (a : Number) (ro : Operator) (b : Number) : Merged :=
  if lo = ro then
    step lo ((if lo.isAdditive then Operator.add else Operator.mul).apply a b)
  else if a.eq b then cancel
  else
    let (o, big, small) := if a.gt b then (lo, a, b) else (ro, b, a)
    step o ((if o.isAdditive then Operator.sub else Operator.div).apply big small)

/-- The merged steps applied to the expression on their left. -/
def applyTo (x : Expr) : Merged → Expr
  | cancel => x
  | step o c => .op o x (.lit c)

end Merged

namespace Expr

variable (ctx : Option Bindings)

/-- The literal a name is replaced by: its bound integer or float. -/
def substitute? (x : String) : Option Number :=
  match ctx.bind fun bs => bs.lookup x with
  | some (.num (.int n)) => some (.int n)
  | some (.num (.float f)) => some (.float f)
  | _ => none

/-- Simplifies a tree, and tells whether anything changed. -/
def rewrite : Expr → Expr × Bool
  | lit n => (lit n, false)
  | ref x =>
    match substitute? ctx x with
    | some n => (lit n, true)
    | none => (ref x, false)
  | roll r => (roll r, false)
  | missing => (missing, false)
  | op o l r =>
    let (l', cl) := rewrite l
    let (r', cr) := rewrite r
    match l', r' with
    | lit a, lit b => (lit (o.apply a b), true)
    | op lo x (lit a), lit b =>
      if lo.precedence = o.precedence then ((Merged.of lo a o b).applyTo x, true)
      else (op o l' r', cl || cr)
    | _, _ => (op o l' r', cl || cr)

/-- The simplified tree. -/
def simplify (e : Expr) : Expr := (rewrite ctx e).1

/-- Simplifies a complete tree, and tells whether anything changed; a missing node is a
fault. -/
def simplify? (e : Expr) : Except Fault (Expr × Bool) :=
  if e.complete then .ok (rewrite ctx e) else .error (.missingNode "simplify")

/-- Applying an operator to two numbers: two frames, and the operator read off its class. -/
def applyExcursion : Excursion := [(1, .frame), (2, .frame), (3, .call)]

/-- Building an operation node, which checks its operator in a method of its own. -/
def buildExcursion : Excursion := Excursion.construct ++ [(3, .frame)]

/-- What merging does in its own frame: asking whether an operator is additive reads two
members off the class in a property's frame; then the literal is computed, built, and the step
is built on the expression on the left.  Merging steps that cancel builds nothing. -/
def mergeExcursion (lo : Operator) (a : Number) (ro : Operator) (b : Number) : Excursion :=
  let build := (1, .call) :: applyExcursion ++ Excursion.construct ++ buildExcursion
  if lo = ro then [(1, .frame), (2, .call)] ++ build
  else if a.eq b then []
  else [(1, .frame), (2, .call)] ++ build

/-- Simplifies a tree as `rewrite` does, each node in the frame of its simplifying method at
level `s`, and an operation's rule one level below it with the operands one level further.
Each operand that is not a literal is turned down as one by a class check; the first step past
the call depth limit is a recursion fault, and a missing node fails in its parent's rule. -/
def simplifyAt (s : Nat) : Expr → Except Fault (Expr × Bool)
  | lit n => do
    enterAt s
    pure (lit n, false)
  | roll r => do
    enterAt s
    pure (roll r, false)
  | ref x => do
    enterAt s
    match ctx with
    | none => pure (ref x, false)
    | some _ =>
      Excursion.run s [(1, .instanceCheck)]
      match substitute? ctx x with
      | some n => do
        Excursion.run s Excursion.construct
        pure (lit n, true)
      | none => pure (ref x, false)
  | missing => .error (.missingNode "simplify")
  | op o l r => do
    enterAt s
    enterAt (s + 1)
    let (l', cl) ← simplifyAt (s + 2) l
    let (r', cr) ← simplifyAt (s + 2) r
    let keep : Except Fault (Expr × Bool) :=
      if cl || cr then do
        Excursion.run (s + 1) buildExcursion
        pure (op o l' r', true)
      else pure (op o l r, false)
    match l', r' with
    | lit a, lit b => do
      Excursion.run (s + 1) (applyExcursion ++ Excursion.construct)
      pure (lit (o.apply a b), true)
    | op lo x y, lit b => do
      Excursion.run (s + 1) (Excursion.otherKindCheck ++ [(1, .frame), (1, .frame)])
      if lo.precedence = o.precedence then
        match y with
        | lit a => do
          Excursion.run (s + 1) ((1, .frame) :: (mergeExcursion lo a o b).lift 1)
          pure ((Merged.of lo a o b).applyTo x, true)
        | _ => do
          Excursion.run (s + 1) Excursion.otherKindCheck
          keep
      else keep
    | _, _ => do
      Excursion.run (s + 1) (Excursion.otherKindCheck ++ Excursion.otherKindCheck)
      keep

end Expr

end DiceNotation
