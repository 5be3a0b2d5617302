import DiceNotation.Dice
import DiceNotation.Value

/-!
# Evaluating expressions

An expression is evaluated against bindings of names and a draw source.  A literal is its number;
a name is the value it is bound to, or `0` when it is unbound or when there are no bindings at
all; a roll throws its dice and is worth the roll's value; an operation evaluates its left
operand, then its right one, then applies its operator.  So dice are thrown left to right, depth
first, and the records of the rolls come out in that order.

Evaluation that meets a fault stops there, but what it did before stays done: the records of the
rolls made so far stay in the caller's sink, and the draws taken stay taken (`Stop`).  `calculate`
is the entry point that appends the records to a sink the caller may pass.
-/

namespace DiceNotation

/-- Values bound to names; looking up takes the first binding of a name. -/
abbrev Bindings := List (String × Value)

/-- What evaluation gives back: the value, the record of every roll in order, and the state of
the draw source. -/
structure Outcome (σ : Type) where
  value : Value
  rolls : List RollRecord
  source : σ

/-- Where evaluation stops at a fault: the fault, the records of the rolls made before it, in
order, and the state the draw source is left in. -/
structure Stop (σ : Type) where
  fault : Fault
  rolls : List RollRecord
  source : σ

namespace Stop

variable {σ α : Type}

/-- A stop reached after the rolls recorded in `rs`. -/
def after (rs : List RollRecord) (x : Stop σ) : Stop σ := { x with rolls := rs ++ x.rolls }

/-- A step that can only fail, taken after the rolls recorded in `rs` with the draw source in
state `s`: its fault stops evaluation there. -/
def lift (rs : List RollRecord) (s : σ) (m : Except Fault α) : Except (Stop σ) α :=
  m.mapError fun f => ⟨f, rs, s⟩

@[simp] theorem after_nil (x : Stop σ) : x.after [] = x := rfl

@[simp] theorem after_after (rs rs' : List RollRecord) (x : Stop σ) :
    (x.after rs').after rs = x.after (rs ++ rs') := by
  simp [after]

@[simp] theorem lift_ok (rs : List RollRecord) (s : σ) (a : α) : lift rs s (.ok a) = .ok a := rfl

@[simp] theorem lift_error (rs : List RollRecord) (s : σ) (f : Fault) :
    lift rs s (.error f : Except Fault α) = .error ⟨f, rs, s⟩ := rfl

end Stop

/-- What a caller gets from evaluating: the value or the fault, its sink, if it passed one, with
the records of the rolls made appended, and the state of the draw source. -/
def deliver {σ : Type} (sink : Option (List RollRecord)) :
    Except (Stop σ) (Outcome σ) → Except Fault Value × Option (List RollRecord) × σ
  | .ok o => (.ok o.value, sink.map (· ++ o.rolls), o.source)
  | .error x => (.error x.fault, sink.map (· ++ x.rolls), x.source)

namespace Expr

variable {σ : Type} (ctx : Option Bindings) (src : DrawSource σ)

/-- The value of a name: unbound names and the absence of bindings give `0`. -/
def lookup (x : String) : Value :=
  match ctx with
  | none => .num (.int 0)
  | some bs => (bs.lookup x).getD (.num (.int 0))

/-- Evaluates an expression, throwing dice from the draw source in state `s`. -/
def eval : Expr → σ → Except (Stop σ) (Outcome σ)
  | lit n, s => .ok ⟨.num n, [], s⟩
  | ref x, s => .ok ⟨lookup ctx x, [], s⟩
  | roll r, s =>
    match r.run src s with
    | .error (e, s') => .error ⟨e, [], s'⟩
    | .ok (rec, s') => .ok ⟨.num (.int rec.value), [rec], s'⟩
  | op o l r, s =>
    match l.eval s with
    | .error x => .error x
    | .ok a =>
      match r.eval a.source with
      | .error x => .error (x.after a.rolls)
      | .ok b =>
        match Value.apply o a.value b.value with
        | .error e => .error ⟨e, a.rolls ++ b.rolls, b.source⟩
        | .ok v => .ok ⟨v, a.rolls ++ b.rolls, b.source⟩
  | missing, s => .error ⟨.missingNode "calc", [], s⟩

/-- What throwing a roll's dice does on top of the roll's frame: the roll runs in a frame of its
own and throws the dice in a comprehension of its own, each die in a frame of its own that takes
a draw from the source.  With no dice to throw, the keep rule is read off its enumeration, and
an empty throw without a keep rule is logged and recorded, each in two frames. -/
def throwExcursion (r : Roll) : Excursion :=
  if r.dice < 1 then
    [(1, .frame), (2, .frame), (2, .call)] ++
      (if r.keep.isNone then [(2, .frame), (3, .frame)] else [])
  else [(1, .frame), (2, .frame), (3, .frame)] ++ src.steps.lift 3

/-- Evaluates an expression as `eval` does, each node in a frame one level below its parent's,
starting at level `d`.  The first step past the call depth limit is a recursion fault; a missing
node fails in its parent's frame. -/
def evalAt (d : Nat) : Expr → σ → Except (Stop σ) (Outcome σ)
  | lit n, s => do
    Stop.lift [] s (enterAt d)
    pure ⟨.num n, [], s⟩
  | ref x, s => do
    Stop.lift [] s (enterAt d)
    pure ⟨lookup ctx x, [], s⟩
  | roll r, s => do
    Stop.lift [] s (enterAt d)
    Stop.lift [] s (Excursion.run d (throwExcursion src r))
    match r.run src s with
    | .error (.outOfDraws k, s') =>
      Stop.lift [] s' (Excursion.run d [(6, .call)])
      .error ⟨.outOfDraws k, [], s'⟩
    | .error (e, s') => .error ⟨e, [], s'⟩
    | .ok (rec, s') => pure ⟨.num (.int rec.value), [rec], s'⟩
  | op o l r, s => do
    Stop.lift [] s (enterAt d)
    let a ← evalAt (d + 1) l s
    let b ← (evalAt (d + 1) r a.source).mapError (Stop.after a.rolls)
    Stop.lift (a.rolls ++ b.rolls) b.source (Excursion.run d [(1, .frame), (2, .frame), (3, .call)])
    let v ← Stop.lift (a.rolls ++ b.rolls) b.source (Value.apply o a.value b.value)
    pure ⟨v, a.rolls ++ b.rolls, b.source⟩
  | missing, s => .error ⟨.missingNode "calc", [], s⟩

/-- Evaluates from level `d` as the calculator's entry point does, with `sink` the caller's list
of roll records, if it passes one: the record of every roll made is appended to it, also when
evaluation stops at a fault. -/
def calculate (sink : Option (List RollRecord)) (d : Nat) (e : Expr) (s : σ) :
    Except Fault Value × Option (List RollRecord) × σ :=
  deliver sink (evalAt ctx src d e s)

end Expr

end DiceNotation
