import DiceNotation.Fault

/-!
# Rolling dice

A die is thrown by taking one draw `u` from a draw source, meant to lie in `[0, 1)`: its face is
one more than the whole part of `u * sides`.  A whole-number draw multiplies exactly; a float draw
multiplies the float nearest to `sides`, so sides too large for a float, a NaN product and an
infinite product are faults.  Draws outside `[0, 1)` are taken as they are.

A roll throws its dice one after the other.  Its value is the highest face, the lowest face, or
the sum of all faces, as its keep rule says; every face is recorded.  No dice keep no highest
and no lowest face.
-/

-- Sums start from core's zero, also in a file where Mathlib is in scope, so that each
-- definition below is the same term wherever it is read.
attribute [local instance (high)] Zero.ofOfNat0

namespace DiceNotation

/-- Where draws come from: a state, the step that takes one draw from it, and the levels that
taking a draw enters above the frame of the die that asks for it. -/
structure DrawSource (σ : Type) where
  draw : σ → Except Fault (Number × σ)
  steps : Excursion

namespace DrawSource

/-- The draws of a fixed list, in order; the state counts the draws taken.  Asking once more
than the list holds is a fault. -/
def ofList (ds : List Number) : DrawSource Nat :=
  ⟨fun i => match ds[i]? with
    | some u => .ok (u, i + 1)
    | none => .error (.outOfDraws ds.length), [(1, .call), (2, .frame)]⟩

end DrawSource

/-- The outcome of one roll: the sides of its dice, every face thrown, and the value. -/
structure RollRecord where
  die : Int
  faces : List Int
  value : Int
  deriving DecidableEq, Inhabited, Repr

/-- The face a draw `u` gives on a die with `sides` sides. -/
def face (sides : Int) (u : Number) : Except Fault Int :=
  match u with
  | .int n => .ok (1 + n * sides)
  | .bool b => .ok (1 + (if b then sides else 0))
  | .float x =>
    match Binary64.ofInt? sides with
    | none => .error .intTooLarge
    | some s =>
      let p := x * s
      match p.floor? with
      | some k => .ok (1 + k)
      | none => .error (if p.isNaN then .floorOfNaN else .floorOfInfinity)

namespace Keep

/-- The face a keep rule keeps. -/
def pick (k : Keep) (faces : List Int) : Except Fault Int :=
  match faces with
  | [] => .error (.emptyKeep k)
  | f :: fs =>
    match k with
    | highest => .ok (fs.foldl max f)
    | lowest => .ok (fs.foldl min f)

end Keep

namespace Roll

variable {σ : Type} (src : DrawSource σ)

/-- Throws `n` dice with `sides` sides, appending the faces to `acc` in reverse order.  A fault
comes with the state the source is left in: a draw that fails takes nothing, and a draw whose face
cannot be made is taken. -/
def throwDice (sides : Int) (acc : List Int) : Nat → σ → Except (Fault × σ) (List Int × σ)
  | 0, s => .ok (acc, s)
  | n + 1, s =>
    match src.draw s with
    | .error e => .error (e, s)
    | .ok (u, s') =>
      match face sides u with
      | .error e => .error (e, s')
      | .ok f => throwDice sides (f :: acc) n s'

/-- The value of thrown faces under an optional keep rule. -/
def valueOf (keep : Option Keep) (faces : List Int) : Except Fault Int :=
  match keep with
  | some k => k.pick faces
  | none => .ok faces.sum

/-- Throws the dice of a roll; a count below one throws none.  A roll that fails leaves the
draws it took taken, and records nothing. -/
def run (r : Roll) (s : σ) : Except (Fault × σ) (RollRecord × σ) :=
  match throwDice src r.sides [] r.dice.toNat s with
  | .error e => .error e
  | .ok (rev, s') =>
    let faces := rev.reverse
    match valueOf r.keep faces with
    | .error e => .error (e, s')
    | .ok v => .ok (⟨r.sides, faces, v⟩, s')

end Roll

end DiceNotation
