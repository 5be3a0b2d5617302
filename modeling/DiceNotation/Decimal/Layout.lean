import DiceNotation.Decimal.Shortest

/-!
# Writing a decimal: positional or with an exponent

A `Layout` records the decisions of one number format: for which positions of the decimal point
the digits are written positionally, whether a whole number keeps a `.0`, how an exponent is
marked, signed and padded, and how the special values are spelled.  `Layout.write` applies them
to a sign and a `Decimal`; `Layout.writeBinary64` to a binary64 number through its shortest
decimal.
-/

namespace DiceNotation

/-- The decisions of a number format. -/
structure Layout where
  /-- Least position of the decimal point written positionally (`0.ddd * 10^pos`); `none`:
  no lower limit. -/
  lowestPoint : Option Int
  /-- Greatest position of the decimal point written positionally; `none`: no upper limit. -/
  highestPoint : Option Int
  /-- A positional whole number ends in `.0`. -/
  pointZero : Bool
  /-- The text between digits and exponent. -/
  expMark : String
  /-- A nonnegative exponent is written with `+`. -/
  expPlus : Bool
  /-- Least number of exponent digits, padded with zeros. -/
  expDigits : Nat
  /-- Spelling of a positive infinity; a negative one has a minus in front. -/
  infText : String
  /-- Spelling of NaN. -/
  nanText : String

namespace Layout

/-- Whether the point position `p` is written positionally. -/
def positional (L : Layout) (p : Int) : Bool :=
  (L.lowestPoint.all fun lo => lo ≤ p) && (L.highestPoint.all fun hi => p ≤ hi)

/-- `n` zeros. -/
def zeros (n : Nat) : String := String.ofList (List.replicate n '0')

/-- The digits `ds` with the decimal point at position `p`, as in `0.ds * 10^p`. -/
def placePoint (L : Layout) (ds : String) (p : Int) : String :=
  let n := ds.length
  if p ≤ 0 then "0." ++ zeros (-p).toNat ++ ds
  else if p < n then
    String.ofList (ds.toList.take p.toNat) ++ "." ++ String.ofList (ds.toList.drop p.toNat)
  else ds ++ zeros (p.toNat - n) ++ (if L.pointZero then ".0" else "")

/-- The digits `ds` as `d.ddd` followed by the exponent `x`. -/
def withExponent (L : Layout) (ds : String) (x : Int) : String :=
  let mantissa := match ds.toList with
    | [] => "0"
    | [d] => String.singleton d
    | d :: rest => String.singleton d ++ "." ++ String.ofList rest
  let sign := if x < 0 then "-" else if L.expPlus then "+" else ""
  let body := Nat.repr x.natAbs
  mantissa ++ L.expMark ++ sign ++ zeros (L.expDigits - body.length) ++ body

/-- A signed decimal in this layout. -/
def write (L : Layout) (neg : Bool) (d : Decimal) : String :=
  let ds := d.digitText
  let p := d.pointPos
  (if neg then "-" else "") ++
    (if L.positional p then L.placePoint ds p else L.withExponent ds (p - 1))

/-- A binary64 number in this layout, finite ones through their shortest decimal. -/
def writeBinary64 (L : Layout) (x : Binary64) : String :=
  match x with
  | .nan => L.nanText
  | .inf neg => (if neg then "-" else "") ++ L.infText
  | .finite neg m e =>
    L.write neg (if m = 0 then ⟨0, 0⟩ else Decimal.shortest m e)

end Layout

end DiceNotation
