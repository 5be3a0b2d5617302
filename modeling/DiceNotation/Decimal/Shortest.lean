import DiceNotation.Binary64.Basic

/-!
# The shortest decimal of a binary64 number

Every finite binary64 number `v = m * 2^e` owns an interval of reals that round to it: halfway to
each neighbour, both ends included exactly when `m` is even (a tie goes to the even significand).
The decimal written for `v` is the one with the fewest significant digits inside that interval,
and of two such the one nearer to `v`, an exact tie going to the even last digit.

For `n` significant digits the candidates lie on the grid `10^(E - n + 1)`, where `E` is the
decimal exponent of `v`.  If any point of that grid lies in the interval, then so does one of the
two grid points around `v`, so testing those two for `n = 1, 2, …` finds the shortest decimal.
Seventeen digits always suffice.  All comparisons are exact, on natural numbers.
-/

-- Powers of numbers are core's, also in a file where Mathlib is in scope, so that each
-- definition below is the same term wherever it is read.
attribute [local instance (high)] instPowNat

namespace DiceNotation

/-- A decimal number `digits * 10^exp`. -/
structure Decimal where
  digits : Nat
  exp : Int
  deriving DecidableEq, Repr

namespace Decimal

/-- Removes trailing zeros of the digits into the exponent; zero stays `0 * 10^exp`. -/
def normalize (d : Decimal) : Decimal :=
  if h : d.digits ≠ 0 ∧ d.digits % 10 = 0 then
    normalize ⟨d.digits / 10, d.exp + 1⟩
  else d
termination_by d.digits
decreasing_by exact Nat.div_lt_self (Nat.pos_of_ne_zero h.1) (by decide)

/-- The significant digits as text. -/
def digitText (d : Decimal) : String := Nat.repr d.digits

/-- Position of the decimal point: the value is `0.ddd * 10^pointPos`. -/
def pointPos (d : Decimal) : Int := d.exp + (decimalLength d.digits : Int)

/-- Compares `c * 10^s` with `w * 2^t` exactly. -/
def compareDecBin (c : Nat) (s : Int) (w : Nat) (t : Int) : Ordering :=
  compare (c * 10 ^ s.toNat * 2 ^ (-t).toNat) (w * 2 ^ t.toNat * 10 ^ (-s).toNat)

/-- `⌊(m * 2^e) / 10^s⌋`. -/
def floorDiv (m : Nat) (e s : Int) : Nat :=
  (m * 2 ^ e.toNat * 10 ^ (-s).toNat) / (2 ^ (-e).toNat * 10 ^ s.toNat)

/-- `⌊log₁₀ (m * 2^e)⌋` for `m > 0`. -/
def floorLog10 (m : Nat) (e : Int) : Int :=
  if 0 ≤ e then (decimalLength (m * 2 ^ e.toNat) : Int) - 1
  else
    let k := (-e).toNat
    let whole := m / 2 ^ k
    if 0 < whole then (decimalLength whole : Int) - 1
    else
      -- below one: the least `j ≥ 1` with `m * 10^j ≥ 2^k` is one of two
      let j := max 1 (decimalLength (2 ^ k) - decimalLength m)
      if 2 ^ k ≤ m * 10 ^ j then -(j : Int) else -((j + 1 : Nat) : Int)

/-- The rounding interval of the finite binary64 number `m * 2^e`, in units of `2^(e-2)`: its
lower and upper ends, and whether they belong to it.  Below a power of two the gap to the
lower neighbour is half as wide, except among the subnormal numbers. -/
def interval (m : Nat) (e : Int) : Nat × Nat × Bool :=
  let lower := if m = Binary64.hidden ∧ Binary64.minExp < e then 4 * m - 1 else 4 * m - 2
  (lower, 4 * m + 2, m % 2 = 0)

/-- Whether `c * 10^s` lies in the rounding interval of `m * 2^e`. -/
def inInterval (m : Nat) (e : Int) (c : Nat) (s : Int) : Bool :=
  match interval m e with
  | (lower, upper, closed) =>
    let aboveLower := match compareDecBin c s lower (e - 2) with
      | .gt => true
      | .eq => closed
      | .lt => false
    let belowUpper := match compareDecBin c s upper (e - 2) with
      | .lt => true
      | .eq => closed
      | .gt => false
    aboveLower && belowUpper

/-- The decimal with `n` significant digits for `m * 2^e` whose decimal exponent is `top`, if
one lies in the rounding interval: of the two grid points around the value, the one inside, or
the nearer, or on a tie the even one. -/
def atDigits (m : Nat) (e top : Int) (n : Nat) : Option Decimal :=
  let s := top - n + 1
  let c := floorDiv m e s
  let below := inInterval m e c s
  let above := inInterval m e (c + 1) s
  if below && above then
    -- twice the value against the midpoint `(2c + 1) * 10^s` of the two
    match compareDecBin (2 * c + 1) s m (e + 1) with
    | .gt => some ⟨c, s⟩
    | .lt => some ⟨c + 1, s⟩
    | .eq => some (if c % 2 = 0 then ⟨c, s⟩ else ⟨c + 1, s⟩)
  else if below then some ⟨c, s⟩
  else if above then some ⟨c + 1, s⟩
  else none

/-- The shortest decimal inside the rounding interval of the finite binary64 number `m * 2^e`,
`m > 0` and canonical, with trailing zeros removed. -/
def shortest (m : Nat) (e : Int) : Decimal :=
  let top := floorLog10 m e
  let found := (List.range 17).findSome? fun i => atDigits m e top (i + 1)
  normalize (found.getD ⟨floorDiv m e (top - 16), top - 16⟩)

end Decimal

namespace Binary64

/-- The sign and shortest decimal of a finite number; zero is `0 * 10^0`. -/
def toDecimal? : Binary64 → Option (Bool × Decimal)
  | finite s m e => some (s, if m = 0 then ⟨0, 0⟩ else Decimal.shortest m e)
  | _ => none

end Binary64

end DiceNotation
