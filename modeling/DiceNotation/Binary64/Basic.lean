/-!
# Binary64: IEEE 754 double precision numbers, computed exactly

A `Binary64` is a finite number `(-1)^neg * m * 2^e`, an infinity, or NaN.  Finite numbers are
kept in canonical form: `m < 2^53`, `-1074 ≤ e ≤ 971`, and either `2^52 ≤ m` (a normal number) or
`e = -1074` (a subnormal number, the two zeros included).  In canonical form two finite numbers
with the same sign are equal exactly when their values are.

Every value this library makes comes out of one function, `Binary64.round`: the exact result of
an operation, given as a ratio of natural numbers times a power of two, goes to the nearest
binary64 number, a tie to the one with an even significand, and anything at or past `2^1024`
after rounding to infinity.  Nothing here runs on the machine's floating point unit, so the value
of each result is a statement about natural numbers.
-/

-- Powers of numbers are core's, also in a file where Mathlib is in scope, so that each
-- definition below is the same term wherever it is read.
attribute [local instance (high)] instPowNat

namespace DiceNotation

/-- Number of decimal digits of `n`; zero has one. -/
def decimalLength (n : Nat) : Nat := (Nat.repr n).length

/-- An IEEE 754 binary64 number: `finite neg m e` is `(-1)^neg * m * 2^e`. -/
inductive Binary64 where
  | finite (neg : Bool) (m : Nat) (e : Int)
  | inf (neg : Bool)
  | nan
  deriving DecidableEq, Inhabited, Repr

namespace Binary64

/-- Exponent of the unit of the subnormal numbers, the least exponent a finite number has. -/
def minExp : Int := -1074

/-- Exponent of the unit of the largest finite numbers. -/
def maxExp : Int := 971

/-- Significands of normal numbers lie in `[2^52, 2^53)`. -/
def hidden : Nat := 2 ^ (52 : Nat)

/-- The zero with the given sign. -/
def zero (neg : Bool) : Binary64 := finite neg 0 minExp

/-- Canonical form of a finite number, as described in the module header. -/
def Canonical : Binary64 → Prop
  | finite _ m e => m < 2 * hidden ∧ minExp ≤ e ∧ e ≤ maxExp ∧ (hidden ≤ m ∨ e = minExp)
  | _ => True

/-- `⌊log₂ (n / d)⌋` for positive `n` and `d`.  The bit lengths bound it to two candidates. -/
def floorLog2 (n d : Nat) : Int :=
  let l : Int := (n.log2 : Int) - (d.log2 : Int)
  if 0 ≤ l then (if d * 2 ^ l.toNat ≤ n then l else l - 1)
  else (if d ≤ n * 2 ^ (-l).toNat then l else l - 1)

/-- `n * 2^s / d` as quotient, remainder and the divisor they refer to. -/
def scaledDivMod (n d : Nat) (s : Int) : Nat × Nat × Nat :=
  if 0 ≤ s then
    let num := n * 2 ^ s.toNat
    (num / d, num % d, d)
  else
    let den := d * 2 ^ (-s).toNat
    (n / den, n % den, den)

/-- A quotient rounded to nearest from its remainder: up when the remainder is more than half
the divisor, and on an exact half only when that makes the quotient even. -/
def roundHalfEven (q r den : Nat) : Nat :=
  if den < 2 * r ∨ (2 * r = den ∧ q % 2 = 1) then q + 1 else q

/-- The binary64 number nearest to `(-1)^neg * (n / d) * 2^k`, for `d > 0`.  A tie goes to the
even significand; a result whose rounded magnitude reaches `2^1024` is infinite; a zero keeps the
sign it is given, as an underflow does. -/
def round (neg : Bool) (n d : Nat) (k : Int) : Binary64 :=
  if n = 0 then zero neg else
  let e := max (floorLog2 n d + k - 52) minExp
  match scaledDivMod n d (k - e) with
  | (q, r, den) =>
    let q' := roundHalfEven q r den
    let m := if q' = 2 * hidden then hidden else q'
    let e' := if q' = 2 * hidden then e + 1 else e
    if maxExp < e' then inf neg else finite neg m e'

/-- The binary64 number nearest to an integer; past the finite range it is infinite. -/
def ofInt (i : Int) : Binary64 := round (i < 0) i.natAbs 1 0

/-- The binary64 number nearest to an integer, or nothing when that would be infinite. -/
def ofInt? (i : Int) : Option Binary64 :=
  match ofInt i with
  | inf _ => none
  | x => some x

/-- The binary64 number nearest to the quotient `a / b` of integers, `b ≠ 0`. -/
def ofRatio (a b : Int) : Binary64 := round ((a < 0) != (b < 0)) a.natAbs b.natAbs 0

/-- The binary64 number nearest to `(-1)^neg * digits * 10^exp10`.  Magnitudes beyond `10^310`
are infinite and below `10^-330` zero without computing them: both lie far past the range. -/
def ofDecimal (neg : Bool) (digits : Nat) (exp10 : Int) : Binary64 :=
  if digits = 0 then zero neg else
  let top := exp10 + decimalLength digits
  if 310 < top then inf neg
  else if top < -330 then zero neg
  else if 0 ≤ exp10 then round neg (digits * 10 ^ exp10.toNat) 1 0
  else round neg digits (10 ^ (-exp10).toNat) 0

/-- Changes the sign; NaN stays NaN. -/
def neg : Binary64 → Binary64
  | finite s m e => finite (!s) m e
  | inf s => inf (!s)
  | nan => nan

instance : Neg Binary64 := ⟨neg⟩

def isNaN : Binary64 → Bool
  | nan => true
  | _ => false

def isInf : Binary64 → Bool
  | inf _ => true
  | _ => false

def isFinite : Binary64 → Bool
  | finite _ _ _ => true
  | _ => false

/-- Either zero. -/
def isZero : Binary64 → Bool
  | finite _ m _ => m = 0
  | _ => false

/-- The sign bit: set for negative numbers, `-0` and `-∞`, clear for NaN. -/
def signBit : Binary64 → Bool
  | finite s _ _ => s
  | inf s => s
  | nan => false

/-- A finite number as a signed integer significand over a binary exponent. -/
def signedSignificand (neg : Bool) (m : Nat) : Int := if neg then -(m : Int) else m

/-- Compares `a * 2^ea` with `b * 2^eb` exactly. -/
def compareScaled (a : Int) (ea : Int) (b : Int) (eb : Int) : Ordering :=
  let base := min ea eb
  compare (a * 2 ^ (ea - base).toNat) (b * 2 ^ (eb - base).toNat)

/-- Whether a finite number is a whole number.  Infinities and NaN are not. -/
def isInteger : Binary64 → Bool
  | finite _ m e => 0 ≤ e || m % 2 ^ (-e).toNat = 0
  | _ => false

/-- The greatest integer not above a finite number; nothing for an infinity or NaN. -/
def floor? : Binary64 → Option Int
  | finite s m e =>
    if 0 ≤ e then some (signedSignificand s (m * 2 ^ e.toNat))
    else
      let q := m / 2 ^ (-e).toNat
      let r := m % 2 ^ (-e).toNat
      some (if s then -(q : Int) - (if r = 0 then 0 else 1) else q)
  | _ => none

end Binary64

end DiceNotation
