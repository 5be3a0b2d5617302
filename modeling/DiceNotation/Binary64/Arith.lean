import DiceNotation.Binary64.Basic

/-!
# Binary64 arithmetic

Sum, difference, product and quotient of binary64 numbers, each the exact result rounded once by
`Binary64.round`.  The special cases are those of IEEE 754 in its default rounding mode:

* NaN in, NaN out; `∞ - ∞`, `0 * ∞`, `∞ / ∞` and `0 / 0` are NaN.
* An exact sum of zero is `+0`, except `-0 + -0 = -0`.
* Products and quotients carry the exclusive or of the signs, zeros and infinities included;
  a nonzero number over zero is an infinity.

Exact comparisons, where `-0 = +0` and NaN is unordered, close the module.
-/

-- Powers of numbers are core's, also in a file where Mathlib is in scope, so that each
-- definition below is the same term wherever it is read.
attribute [local instance (high)] instPowNat

namespace DiceNotation

namespace Binary64

/-- IEEE sum. -/
def add : Binary64 → Binary64 → Binary64
  | nan, _ => nan
  | _, nan => nan
  | inf a, inf b => if a = b then inf a else nan
  | inf a, finite _ _ _ => inf a
  | finite _ _ _, inf b => inf b
  | finite s1 m1 e1, finite s2 m2 e2 =>
    if m1 = 0 ∧ m2 = 0 then zero (s1 && s2) else
    let base := min e1 e2
    let c := signedSignificand s1 (m1 * 2 ^ (e1 - base).toNat)
      + signedSignificand s2 (m2 * 2 ^ (e2 - base).toNat)
    if c = 0 then zero false else round (c < 0) c.natAbs 1 base

/-- IEEE difference: the sum with the negated right operand. -/
def sub (x y : Binary64) : Binary64 := add x (neg y)

/-- IEEE product. -/
def mul : Binary64 → Binary64 → Binary64
  | nan, _ => nan
  | _, nan => nan
  | inf a, inf b => inf (a != b)
  | inf a, finite b m _ => if m = 0 then nan else inf (a != b)
  | finite a m _, inf b => if m = 0 then nan else inf (a != b)
  | finite a m1 e1, finite b m2 e2 => round (a != b) (m1 * m2) 1 (e1 + e2)

/-- IEEE quotient. -/
def div : Binary64 → Binary64 → Binary64
  | nan, _ => nan
  | _, nan => nan
  | inf _, inf _ => nan
  | inf a, finite b _ _ => inf (a != b)
  | finite a _ _, inf b => zero (a != b)
  | finite a m1 e1, finite b m2 e2 =>
    if m2 = 0 then (if m1 = 0 then nan else inf (a != b))
    else round (a != b) m1 m2 (e1 - e2)

instance : Add Binary64 := ⟨add⟩
instance : Sub Binary64 := ⟨sub⟩
instance : Mul Binary64 := ⟨mul⟩
instance : Div Binary64 := ⟨div⟩

/-- Exact order of two numbers; `none` when either is NaN.  The zeros are equal. -/
def compare? : Binary64 → Binary64 → Option Ordering
  | nan, _ => none
  | _, nan => none
  | inf a, inf b => some (if a = b then .eq else if a then .lt else .gt)
  | inf a, finite _ _ _ => some (if a then .lt else .gt)
  | finite _ _ _, inf b => some (if b then .gt else .lt)
  | finite s1 m1 e1, finite s2 m2 e2 =>
    some (compareScaled (signedSignificand s1 m1) e1 (signedSignificand s2 m2) e2)

/-- IEEE equality: false whenever NaN is involved, true for `-0` and `+0`. -/
def eq (x y : Binary64) : Bool := compare? x y == some .eq

end Binary64

end DiceNotation
