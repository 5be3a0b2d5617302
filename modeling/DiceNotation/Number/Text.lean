import DiceNotation.Number.Basic
import DiceNotation.Decimal.Layout

/-!
# Numbers as values are written

A float standing as a value is written with the fewest significant digits that read back as the
same float: positionally while the decimal point stays within sixteen places left of the first
digit and three places right of it, with `.0` after a whole number, and otherwise as one digit,
the others after a point, and a signed exponent of at least two digits (`1e-05`, `1e+16`).  The
special values are `inf`, `-inf` and `nan`; the negative zero is `-0.0`.

An integer is written in decimal, or in lower-case hexadecimal when it is too long for decimal
text.
-/

namespace DiceNotation

namespace Binary64

/-- The layout of floats as values. -/
def valueLayout : Layout := ⟨some (-3), some 16, true, "e", true, 2, "inf", "nan"⟩

/-- A float as a value is written. -/
def text (x : Binary64) : String := valueLayout.writeBinary64 x

end Binary64

namespace Number

/-- Lower-case hexadecimal digits of a natural number, most significant first. -/
def hexDigits (n : Nat) : String := String.ofList (Nat.toDigits 16 n)

/-- An integer in hexadecimal with a `0x` mark, the sign in front. -/
def hexText (n : Int) : String := (if n < 0 then "-0x" else "0x") ++ hexDigits n.natAbs

end Number

end DiceNotation
