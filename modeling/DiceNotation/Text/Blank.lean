/-!
# Blank characters

The white space of this library is the Unicode set of code points whose bidirectional class is
white space, segment or paragraph separator, or whose category is a space separator: 29 code
points.  It is wider than ASCII white space (the information separators `U+001C`–`U+001F`, the
no-break space, the line and paragraph separators) and excludes the zero width space `U+200B`.
`strip` removes blanks at both ends of a text.
-/

namespace DiceNotation

namespace Text

/-- The 29 blank code points. -/
def isBlank (c : Char) : Bool :=
  let n := c.toNat
  (0x09 ≤ n && n ≤ 0x0D) || (0x1C ≤ n && n ≤ 0x20) || n == 0x85 || n == 0xA0 || n == 0x1680 ||
    (0x2000 ≤ n && n ≤ 0x200A) || n == 0x2028 || n == 0x2029 || n == 0x202F || n == 0x205F ||
    n == 0x3000

/-- Removes blanks at both ends of a list of characters. -/
def stripList (cs : List Char) : List Char :=
  ((cs.dropWhile isBlank).reverse.dropWhile isBlank).reverse

/-- Removes blanks at both ends of a text. -/
def strip (s : String) : String := String.ofList (stripList s.toList)

/-- Every character that core calls white space is blank here. -/
theorem isBlank_of_isWhitespace (c : Char) (h : c.isWhitespace = true) : isBlank c = true := by
  simp only [Char.isWhitespace, Bool.or_eq_true, decide_eq_true_eq] at h
  rcases h with ((h | h) | h) | h <;> subst h <;> decide

end Text

end DiceNotation
