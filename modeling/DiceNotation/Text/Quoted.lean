import DiceNotation.Text.Printable

/-!
# Quoted text

Messages show a piece of text between quotes, so that blanks and invisible characters can be
seen.  The quote is `'`, or `"` when the text holds a `'` and no `"`.  Inside, the quote and the
backslash get a backslash in front; tab, line feed and carriage return are written `\t`, `\n`,
`\r`; other ASCII control characters `\xhh`; and non-ASCII characters that are not printable
`\xhh`, `\uhhhh` or `\Uhhhhhhhh` by size, in lower-case hexadecimal.
-/

-- Powers of numbers are core's, also in a file where Mathlib is in scope, so that each
-- definition below is the same term wherever it is read.
attribute [local instance (high)] instPowNat

namespace DiceNotation

namespace Text

/-- The last `width` hexadecimal digits of `n`, lower case. -/
def hexDigits (width n : Nat) : List Char :=
  (List.range width).reverse.map fun i =>
    let d := n / 16 ^ i % 16
    if d < 10 then Char.ofNat (48 + d) else Char.ofNat (87 + d)

/-- How one character is written between the quotes `q`. -/
def escapeChar (q c : Char) : List Char :=
  let n := c.toNat
  if c == q || c == '\\' then ['\\', c]
  else if c == '\t' then ['\\', 't']
  else if c == '\n' then ['\\', 'n']
  else if c == '\r' then ['\\', 'r']
  else if n < 0x20 || n == 0x7F then '\\' :: 'x' :: hexDigits 2 n
  else if n < 0x7F || isPrintable c then [c]
  else if n ≤ 0xFF then '\\' :: 'x' :: hexDigits 2 n
  else if n ≤ 0xFFFF then '\\' :: 'u' :: hexDigits 4 n
  else '\\' :: 'U' :: hexDigits 8 n

/-- The quote a text is written between. -/
def quoteFor (s : String) : Char :=
  if s.toList.contains '\'' && !s.toList.contains '"' then '"' else '\''

/-- A text between quotes, with escapes as described in the module header. -/
def quoted (s : String) : String :=
  let q := quoteFor s
  String.ofList (q :: s.toList.flatMap (escapeChar q) ++ [q])

end Text

end DiceNotation
