import DiceNotation.Text.CellWidth
import DiceNotation.Text.Blank

/-!
# Wrapping text to a width

Text written to the console is broken into lines of at most a given number of cells.

* The characters bell, backspace, vertical tab, form feed and carriage return are dropped.
* The text is split at line feeds, and each piece is wrapped on its own.  Tabs become spaces up
  to the next multiple of eight cells.
* A piece is read as words: the blanks before a run of other characters, the run, and the blanks
  after it.  Words fill a line while they fit, blanks after the last one not counted; a word that
  does not fit starts the next line.  A word wider than a whole line is either folded, cut into
  pieces that fill one line each, or kept whole on a line of its own.
* A line longer than the width in characters loses blanks at its end, as many as it is too long.
  Then it is placed: as it is, padded on the right, or moved to the right edge.  A line that is
  still too wide is cut to the width; when long words are not folded, its last cell is an
  ellipsis.
-/

namespace DiceNotation

namespace Console

open Text (cellWidth cellLength isBlank)

/-- Whether the console drops a character: bell, backspace, vertical tab, form feed and
carriage return. -/
def isDropped (c : Char) : Bool := [7, 8, 11, 12, 13].contains c.toNat

/-- Text without the characters the console drops. -/
def dropControls (cs : List Char) : List Char := cs.filter fun c => !isDropped c

/-- The pieces of a text between line feeds; a text without one is a single piece. -/
def splitLines (cs : List Char) : List (List Char) :=
  go [] cs
where
  go (acc : List Char) : List Char → List (List Char)
    | [] => [acc.reverse]
    | c :: rest => if c = '\n' then acc.reverse :: go [] rest else go (c :: acc) rest

/-- Tabs replaced by spaces up to the next multiple of eight cells, `pos` cells being used
before the piece `part` (kept in reverse) that has been read since the last tab.  Each piece up
to a tab, the tab counted as a space, is measured as a whole. -/
def expandTabs (pos : Nat) (part : List Char) : List Char → List Char
  | [] => part.reverse
  | c :: rest =>
    if c = '\t' then
      let piece := (' ' :: part).reverse
      let used := pos + cellLength piece
      let pad := (8 - used % 8) % 8
      piece ++ List.replicate pad ' ' ++ expandTabs (used + pad) [] rest
    else expandTabs pos (c :: part) rest

/-- Where a word being read has got to: its leading blanks, its run of other characters, or its
trailing blanks. -/
inductive WordPart where
  | lead
  | body
  | trail

/-- The words of the rest of a line, `acc` holding the word read so far in reverse. -/
def wordsFrom : WordPart → List Char → List Char → List (List Char)
  | .lead, _, [] => []
  | _, acc, [] => [acc.reverse]
  | part, acc, c :: rest =>
    if isBlank c then
      wordsFrom (match part with | .lead => .lead | _ => .trail) (c :: acc) rest
    else match part with
      | .trail => acc.reverse :: wordsFrom .body [c] rest
      | _ => wordsFrom .body (c :: acc) rest

/-- The words of a line, in order: each is its leading blanks, a run of other characters and
its trailing blanks.  Blanks that no other character follows belong to no word. -/
def words (cs : List Char) : List (List Char) := wordsFrom .lead [] cs

/-- Text without the blanks at its end. -/
def dropEndBlanks (cs : List Char) : List Char := (cs.reverse.dropWhile isBlank).reverse

/-- Text cut into pieces of at most `width` cells, each filled with whole graphemes before the
next begins; a grapheme wider than the whole width starts a piece of its own. -/
def chopCells (width : Nat) (cs : List Char) : List (List Char) :=
  go [] 0 (Text.graphemes cs)
where
  go (line : List Char) (used : Nat) : List Text.Grapheme → List (List Char)
    | [] => [line.reverse]
    | g :: gs =>
      if used + g.cells > width then line.reverse :: go g.chars.reverse g.cells gs
      else go (g.chars.reverse ++ line) (used + g.cells) gs

/-- The breaks before the pieces of a cut word that starts at `start`, and the cells the last
piece takes.  No break goes at the very start of the text. -/
def pieceBreaks (start : Nat) : List (List Char) → List Nat × Nat
  | [] => ([], 0)
  | [p] => (if start = 0 then [] else [start], cellLength p)
  | p :: ps =>
    let (bs, used) := pieceBreaks (start + p.length) ps
    (if start = 0 then bs else start :: bs, used)

/-- What becomes of text too wide for its line. -/
inductive Overflow where
  /-- Long words are folded onto further lines, and lines cut to the width. -/
  | fold
  /-- Long words stay whole, and a line too wide is cut to one cell less and ends in `…`. -/
  | ellipsis
  deriving DecidableEq

/-- The positions, in characters, where a line of words is broken to fit `width` cells; the
next word starts at `start` and `used` cells of the current line are taken. -/
def breaksFrom (o : Overflow) (width : Nat) : List (List Char) → Nat → Int → List Nat
  | [], _, _ => []
  | w :: rest, start, used =>
    let need := cellLength (dropEndBlanks w)
    let next := start + w.length
    if (need : Int) ≤ width - used then breaksFrom o width rest next (used + cellLength w)
    else if need > width then
      match o with
      | .fold =>
        let (bs, last) := pieceBreaks start (chopCells width w)
        bs ++ breaksFrom o width rest next last
      | .ellipsis =>
        (if start = 0 then [] else [start]) ++ breaksFrom o width rest next (cellLength w)
    else if used ≠ 0 ∧ start ≠ 0 then start :: breaksFrom o width rest next (cellLength w)
    else breaksFrom o width rest next used

/-- The positions where a line is broken to fit `width` cells. -/
def breaks (o : Overflow) (width : Nat) (cs : List Char) : List Nat :=
  breaksFrom o width (words cs) 0 0

/-- A line cut at increasing positions; `pos` is the position of the line's first character. -/
def cutAt (pos : Nat) (cs : List Char) : List Nat → List (List Char)
  | [] => [cs]
  | b :: bs => cs.take (b - pos) :: cutAt b (cs.drop (b - pos)) bs

/-- A line that is more than `width` characters long without as many of its end blanks as it
has characters too many. -/
def trimToWidth (width : Nat) (cs : List Char) : List Char :=
  if cs.length > width then
    let blanks := (cs.reverse.takeWhile isBlank).length
    cs.take (cs.length - min blanks (cs.length - width))
  else cs

/-- Whether every character of a text is one of a set that surely takes one cell each: printable
ASCII, Latin-1 and the Latin, phonetic and spacing modifier letters after it, Greek and Cyrillic,
box drawing and geometric shapes, and Braille. -/
def isPlainNarrow (cs : List Char) : Bool :=
  cs.all fun c =>
    let n := c.toNat
    (0x20 ≤ n && n ≤ 0x7E) || (0xA0 ≤ n && n ≤ 0xAC) || (0xAE ≤ n && n ≤ 0x2FF) ||
      (0x370 ≤ n && n ≤ 0x482) || (0x2500 ≤ n && n ≤ 0x25FC) || (0x2800 ≤ n && n ≤ 0x28FF)

/-- The first `n` characters, or for a negative `n` all but the last `-n`. -/
def takeSigned (n : Int) (cs : List Char) : List Char :=
  if 0 ≤ n then cs.take n.toNat else cs.take (cs.length - n.natAbs)

/-- Binary search for the longest start of a text that takes `total` cells: between `lo` and
`hi` characters, one more than `pos` characters are tried.  A start that overshoots by a wide
last character ends in a space instead of it. -/
def cutSearch (cs : List Char) (total : Nat) : Nat → Nat → Nat → List Char
  | 0, _, _ => cs.take total
  | fuel + 1, lo, hi =>
    let pos := (lo + hi) / 2
    let before := cs.take (pos + 1)
    let len := cellLength before
    if len = total + 1 ∧ (before.getLast?.map fun c => cellLength [c]) = some 2 then before.dropLast ++ [' ']
    else if len = total then before
    else if len > total then cutSearch cs total fuel lo pos
    else cutSearch cs total fuel pos hi

/-- Text made exactly `total` cells wide: padded with spaces, or cut. -/
def setCells (total : Int) (cs : List Char) : List Char :=
  if isPlainNarrow cs then
    if (cs.length : Int) < total then cs ++ List.replicate (total.toNat - cs.length) ' '
    else takeSigned total cs
  else if total ≤ 0 then []
  else
    let size := cellLength cs
    if size = total.toNat then cs
    else if size < total.toNat then cs ++ List.replicate (total.toNat - size) ' '
    else cutSearch cs total.toNat (cs.length + 2) 0 cs.length

/-- A line cut to `width` cells when it is wider. -/
def truncate (o : Overflow) (width : Nat) (cs : List Char) : List Char :=
  if cellLength cs > width then
    match o with
    | .fold => setCells width cs
    | .ellipsis => setCells ((width : Int) - 1) cs ++ ['…']
  else cs

/-- How lines are placed in their width. -/
inductive Justify where
  /-- As they are. -/
  | plain
  /-- Padded with spaces on the right. -/
  | left
  /-- Without end blanks, moved to the right edge. -/
  | right
  deriving DecidableEq

/-- A line placed in `width` cells. -/
def place (o : Overflow) (j : Justify) (width : Nat) (cs : List Char) : List Char :=
  match j with
  | .plain => cs
  | .left =>
    let len := cellLength cs
    let cut := truncate o width cs
    if len < width then cut ++ List.replicate (width - len) ' ' else cut
  | .right =>
    let cut := truncate o width (dropEndBlanks cs)
    List.replicate (width - cellLength cut) ' ' ++ cut

/-- One line without line feeds wrapped to `width` cells. -/
def wrapLine (o : Overflow) (j : Justify) (width : Nat) (cs : List Char) : List (List Char) :=
  let cs := if cs.contains '\t' then expandTabs 0 [] cs else cs
  (cutAt 0 cs (breaks o width cs)).map fun l =>
    truncate o width (place o j width (trimToWidth width l))

/-- Text wrapped to `width` cells: every piece between line feeds is wrapped on its own. -/
def wrap (o : Overflow) (j : Justify) (width : Nat) (cs : List Char) : List (List Char) :=
  (splitLines cs).flatMap (wrapLine o j width)

/-- The width of the console. -/
def width : Nat := 80

/-- What the console prints for a text: its lines, wrapped to the console's width, each ended
by a line feed. -/
def render (cs : List Char) : String :=
  String.join ((wrap .fold .plain width (dropControls cs)).map fun l => String.ofList l ++ "\n")

end Console

end DiceNotation
