import DiceNotation.Console.Wrap

/-!
# Tables

A table has a header row and rows of text cells.  Every cell has one space of padding on each
side, columns are divided by one space, and the table has an edge of one space on each side: a
blank line above and below it, and a rule of `─` under the header.

**Widths.**  A cell's text needs at least its widest word and at most its widest line; with the
padding, and never more than the room there is.  A column is as wide as the most any of its cells
needs, and at least one.  The room is the console's width less the edges and dividers.  When the
columns take more than the room, the widest columns are narrowed together, step by step, until
they fit; then each column takes the width its cells need within its new width.

**Rows.**  A cell's text is wrapped to its column's width less the padding, long words kept
whole and cut with an ellipsis, and placed as the column says.  A row is as high as its highest cell; the header's cells sit at the bottom of
their row and the other cells at the top.
-/

-- Sums start from core's zero, also in a file where Mathlib is in scope, so that each
-- definition below is the same term wherever it is read.
attribute [local instance (high)] Zero.ofOfNat0

namespace DiceNotation

namespace Console

/-- A column: its header and how its cells are placed. -/
structure Column where
  header : String
  justify : Justify

/-- A table: its columns, and its rows, one text per column. -/
structure Table where
  columns : List Column
  rows : List (List String)

/-- How wide a rendering is: at least `least` cells, at most `most`. -/
structure Extent where
  least : Nat
  most : Nat
  deriving DecidableEq, Repr

namespace Extent

/-- Both bounds at most `w`. -/
def atMost (e : Extent) (w : Nat) : Extent := ⟨min e.least w, min e.most w⟩

/-- The least bound at most the most bound. -/
def settle (e : Extent) : Extent := ⟨min e.least e.most, e.most⟩

/-- Limited to `w` cells; nothing at all when that leaves less than one cell. -/
def within (e : Extent) (w : Nat) : Extent :=
  let e := (e.settle.atMost w)
  if e.most < 1 then ⟨0, 0⟩ else e.settle

end Extent

/-- The greatest of some numbers, `0` for none. -/
def greatest (ns : List Nat) : Nat := ns.foldl max 0

/-- What a text needs: its widest word and its widest line. -/
def textExtent (s : String) : Extent :=
  let cs := s.toList
  let most := greatest ((splitLines cs).map Text.cellLength)
  let ws := (words cs).map fun w => Text.cellLength (Text.stripList w)
  ⟨if ws.isEmpty then most else greatest ws, most⟩

/-- What a padded cell needs when there are `room` cells. -/
def cellExtent (room : Nat) (s : String) : Extent :=
  if room < 1 then ⟨0, 0⟩
  else if room < 3 then ⟨room, room⟩
  else
    let e := (textExtent s).within room
    (Extent.mk (e.least + 2) (e.most + 2)).atMost room |>.within room

/-- The cells of a column, header first. -/
def Table.cellsOf (t : Table) (i : Nat) : List String :=
  ((t.columns[i]?).map Column.header).toList ++ t.rows.filterMap fun r => r[i]?

/-- What a column needs when there are `room` cells. -/
def Table.columnExtent (t : Table) (room : Nat) (i : Nat) : Extent :=
  if room < 1 then ⟨0, 0⟩
  else
    let es := (t.cellsOf i).map (cellExtent room)
    (Extent.mk (greatest (es.map Extent.least)) (greatest (es.map Extent.most))).atMost room

/-- The nearest whole number to `a / b`, halves going to the even one; `0` when `b` is `0`. -/
def roundRatio (a b : Nat) : Nat :=
  if b = 0 then 0
  else
    let q := a / b
    let r := a % b
    if 2 * r < b then q else if 2 * r > b then q + 1 else if q % 2 = 0 then q else q + 1

/-- Takes `total` away from the values with a positive ratio and maximum, shared out in
proportion to the ratios, each share at most its maximum and rounded to the nearest. -/
def reduceBy (total : Nat) (ratios maxima values : List Nat) : List Nat :=
  let rs := (ratios.zip maxima).map fun (r, m) => if m = 0 then 0 else r
  go total rs.sum (rs.zip (maxima.zip values))
where
  go (left totalRatio : Nat) : List (Nat × Nat × Nat) → List Nat
    | [] => []
    | (r, m, v) :: rest =>
      if r ≠ 0 ∧ totalRatio > 0 then
        let d := min m (roundRatio (r * left) totalRatio)
        (v - d) :: go (left - d) (totalRatio - r) rest
      else v :: go left totalRatio rest

/-- One step of narrowing: the widest columns lose together what is too much, at most down to
the next widest; `none` when no step can be taken. -/
def narrowStep (room : Nat) (ws : List Nat) : Option (List Nat) :=
  let widest := greatest ws
  let next := greatest (ws.map fun w => if w = widest then 0 else w)
  let excess := ws.sum - room
  if widest = 0 ∨ widest = next then none
  else
    some (reduceBy excess (ws.map fun w => if w = widest then 1 else 0)
      (ws.map fun _ => min excess (widest - next)) ws)

/-- Widths narrowed step by step until they fit in `room`, for at most `fuel` steps. -/
def narrow (room : Nat) : Nat → List Nat → List Nat
  | 0, ws => ws
  | fuel + 1, ws =>
    if ws.sum = 0 ∨ ws.sum ≤ room then ws
    else match narrowStep room ws with
      | none => ws
      | some ws' => narrow room fuel ws'

/-- The widths of the columns, padding included, for a console of `total` cells. -/
def Table.widths (t : Table) (total : Nat) : List Nat :=
  let n := t.columns.length
  let room := total - (2 + (n - 1))
  let idx := List.range n
  let ws := idx.map fun i => let m := (t.columnExtent room i).most; if m = 0 then 1 else m
  if ws.sum ≤ room then ws
  else
    let ws := narrow room (ws.sum + 1) ws
    let ws := if ws.sum > room then reduceBy (ws.sum - room) (ws.map fun _ => 1) ws ws else ws
    (idx.zip ws).map fun (i, w) => (t.columnExtent w i).most

/-- The lines of one cell of width `w`, padding included. -/
def cellLines (j : Justify) (w : Nat) (s : String) : List (List Char) :=
  if w < 3 then []
  else (wrap .ellipsis j (w - 2) (dropControls s.toList)).map fun l => ' ' :: setCells (w - 2) l ++ [' ']

/-- The lines of a row, each cell made `height` lines high with blank lines of its width, below
its lines or, when `bottom`, above them. -/
def rowLines (bottom : Bool) (cells : List (Nat × List (List Char))) : List (List Char) :=
  let height := max 1 (greatest (cells.map fun c => c.2.length))
  let shaped := cells.map fun (w, ls) =>
    let blank := List.replicate (height - ls.length) (List.replicate w ' ')
    if bottom then blank ++ ls else ls ++ blank
  (List.range height).map fun k =>
    ' ' :: (List.intercalate [' '] (shaped.map fun ls => ls.getD k [])) ++ [' ']

/-- The lines of a table on a console of `total` cells. -/
def Table.lines (t : Table) (total : Nat) : List (List Char) :=
  let ws := t.widths total
  let row (bottom : Bool) (texts : List String) : List (List Char) :=
    rowLines bottom ((ws.zip (t.columns.zip texts)).map fun (w, c, s) => (w, cellLines c.justify w s))
  let blank := List.replicate (ws.sum + ws.length + 1) ' '
  let rule := ' ' :: List.replicate (ws.sum + ws.length - 1) '─' ++ [' ']
  [blank] ++ row true (t.columns.map Column.header) ++ [rule] ++
    t.rows.flatMap (row false) ++ [blank]

/-- What the console prints for a table: its lines, each ended by a line feed. -/
def Table.render (t : Table) : String :=
  String.join ((t.lines width).map fun l => String.ofList l ++ "\n")

end Console

end DiceNotation
