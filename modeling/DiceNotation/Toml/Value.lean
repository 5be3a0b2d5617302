import DiceNotation.Binary64.Basic

/-!
# TOML documents

The values of a TOML document: texts, integers, floats, truth values, dates and times, arrays and
tables.  A table keeps its keys in the order they were first written.  Dates and times are kept
as written; nothing here looks inside them.

Building a document adds values at key paths.  A path goes through tables and, for an array of
tables, through its last table; `Table.modifyAt` walks such a path, making the tables that are
missing, and fails when the path meets a value that is no table.
-/

namespace DiceNotation

namespace Toml

/-- A TOML value. -/
inductive Value where
  | text (s : String)
  | int (n : Int)
  | float (x : Binary64)
  | bool (b : Bool)
  | moment (written : String)
  | array (xs : List Value)
  | table (kvs : List (String × Value))
  deriving Inhabited

/-- A table: keys with their values, in the order the keys were first written. -/
abbrev Table := List (String × Value)

namespace Table

/-- The value of a key. -/
def get? (t : Table) (k : String) : Option Value := t.lookup k

/-- Whether a key is present. -/
def has (t : Table) (k : String) : Bool := t.any (·.1 == k)

/-- Sets the value of a key, in place if it is present, else at the end. -/
def set (t : Table) (k : String) (v : Value) : Table :=
  if t.has k then t.map fun (k', v') => if k' == k then (k', v) else (k', v') else t ++ [(k, v)]

/-- Changes the last element of a list; an empty list is an error. -/
def modifyLast {α ε : Type} (f : α → Except ε α) (none_ : ε) : List α → Except ε (List α)
  | [] => .error none_
  | [a] => (f a).map fun b => [b]
  | a :: rest => (modifyLast f none_ rest).map (a :: ·)

/-- Changes the table at a key path, making missing tables on the way.  With `throughArrays`,
an array on the path stands for its last element.  Where the path meets anything else the
result is the error `blocked`. -/
def modifyAt {ε : Type} (throughArrays : Bool) (f : Table → Except ε Table) (blocked : ε) :
    List String → Table → Except ε Table
  | [], t => f t
  | k :: ks, t =>
    match t.get? k with
    | none => (modifyAt throughArrays f blocked ks []).map fun inner => t.set k (.table inner)
    | some (.table inner) =>
      (modifyAt throughArrays f blocked ks inner).map fun inner' => t.set k (.table inner')
    | some (.array xs) =>
      if throughArrays then
        (modifyLast (fun v => match v with
          | .table inner => (modifyAt throughArrays f blocked ks inner).map Value.table
          | _ => .error blocked) blocked xs).map fun xs' => t.set k (.array xs')
      else .error blocked
    | some _ => .error blocked

end Table

end Toml

end DiceNotation
