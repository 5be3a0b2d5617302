/-!
# Call depth

The interpreter that runs dice notation counts how deeply its calls are nested, and refuses to
go past a fixed limit: the step that would go one level past it fails with a recursion fault,
whose message names the kind of step.  Running a function takes a level for its frame; a call
into a built-in function, a comparison of two objects, an instance check against a class that
decides it by itself, and getting the text of an object each take a level for as long as they
last.

Reading, printing, evaluating and simplifying an expression nest calls as deeply as the
expression is deep, so a deep enough expression runs into the limit; so does a deep enough TOML
value.  The reader, printer, evaluator and simplifier carry the level of the frame they run in,
and describe what each step does on top of it as an `Excursion`: the levels above the current
one that it enters, one after another, each with its kind.  The first entry that lies past the
limit is the fault.
-/

namespace DiceNotation

/-- The kind of step that enters a level. -/
inductive Entry where
  /-- Running a function: its frame. -/
  | frame
  /-- Calling a built-in function or a type. -/
  | call
  /-- Comparing two objects. -/
  | comparison
  /-- Asking a class whether an object is one of its instances. -/
  | instanceCheck
  /-- Getting the text of an object. -/
  | textOf
  /-- Getting the printed representation of an object. -/
  | reprOf
  deriving DecidableEq, Inhabited, Repr

namespace Entry

/-- The words a recursion fault adds after `maximum recursion depth exceeded`. -/
def suffix : Entry → String
  | frame => ""
  | call => " while calling a Python object"
  | comparison => " in comparison"
  | instanceCheck => " in __instancecheck__"
  | textOf => " while getting the str of an object"
  | reprOf => " while getting the repr of an object"

end Entry

/-- The deepest level a step may enter. -/
def depthLimit : Nat := 1000

/-- The levels a step enters, one after another, each given by its height above the level of
the frame the step runs in. -/
abbrev Excursion := List (Nat × Entry)

namespace Excursion

/-- The first entry of an excursion made from level `d` that lies past the limit. -/
def firstPast (d : Nat) (x : Excursion) : Option Entry :=
  (x.find? fun e => depthLimit < d + e.1).map Prod.snd

/-- The excursion made from a frame `k` levels higher. -/
def lift (k : Nat) (x : Excursion) : Excursion := x.map fun e => (e.1 + k, e.2)

/-- Entering the frame of a function called from the current one. -/
def enterFrame : Excursion := [(1, .frame)]

/-- Building a node: calling its class, running the generated initialiser in a frame of its
own, and setting each field through a call. -/
def construct : Excursion := [(1, .call), (2, .frame), (3, .call)]

/-- Asking the abstract class of one kind of node whether a node of another kind is one of its
instances: the class's check runs in a frame of its own and finds the node's class among the
classes it has already turned down, comparing two references to it and then the classes they
refer to. -/
def otherKindCheck : Excursion :=
  [(1, .instanceCheck), (2, .frame), (3, .comparison), (4, .comparison)]

/-- Reading a member of an enumeration off its class, which runs the class's attribute hook
through a call. -/
def memberLookup : Excursion := [(1, .call)]

/-- Looking up an enumeration member by its value: calling the class, running its call and
creation in frames of their own, and reading two class attributes on the way. -/
def memberByValue : Excursion := [(1, .call), (2, .frame), (3, .call), (3, .frame), (4, .call)]

end Excursion

end DiceNotation
