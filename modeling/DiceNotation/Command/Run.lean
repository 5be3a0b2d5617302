import DiceNotation.Command.Line
import DiceNotation.Console.Table
import DiceNotation.Expr.ParseDepth
import DiceNotation.Expr.Simplify
import DiceNotation.Expr.Printer
import DiceNotation.Assignment
import DiceNotation.Settings
import DiceNotation.Random.Twister

/-!
# Running a command

A run gives an exit code, the text printed, and the error it stopped with, if any.

* `roll` loads the settings, reads the expression, reads the `--var` values over the settings'
  variables, and evaluates with dice thrown by a Mersenne Twister seeded with the seed.  It
  prints `<expression> = <total>` and, unless `--quiet` is given or the settings turn it off, a
  table of the rolls.
* `simplify` loads the settings, reads the expression and the variables, and prints the
  simplified expression; `format` prints the expression's canonical text; `check` prints `OK`
  and that text.
* An expression that does not read prints `Syntax error: <message>`, then the place and the
  rest of the text when there is any, and exits with 1.  A bad `--var` or a usage error exits
  with 2 and prints nothing.  Settings that cannot be loaded, and faults while evaluating or
  printing, stop the run with exit code 1 and an error.

Settings come from the file a `--config` path names, or else from `rollex.toml` in the working
directory; a file that does not exist gives the defaults.

A command runs in a frame at level `Command.level`; loading the settings, reading, evaluating,
simplifying and printing run below it at the levels the interpreter gives them, so an expression
or a settings file nested deeply enough stops the run with a recursion fault.
-/

namespace DiceNotation

/-- The outcome of a run: the exit code, the text printed, and the error it stopped with, as
the name of its kind and its message. -/
structure Report where
  exitCode : Nat
  stdout : String
  error : Option (String × String) := none
  deriving DecidableEq, Repr

namespace Report

/-- A run stopped by a fault after printing `out`. -/
def ofFault (out : String) (f : Fault) : Report := ⟨1, out, some (f.className, f.message)⟩

/-- A usage error: exit code 2, nothing printed. -/
def usage : Report := ⟨2, "", none⟩

end Report

namespace Command

/-- The call depth of the frame a command runs in. -/
def level : Nat := 12

/-- The parts of a path, without empty and `.` parts. -/
def pathParts (p : String) : List String := (p.splitOn "/").filter fun s => s ≠ "" ∧ s ≠ "."

/-- The root a path starts from: none for a relative path, `//` for a path that starts with
exactly two slashes, else `/`. -/
def pathRoot (p : String) : String :=
  if p.startsWith "///" then "/"
  else if p.startsWith "//" then "//"
  else if p.startsWith "/" then "/"
  else ""

/-- A path as it is shown: its root, then its parts joined by `/`; `.` for no path at all. -/
def pathText (p : String) : String :=
  let text := pathRoot p ++ "/".intercalate (pathParts p)
  if text.isEmpty then "." else text

/-- The directories an absolute path reaches after `..` parts go up: the parts from the root. -/
def climb (acc : List String) : List String → List String
  | [] => acc.reverse
  | ".." :: rest => climb acc.tail rest
  | part :: rest => climb (part :: acc) rest

/-- The directories every machine the program runs on has, as parts from the root. -/
def standardDirectories : List (List String) :=
  [[], ["bin"], ["boot"], ["dev"], ["etc"], ["home"], ["lib"], ["lib64"], ["media"], ["mnt"],
    ["opt"], ["proc"], ["root"], ["run"], ["sbin"], ["srv"], ["sys"], ["tmp"], ["usr"], ["var"],
    ["usr", "bin"], ["usr", "lib"], ["usr", "local"], ["usr", "sbin"], ["usr", "share"],
    ["usr", "include"], ["usr", "src"], ["usr", "local", "bin"], ["usr", "local", "lib"],
    ["var", "log"], ["var", "tmp"], ["var", "lib"], ["var", "cache"], ["dev", "shm"]]

/-- Whether a path names a directory: one made of `..` parts only, from the working directory,
or one of the standard directories. -/
def isDirectory (p : String) : Bool :=
  let parts := pathParts p
  if (pathRoot p).isEmpty then parts.all (· = "..")
  else standardDirectories.contains (climb [] parts)

/-- The text of the settings file at `path` (the working directory's `rollex.toml` when there
is no path), `file` being the text of `rollex.toml` if it exists.  A path that names a
directory is an error; any other path names no file. -/
def settingsText (path : Option String) (file : Option String) :
    Except (String × String) (Option String) :=
  match path with
  | none => .ok file
  | some p =>
    if isDirectory p then
      .error ("IsADirectoryError", "[Errno 21] Is a directory: " ++ Text.quoted (pathText p))
    else if (pathRoot p).isEmpty && pathParts p = ["rollex.toml"] then .ok file
    else .ok none

/-- The settings of a run. -/
def settings (path : Option String) (file : Option String) :
    Except (String × String) Settings :=
  match settingsText path file with
  | .error e => .error e
  | .ok text => (Settings.load (level + 4) text).mapError fun e => (e.className, e.message)

/-- What a syntax error prints. -/
def syntaxErrorText (e : ParseError) : String :=
  "Syntax error: " ++ e.message ++
    (if e.text.isEmpty then "" else "\n  at offset " ++ toString e.position ++ ": " ++ e.text)

/-- Reads the expression of a run, two levels below the command's frame: a syntax error is
printed and ends the run with exit code 1, and a recursion fault stops it. -/
def readExpression (text : String) : Except Report Expr :=
  match Expr.parseAt (level + 2) text with
  | .ok e => .ok e
  | .error (.malformed e) => .error ⟨1, Console.render (syntaxErrorText e).toList, none⟩
  | .error (.tooDeep e) => .error (Report.ofFault "" (.tooDeep e))

/-- The bindings of a run: the `--var` values, then the settings' variables. -/
def bindings (vars settingsVars : List (String × Number)) : Bindings :=
  (vars ++ settingsVars).map fun (x, n) => (x, .num n)

/-- The text of a total; only numbers have one. -/
def totalText : Value → Except Fault String
  | .num n => n.text?
  | v => .error (.notReal v.kindName)

/-- The columns of the table of rolls. -/
def rollColumns : List Console.Column :=
  [⟨"#", .right⟩, ⟨"Die", .left⟩, ⟨"Rolls", .left⟩, ⟨"Value", .right⟩]

/-- The row of the `i`-th roll: its number, die, faces and value. -/
def rollRow (i : Nat) (r : RollRecord) : Except Fault (List String) := do
  let die ← (Number.int r.die).text?
  let faces ← r.faces.mapM fun f => (Number.int f).text?
  let value ← (Number.int r.value).text?
  pure [toString i, "d" ++ die, ", ".intercalate faces, value]

/-- The rows of the table of rolls, numbered from 1. -/
def rollRows (rs : List RollRecord) : Except Fault (List (List String)) :=
  (rs.zipIdx 1).mapM fun (r, i) => rollRow i r

/-- Runs `roll`: evaluates with dice from a generator seeded with the seed, or with `entropy`
when no seed is given. -/
def runRoll (r : Request) (file : Option String) (entropy : Int) : Report :=
  match settings r.config file with
  | .error (kind, msg) => ⟨1, "", some (kind, msg)⟩
  | .ok st =>
    match readExpression r.expression with
    | .error rep => rep
    | .ok expr =>
      match Assignment.readAll r.vars with
      | .error _ => Report.usage
      | .ok vars =>
        let ctx := bindings vars st.named
        match expr.evalAt (some ctx) Twister.source (level + 1) (Twister.ofSeed (r.seed.getD entropy)) with
        | .error x => Report.ofFault "" x.fault
        | .ok out =>
          match expr.textAt level with
          | .error f => Report.ofFault "" f
          | .ok shown =>
            match totalText out.value with
            | .error f => Report.ofFault "" f
            | .ok total =>
              let line := Console.render (shown ++ " = " ++ total).toList
              if st.showRolls && !r.quiet && !out.rolls.isEmpty then
                match rollRows out.rolls with
                | .error f => Report.ofFault line f
                | .ok rows => ⟨0, line ++ (Console.Table.mk rollColumns rows).render, none⟩
              else ⟨0, line, none⟩

/-- Runs `simplify`. -/
def runSimplify (r : Request) (file : Option String) : Report :=
  match settings r.config file with
  | .error (kind, msg) => ⟨1, "", some (kind, msg)⟩
  | .ok st =>
    match readExpression r.expression with
    | .error rep => rep
    | .ok expr =>
      match Assignment.readAll r.vars with
      | .error _ => Report.usage
      | .ok vars =>
        match expr.simplifyAt (some (bindings vars st.named)) (level + 2) with
        | .error f => Report.ofFault "" f
        | .ok (e, _) =>
          match e.textAt level with
          | .error f => Report.ofFault "" f
          | .ok text => ⟨0, Console.render text.toList, none⟩

/-- Runs `format` or `check`: prints the canonical text, got by `print`, after `before`. -/
def runShow (r : Request) (before : String) (print : Expr → Except Fault String) : Report :=
  match readExpression r.expression with
  | .error rep => rep
  | .ok expr =>
    match print expr with
    | .error f => Report.ofFault "" f
    | .ok text => ⟨0, Console.render (before ++ text).toList, none⟩

end Command

/-- Runs a request. -/
def Request.run (r : Request) (file : Option String) (entropy : Int) : Report :=
  match r.command with
  | .roll => Command.runRoll r file entropy
  | .simplify => Command.runSimplify r file
  | .format => Command.runShow r "" (Expr.textAt Command.level)
  | .check => Command.runShow r "OK " (Expr.formattedAt Command.level)

/-- Runs a command line: the arguments after the program's name, the text of `rollex.toml` in
the working directory if there is one, and the seed for dice when none is given.  Asking for
help succeeds without printing anything here. -/
def runCommandLine (args : List String) (file : Option String) (entropy : Int) : Report :=
  match Invocation.read args with
  | .error _ => Report.usage
  | .ok .help => ⟨0, "", none⟩
  | .ok (.run r) => r.run file entropy

end DiceNotation
