import DiceNotation.Numeral

/-!
# Reading the command line

The command line is a command name, then the command's options and its one argument, the
expression, in any order.

* `roll` takes `--var NAME=VALUE` (`-V`, repeatable), `--seed N` (`-s`), `--quiet` (`-q`),
  `--config PATH` (`-c`) and `--verbose`; `simplify` takes `--var`, `--config` and `--verbose`;
  `format` and `check` take no options.  Every command takes `--help`.
* A long option's value is the next argument, or follows an `=` in the same argument.  Short
  options may be run together, `-qs7`; a short option that takes a value takes the rest of the
  argument, or else the next argument, whatever it looks like.
* An argument that starts with `-` and has more characters is an option; after `--` every
  argument is plain.  An option the command does not take, a value missing or given to an option
  that takes none, a missing or second argument and a seed that is no integer numeral are usage
  errors.
* `--help` wins over the other faults except those of reading options.  The command name itself
  may be preceded by `--help` and by `--`.
-/

namespace DiceNotation

/-- The commands. -/
inductive Command where
  /-- Throw the dice and evaluate. -/
  | roll
  /-- Do the arithmetic that needs no dice and no unknown names. -/
  | simplify
  /-- Print the canonical text. -/
  | format
  /-- Check that the expression reads. -/
  | check
  deriving DecidableEq, Repr

/-- The options of the commands. -/
inductive Opt where
  | var
  | seed
  | quiet
  | config
  | verbose
  | help
  deriving DecidableEq, Repr

namespace Opt

/-- The long name of an option. -/
def long : Opt → String
  | var => "--var"
  | seed => "--seed"
  | quiet => "--quiet"
  | config => "--config"
  | verbose => "--verbose"
  | help => "--help"

/-- The letter of an option's short name, if it has one. -/
def short? : Opt → Option Char
  | var => some 'V'
  | seed => some 's'
  | quiet => some 'q'
  | config => some 'c'
  | _ => none

/-- Whether an option takes a value. -/
def takesValue : Opt → Bool
  | var | seed | config => true
  | _ => false

end Opt

namespace Command

/-- The command of a name. -/
def ofName? : String → Option Command
  | "roll" => some roll
  | "simplify" => some simplify
  | "format" => some format
  | "check" => some check
  | _ => none

/-- The options a command takes. -/
def options : Command → List Opt
  | roll => [.var, .seed, .quiet, .config, .verbose, .help]
  | simplify => [.var, .config, .verbose, .help]
  | format | check => [.help]

end Command

/-- Why a command line cannot be used. -/
inductive UsageError where
  /-- No command was named. -/
  | noCommand
  /-- The command name is unknown. -/
  | noSuchCommand (name : String)
  /-- An option is not taken here. -/
  | noSuchOption (name : String)
  /-- An option that takes a value is last. -/
  | missingValue (name : String)
  /-- A value was given to an option that takes none. -/
  | unwantedValue (name : String)
  /-- The expression is missing. -/
  | missingArgument
  /-- More than one argument was given. -/
  | extraArgument (arg : String)
  /-- The seed is no integer numeral. -/
  | badSeed (text : String)
  deriving DecidableEq, Repr

/-- What the options and arguments of a command line say, in the order given. -/
structure Given where
  args : List String := []
  values : List (Opt × String) := []
  flags : List Opt := []
  deriving Repr

namespace Given

/-- Records an option, with its value when it takes one. -/
def add (g : Given) (o : Opt) (v : Option String) : Given :=
  match v with
  | some v => { g with values := g.values ++ [(o, v)] }
  | none => { g with flags := g.flags ++ [o] }

/-- The values of an option, in order. -/
def valuesOf (g : Given) (o : Opt) : List String :=
  g.values.filterMap fun (o', v) => if o' = o then some v else none

/-- The last value of an option. -/
def lastOf? (g : Given) (o : Opt) : Option String := (g.valuesOf o).getLast?

/-- Whether a flag was given. -/
def has (g : Given) (o : Opt) : Bool := g.flags.contains o

end Given

/-- A run of short options after the `-`; `rest` is the arguments after this one. -/
def shortRun (opts : List Opt) (rest : List String) :
    List Char → Given → Except UsageError (Given × { r : List String // r.length ≤ rest.length })
  | [], g => .ok (g, ⟨rest, Nat.le_refl _⟩)
  | c :: more, g =>
    match opts.find? (fun o => o.short? = some c) with
    | none => .error (.noSuchOption (String.ofList ['-', c]))
    | some o =>
      if o.takesValue then
        if more.isEmpty then
          match rest with
          | [] => .error (.missingValue (String.ofList ['-', c]))
          | v :: rest' => .ok (g.add o (some v), ⟨rest', Nat.le_succ _⟩)
        else .ok (g.add o (some (String.ofList more)), ⟨rest, Nat.le_refl _⟩)
      else shortRun opts rest more (g.add o none)

/-- Splits an option argument at its first `=`. -/
def splitValue (a : String) : String × Option String :=
  let cs := a.toList
  let name := cs.takeWhile (· != '=')
  match cs.drop name.length with
  | _ :: v => (String.ofList name, some (String.ofList v))
  | [] => (a, none)

/-- One option argument `a`: a long option first, else a run of short options; `rest` is the
arguments after it. -/
def optionArg (opts : List Opt) (a : String) (rest : List String) (g : Given) :
    Except UsageError (Given × { r : List String // r.length ≤ rest.length }) :=
  let (name, v) := splitValue a
  match opts.find? (fun o => o.long = name) with
  | some o =>
    if o.takesValue then
      match v with
      | some v => .ok (g.add o (some v), ⟨rest, Nat.le_refl _⟩)
      | none =>
        match rest with
        | [] => .error (.missingValue name)
        | v :: rest' => .ok (g.add o (some v), ⟨rest', Nat.le_succ _⟩)
    else if v.isSome then .error (.unwantedValue name)
    else .ok (g.add o none, ⟨rest, Nat.le_refl _⟩)
  | none =>
    if a.toList.take 2 = ['-', '-'] then .error (.noSuchOption name)
    else shortRun opts rest (a.toList.drop 1) g

/-- Whether an argument is an option: it starts with `-` and has more characters. -/
def isOptionArg (a : String) : Bool := a.toList.head? = some '-' && a.length > 1

/-- Reads the arguments of a command with options `opts`. -/
def readArgs (opts : List Opt) (args : List String) (g : Given) : Except UsageError Given :=
  match args with
  | [] => .ok g
  | a :: rest =>
    if a = "--" then .ok { g with args := g.args ++ rest }
    else if isOptionArg a then
      match optionArg opts a rest g with
      | .error e => .error e
      | .ok (g', ⟨rest', _⟩) => readArgs opts rest' g'
    else readArgs opts rest { g with args := g.args ++ [a] }
termination_by args.length
decreasing_by all_goals simp only [List.length_cons]; omega

/-- A command line that asks for a command to be run. -/
structure Request where
  command : Command
  expression : String
  vars : List String
  seed : Option Int
  quiet : Bool
  config : Option String
  deriving Repr

/-- What a command line asks for: a command to run, or the help. -/
inductive Invocation where
  | run (r : Request)
  | help
  deriving Repr

/-- The request of a command's arguments that were read. -/
def Command.request (c : Command) (g : Given) : Except UsageError Invocation :=
  if g.has .help then .ok .help
  else
    match g.args with
    | [] => .error .missingArgument
    | [e] =>
      let seed := g.lastOf? .seed
      match seed.map fun s => (s, Numeral.readInt? s) with
      | some (s, none) => .error (.badSeed s)
      | some (_, some n) => .ok (.run ⟨c, e, g.valuesOf .var, some n, g.has .quiet, g.lastOf? .config⟩)
      | none => .ok (.run ⟨c, e, g.valuesOf .var, none, g.has .quiet, g.lastOf? .config⟩)
    | _ :: extra :: _ => .error (.extraArgument extra)

/-- Reads the command name and what follows it, after any `--help` and one `--`. -/
def readCommand (help : Bool) : List String → Except UsageError Invocation
  | [] => if help then .ok .help else .error .noCommand
  | a :: rest =>
    if a = "--" then
      match rest with
      | [] => if help then .ok .help else .error .noCommand
      | name :: args => if help then .ok .help else commandArgs name args
    else if isOptionArg a then
      if a = "--help" then readCommand true rest
      else .error (.noSuchOption (splitValue a).1)
    else if help then .ok .help
    else commandArgs a rest
where
  commandArgs (name : String) (args : List String) : Except UsageError Invocation :=
    match Command.ofName? name with
    | none => .error (.noSuchCommand name)
    | some c =>
      match readArgs c.options args {} with
      | .error e => .error e
      | .ok g => c.request g

/-- Reads a command line: the arguments after the program's name. -/
def Invocation.read (args : List String) : Except UsageError Invocation :=
  if args.isEmpty then .error .noCommand else readCommand false args

end DiceNotation
