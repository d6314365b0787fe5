import MessagePattern.Command.Arguments

/-!
# The command line

The program has three commands: to compile a pattern, to match one against the
segments of a file, and to explain one in words. A command line is read by the
grammar of the program and, from the name of the command on, by the grammar of the
command.
-/

namespace MessagePattern

open Arguments (Opt Grammar Stop Taken)

inductive OutputFormat where
  | text
  | json
  deriving DecidableEq, Repr

inductive Command where
  | compile (pattern : String) (format : OutputFormat) (out : String)
  /-- Matches a pattern against the segments of a file, with field rules from
  another. -/
  | matching (pattern segments : String) (rules : Option String) (format : OutputFormat)
      (out : String)
  | explain (pattern : String)
  deriving DecidableEq, Repr

namespace Command

def helpOption : Opt :=
  ⟨["-h", "--help"], .help⟩

def formatOption : Opt :=
  ⟨["--format"], .store "format" (some ["text", "json"])⟩

def pathOption (key : String) : Opt :=
  ⟨["--" ++ key], .store key none⟩

/-- The grammar of the program; its argument is the command. -/
def programGrammar : Grammar :=
  { options :=
      [helpOption, ⟨["-V", "--version"], .version⟩, ⟨["-v", "--verbose"], .flag "verbose"⟩]
    greedy := true }

def compileGrammar : Grammar :=
  { options := [helpOption, formatOption, pathOption "out"], greedy := false }

def matchGrammar : Grammar :=
  { options :=
      [helpOption, pathOption "segments", pathOption "mapping", formatOption, pathOption "out"]
    greedy := false }

def explainGrammar : Grammar :=
  { options := [helpOption], greedy := false }

/-- What was asked for, once unknown arguments are refused. -/
def settled (t : Taken) : Except Stop (List String) :=
  match t.argument, t.unknown with
  | some args, [] => .ok args
  | _, _ => .error .usage

def patternOf (t : Taken) : Except Stop String := do
  match ← settled t with
  | [pattern] => return pattern
  | _ => throw .usage

def formatOf (t : Taken) : OutputFormat :=
  if t.stored.get? "format" = some "json" then .json else .text

def outOf (t : Taken) : String :=
  (t.stored.get? "out").getD "-"

def ofArguments (name : String) (args : List String) : Except Stop Command :=
  match name with
  | "compile" => do
    let t ← compileGrammar.read args
    return compile (← patternOf t) (formatOf t) (outOf t)
  | "match" => do
    let t ← matchGrammar.read args
    let pattern ← patternOf t
    match t.stored.get? "segments" with
    | none => throw .usage
    | some segments =>
      return matching pattern segments (t.stored.get? "mapping") (formatOf t) (outOf t)
  | "explain" => do
    let t ← explainGrammar.read args
    return explain (← patternOf t)
  | _ => .error .usage

/-- Reads a command line. What the program's own grammar does not know is refused
last, after the command was read. -/
def ofLine (args : List String) : Except Stop Command := do
  let t ← programGrammar.read args
  match t.argument with
  | some (name :: rest) =>
    let command ← ofArguments name rest
    if t.unknown.isEmpty then return command else throw .usage
  | _ => throw .usage

end Command

end MessagePattern
