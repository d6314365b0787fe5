import MessagePattern.Command.Line
import MessagePattern.Explain
import MessagePattern.File.Output
import MessagePattern.File.Records
import MessagePattern.Match.Message

/-!
# Running commands

A command reads files and the standard input and delivers one output, to the
standard output or to a file. It ends with an exit code: 0 if it did its work, 1 if a
message did not match, 2 if something was refused. What is refused is said on the
error output, and then nothing is delivered.
-/

namespace MessagePattern

open File (Sources Delivery Storage)

inductive CommandFault where
  | pattern (error : PatternError)
  | reading (fault : File.ReadFault)
  | matching (refusal : Refusal)
  | value (fault : Json.WriteFault)
  /-- A path names no file to write to. -/
  | saving (path : String) (fault : File.PathFault)

/-- The wording of why a command was given up. -/
def CommandFault.message : CommandFault → String
  | pattern error => error.message
  | reading fault => fault.message
  | matching refusal => refusal.message
  | value fault => fault.message
  | saving path fault => fault.message path

/-- How a run ends, and the files of the storage then. -/
structure Outcome (σ : Type) where
  code : Nat
  output : String := ""
  errors : String := ""
  files : σ

namespace Command

def versionText : String := "segmatch 0.1.0\n"

def usageText : String :=
  "usage: segmatch [-h] [-V] [-v] \x7bcompile,match,explain\x7d ...\n"

/-- A text, unless a value in it has no JSON text. -/
def worded {α : Type} (answer : Except Json.WriteFault α) : Except CommandFault α :=
  answer.mapError .value

def deliverLines (text out : String) : Delivery :=
  File.deliverText (File.completeLine text) out

def tokensOf (pattern : String) : Except CommandFault (List Token) :=
  (MessagePattern.compile pattern).mapError .pattern

/-- The records of tokens, one per line. -/
def tokenLines (tokens : List Token) : Except Json.WriteFault String := do
  let lines ← tokens.mapM fun t => Json.write .line false t.toRecord
  return joinLines lines

def runCompile (pattern : String) (format : OutputFormat) (out : String) :
    Except CommandFault Delivery := do
  let tokens ← tokensOf pattern
  match format with
  | .json => worded (File.deliverJson (.list (tokens.map Token.toRecord)) out)
  | .text => return deliverLines (← worded (tokenLines tokens)) out

/-- The field rules that were asked for. A path that is empty stands for none. -/
def rulesOf (sources : Sources) (path : Option String) :
    Except File.ReadFault (Option RawRules) :=
  match path with
  | none => .ok none
  | some "" => .ok none
  | some path => do
    let entries ← sources.rules path
    return some (.table (entries.map fun (k, v) => (.text k, v)) .none)

def findMatch (sources : Sources) (pattern segments : String) (rules : Option String) :
    Except CommandFault (Option MatchResult) := do
  let segments ← (sources.segments segments).mapError .reading
  let rules ← (rulesOf sources rules).mapError .reading
  let message := Value.list (segments.map Segment.toValue)
  (matchMessage (.pattern pattern) message rules .builtin).mapError .matching

def matchRecord : Option MatchResult → Value
  | none => .dict [("match", .bool false)]
  | some r => .dict (("match", .bool true) :: r.toRecord.entries?.getD [])

def deliverMatch (result : Option MatchResult) (format : OutputFormat) (out : String) :
    Except Json.WriteFault Delivery := do
  match format with
  | .json => File.deliverJson (matchRecord result) out
  | .text => return deliverLines (← explainResult result) out

def runExplain (pattern : String) : Except CommandFault Delivery := do
  let lines ← worded (explainTokens (← tokensOf pattern))
  return File.deliverText ("PATTERN: " ++ pattern ++ "\n" ++ lines ++ "\n") File.standard

/-- Runs a command: its exit code and its delivery. -/
def run (command : Command) (sources : Sources) : Except CommandFault (Nat × Delivery) := do
  match command with
  | compile pattern format out => return (0, ← runCompile pattern format out)
  | matching pattern segments rules format out =>
    let result ← findMatch sources pattern segments rules
    return (if result.isSome then 0 else 1, ← worded (deliverMatch result format out))
  | explain pattern => return (0, ← runExplain pattern)

/-- Runs a command on a storage and stores what it delivers. -/
def runIn {σ : Type} [Storage σ] (command : Command) (files : σ) (input : String) :
    Except CommandFault (Outcome σ) := do
  let (code, delivery) ← command.run (.of files input)
  let files ← (delivery.store files).mapError fun (path, fault) => .saving path fault
  return { code, output := delivery.output, files }

def refusal {σ : Type} (fault : CommandFault) (files : σ) : Outcome σ :=
  { code := 2, errors := "error: " ++ fault.message ++ "\n", files }

def outcome {σ : Type} [Storage σ] (command : Command) (files : σ) (input : String) : Outcome σ :=
  match command.runIn files input with
  | .ok outcome => outcome
  | .error fault => refusal fault files

def reads : Command → List String
  | compile _ _ _ => []
  | explain _ => []
  | matching _ segments rules _ _ => segments :: rules.toList

end Command

/-- How a command line that names no command ends. -/
def Arguments.Stop.outcome {σ : Type} (stop : Arguments.Stop) (files : σ) : Outcome σ :=
  match stop with
  | .usage => { code := 2, errors := Command.usageText, files }
  | .help => { code := 0, output := Command.usageText, files }
  | .version => { code := 0, output := Command.versionText, files }

end MessagePattern
