import MessagePattern.Json.Printer
import MessagePattern.Match.Result

/-!
# Patterns and results in words

A token is described by a phrase, a pattern by one numbered line per token, and
a result by its parameters, the segments taken and the segments left. Names and
texts are quoted, other values are shown as JSON; the only way to fail is a
value that has no JSON text.
-/

namespace MessagePattern

open Text (quoted)

/-! ## Tokens -/

def Token.describe : Token → Except Json.WriteFault String
  | literal text optional =>
    .ok (if optional then "optional separator space" else "literal " ++ quoted text)
  | typedLiteral kind value =>
    .ok (if value = "" then "any " ++ kind ++ " segment"
      else kind ++ " segment equal to " ++ quoted value)
  | parameter name dataType optional default => do
    let phrase := (if optional then "optional " else "required ") ++ dataType ++
      " parameter " ++ quoted name
    match default with
    | none => return phrase
    | some v => return phrase ++ " (default " ++ (← Json.write .line true v) ++ ")"
  | rest name dataType =>
    let kinds :=
      match dataType with
      | none => "segments"
      | some "" => "segments"
      | some kind => kind ++ " segments"
    .ok ("rest of the " ++ kinds ++ " as " ++ quoted name)

/-- The wording for a value that was to be described and is no token. -/
def noTokenMessage (found : Value) : String :=
  "not a pattern token: " ++ found.display

/-- A number, set to the right in three places. -/
def lineNumber (n : Nat) : List Char :=
  let ds := Decimal.digits n
  List.replicate (3 - ds.length) ' ' ++ ds

def numberedLine (n : Nat) (t : Token) : Except Json.WriteFault String := do
  return String.ofList (lineNumber n) ++ ". " ++ (← t.describe)

/-- The lines for some tokens, the first of which has the number given. -/
def numberedLines (n : Nat) : List Token → Except Json.WriteFault (List String)
  | [] => .ok []
  | t :: rest => do
    let line ← numberedLine n t
    return line :: (← numberedLines (n + 1) rest)

def joinLines (lines : List String) : String :=
  String.intercalate "\n" lines

def explainTokens (tokens : List Token) : Except Json.WriteFault String :=
  if tokens.isEmpty then .ok "(empty pattern)"
  else (numberedLines 1 tokens).map joinLines

/-! ## Results -/

mutual

/-- A value with records in the place of its segments. A segment inside the
fields of another stays as it is. -/
def Value.recorded : Value → Value
  | .segment kind fields => Segment.toRecord ⟨kind, fields⟩
  | .dict entries => .dict (recordedEntries entries)
  | .list items => .list (recordedItems items)
  | .tuple items => .list (recordedItems items)
  | v => v

/-- The items of a list with records in the place of segments. -/
def Value.recordedItems : List Value → List Value
  | [] => []
  | v :: rest => v.recorded :: recordedItems rest

/-- The entries of a dictionary with records in the place of segments. -/
def Value.recordedEntries : List (String × Value) → List (String × Value)
  | [] => []
  | (k, v) :: rest => (k, v.recorded) :: recordedEntries rest

end

def MatchResult.toRecord (r : MatchResult) : Value :=
  .dict [("matched", .list (r.matched.map Segment.toRecord)),
    ("params", .dict (Value.recordedEntries r.params)),
    ("remaining", .list (r.remaining.map Segment.toRecord))]

/-- A segment in a line of segments: the text of a text, else the kind and the
fields. -/
def Segment.inLine (s : Segment) : Except Json.WriteFault String :=
  match s.text? with
  | some text => .ok (quoted text)
  | none => do
    return "[" ++ s.kind ++ " " ++ (← Json.write .sortedLine false (.dict s.fields)) ++ "]"

/-- A line of segments; none if there are no segments. -/
def segmentLine (label : String) (segments : List Segment) :
    Except Json.WriteFault (List String) :=
  if segments.isEmpty then .ok []
  else do
    let parts ← segments.mapM Segment.inLine
    return ["  " ++ label ++ ": " ++ String.intercalate " " parts]

def paramLine (param : String × Value) : Except Json.WriteFault String := do
  return "  " ++ param.1 ++ " = " ++ (← Json.write .line false param.2)

def explainResult : Option MatchResult → Except Json.WriteFault String
  | none => .ok "NO MATCH"
  | some r => do
    let params ← (Value.recordedEntries r.params).mapM paramLine
    let matched ← segmentLine "matched" r.matched
    let remaining ← segmentLine "remaining" r.remaining
    return joinLines ("MATCH" :: (params ++ matched ++ remaining))

end MessagePattern
