import MessagePattern.Mapping
import MessagePattern.Match.Cursor
import MessagePattern.Match.Result
import MessagePattern.Registry.Basic
import MessagePattern.Text.Trim
import MessagePattern.Text.Word

/-!
# Running a pattern over a message

The tokens of a pattern are tried in order, each on the current segment. An attempt
either fails and leaves no trace, or uses the segment up, notes what it took and
pushes the unused end of a text back in front of the cursor. What it takes hangs on
the segment alone, and on whether that is a blob (`Intake`). A token whose attempt
fails is skipped if the message can go without it; otherwise there is no match.
No decision is ever revised.

A text usually goes to one parameter as a whole. Only where several optional
parameters could read from the same text does each of them take one word; the
remainder is then a *blob*, and the last parameter to read from it loses its quotes
if it is a single word.
-/

namespace MessagePattern

/-- What a pattern is matched under: the rules for reading values off segments,
and the matchers of the typed parameters. -/
structure Setting where
  rules : Rules
  registry : Registry

/-- The state of a run: what lies ahead and what was found. -/
structure MatchState where
  cursor : Cursor
  result : MatchResult := {}

def MatchState.ahead (st : MatchState) : List Segment :=
  st.cursor.upcoming.map (·.segment)

/-! ## What an attempt takes -/

/-- What a token takes of the current segment. -/
structure Intake where
  /-- What is noted as taken. -/
  taken : List Segment
  /-- What is left of a text. -/
  left : List Char := []
  /-- Whether what is left is a blob. -/
  blob : Bool := false
  /-- The parameter that is set, and its value. -/
  param : Option (String × Value) := none

namespace Intake

def whole (s : Segment) : Intake :=
  { taken := [s] }

def named (i : Intake) (name : String) (v : Value) : Intake :=
  { i with param := some (name, v) }

end Intake

/-- The segment of a piece of text, unless the piece is empty. -/
def pieceOf (piece : List Char) : List Segment :=
  if piece.isEmpty then [] else [.ofText (String.ofList piece)]

/-- Uses up the current segment: what was taken of it is noted, and what is left of
its text, if anything, becomes the next segment. -/
def MatchState.absorb (st : MatchState) (i : Intake) : MatchState :=
  let passed := st.cursor.advance 1
  let result := st.result.take i.taken
  { cursor := if i.left.isEmpty then passed else passed.push (.ofText (String.ofList i.left)) i.blob
    result := i.param.elim result fun (name, v) => result.setParam name v }

/-! ## Literals -/

/-- A literal takes its text off the start of a text segment. -/
def tryLiteral (literal : String) (s : Segment) (blob : Bool) : Option Intake :=
  match s.text? with
  | none => none
  | some text =>
    if literal.toList.isPrefixOf text.toList then
      some { taken := [.ofText literal], left := text.toList.drop literal.length, blob }
    else none

/-- A typed literal takes a segment of its kind whose value is written as the one
expected. In a text segment the value may also hold the expected one; then all
up to its end is taken and the rest is left. -/
def tryTypedLiteral (setting : Setting) (kind value : String) (s : Segment) (blob : Bool) :
    Except MatchFault (Option Intake) :=
  if s.kind ≠ kind then .ok none
  else
    match setting.rules.get? kind with
    | none => .ok none
    | some rule =>
      if value = "" then .ok (some (.whole s))
      else
        match rule.extract s with
        | .null => .ok none
        | found =>
          (found.written.mapError .digits).map fun plain =>
            if plain = value then some (.whole s)
            else if s.isText then
              match found.text?.map fun text => Text.splitOnce value.toList text.toList with
              | some (before, some after) =>
                some { taken := pieceOf before ++ [.ofText value], left := after, blob }
              | _ => none
            else none

/-! ## Parameters -/

/-- Whether parameters of a data type are filled from text. -/
def fillsFromText (registry : Registry) (dataType : String) : Bool :=
  dataType = textKind || registry.isSpecial dataType

/-- How many optional parameters at the start of a list of tokens would read from the
same text: a run of parameters filled from text, with nothing but optional
literals in between. -/
def optionalsSharing (registry : Registry) : List Token → Nat
  | .literal _ true :: rest => optionalsSharing registry rest
  | .parameter _ dataType optional _ :: rest =>
    if fillsFromText registry dataType then
      -- A required parameter is in the way of none, but does not count.
      (if optional then 1 else 0) + optionalsSharing registry rest
    else 0
  | _ => 0

/-- What a parameter would take of a text: the text it reads, what is noted as
taken where that is not the whole segment, and what is left. -/
structure Portion where
  reads : List Char
  taken : Option (List Char)
  left : List Char

/-- The portion of a text that goes to a parameter. If it is shared, it is the
first word. A blob that is down to a single word is read without its quotes. Any
other text goes to the parameter as it is. -/
def portion (shared blob : Bool) (text : List Char) : Portion :=
  let (word, tail) := Text.splitFirst text
  if shared then ⟨word.value, some word.raw, tail⟩
  else if blob && tail.all (· == Text.separator) then ⟨word.value, none, []⟩
  else ⟨text, none, []⟩

/-- The value of a text for a data type: the text itself for plain text, else what the
matcher of the type makes of it. -/
def readAs (registry : Registry) (dataType : String) (text : String) :
    Except MatchFault (Option Value) :=
  if dataType = textKind then .ok (some (.text text))
  else
    match registry.matcher? dataType with
    | none => .ok none
    | some matcher => do
      match ← matcher (.text text) with
      | .accepted v => return some v
      | .refused => return none
      | .silent => return none

/-- What a parameter takes of a text segment for its portion of the text. -/
def Portion.intake (p : Portion) (s : Segment) : Intake :=
  { taken := [p.taken.elim s fun raw => .ofText (String.ofList raw)], left := p.left, blob := true }

/-- A parameter that is filled from a text segment. -/
def tryTextParameter (setting : Setting) (name dataType : String) (shared : Bool) (s : Segment)
    (blob : Bool) : Except MatchFault (Option Intake) :=
  match s.text? with
  | none => .ok none
  | some text => do
    let p := portion shared blob text.toList
    match ← readAs setting.registry dataType (String.ofList p.reads) with
    | none => return none
    | some v => return some ((p.intake s).named name v)

/-- A parameter that takes a segment of its kind, for the value that the rule for
the kind finds. -/
def tryKindParameter (setting : Setting) (name kind : String) (s : Segment) : Option Intake :=
  if s.kind ≠ kind then none
  else some ((Intake.whole s).named name ((setting.rules.get? kind).elim .null (·.extract s)))

/-- A parameter is filled from a text where its data type can be read off one, and
else takes a segment of its kind. -/
def tryParameter (setting : Setting) (name dataType : String) (shared : Bool) (s : Segment)
    (blob : Bool) : Except MatchFault (Option Intake) :=
  if dataType = textKind || (s.isText && setting.registry.isSpecial dataType) then
    tryTextParameter setting name dataType shared s blob
  else .ok (tryKindParameter setting name dataType s)

/-- What a token takes of a segment that may be a blob; `rest` are the tokens behind
it. A rest parameter takes no single segment but a run. -/
def intake? (setting : Setting) (token : Token) (rest : List Token) (s : Segment) (blob : Bool) :
    Except MatchFault (Option Intake) :=
  match token with
  | .literal text _ => .ok (tryLiteral text s blob)
  | .typedLiteral kind value => tryTypedLiteral setting kind value s blob
  | .parameter name dataType _ _ =>
    tryParameter setting name dataType (1 < optionalsSharing setting.registry (token :: rest)) s blob
  | .rest _ _ => .ok none

/-! ## Rest parameters -/

/-- What a rest parameter of a kind collects of a segment of that kind: the text of
a text, the value that the rule for the kind finds, or else the segment itself. -/
def collected (setting : Setting) (kind : String) (s : Segment) : Value :=
  if kind = textKind then (s.text?).elim .null .text
  else (setting.rules.get? kind).elim s.toValue (·.extract s)

/-- The part that a segment plays in the run of a rest parameter: none if the run
ends before it, else what it adds to the values. A single space between
segments of the kind belongs to the run and adds nothing. -/
def restPart (setting : Setting) (dataType : Option String) (s : Segment) :
    Option (Option Value) :=
  match dataType with
  | none => some (some s.toValue)
  | some kind =>
    if s.kind = kind then some (some (collected setting kind s))
    else if s.text? = some (String.singleton Text.separator) then some none
    else none

/-- The run of a rest parameter: the segments up to the first that has no part
in it, each with what it adds. -/
def restRun (setting : Setting) (dataType : Option String) :
    List Segment → List (Segment × Option Value)
  | [] => []
  | s :: more =>
    match restPart setting dataType s with
    | some added => (s, added) :: restRun setting dataType more
    | none => []

/-- A rest parameter takes its run, be it empty. -/
def takeRest (setting : Setting) (name : String) (dataType : Option String)
    (st : MatchState) : MatchState :=
  let run := restRun setting dataType st.ahead
  { cursor := st.cursor.advance run.length
    result := (st.result.take (run.map (·.1))).setParam name (.list (run.filterMap (·.2))) }

/-! ## The run -/

def tryToken (setting : Setting) (token : Token) (rest : List Token) (current : Labelled)
    (st : MatchState) : Except MatchFault (Option MatchState) :=
  match token with
  | .rest name dataType => .ok (some (takeRest setting name dataType st))
  | token =>
    (intake? setting token rest current.segment (st.cursor.isBlob current.label)).map
      (Option.map st.absorb)

/-- Tries a token, if there is a segment to try it on. -/
def tryHere (setting : Setting) (token : Token) (rest : List Token) (st : MatchState) :
    Except MatchFault (Option MatchState) :=
  match st.cursor.current? with
  | none => .ok none
  | some current => tryToken setting token rest current st

/-- Does with a token what can be done: it takes what it matches, or is skipped. -/
def step (setting : Setting) (token : Token) (rest : List Token) (st : MatchState) :
    Except MatchFault (Option MatchState) := do
  match ← tryHere setting token rest st with
  | some st => return some st
  | none => return (st.result.skip token).map fun result => { st with result }

def steps (setting : Setting) : List Token → MatchState →
    Except MatchFault (Option MatchState)
  | [], st => .ok (some st)
  | token :: rest, st => do
    match ← step setting token rest st with
    | some st => steps setting rest st
    | none => return none

/-- The result of a run: what still lies ahead is left over. A result in which
nothing was found is none. -/
def MatchState.finish (st : MatchState) : Option MatchResult :=
  let result := st.result.leave (st.cursor.drain.1.map (·.segment))
  if result.isValid then some result else none

def runTokens (setting : Setting) (tokens : List Token) (message : List Segment) :
    Except MatchFault (Option MatchResult) := do
  match ← steps setting tokens { cursor := .start message } with
  | some st => return st.finish
  | none => return none

/-! ## Matching -/

/-- Matches tokens against a message. No tokens at all match everything and take
nothing; an empty message matches if it can go without all tokens, also where
nothing is found; otherwise the tokens are run. -/
def matchTokens (setting : Setting) (tokens : List Token) (message : List Segment) :
    Except MatchFault (Option MatchResult) :=
  match tokens, message with
  | [], message => .ok (some { remaining := message })
  | tokens, [] => .ok (if tokens.all (·.isDispensable) then some (.unsupplied tokens) else none)
  | tokens, message => runTokens setting tokens message

end MessagePattern
