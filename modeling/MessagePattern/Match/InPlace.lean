import MessagePattern.Match.Run

/-!
# Matching in place

Where patterns are run, an attempt answers the state that it has come to, and one that fails
answers none. Here a run is told that has a single state and changes it as it goes: an attempt
moves the cursor, pushes back what is left, notes what it takes and sets a parameter, one after
the other, and answers whether it has matched. If it has not, the run goes on with the state as
the attempt has left it; there is no earlier one to go back to.
-/

namespace MessagePattern

/-- Work on the state of a run. Where it is broken off, the state stays as it is then. -/
abbrev Work (α : Type) := ExceptT MatchFault (StateM MatchState) α

namespace Work

/-! ## Changes -/

def advance (count : Int) : Work Unit :=
  modify fun st => { st with cursor := st.cursor.advance count }

def pushBack (left : List Char) (blob : Bool) : Work Unit :=
  modify fun st => { st with cursor := st.cursor.push (.ofText (String.ofList left)) blob }

def note (segments : List Segment) : Work Unit :=
  modify fun st => { st with result := st.result.take segments }

def setParam (name : String) (v : Value) : Work Unit :=
  modify fun st => { st with result := st.result.setParam name v }

def isBlob (current : Labelled) : Work Bool :=
  return (← get).cursor.isBlob current.label

/-- Passes the current segment. What is left of its text, if anything, comes next. -/
def consume (left : List Char) (blob : Bool) : Work Unit := do
  advance 1
  unless left.isEmpty do
    pushBack left blob

/-! ## Attempts -/

def tryLiteral (literal : String) (current : Labelled) : Work Bool := do
  match current.segment.text? with
  | none => return false
  | some text =>
    if literal.toList.isPrefixOf text.toList then
      consume (text.toList.drop literal.length) (← isBlob current)
      note [.ofText literal]
      return true
    else return false

/-- Takes the current segment as a whole. -/
def takeWhole (current : Labelled) : Work Unit := do
  consume [] false
  note [current.segment]

/-- Takes a text up to the end of a value inside it, unless it is not there. -/
def tryInside (value : String) (found : Value) (current : Labelled) : Work Bool := do
  match found.text?.map fun text => Text.splitOnce value.toList text.toList with
  | some (before, some after) =>
    consume after (← isBlob current)
    unless before.isEmpty do
      note [.ofText (String.ofList before)]
    note [.ofText value]
    return true
  | _ => return false

/-- Compares what was found in the current segment with the value expected of it. -/
def tryFound (value : String) (found : Value) (current : Labelled) : Work Bool := do
  if (← found.written.mapError MatchFault.digits) = value then
    takeWhole current
    return true
  else if current.segment.isText then tryInside value found current
  else return false

def tryTypedLiteral (setting : Setting) (kind value : String) (current : Labelled) :
    Work Bool := do
  if current.segment.kind ≠ kind then return false
  else
    match setting.rules.get? kind with
    | none => return false
    | some rule =>
      if value = "" then
        takeWhole current
        return true
      else
        match rule.extract current.segment with
        | .null => return false
        | found => tryFound value found current

def tryTextParameter (setting : Setting) (name dataType : String) (shared : Bool)
    (current : Labelled) : Work Bool := do
  match current.segment.text? with
  | none => return false
  | some text =>
    let p := portion shared (← isBlob current) text.toList
    match ← readAs setting.registry dataType (String.ofList p.reads) with
    | none => return false
    | some v =>
      consume p.left true
      note [p.taken.elim current.segment fun raw => .ofText (String.ofList raw)]
      setParam name v
      return true

def tryKindParameter (setting : Setting) (name kind : String) (current : Labelled) :
    Work Bool := do
  if current.segment.kind ≠ kind then return false
  else
    takeWhole current
    setParam name ((setting.rules.get? kind).elim .null (·.extract current.segment))
    return true

def tryParameter (setting : Setting) (name dataType : String) (shared : Bool)
    (current : Labelled) : Work Bool :=
  if dataType = textKind || (current.segment.isText && setting.registry.isSpecial dataType) then
    tryTextParameter setting name dataType shared current
  else tryKindParameter setting name dataType current

def takeRest (setting : Setting) (name : String) (dataType : Option String) : Work Bool := do
  let run := restRun setting dataType (← get).ahead
  advance run.length
  note (run.map (·.1))
  setParam name (.list (run.filterMap (·.2)))
  return true

def tryToken (setting : Setting) (token : Token) (rest : List Token) (current : Labelled) :
    Work Bool :=
  match token with
  | .literal text _ => tryLiteral text current
  | .typedLiteral kind value => tryTypedLiteral setting kind value current
  | .parameter name dataType _ _ =>
    tryParameter setting name dataType (1 < optionalsSharing setting.registry (token :: rest))
      current
  | .rest name dataType => takeRest setting name dataType

/-! ## The run -/

/-- Goes on without a token, if the message can. -/
def skip : Token → Work Bool
  | .rest name _ => do
    setParam name (.list [])
    return true
  | .parameter name dataType true default => do
    setParam name (Token.fallback dataType default)
    return true
  | .literal _ true => return true
  | _ => return false

def tryHere (setting : Setting) (token : Token) (rest : List Token) : Work Bool := do
  match (← get).cursor.current? with
  | none => return false
  | some current => tryToken setting token rest current

def step (setting : Setting) (token : Token) (rest : List Token) : Work Bool := do
  if ← tryHere setting token rest then return true
  else skip token

def steps (setting : Setting) : List Token → Work Bool
  | [] => return true
  | token :: rest => do
    if ← step setting token rest then steps setting rest
    else return false

/-- What a run has found when it has ended. -/
def outcome : Except MatchFault Bool × MatchState →
    Except MatchFault (Option MatchResult)
  | (.error e, _) => .error e
  | (.ok true, st) => .ok st.finish
  | (.ok false, _) => .ok none

def runTokens (setting : Setting) (tokens : List Token) (message : List Segment) :
    Except MatchFault (Option MatchResult) :=
  outcome ((steps setting tokens).run { cursor := .start message })

end Work

end MessagePattern
