import MessagePattern.Match.Message
import MessagePattern.Segment.Pool

/-!
# Matching segments that are told apart

A match asks for the kinds of its segments as a host does, and is answered from what is remembered.
It asks of its working copies, which are new objects, and of the texts that it pushes back, which
are new ones too; it never asks of the segments that it was handed.

What a token takes once its question is answered is told where patterns are run (`intake?`). Here a
run is told with its questions. An answer about a kind is remembered even if the match is broken
off later on.
-/

namespace MessagePattern

/-- An answer that may hang on what is asked about kinds. -/
abbrev Asking (α : Type) := ExceptT MatchFault (StateM SegmentPool) α

namespace Asking

/-- An answer that hangs on no question. -/
def settled {α : Type} (answer : Except MatchFault α) : Asking α :=
  ExceptT.mk (pure answer)

def isKind (name : SegmentName) (kind : String) : Asking Bool :=
  ExceptT.lift (m := StateM SegmentPool) fun p => p.isKind name (some kind)

def make (name : SegmentName) (s : Segment) : Asking Unit :=
  ExceptT.lift (m := StateM SegmentPool) fun p => ((), p.make name s)

/-! ## Single segments -/

/-- Asks for the kind that a typed literal is for; the rule is that for the kind which the segment
has. -/
def tryTypedLiteral (setting : Setting) (kind value : String) (run : Nat) (current : Labelled)
    (blob : Bool) : Asking (Option Intake) := do
  if ← isKind (.working run current.label) kind then
    settled (MessagePattern.tryTypedLiteral setting current.segment.kind value current.segment blob)
  else return none

/-- A parameter asks for its kind unless it is filled from a text. -/
def tryParameter (setting : Setting) (name dataType : String) (shared : Bool) (run : Nat)
    (current : Labelled) (blob : Bool) : Asking (Option Intake) := do
  let s := current.segment
  if dataType = textKind || (s.isText && setting.registry.isSpecial dataType) then
    settled (tryTextParameter setting name dataType shared s blob)
  else if ← isKind (.working run current.label) dataType then
    return some ((Intake.whole s).named name
      ((setting.rules.get? dataType).elim .null (·.extract s)))
  else return none

def intake? (setting : Setting) (token : Token) (rest : List Token) (run : Nat)
    (current : Labelled) (blob : Bool) : Asking (Option Intake) :=
  match token with
  | .literal text _ => settled (.ok (tryLiteral text current.segment blob))
  | .typedLiteral kind value => tryTypedLiteral setting kind value run current blob
  | .parameter name dataType _ _ =>
    tryParameter setting name dataType (1 < optionalsSharing setting.registry (token :: rest)) run
      current blob
  | .rest _ _ => return none

/-- A text that is pushed back is a new object. -/
def absorb (run : Nat) (st : MatchState) (i : Intake) : Asking MatchState := do
  unless i.left.isEmpty do
    make (.working run (.pushed st.cursor.pushes)) (.ofText (String.ofList i.left))
  return st.absorb i

/-! ## Rest parameters -/

def restPart (setting : Setting) (dataType : Option String) (run : Nat) (l : Labelled) :
    Asking (Option (Option Value)) :=
  match dataType with
  | none => return some (some l.segment.toValue)
  | some kind => do
    if ← isKind (.working run l.label) kind then
      return some (some (collected setting kind l.segment))
    else if l.segment.text? = some (String.singleton Text.separator) then return some none
    else return none

/-- The run of a rest parameter. The segment that ends it is asked too. -/
def restRun (setting : Setting) (dataType : Option String) (run : Nat) :
    List Labelled → Asking (List (Segment × Option Value))
  | [] => return []
  | l :: more => do
    match ← restPart setting dataType run l with
    | some added => return (l.segment, added) :: (← restRun setting dataType run more)
    | none => return []

def takeRest (setting : Setting) (name : String) (dataType : Option String) (run : Nat)
    (st : MatchState) : Asking MatchState := do
  let parts ← restRun setting dataType run st.cursor.upcoming
  return {
    cursor := st.cursor.advance parts.length
    result := (st.result.take (parts.map (·.1))).setParam name (.list (parts.filterMap (·.2))) }

/-! ## The run -/

/-- Tries a token that takes a single segment. -/
def trySegment (setting : Setting) (token : Token) (rest : List Token) (run : Nat)
    (current : Labelled) (st : MatchState) : Asking (Option MatchState) := do
  match ← intake? setting token rest run current (st.cursor.isBlob current.label) with
  | some i => return some (← absorb run st i)
  | none => return none

def tryToken (setting : Setting) (token : Token) (rest : List Token) (run : Nat)
    (current : Labelled) (st : MatchState) : Asking (Option MatchState) :=
  match token with
  | .rest name dataType => return some (← takeRest setting name dataType run st)
  | token => trySegment setting token rest run current st

def tryHere (setting : Setting) (token : Token) (rest : List Token) (run : Nat)
    (st : MatchState) : Asking (Option MatchState) :=
  match st.cursor.current? with
  | none => return none
  | some current => tryToken setting token rest run current st

def step (setting : Setting) (token : Token) (rest : List Token) (run : Nat) (st : MatchState) :
    Asking (Option MatchState) := do
  match ← tryHere setting token rest run st with
  | some st => return some st
  | none => return (st.result.skip token).map fun result => { st with result }

def steps (setting : Setting) (run : Nat) : List Token → MatchState → Asking (Option MatchState)
  | [], st => return some st
  | token :: rest, st => do
    match ← step setting token rest run st with
    | some st => steps setting run rest st
    | none => return none

def runTokens (setting : Setting) (tokens : List Token) (run : Nat) (message : List Segment) :
    Asking (Option MatchResult) := do
  match ← steps setting run tokens { cursor := .start message } with
  | some st => return st.finish
  | none => return none

/-- Nothing is asked where there are no tokens or no segments. -/
def matchTokens (setting : Setting) (tokens : List Token) (run : Nat) (message : List Segment) :
    Asking (Option MatchResult) :=
  if tokens.isEmpty || message.isEmpty then
    settled (MessagePattern.matchTokens setting tokens message)
  else runTokens setting tokens run message

end Asking

/-! ## Matching -/

/-- What is matched, once all that was handed over is checked. -/
def readRequest (source : PatternSource) (message : Value) (rules : Option RawRules) :
    Except Refusal (List Token × Rules × List Segment) := do
  let tokens ← source.resolve
  match message.items? with
  | none => throw (.invalid (.segments message))
  | some items =>
    let rules ← (Rules.resolve rules).mapError .invalid
    let segments ← (readMessage items).mapError .invalid
    return (tokens, rules, segments)

/-- What a host puts into a message. -/
inductive SegmentLike where
  | object (name : SegmentName)
  | record (v : Value)

namespace SegmentPool

/-- Matches working copies of the segments of a message. -/
def matchMessage (p : SegmentPool) (source : PatternSource) (message : Value)
    (rules : Option RawRules) (registry : Registry) :
    Except Refusal (Option MatchResult) × SegmentPool :=
  match readRequest source message rules with
  | .error refusal => (.error refusal, p)
  | .ok (tokens, rules, segments) =>
    let p' := { p with runs := p.runs + 1 }.makeWorking p.runs (Cursor.labelFrom 0 segments)
    let (answer, p') := (Asking.matchTokens ⟨rules, registry⟩ tokens p.runs segments).run p'
    (answer.mapError .broken, p')

/-- The value that goes into a message for a segment or what stands for one. -/
def value? (p : SegmentPool) : SegmentLike → Option Value
  | .object name => (p.segment? name).map Segment.toValue
  | .record v => some v

/-- Matches objects and records. -/
def matching (p : SegmentPool) (source : PatternSource) (parts : List SegmentLike)
    (rules : Option RawRules) (registry : Registry) :
    Except Refusal (Option MatchResult) × SegmentPool :=
  p.matchMessage source (.list (parts.filterMap p.value?)) rules registry

end SegmentPool

end MessagePattern
