import MessagePattern.Chain.Handler
import MessagePattern.Match.Message
import MessagePattern.Text.Blank

/-!
# Handler chains

A chain is a compiled pattern with handlers to run on each message. The first handler is
given the parameters of the match and the segments left over, or nothing if the
message does not match; every later one is given the answer of the one before.
The last answer is the chain's.

A chain is run in one of two modes. One that awaits takes the value out of every promise;
one that does not stops at the first promise. A run notes which handlers did their
work, and on what.
-/

namespace MessagePattern

/-- A compiled pattern with handlers. -/
structure Chain where
  pattern : String
  tokens : List Token
  rules : Option RawRules
  registry : Registry
  handlers : List Handler := []

/-- Whether promises are awaited. -/
inductive ChainMode where
  | immediate
  | awaiting
  deriving DecidableEq, Repr

/-- Why a chain did not come to an answer. -/
inductive ChainFault where
  | matching (refusal : Refusal)
  | handler (fault : HandlerFault)
  /-- A handler answered with a promise that nobody awaits. -/
  | promise (handler pattern : String) (segments : List Value)

/-- The wording for a handler that answered with a promise. -/
def promiseMessage (handler : String) : String :=
  "handler " ++ Text.quoted handler ++ " returned an awaitable; use match_async"

/-- A handler's work: its name and what it was given. -/
structure ChainCall where
  handler : String
  arguments : List Value

/-- What became of a run: the work that was done and the answer. -/
structure ChainRun where
  calls : List ChainCall
  answer : Except ChainFault (List Value)

namespace Chain

/-- A chain without handlers. The pattern is checked first, then the rules. -/
def ofPattern (pattern : Value) (rules : Option RawRules) (registry : Registry) :
    Except Refusal Chain :=
  match pattern with
  | .text text =>
    if Text.isBlankText text.toList then .error (.invalid (.blankPattern pattern))
    else do
      if let some raw := rules then
        let _ ← (Rules.ofRaw raw).mapError .invalid
      let tokens ← (compile text).mapError .pattern
      return { pattern := text, tokens, rules, registry }
  | found => .error (.invalid (.blankPattern found))

/-- Adds a handler at the end. What cannot be called is refused. -/
def addHandler (c : Chain) (offer : Except Value Handler) : Except Invalid Chain :=
  match offer with
  | .ok handler => .ok { c with handlers := c.handlers ++ [handler] }
  | .error found => .error (.handler found)

def result (c : Chain) (message : Value) : Except Refusal (Option MatchResult) :=
  matchMessage (.tokens c.tokens) message c.rules c.registry

def firstArguments : Option MatchResult → List Value
  | none => []
  | some r => .dict r.params :: r.remaining.map Segment.toValue

/-- The answer of a run that stops at a promise. -/
def promised (c : Chain) (message : Value) (h : Handler) : Except ChainFault (List Value) :=
  .error (.promise h.name c.pattern (message.items?.getD []))

/-- Runs handlers in turn, the first of which is given some values. -/
def runHandlers (c : Chain) (mode : ChainMode) (message : Value) :
    List Handler → List Value → ChainRun
  | [], values => ⟨[], .ok values⟩
  | h :: rest, values =>
    if mode = .immediate ∧ h.form = .deferred then ⟨[], c.promised message h⟩
    else
      let call : ChainCall := ⟨h.name, values⟩
      match h.call values with
      | .error fault => ⟨[call], .error (.handler fault)⟩
      | .ok v =>
        if mode = .immediate ∧ h.form = .eager then ⟨[call], c.promised message h⟩
        else
          let more := runHandlers c mode message rest [v]
          { more with calls := call :: more.calls }

def run (c : Chain) (mode : ChainMode) (message : Value) : ChainRun :=
  match c.result message with
  | .error refusal => ⟨[], .error (.matching refusal)⟩
  | .ok result => c.runHandlers mode message c.handlers (firstArguments result)

/-- The chain in a line: its pattern and the number of its handlers. -/
def inLine (c : Chain) : String :=
  "Commander(" ++ Text.quoted c.pattern ++ ", handlers=" ++ toString c.handlers.length ++ ")"

end Chain

end MessagePattern
