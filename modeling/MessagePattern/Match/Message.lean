import MessagePattern.Match.Run
import MessagePattern.Pattern.Source
import MessagePattern.Segment.Record

/-!
# Matching messages as they are handed over

A host hands over a pattern, or tokens it compiled before, and a message whose
segments may still be records, perhaps with rules of its own. All is checked before
anything is matched: the pattern first, then the message, the rules and the
segments one by one. The first fault is the answer.
-/

namespace MessagePattern

def readMessage (items : List Value) : Except Invalid (List Segment) :=
  items.mapM Segment.ofValue

def matchMessage (source : PatternSource) (message : Value) (rules : Option RawRules)
    (registry : Registry) : Except Refusal (Option MatchResult) := do
  let tokens ← source.resolve
  match message.items? with
  | none => throw (.invalid (.segments message))
  | some items =>
    let rules ← (Rules.resolve rules).mapError .invalid
    let segments ← (readMessage items).mapError .invalid
    (matchTokens ⟨rules, registry⟩ tokens segments).mapError .broken

end MessagePattern
