import MessagePattern.Value.Display

/-!
# Refused arguments

What a caller hands over is checked before it is used, and the first argument of
the wrong shape is refused. A refusal names the argument at fault and carries
the value that was found in its place.
-/

namespace MessagePattern

/-- An argument of the wrong shape. -/
inductive Invalid where
  | pattern (found : Value)
  | blankPattern (found : Value)
  /-- Neither a pattern nor a list of tokens. -/
  | tokens (found : Value)
  /-- A message that is no list of segments. -/
  | segments (found : Value)
  | segment (found : Value)
  | kind (found : Value)
  | fields (found : Value)
  | rules (found : Value)
  /-- A key of a table of field rules that is no text. -/
  | ruleKey (found : Value)
  /-- A field rule that is of no known shape, in the table. -/
  | ruleOf (key : String) (found : Value)
  /-- A field rule that is of no known shape, by itself. -/
  | rule (found : Value)
  | handler (found : Value)
  /-- Arguments that a handler turns down. -/
  | handlerInput (arguments : List Value)
  deriving Inhabited

namespace Invalid

def message : Invalid → String
  | pattern _ => "pattern must be a string"
  | blankPattern _ => "pattern must be a non-empty string"
  | tokens _ => "tokens must be a sequence of pattern tokens"
  | segments _ => "segments must be a list of message segments"
  | segment _ => "segment must be a mapping"
  | kind _ => "segment kind must be a string"
  | fields _ => "segment fields must be a mapping"
  | rules _ => "field mapping must be a mapping of kind to rule"
  | ruleKey _ => "field mapping keys must be segment kinds"
  | ruleOf key _ => "invalid field mapping rule for " ++ Text.quoted key
  | rule found => "unsupported field mapping: " ++ found.display
  | handler _ => "handler must be callable"
  | handlerInput _ => "bad handler input"

def argument : Invalid → String
  | pattern _ => "pattern"
  | blankPattern _ => "pattern"
  | tokens _ => "tokens"
  | segments _ => "segments"
  | segment _ => "segment"
  | kind _ => "kind"
  | fields _ => "fields"
  | rules _ => "field_mapping"
  | ruleKey _ => "field_mapping"
  | ruleOf key _ => key
  | rule _ => "mapping"
  | handler _ => "handler"
  | handlerInput _ => "handler"

def found : Invalid → Value
  | pattern v => v
  | blankPattern v => v
  | tokens v => v
  | segments v => v
  | segment v => v
  | kind v => v
  | fields v => v
  | rules v => v
  | ruleKey v => v
  | ruleOf _ v => v
  | rule v => v
  | handler v => v
  | handlerInput arguments => .list arguments

end Invalid

end MessagePattern
