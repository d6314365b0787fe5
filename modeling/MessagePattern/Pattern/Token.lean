import MessagePattern.Segment.Basic

/-!
# Pattern tokens

A compiled pattern is a list of tokens, to be matched in order. A literal stands
for its own text, a typed literal for a segment of some kind, a parameter takes
one value from the message and a rest parameter takes a run of segments. Only
literals and parameters can be optional.
-/

namespace MessagePattern

/-- A token of a compiled pattern. -/
inductive Token where
  /-- A text that the message must go on with. -/
  | literal (text : String) (optional : Bool)
  /-- A segment of the kind, whose value is the one given unless that is empty. -/
  | typedLiteral (kind value : String)
  /-- A named value of a data type, with a default if one was written. -/
  | parameter (name dataType : String) (optional : Bool) (default : Option Value)
  /-- All segments that follow, or those of one kind. -/
  | rest (name : String) (dataType : Option String)
  deriving Inhabited

namespace Token

/-- Whether a message may go without the token. Rest parameters are not counted
as optional although they match any message. -/
def isOptional : Token → Bool
  | literal _ optional => optional
  | parameter _ _ optional _ => optional
  | typedLiteral _ _ => false
  | rest _ _ => false

/-- Whether an empty message matches the token: it is optional or a rest parameter. -/
def isDispensable : Token → Bool
  | rest _ _ => true
  | token => token.isOptional

/-- What a parameter of a data type holds when it is not supplied: its default,
or else the empty text for text and nothing for other types. -/
def fallback (dataType : String) : Option Value → Value
  | some v => v
  | none => if dataType = textKind then .text "" else .null

def form : Token → String
  | literal _ _ => "literal"
  | typedLiteral _ _ => "typed_literal"
  | parameter _ _ _ _ => "parameter"
  | rest _ _ => "rest_parameter"

def toRecord (t : Token) : Value :=
  .dict <| ("type", .text t.form) ::
    match t with
    | literal text optional => [("value", .text text), ("optional", .bool optional)]
    | typedLiteral kind value => [("segment_type", .text kind), ("value", .text value)]
    | parameter name dataType optional default =>
      [("name", .text name), ("data_type", .text dataType), ("optional", .bool optional)] ++
        default.toList.map fun v => ("default", v)
    | rest name dataType =>
      [("name", .text name), ("data_type", dataType.elim .null .text)]

end Token

end MessagePattern
