import MessagePattern.Value.Basic

/-!
# Message segments

A message is a list of segments. A segment has a kind, such as `text`, `face`
or `image`, and named fields. Only segments of kind `text` have a text, and only
if their field of that name holds one.
-/

namespace MessagePattern

/-- The kind of text segments, and of parameters that take text as it is. -/
def textKind : String := "text"

/-- One unit of a message. -/
structure Segment where
  kind : String
  fields : Fields
  deriving Inhabited

namespace Segment

def ofText (s : String) : Segment :=
  ⟨textKind, [("text", .text s)]⟩

def isText (s : Segment) : Bool :=
  s.kind = textKind

def field? (s : Segment) (name : String) : Option Value :=
  Table.get? s.fields name

def text? (s : Segment) : Option String :=
  if s.isText then (s.field? "text").bind Value.text? else none

def toValue (s : Segment) : Value :=
  .segment s.kind s.fields

/-- The record of a segment: its kind and its fields. -/
def toRecord (s : Segment) : Value :=
  .dict [("type", .text s.kind), ("data", .dict s.fields)]

theorem text?_ofText (s : String) : (ofText s).text? = some s := rfl

end Segment

end MessagePattern
