import MessagePattern.Table

/-!
# Dynamic values

The fields of a message segment, the defaults of a pattern and the parameters
of a match hold whatever the host of a conversation hands over. A value is one
of the usual data: nothing, a truth value, an integer, a float, a text, a list,
a tuple or a dictionary with text keys in order of insertion; or one of two
things only a host program can put there: a whole segment, and an extractor,
which reads a value off a segment. Of an extractor a value holds no more than a name
and an argument, so that values stay first-order; what it reads is for the host to
say that brings it.
-/

namespace MessagePattern

/-- A value of the host. -/
inductive Value where
  | null
  | bool (b : Bool)
  | int (i : Int)
  | float (x : Float)
  | text (s : String)
  | list (items : List Value)
  | tuple (items : List Value)
  | dict (entries : List (String × Value))
  | segment (kind : String) (fields : List (String × Value))
  | extractor (name : String) (argument : Value)
  deriving Inhabited

abbrev Fields := Table String Value

namespace Value

/-- The text that a value is, if it is one. -/
def text? : Value → Option String
  | text s => some s
  | _ => none

def items? : Value → Option (List Value)
  | list items => some items
  | tuple items => some items
  | _ => none

def entries? : Value → Option Fields
  | dict entries => some entries
  | _ => none

def isNull : Value → Bool
  | null => true
  | _ => false

/-- The name by which messages call the type of a value. -/
def typeName : Value → String
  | null => "NoneType"
  | bool _ => "bool"
  | int _ => "int"
  | float _ => "float"
  | text _ => "str"
  | list _ => "list"
  | tuple _ => "tuple"
  | dict _ => "dict"
  | segment _ _ => "Segment"
  | extractor _ _ => "function"

end Value

end MessagePattern
