import MessagePattern.Decimal.Integer

/-!
# Faults of JSON texts

A malformed text is reported by what was expected and where. The place is
given three times: by line and column, both counted from one, and by the number
of characters before it. A text can also be well formed and hold an integer too
long to read; that has no place.
-/

namespace MessagePattern.Json

inductive Fault where
  | value
  | propertyName
  | colon
  | comma
  | unterminatedString
  | controlCharacter
  | escape
  | hexEscape
  | extraData
  | byteOrderMark
  deriving DecidableEq, Repr

def Fault.message : Fault → String
  | .value => "Expecting value"
  | .propertyName => "Expecting property name enclosed in double quotes"
  | .colon => "Expecting ':' delimiter"
  | .comma => "Expecting ',' delimiter"
  | .unterminatedString => "Unterminated string starting at"
  | .controlCharacter => "Invalid control character at"
  | .escape => "Invalid \\escape"
  | .hexEscape => "Invalid \\uXXXX escape"
  | .extraData => "Extra data"
  | .byteOrderMark => "Unexpected UTF-8 BOM (decode using utf-8-sig)"

/-- Where reading stopped: a fault in front of the last `left` characters, or an
integer beyond the digit limit. Counting from the end makes a stop independent
of what was read before. -/
inductive Stop where
  | malformed (fault : Fault) (left : Nat)
  | digits (limit : Decimal.DigitLimit)
  deriving DecidableEq, Repr

inductive Error where
  | malformed (fault : Fault) (line column position : Nat)
  | digits (limit : Decimal.DigitLimit)
  deriving DecidableEq, Repr

def Error.message : Error → String
  | .malformed fault line column position =>
    fault.message ++ ": line " ++ toString line ++ " column " ++ toString column ++
      " (char " ++ toString position ++ ")"
  | .digits limit => limit.message

/-- Places a stop within its text. The column is the distance from the last line
feed before it. -/
def Stop.toError (text : List Char) : Stop → Error
  | .digits limit => .digits limit
  | .malformed fault left =>
    let position := text.length - left
    let before := text.take position
    let column := (before.reverse.takeWhile (· != '\n')).length + 1
    .malformed fault (before.count '\n' + 1) column position

end MessagePattern.Json
