import MessagePattern.Decimal.Integer
import MessagePattern.Text.Quoted

/-!
# Pattern errors

A pattern is refused for one fault at one place. The place counts characters
from the start of the pattern: for a stray closing bracket it is the bracket
itself, for any other fault the opening bracket of the group at fault.
-/

namespace MessagePattern

inductive PatternFault where
  /-- An opening bracket without its closing one. -/
  | unmatchedOpener (bracket : Char)
  /-- A closing bracket outside of any group. -/
  | unmatchedCloser (bracket : Char)
  /-- A typed literal that names no kind. -/
  | kindMissing
  /-- A parameter that has no name. -/
  | nameMissing
  /-- A default that holds an integer beyond the digit limit. -/
  | defaultDigits (limit : Decimal.DigitLimit)
  deriving DecidableEq, Repr

/-- The fault of a pattern and its place. -/
structure PatternError where
  fault : PatternFault
  pattern : String
  position : Nat
  deriving DecidableEq, Repr

def PatternError.message (e : PatternError) : String :=
  let place := " at position " ++ toString e.position
  match e.fault with
  | .unmatchedOpener c => "Unmatched opening bracket " ++ Text.quoted (String.singleton c) ++ place
  | .unmatchedCloser c => "Unmatched closing bracket " ++ Text.quoted (String.singleton c) ++ place
  | .kindMissing => "Typed literal without a segment type" ++ place
  | .nameMissing => "Parameter without a name" ++ place
  | .defaultDigits limit => "Failed to parse pattern: " ++ limit.message

end MessagePattern
