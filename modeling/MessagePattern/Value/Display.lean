import MessagePattern.Decimal.Notation
import MessagePattern.Text.Quoted
import MessagePattern.Value.Basic

/-!
# Displayed values

Two texts of a value appear in the output. `display` is the literal form used
in messages: texts are quoted, brackets tell lists from tuples, and a tuple of
one keeps its comma. `plain` is the form that is compared with the value
written in a typed literal: a text stands for itself, truth values and nothing
are written in lower case, and a float without a fractional part is written as the
integer it equals. Integers beyond the digit limit are not written (`written`).
-/

namespace MessagePattern.Value

/-- Displayed floats are positional from `1e-4` up to below `1e16`; exponents
have at least two digits. -/
def floatLayout : Decimal.Layout :=
  { positionalFrom := -4
    positionalTo := 16
    exponentWidth := 2
    infinite := ['i', 'n', 'f']
    undefined := ['n', 'a', 'n'] }

def floatText (x : Float) : String :=
  String.ofList (floatLayout.write x)

def commas (parts : List String) : String :=
  String.intercalate ", " parts

def tupleText (parts : List String) : String :=
  match parts with
  | [part] => "(" ++ part ++ ",)"
  | _ => "(" ++ commas parts ++ ")"

mutual

def display : Value → String
  | null => "None"
  | bool b => if b then "True" else "False"
  | int i => Decimal.intText i
  | float x => floatText x
  | text s => Text.quoted s
  | list items => "[" ++ commas (displayItems items) ++ "]"
  | tuple items => tupleText (displayItems items)
  | dict entries => "\x7b" ++ commas (displayEntries entries) ++ "\x7d"
  | segment kind fields =>
    "Segment(kind=" ++ Text.quoted kind ++
      ", fields=\x7b" ++ commas (displayEntries fields) ++ "\x7d)"
  | extractor _ _ => "<function>"

/-- The literal forms of the items of a list. -/
def displayItems : List Value → List String
  | [] => []
  | v :: rest => display v :: displayItems rest

/-- The literal forms of the entries of a dictionary. -/
def displayEntries : List (String × Value) → List String
  | [] => []
  | (k, v) :: rest => (Text.quoted k ++ ": " ++ display v) :: displayEntries rest

end

def plain : Value → String
  | null => "null"
  | bool b => if b then "true" else "false"
  | float x =>
    match Decimal.toInt? x with
    | some i => Decimal.intText i
    | none => floatText x
  | text s => s
  | v => v.display

/-! ## The digit limit -/

mutual

/-- Whether no integer in the value is too long to be written. -/
def isWritable : Value → Bool
  | int i => Decimal.isWritable i
  | list items => areWritable items
  | tuple items => areWritable items
  | dict entries => areEntriesWritable entries
  | segment _ fields => areEntriesWritable fields
  | _ => true

def areWritable : List Value → Bool
  | [] => true
  | v :: rest => isWritable v && areWritable rest

def areEntriesWritable : List (String × Value) → Bool
  | [] => true
  | (_, v) :: rest => isWritable v && areEntriesWritable rest

end

/-- The plain form, if it can be written. -/
def written (v : Value) : Except Decimal.DigitLimit String :=
  if v.isWritable then .ok v.plain else .error .writing

end MessagePattern.Value
