import MessagePattern.Decimal.Notation
import MessagePattern.Text.Hex
import MessagePattern.Value.Display

/-!
# Writing JSON

The text is ASCII: every other character is escaped by its UTF-16 units. A
style says whether keys keep their order or are sorted by code point, and
whether the text is one line, with a space behind commas and colons, or is
spread over lines with an indent. Numbers that are not finite are written as the
three words that the reader takes back.

A tuple is written as an array. A segment or an extractor has no JSON form:
`print` writes its displayed text as a string, and `write` refuses it where the
caller asks for data only.
-/

namespace MessagePattern.Json

open Value (floatLayout)

structure Style where
  /-- Spaces per level, or everything on one line. -/
  indent : Option Nat
  sortKeys : Bool

/-- One line, keys in order of insertion. -/
def Style.line : Style := ⟨none, false⟩

/-- One line, keys sorted. -/
def Style.sortedLine : Style := ⟨none, true⟩

/-- Two spaces per level, keys sorted. -/
def Style.pretty : Style := ⟨some 2, true⟩

/-- What stands in front of an item of a level: a line break and the indent, or
nothing. -/
def Style.lead (style : Style) (level : Nat) : List Char :=
  match style.indent with
  | none => []
  | some n => '\n' :: List.replicate (n * level) ' '

def Style.between (style : Style) (level : Nat) : List Char :=
  match style.indent with
  | none => [',', ' ']
  | some _ => ',' :: style.lead level

/-! ## Strings -/

/-- The escape of one UTF-16 unit. -/
def unitEscape (n : Nat) : List Char :=
  '\\' :: 'u' :: Text.hexPadded 4 n

def escapeChar (c : Char) : List Char :=
  if c = '"' ∨ c = '\\' then ['\\', c]
  else if c = '\n' then ['\\', 'n']
  else if c = '\r' then ['\\', 'r']
  else if c = '\t' then ['\\', 't']
  else if c = '\x0c' then ['\\', 'f']
  else if c = '\x08' then ['\\', 'b']
  else if 0x20 ≤ c.toNat ∧ c.toNat ≤ 0x7E then [c]
  else if c.toNat < 0x10000 then unitEscape c.toNat
  else
    let n := c.toNat - 0x10000
    unitEscape (0xD800 + n / 0x400) ++ unitEscape (0xDC00 + n % 0x400)

def stringChars (cs : List Char) : List Char :=
  '"' :: (cs.flatMap escapeChar ++ ['"'])

/-! ## Numbers -/

/-- Floats as they are displayed, with the three words for the others. -/
def numberLayout : Decimal.Layout :=
  { floatLayout with
    infinite := ['I', 'n', 'f', 'i', 'n', 'i', 't', 'y']
    undefined := ['N', 'a', 'N'] }

/-! ## Values -/

/-- Items of a level between brackets; without items the brackets touch. -/
def bracketed (style : Style) (level : Nat) (opening closing : Char)
    (items : List (List Char)) : List Char :=
  match items with
  | [] => [opening, closing]
  | items =>
    opening :: (style.lead (level + 1) ++
      List.intercalate (style.between (level + 1)) items ++ style.lead level ++ [closing])

/-- Entries by key, in the order of code points. -/
def sortEntries (entries : List (String × List Char)) : List (String × List Char) :=
  entries.mergeSort fun a b => decide (a.1 ≤ b.1)

/-- An entry: the key, a colon and the value. -/
def entryChars (entry : String × List Char) : List Char :=
  stringChars entry.1.toList ++ ':' :: ' ' :: entry.2

def braced (style : Style) (level : Nat) (entries : List (String × List Char)) : List Char :=
  let entries := if style.sortKeys then sortEntries entries else entries
  bracketed style level '\x7b' '\x7d' (entries.map entryChars)

mutual

/-- The text of a value at a level of nesting. -/
def print (style : Style) (level : Nat) : Value → List Char
  | .null => ['n', 'u', 'l', 'l']
  | .bool true => ['t', 'r', 'u', 'e']
  | .bool false => ['f', 'a', 'l', 's', 'e']
  | .int i => Decimal.intChars i
  | .float x => numberLayout.write x
  | .text s => stringChars s.toList
  | .list items => bracketed style level '[' ']' (printItems style (level + 1) items)
  | .tuple items => bracketed style level '[' ']' (printItems style (level + 1) items)
  | .dict entries => braced style level (printEntries style (level + 1) entries)
  | .segment kind fields => stringChars (Value.segment kind fields).display.toList
  | .extractor name argument => stringChars (Value.extractor name argument).display.toList

def printItems (style : Style) (level : Nat) : List Value → List (List Char)
  | [] => []
  | v :: rest => print style level v :: printItems style level rest

/-- The keys and the texts of the values of a dictionary. -/
def printEntries (style : Style) (level : Nat) :
    List (String × Value) → List (String × List Char)
  | [] => []
  | (k, v) :: rest => (k, print style level v) :: printEntries style level rest

end

/-! ## Values that cannot be written -/

inductive WriteFault where
  /-- It holds an integer beyond the digit limit. -/
  | digits (limit : Decimal.DigitLimit)
  /-- It holds something that is not data, of the type named. -/
  | notData (typeName : String)
  deriving DecidableEq, Repr

def WriteFault.message : WriteFault → String
  | .digits limit => limit.message
  | .notData typeName => "Object of type " ++ typeName ++ " is not JSON serializable"

mutual

/-- The first reason not to write a value; where `dataOnly` is false, what is
not data does not count. -/
def writeFault? (dataOnly : Bool) : Value → Option WriteFault
  | .int i => if Decimal.isWritable i then none else some (.digits .writing)
  | .list items => writeFaultItems? dataOnly items
  | .tuple items => writeFaultItems? dataOnly items
  | .dict entries => writeFaultEntries? dataOnly entries
  | .segment _ fields =>
    if dataOnly then some (.notData "Segment") else writeFaultEntries? dataOnly fields
  | .extractor _ _ => if dataOnly then some (.notData "function") else none
  | _ => none

def writeFaultItems? (dataOnly : Bool) : List Value → Option WriteFault
  | [] => none
  | v :: rest => (writeFault? dataOnly v).or (writeFaultItems? dataOnly rest)

def writeFaultEntries? (dataOnly : Bool) : List (String × Value) → Option WriteFault
  | [] => none
  | (_, v) :: rest => (writeFault? dataOnly v).or (writeFaultEntries? dataOnly rest)

end

/-! Where things that are no data do not count, only the digit limit does. -/

mutual

theorem writeFault?_false : ∀ v : Value,
    writeFault? false v = if v.isWritable then none else some (.digits .writing)
  | .int _ => rfl
  | .list items => writeFaultItems?_false items
  | .tuple items => writeFaultItems?_false items
  | .dict entries => writeFaultEntries?_false entries
  | .segment _ fields => writeFaultEntries?_false fields
  | .null => rfl
  | .bool _ => rfl
  | .float _ => rfl
  | .text _ => rfl
  | .extractor _ _ => rfl

theorem writeFaultItems?_false : ∀ items : List Value,
    writeFaultItems? false items =
      if Value.areWritable items then none else some (.digits .writing)
  | [] => rfl
  | v :: rest => by
    rw [writeFaultItems?, writeFault?_false v, writeFaultItems?_false rest, Value.areWritable]
    cases v.isWritable <;> simp

theorem writeFaultEntries?_false : ∀ entries : List (String × Value),
    writeFaultEntries? false entries =
      if Value.areEntriesWritable entries then none else some (.digits .writing)
  | [] => rfl
  | (_, v) :: rest => by
    rw [writeFaultEntries?, writeFault?_false v, writeFaultEntries?_false rest,
      Value.areEntriesWritable]
    cases v.isWritable <;> simp

end

/-- The text of a value in a style, unless there is a reason not to write it. -/
def write (style : Style) (dataOnly : Bool) (v : Value) : Except WriteFault String :=
  match writeFault? dataOnly v with
  | some fault => .error fault
  | none => .ok (String.ofList (print style 0 v))

end MessagePattern.Json
