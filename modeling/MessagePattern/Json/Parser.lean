import MessagePattern.Json.Error
import MessagePattern.Text.Hex
import MessagePattern.Value.Basic
import MessagePattern.Decimal.Binary64

/-!
# Reading JSON

The reader takes the standard syntax and three words more: `NaN`, `Infinity` and
`-Infinity`. A number with neither fraction nor exponent is an integer, any
other a float. Control characters may not stand in a string unescaped. Of a
repeated key the first place and the last value count.

Every function answers with the value it read and the rest of the text. The
recursion is bounded by a fuel that starts at the length of the text; as every
call reads a character before the next one, it never runs out.
-/

namespace MessagePattern.Json

def stopAt {α : Type} (fault : Fault) (rest : List Char) : Except Stop α :=
  .error (.malformed fault rest.length)

def isSpace (c : Char) : Bool :=
  c = ' ' || c = '\t' || c = '\n' || c = '\r'

/-- The text from its first character that is not a space on. -/
def skipSpace (cs : List Char) : List Char :=
  cs.dropWhile isSpace

/-! ## Strings -/

/-- The character that a one-letter escape stands for. -/
def shortEscape? (c : Char) : Option Char :=
  match c with
  | '"' => some '"'
  | '\\' => some '\\'
  | '/' => some '/'
  | 'b' => some '\x08'
  | 'f' => some '\x0c'
  | 'n' => some '\n'
  | 'r' => some '\r'
  | 't' => some '\t'
  | _ => none

/-- Whether a number is the first half of a surrogate pair. -/
def isHighSurrogate (n : Nat) : Bool :=
  0xD800 ≤ n && n ≤ 0xDBFF

/-- Whether a number is the second half of a surrogate pair. -/
def isLowSurrogate (n : Nat) : Bool :=
  0xDC00 ≤ n && n ≤ 0xDFFF

/-- The number of a surrogate pair. -/
def joinSurrogates (high low : Nat) : Nat :=
  0x10000 + (high - 0xD800) * 0x400 + (low - 0xDC00)

/-- The character of a unit; half of a pair that stands alone is no character
and becomes the replacement character. -/
def unitChar (n : Nat) : Char :=
  if isHighSurrogate n || isLowSurrogate n then '\uFFFD' else Char.ofNat n

/-- The characters of a run of units, in which a pair of surrogates is one
character. -/
def charsOfUnits : List Nat → List Char
  | [] => []
  | [n] => [unitChar n]
  | n :: m :: rest =>
    if isHighSurrogate n && isLowSurrogate m then
      Char.ofNat (joinSurrogates n m) :: charsOfUnits rest
    else unitChar n :: charsOfUnits (m :: rest)

/-- Puts a unit in front of those that were read. -/
def consUnit (n : Nat) (read : Except Stop (List Nat × List Char)) :
    Except Stop (List Nat × List Char) :=
  read.map fun (units, rest) => (n :: units, rest)

/-- Reads the units of a string behind its opening quote; `start` is the text
from that quote on. An escape of four digits is one unit, and so is every
other character. -/
def readUnits (start : List Char) : List Char → Except Stop (List Nat × List Char)
  | [] => stopAt .unterminatedString start
  | '"' :: rest => .ok ([], rest)
  | '\\' :: [] => stopAt .unterminatedString start
  | '\\' :: 'u' :: a :: b :: c :: d :: e :: rest =>
    match Text.hexNumber? 0 [a, b, c, d] with
    | none => stopAt .hexEscape ('u' :: a :: b :: c :: d :: e :: rest)
    | some n => consUnit n (readUnits start (e :: rest))
  | '\\' :: 'u' :: rest => stopAt .hexEscape ('u' :: rest)
  | '\\' :: c :: rest =>
    match shortEscape? c with
    | none => stopAt .escape ('\\' :: c :: rest)
    | some c' => consUnit c'.toNat (readUnits start rest)
  | c :: rest =>
    if c.toNat < 0x20 then stopAt .controlCharacter (c :: rest)
    else consUnit c.toNat (readUnits start rest)

def readString (start : List Char) (cs : List Char) : Except Stop (List Char × List Char) :=
  (readUnits start cs).map fun (units, rest) => (charsOfUnits units, rest)

/-! ## Numbers -/

/-- The digits at the start of a text, and the rest. -/
def spanDigits (cs : List Char) : List Char × List Char :=
  (cs.takeWhile Char.isDigit, cs.dropWhile Char.isDigit)

/-- Reads a fraction: a point and at least one digit. -/
def fraction? : List Char → Option (List Char × List Char)
  | '.' :: rest =>
    let (ds, rest) := spanDigits rest
    if ds.isEmpty then none else some (ds, rest)
  | _ => none

/-- Reads an exponent: `e` of either case, an optional sign and at least one
digit. -/
def exponent? : List Char → Option (Int × List Char)
  | c :: rest =>
    if c = 'e' ∨ c = 'E' then
      let (negative, body) :=
        match rest with
        | '-' :: r => (true, r)
        | '+' :: r => (false, r)
        | r => (false, r)
      let (ds, rest) := spanDigits body
      if ds.isEmpty then none
      else
        let n : Int := Decimal.ofDigits ds
        some (if negative then -n else n, rest)
    else none
  | [] => none

/-- The digits before the point: a lone zero, or digits that do not start with
one. -/
def whole? : List Char → Option (List Char × List Char)
  | '0' :: rest => some (['0'], rest)
  | c :: rest => if c.isDigit then some (spanDigits (c :: rest)) else none
  | [] => none

/-- Reads an unsigned number behind its sign; `start` is the text from the sign
on. -/
def readMagnitude (negative : Bool) (start body : List Char) : Except Stop (Value × List Char) :=
  match whole? body with
  | none => stopAt .value start
  | some (whole, rest) =>
    let (fraction, afterFraction) := (fraction? rest).getD ([], rest)
    let exponent := exponent? afterFraction
    if fraction.isEmpty && exponent.isNone then
      match Decimal.readInt negative whole with
      | .ok i => .ok (.int i, rest)
      | .error limit => .error (.digits limit)
    else
      let (e, rest) := exponent.getD (0, afterFraction)
      let m := Decimal.ofDigits (whole ++ fraction)
      .ok (.float (Decimal.ofDecimal negative m (e - fraction.length)), rest)

def readNumber : List Char → Except Stop (Value × List Char)
  | '-' :: rest => readMagnitude true ('-' :: rest) rest
  | cs => readMagnitude false cs cs

/-! ## Words -/

def wordValues : List (List Char × Value) :=
  [(['n', 'u', 'l', 'l'], .null),
   (['t', 'r', 'u', 'e'], .bool true),
   (['f', 'a', 'l', 's', 'e'], .bool false),
   (['N', 'a', 'N'], .float Decimal.notANumber),
   (['I', 'n', 'f', 'i', 'n', 'i', 't', 'y'], .float (Decimal.infinity false)),
   (['-', 'I', 'n', 'f', 'i', 'n', 'i', 't', 'y'], .float (Decimal.infinity true))]

def word? (cs : List Char) : Option (Value × List Char) :=
  wordValues.findSome? fun (word, v) =>
    if word.isPrefixOf cs then some (v, cs.drop word.length) else none

/-! ## Values -/

mutual

/-- Reads a value that starts at the first character. -/
def readValue : (fuel : Nat) → List Char → Except Stop (Value × List Char)
  | 0, cs => stopAt .value cs
  | fuel + 1, cs =>
    match cs with
    | '"' :: rest => do
      let (s, rest) ← readString cs rest
      .ok (.text (String.ofList s), rest)
    | '[' :: rest =>
      match skipSpace rest with
      | ']' :: rest => .ok (.list [], rest)
      | rest => do
        let (items, rest) ← readItems fuel rest
        .ok (.list items, rest)
    | '\x7b' :: rest =>
      match skipSpace rest with
      | '\x7d' :: rest => .ok (.dict [], rest)
      | rest => do
        let (entries, rest) ← readEntries fuel rest
        .ok (.dict (Table.ofEntries entries), rest)
    | cs =>
      match word? cs with
      | some read => .ok read
      | none => readNumber cs

/-- Reads the items of an array from the first one on, and the closing
bracket. -/
def readItems : (fuel : Nat) → List Char → Except Stop (List Value × List Char)
  | 0, cs => stopAt .value cs
  | fuel + 1, cs => do
    let (v, rest) ← readValue fuel cs
    match skipSpace rest with
    | ']' :: rest => .ok ([v], rest)
    | ',' :: rest => do
      let (vs, rest) ← readItems fuel (skipSpace rest)
      .ok (v :: vs, rest)
    | rest => stopAt .comma rest

/-- Reads the entries of an object from the first key on, and the closing
brace. -/
def readEntries : (fuel : Nat) → List Char → Except Stop (List (String × Value) × List Char)
  | 0, cs => stopAt .propertyName cs
  | fuel + 1, cs =>
    match cs with
    | '"' :: rest => do
      let (key, rest) ← readString cs rest
      match skipSpace rest with
      | ':' :: rest => do
        let (v, rest) ← readValue fuel (skipSpace rest)
        let entry := (String.ofList key, v)
        match skipSpace rest with
        | '\x7d' :: rest => .ok ([entry], rest)
        | ',' :: rest => do
          let (entries, rest) ← readEntries fuel (skipSpace rest)
          .ok (entry :: entries, rest)
        | rest => stopAt .comma rest
      | rest => stopAt .colon rest
    | cs => stopAt .propertyName cs

end

/-- Reads a whole text, which may have spaces around its one value. -/
def readDocument (text : List Char) : Except Stop Value :=
  match text with
  | '\uFEFF' :: _ => stopAt .byteOrderMark text
  | _ => do
    let start := skipSpace text
    let (v, rest) ← readValue (start.length + 1) start
    match skipSpace rest with
    | [] => .ok v
    | rest => stopAt .extraData rest

def parse (text : List Char) : Except Error Value :=
  (readDocument text).mapError (Stop.toError text)

end MessagePattern.Json
