import MessagePattern.Decimal.Numeral
import MessagePattern.Json.Parser
import MessagePattern.Text.Blank
import MessagePattern.Text.Trim

/-!
# Default values

The default of an optional parameter is written as text. A text between braces
or brackets is read as JSON; if that fails, once more with quotes around its bare
keys, and if that fails too the text stands for itself. A numeral without a plus
sign is a number, `true` and `false` are truth values, and all else is the
trimmed text. The only way to fail is an integer beyond the digit limit.
-/

namespace MessagePattern

def Value.ofNumber : Decimal.Number → Value
  | .int i => .int i
  | .float x => .float x

namespace Default

/-! ## Bare keys -/

/-- A letter of the ASCII alphabet or the underscore. -/
def isKeyStart (c : Char) : Bool :=
  c.isAlpha || c = '_'

/-- A character that a bare key goes on with. -/
def isKeyPart (c : Char) : Bool :=
  c.isAlphanum || c = '_'

/-- A bare key as it stands behind a brace or a comma: the blanks before it, the
key, the blanks behind it, and what follows the colon. -/
structure BareKey where
  lead : List Char
  key : List Char
  gap : List Char
  rest : List Char

/-- Finds a bare key at the start of a text. -/
def BareKey.find? (cs : List Char) : Option BareKey :=
  let lead := cs.takeWhile Text.isBlank
  let body := cs.dropWhile Text.isBlank
  let key := body.takeWhile isKeyPart
  let behind := body.dropWhile isKeyPart
  match key, behind.dropWhile Text.isBlank with
  | c :: _, ':' :: rest =>
    if isKeyStart c then some ⟨lead, key, behind.takeWhile Text.isBlank, rest⟩ else none
  | _, _ => none

/-- What follows a bare key is shorter than the text it was found in. -/
theorem BareKey.rest_shorter {cs : List Char} {b : BareKey} (h : find? cs = some b) :
    b.rest.length < cs.length := by
  unfold find? at h
  simp only at h
  split at h
  · rename_i hrest
    split at h
    · cases h
      have h1 := (List.dropWhile_sublist Text.isBlank (l := cs)).length_le
      have h2 := (List.dropWhile_sublist isKeyPart (l := cs.dropWhile Text.isBlank)).length_le
      have h3 := (List.dropWhile_sublist Text.isBlank
        (l := (cs.dropWhile Text.isBlank).dropWhile isKeyPart)).length_le
      rw [hrest, List.length_cons] at h3
      show _ < _
      simp only
      omega
    · cases h
  · cases h

/-- The text with quotes around every bare key that stands between a brace or a
comma and a colon. Strings are not told apart from the rest. -/
def quoteBareKeys : List Char → List Char
  | [] => []
  | c :: cs =>
    if c = '\x7b' || c = ',' then
      match h : BareKey.find? cs with
      | some b =>
        have := BareKey.rest_shorter h
        c :: (b.lead ++ '"' :: (b.key ++ '"' :: (b.gap ++ ':' :: quoteBareKeys b.rest)))
      | none => c :: quoteBareKeys cs
    else c :: quoteBareKeys cs
  termination_by cs => cs.length
  decreasing_by all_goals simp only [List.length_cons]; omega

/-! ## Reading a default -/

/-- Whether a text stands between a pair of braces or of brackets. -/
def isStructured (cs : List Char) : Bool :=
  (cs.head? == some '\x7b' && cs.getLast? == some '\x7d') ||
    (cs.head? == some '[' && cs.getLast? == some ']')

/-- Reads a text as JSON; none if it is malformed. -/
def readJson (cs : List Char) : Except Decimal.DigitLimit (Option Value) :=
  match Json.parse cs with
  | .ok v => .ok (some v)
  | .error (.digits limit) => .error limit
  | .error (.malformed ..) => .ok none

/-- Reads a trimmed text between braces or brackets. -/
def readStructured (cs : List Char) : Except Decimal.DigitLimit Value := do
  match ← readJson cs with
  | some v => .ok v
  | none =>
    match ← readJson (quoteBareKeys cs) with
    | some v => .ok v
    | none => .ok (.text (String.ofList cs))

def readPlain (cs : List Char) : Except Decimal.DigitLimit Value :=
  match Decimal.Numeral.scan? cs with
  | some n =>
    if n.sign = some '+' then .ok (.text (String.ofList cs))
    else n.number.map Value.ofNumber
  | none =>
    if cs = ['t', 'r', 'u', 'e'] then .ok (.bool true)
    else if cs = ['f', 'a', 'l', 's', 'e'] then .ok (.bool false)
    else .ok (.text (String.ofList cs))

def read (cs : List Char) : Except Decimal.DigitLimit Value :=
  let trimmed := Text.trim cs
  if isStructured trimmed then readStructured trimmed else readPlain trimmed

end Default

end MessagePattern
