import MessagePattern.Default
import MessagePattern.Segment.Basic
import MessagePattern.Text.Hex

/-!
# Type matchers

A typed parameter takes a text only if the matcher of its type accepts it, and
then holds the value that the matcher makes of it. Five types are known from the
start; a host may bring matchers of its own. A matcher looks at any value, but only
the one for plain text accepts a value that is no text.
-/

namespace MessagePattern

/-- What a matcher says to a value. -/
inductive TypeMatch where
  /-- It is of the type and stands for the value given. -/
  | accepted (v : Value)
  /-- It is not of the type. -/
  | refused
  /-- The matcher has no answer, which counts as a refusal. -/
  | silent
  deriving Inhabited

/-- Why a matcher, or a match that asks it, is broken off. -/
inductive MatchFault where
  /-- An integer has too many digits. -/
  | digits (limit : Decimal.DigitLimit)
  /-- The matcher fails by a fault of its own, in these words. -/
  | failed (message : String)
  deriving DecidableEq, Repr

def MatchFault.message : MatchFault → String
  | digits limit => limit.message
  | failed message => message

abbrev Matcher := Value → Except MatchFault TypeMatch

namespace Matcher

/-- The matcher that refuses what is no text and reads the rest. -/
def onText (read : List Char → Except MatchFault TypeMatch) : Matcher
  | .text s => read s.toList
  | _ => .ok .refused

/-- The matcher of the numerals that satisfy a condition, with the number that it makes of one. -/
def numeral (welcome : Decimal.Numeral → Bool)
    (convert : Decimal.Numeral → Except Decimal.DigitLimit Decimal.Number) : Matcher :=
  onText fun cs =>
    match Decimal.Numeral.scan? cs with
    | some n =>
      if welcome n then ((convert n).mapError .digits).map (.accepted ∘ Value.ofNumber)
      else .ok .refused
    | none => .ok .refused

/-! ## The types known from the start -/

def number : Matcher :=
  numeral (fun _ => true) (·.number)

def integer : Matcher :=
  numeral (·.fraction.isNone) fun n => n.toInt.map .int

def float : Matcher :=
  numeral (·.fraction.isSome) fun n => .ok (.float n.toFloat)

def boolean : Matcher :=
  onText fun cs =>
    .ok <|
      if cs = ['t', 'r', 'u', 'e'] then .accepted (.bool true)
      else if cs = ['f', 'a', 'l', 's', 'e'] then .accepted (.bool false)
      else .refused

def text : Matcher :=
  fun v => .ok (.accepted v)

/-- The types known from the start, in their order. -/
def builtins : List (String × Matcher) :=
  [("number", number), ("integer", integer), ("float", float), ("boolean", boolean),
   (textKind, text)]

/-! ## Further matchers -/

/-- Hexadecimal numerals: `0x` and lower-case digits. No digit limit applies. -/
def hexadecimal : Matcher :=
  onText fun cs =>
    .ok <|
      match cs with
      | '0' :: 'x' :: d :: ds =>
        if (d :: ds).all fun c => c.isDigit || ('a' ≤ c && c ≤ 'f') then
          match Text.hexNumber? 0 (d :: ds) with
          | some n => .accepted (.int n)
          | none => .refused
        else .refused
      | _ => .refused

def length : Matcher :=
  onText fun cs => .ok (.accepted (.int cs.length))

/-- A mention: a text behind an at sign, for what stands behind the sign. -/
def mention : Matcher :=
  onText fun cs =>
    .ok <|
      match cs with
      | '@' :: name => .accepted (.text (String.ofList name))
      | _ => .refused

def discarding : Matcher :=
  fun _ => .ok (.accepted .null)

def mute : Matcher :=
  fun _ => .ok .silent

def never : Matcher :=
  fun _ => .ok .refused

/-- A matcher of texts refuses what is no text. -/
theorem onText_of_text?_eq_none (read : List Char → Except MatchFault TypeMatch)
    {v : Value} (h : v.text? = none) : onText read v = .ok .refused := by
  cases v <;> simp_all [onText, Value.text?]

/-! ## Numbers of numerals -/

/-- How numerals are converted counts only for those that are welcome. -/
theorem numeral_congr {welcome : Decimal.Numeral → Bool}
    {convert convert' : Decimal.Numeral → Except Decimal.DigitLimit Decimal.Number}
    (h : ∀ n, welcome n = true → convert n = convert' n) :
    numeral welcome convert = numeral welcome convert' := by
  unfold numeral
  congr 1
  funext cs
  cases Decimal.Numeral.scan? cs with
  | none => rfl
  | some n =>
    by_cases hwelcome : welcome n = true
    · simp only [h n hwelcome]
    · simp only [if_neg hwelcome]

/-- A numeral without a fraction is the same number for the matcher of integers and for that of
numbers. -/
theorem integer_eq : integer = numeral (·.fraction.isNone) (·.number) := by
  refine numeral_congr fun n hn => ?_
  rw [Decimal.Numeral.number, Option.isNone_iff_eq_none.mp hn]

theorem float_eq : float = numeral (·.fraction.isSome) (·.number) := by
  refine numeral_congr fun n hn => ?_
  obtain ⟨fraction, hfraction⟩ := Option.isSome_iff_exists.mp hn
  rw [Decimal.Numeral.number, hfraction]

end Matcher

end MessagePattern
