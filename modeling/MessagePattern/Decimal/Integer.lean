/-!
# Integers as decimal digits

Integers have no bound here, but their texts do: a run of more than
`maxDigits` digits is neither read nor written. The sign is not counted, leading
zeros are. Digits are the ten ASCII digits and nothing else.
-/

namespace MessagePattern.Decimal

/-- The most digits that an integer is read from or written with. -/
def maxDigits : Nat := 4300

/-- An integer text that exceeds `maxDigits`. -/
inductive DigitLimit where
  /-- A text of that many digits was to be read. -/
  | reading (digits : Nat)
  /-- An integer was to be written that needs more digits. -/
  | writing
  deriving DecidableEq, Repr

def DigitLimit.message : DigitLimit → String
  | .reading n =>
    "Exceeds the limit (4300 digits) for integer string conversion: value has " ++ toString n ++
      " digits; use sys.set_int_max_str_digits() to increase the limit"
  | .writing =>
    "Exceeds the limit (4300 digits) for integer string conversion; " ++
      "use sys.set_int_max_str_digits() to increase the limit"

/-- The decimal digits of a number, without leading zeros. -/
def digits (n : Nat) : List Char :=
  Nat.toDigits 10 n

/-- The number that a run of digits stands for. -/
def ofDigits (cs : List Char) : Nat :=
  Nat.ofDigitChars 10 cs 0

/-- The digits of an integer, behind a minus sign if it is negative. -/
def intChars (i : Int) : List Char :=
  if i < 0 then '-' :: digits i.natAbs else digits i.natAbs

def intText (i : Int) : String :=
  String.ofList (intChars i)

def readInt (negative : Bool) (ds : List Char) : Except DigitLimit Int :=
  if ds.length > maxDigits then .error (.reading ds.length)
  else .ok (if negative then -(ofDigits ds : Int) else ofDigits ds)

/-- Whether an integer has few enough digits to be written. -/
def isWritable (i : Int) : Bool :=
  (digits i.natAbs).length ≤ maxDigits

/-- The digits of a number read back as the number. -/
theorem ofDigits_digits (n : Nat) : ofDigits (digits n) = n :=
  Nat.ofDigitChars_toDigits (by decide) (by decide)

end MessagePattern.Decimal
