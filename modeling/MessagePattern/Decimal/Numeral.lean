import MessagePattern.Decimal.Binary64

/-!
# Numerals

A numeral is an optional sign, one or more digits and, optionally, a point
followed by one or more digits. The readers of defaults and of typed parameters
accept different subsets of this one form: whether a sign or a fraction is
welcome is theirs to say. A numeral without a fraction is an integer and is
subject to the digit limit; one with a fraction is a double and is not.
-/

namespace MessagePattern.Decimal

/-- A number as it was written: an integer or a double. -/
inductive Number where
  | int (i : Int)
  | float (x : Float)

structure Numeral where
  /-- The sign character, if there is one. -/
  sign : Option Char
  /-- The digits before the point. -/
  whole : List Char
  /-- The digits after the point, if there is one. -/
  fraction : Option (List Char)
  deriving DecidableEq, Repr

/-- Whether a run of characters is a non-empty run of digits. -/
def isDigits (cs : List Char) : Bool :=
  !cs.isEmpty && cs.all Char.isDigit

def splitSign : List Char → Option Char × List Char
  | c :: r => if c = '-' ∨ c = '+' then (some c, r) else (none, c :: r)
  | [] => (none, [])

/-- The parts of a text that is a numeral from end to end. -/
def Numeral.scan? (cs : List Char) : Option Numeral :=
  let (sign, body) := splitSign cs
  let whole := body.takeWhile Char.isDigit
  match body.dropWhile Char.isDigit with
  | [] => if isDigits whole then some ⟨sign, whole, none⟩ else none
  | c :: fraction =>
    if c = '.' && isDigits whole && isDigits fraction then some ⟨sign, whole, some fraction⟩
    else none

def Numeral.negative (n : Numeral) : Bool :=
  n.sign == some '-'

/-- The integer of the digits before the point. -/
def Numeral.toInt (n : Numeral) : Except DigitLimit Int :=
  readInt n.negative n.whole

/-- The double of all digits. -/
def Numeral.toFloat (n : Numeral) : Float :=
  let fraction := n.fraction.getD []
  ofDecimal n.negative (ofDigits (n.whole ++ fraction)) (-(fraction.length : Int))

def Numeral.number (n : Numeral) : Except DigitLimit Number :=
  match n.fraction with
  | none => n.toInt.map .int
  | some _ => .ok (.float n.toFloat)

def Numeral.chars (n : Numeral) : List Char :=
  n.sign.toList ++ n.whole ++
    match n.fraction with
    | none => []
    | some fraction => '.' :: fraction

/-- Scanning a numeral loses nothing of its text. -/
theorem Numeral.chars_of_scan? {cs : List Char} {n : Numeral} (h : scan? cs = some n) :
    n.chars = cs := by
  have hsign : cs = (splitSign cs).1.toList ++ (splitSign cs).2 := by
    cases cs with
    | nil => rfl
    | cons c r => by_cases hc : c = '-' ∨ c = '+' <;> simp [splitSign, hc]
  have hbody := (List.takeWhile_append_dropWhile (p := Char.isDigit) (l := (splitSign cs).2)).symm
  unfold scan? at h
  simp only at h
  split at h
  · rename_i hrest
    split at h
    · cases h
      rw [hrest, List.append_nil] at hbody
      simp only [chars, List.append_nil]
      rw [← hbody, ← hsign]
    · cases h
  · rename_i c fraction hrest
    split at h
    · rename_i hok
      simp only [Bool.and_eq_true, decide_eq_true_eq] at hok
      cases h
      obtain ⟨⟨rfl, -⟩, -⟩ := hok
      rw [hrest] at hbody
      simp only [chars]
      rw [List.append_assoc, ← hbody, ← hsign]
    · cases h

end MessagePattern.Decimal
