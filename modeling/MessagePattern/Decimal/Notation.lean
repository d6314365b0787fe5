import MessagePattern.Decimal.Shortest

/-!
# Layouts of floating-point numbers

The shortest digits of a double are laid out positionally or with an exponent.
A layout fixes which exponents are positional, how many digits an exponent has
at least, and what stands for the values that have no digits. A positional
number always shows a fraction, `.0` if need be, so that no float is written
like an integer.
-/

namespace MessagePattern.Decimal

/-- The decisions of a floating-point format. -/
structure Layout where
  /-- The least exponent written positionally. -/
  positionalFrom : Int
  /-- The least exponent above those written positionally. -/
  positionalTo : Int
  /-- The least number of digits of an exponent. -/
  exponentWidth : Nat
  infinite : List Char
  undefined : List Char

/-- Digits with the point after as many of them as the exponent says. -/
def Significand.positional (s : Significand) : List Char :=
  if s.exponent < 0 then
    '0' :: '.' :: (List.replicate (s.exponent.natAbs - 1) '0' ++ s.digits)
  else
    let whole := s.exponent.natAbs + 1
    let padded := s.digits ++ List.replicate (whole + 1 - s.digits.length) '0'
    padded.take whole ++ '.' :: padded.drop whole

/-- One digit before the point, the others after it, and the exponent with its
sign. -/
def Significand.scientific (width : Nat) (s : Significand) : List Char :=
  let mantissa :=
    match s.digits with
    | [] => []
    | [d] => [d]
    | d :: r => d :: '.' :: r
  let ds := Decimal.digits s.exponent.natAbs
  let sign := if s.exponent < 0 then '-' else '+'
  mantissa ++ 'e' :: sign :: (List.replicate (width - ds.length) '0' ++ ds)

def Layout.write (layout : Layout) (x : Float) : List Char :=
  let parts := decode x
  let sign := if parts.negative then ['-'] else []
  match parts.magnitude with
  | .undefined => layout.undefined
  | .infinite => sign ++ layout.infinite
  | .finite m q =>
    let s := shortest m q
    if layout.positionalFrom ≤ s.exponent ∧ s.exponent < layout.positionalTo then
      sign ++ s.positional
    else sign ++ s.scientific layout.exponentWidth

end MessagePattern.Decimal
