import MessagePattern.Decimal.Integer

/-!
# Binary floating-point numbers

A finite double is `m · 2^q` with `m < 2^53` and `-1074 ≤ q`; zero and the
numbers too small for a leading bit have `q = -1074`. `decode` takes a double
apart and `nearest` finds the double closest to a quotient of naturals, a tie
going to the even `m`. Both work on the bit pattern, in exact arithmetic, where
exponent and fraction add up: the pattern of `m · 2^q` is
`(q + 1074) · 2^52 + m`, also when rounding carries `m` to `2^53`.
-/

namespace MessagePattern.Decimal

/-! ## Decoding -/

inductive Magnitude where
  /-- The number `m · 2^q`. -/
  | finite (m : Nat) (q : Int)
  | infinite
  | undefined
  deriving DecidableEq, Repr

structure Parts where
  negative : Bool
  magnitude : Magnitude
  deriving DecidableEq, Repr

def Parts.ofBits (bits : Nat) : Parts :=
  let fraction : Nat := bits % Nat.pow 2 52
  let exponent : Nat := bits / Nat.pow 2 52 % Nat.pow 2 11
  { negative := bits / Nat.pow 2 63 % 2 == 1
    magnitude :=
      if exponent = 2047 then (if fraction = 0 then .infinite else .undefined)
      else if exponent = 0 then .finite fraction (-1074)
      else .finite (fraction + Nat.pow 2 52) ((exponent : Int) - 1075) }

def decode (x : Float) : Parts :=
  Parts.ofBits x.toBits.toNat

/-- The double of a sign and the bits of a magnitude. -/
def encode (negative : Bool) (magnitude : Nat) : Float :=
  Float.ofBits (UInt64.ofNat ((if negative then Nat.pow 2 63 else 0) + magnitude))

/-- The bits of infinity; those of every finite magnitude are smaller. -/
def infinityBits : Nat := 2047 * Nat.pow 2 52

def infinity (negative : Bool) : Float :=
  encode negative infinityBits

def notANumber : Float :=
  encode false (infinityBits + Nat.pow 2 51)

/-! ## Rounding a quotient -/

/-- A quotient rounded to the nearest natural, a tie to the even one. -/
def roundQuotient (num den : Nat) : Nat :=
  let q := num / den
  let r := num % den
  if 2 * r > den ∨ (2 * r = den ∧ q % 2 = 1) then q + 1 else q

/-- The pair `num / den` scaled by `2^(-e)`. -/
def scaleDown (num den : Nat) (e : Int) : Nat × Nat :=
  if e < 0 then (num * Nat.pow 2 e.natAbs, den) else (num, den * Nat.pow 2 e.natAbs)

/-- The exponent at which a positive quotient has 53 bits before the point, or
`-1074` if that is larger. -/
def binaryExponent (num den : Nat) : Int :=
  let low : Int := (num.log2 : Int) - (den.log2 : Int) - 53
  let (n, d) := scaleDown num den low
  -- Both logarithms round down, so the quotient has 53 or 54 bits here.
  max (if n / d < Nat.pow 2 53 then low else low + 1) (-1074)

/-- The magnitude bits of the double nearest to a quotient. -/
def nearestBits (num den : Nat) : Nat :=
  if num = 0 then 0
  else
    let e := binaryExponent num den
    let (n, d) := scaleDown num den e
    min ((e + 1074).toNat * Nat.pow 2 52 + roundQuotient n d) infinityBits

/-- The double nearest to `m · 10^e`. An exponent beyond all doubles is settled
by the number of digits, so that no large power is ever formed for it. -/
def ofDecimal (negative : Bool) (m : Nat) (e : Int) : Float :=
  let size : Int := (digits m).length + e
  if m = 0 ∨ size < -330 then encode negative 0
  else if size > 310 then infinity negative
  else if e < 0 then encode negative (nearestBits m (Nat.pow 10 e.natAbs))
  else encode negative (nearestBits (m * Nat.pow 10 e.natAbs) 1)

/-- The exact integer that a double stands for, if it is one. -/
def toInt? (x : Float) : Option Int :=
  match decode x with
  | ⟨negative, .finite m q⟩ =>
    let natural? : Option Nat :=
      if 0 ≤ q then some (m * Nat.pow 2 q.natAbs)
      else if m % Nat.pow 2 q.natAbs = 0 then some (m / Nat.pow 2 q.natAbs) else none
    natural?.map fun n => if negative then -(n : Int) else n
  | _ => none

end MessagePattern.Decimal
