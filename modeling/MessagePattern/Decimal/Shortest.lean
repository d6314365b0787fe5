import MessagePattern.Decimal.Binary64

/-!
# The shortest decimal that reads back

A finite double is written with the fewest significant digits that still round
to it, and of the candidates with that many digits the nearest to its true
value is taken. The reals that round to `m · 2^q` form an interval around it whose
ends belong to it exactly if `m` is even. For one, two, … seventeen digits the two
neighbours of the value on that decimal grid are tested in exact arithmetic: a
grid with any point in the interval has one of these two in it, so the first
grid with a hit has the fewest digits.
-/

namespace MessagePattern.Decimal

/-- Significant digits and the power of ten of the first: `d₁.d₂d₃… · 10^exponent`. -/
structure Significand where
  digits : List Char
  exponent : Int
  deriving DecidableEq, Repr

/-- The interval of rounding of a double, and the double itself, as numerators
over one denominator. -/
structure Interval where
  low : Nat
  value : Nat
  high : Nat
  denominator : Nat
  closed : Bool

/-- The interval of `m · 2^q`. Below a power of two the gap is half as wide,
unless the exponent is already the least. -/
def Interval.of (m : Nat) (q : Int) : Interval :=
  let below := if m = Nat.pow 2 52 ∧ q > -1074 then 1 else 2
  let up := if q < 0 then 1 else Nat.pow 2 q.natAbs
  let down := if q < 0 then Nat.pow 2 q.natAbs else 1
  { low := (4 * m - below) * up
    value := 4 * m * up
    high := (4 * m + 2) * up
    denominator := 4 * down
    closed := m % 2 = 0 }

/-- The interval divided by `10^k`. -/
def Interval.scale (i : Interval) (k : Int) : Interval :=
  if k < 0 then
    let p := Nat.pow 10 k.natAbs
    { i with low := i.low * p, value := i.value * p, high := i.high * p }
  else { i with denominator := i.denominator * Nat.pow 10 k.natAbs }

def Interval.holds (i : Interval) (n : Nat) : Bool :=
  let c := n * i.denominator
  if i.closed then i.low ≤ c && c ≤ i.high else i.low < c && c < i.high

/-- The natural of the interval nearest to its value, a tie going to the even
one; only the value's two neighbours are looked at. -/
def Interval.nearest? (i : Interval) : Option Nat :=
  let d := i.value / i.denominator
  let r := i.value % i.denominator
  match i.holds d, i.holds (d + 1) with
  | true, true =>
    if 2 * r < i.denominator ∨ (2 * r = i.denominator ∧ d % 2 = 0) then some d else some (d + 1)
  | true, false => some d
  | false, true => some (d + 1)
  | false, false => none

/-- Whether a positive value reaches `10^k`. -/
def Interval.reaches (i : Interval) (k : Int) : Bool :=
  let j := i.scale k
  j.denominator ≤ j.value

/-- The power of ten of the first digit of a positive value, found from its
binary logarithm by at most one correction either way. -/
def Interval.decimalExponent (i : Interval) : Int :=
  let bits : Int := (i.value.log2 : Int) - (i.denominator.log2 : Int)
  -- The factor is just above the decimal logarithm of two.
  let guess := (bits * 30103).fdiv 100000
  if i.reaches (guess + 1) then guess + 1
  else if i.reaches guess then guess
  else guess - 1

/-- Tries grids of `count`, `count + 1`, … significant digits, `fuel` of them. -/
def Interval.search (i : Interval) (exponent : Int) : (fuel count : Nat) → Option (Nat × Int)
  | 0, _ => none
  | fuel + 1, count =>
    let k := exponent - count + 1
    match (i.scale k).nearest? with
    | some n => some (n, k)
    | none => i.search exponent fuel (count + 1)

/-- The shortest significand of `m · 2^q`; zero has the one digit `0`. -/
def shortest (m : Nat) (q : Int) : Significand :=
  if m = 0 then ⟨['0'], 0⟩
  else
    let i := Interval.of m q
    match i.search i.decimalExponent 17 1 with
    | some (n, k) =>
      let ds := digits n
      let kept := (ds.reverse.dropWhile (· == '0')).reverse
      ⟨kept, k + ds.length - 1⟩
    | none => ⟨digits m, (digits m).length - 1⟩

end MessagePattern.Decimal
