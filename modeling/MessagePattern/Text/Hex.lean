/-!
# Hexadecimal digits

Escapes write code points in a fixed number of lower-case hexadecimal digits,
and readers turn such digits back into numbers.
-/

namespace MessagePattern.Text

/-- The lower-case hexadecimal digit of a number below sixteen. -/
def hexDigit (n : Nat) : Char :=
  if n < 10 then Char.ofNat (48 + n) else Char.ofNat (87 + n)

/-- The last `width` hexadecimal digits of a number, the most significant
first. -/
def hexPadded : (width : Nat) → (n : Nat) → List Char
  | 0, _ => []
  | width + 1, n => hexPadded width (n / 16) ++ [hexDigit (n % 16)]

/-- The number that a hexadecimal digit of either case stands for. -/
def hexValue? (c : Char) : Option Nat :=
  let n := c.toNat
  if 48 ≤ n ∧ n ≤ 57 then some (n - 48)
  else if 97 ≤ n ∧ n ≤ 102 then some (n - 87)
  else if 65 ≤ n ∧ n ≤ 70 then some (n - 55)
  else none

/-- The number that a run of hexadecimal digits stands for, `acc` being the
value of the digits before it. -/
def hexNumber? (acc : Nat) : List Char → Option Nat
  | [] => some acc
  | c :: r => (hexValue? c).bind fun d => hexNumber? (16 * acc + d) r

/-- A padded number has as many digits as asked for. -/
theorem length_hexPadded (width n : Nat) : (hexPadded width n).length = width := by
  induction width generalizing n with
  | zero => rfl
  | succ width ih => simp [hexPadded, ih]

example : hexPadded 4 0x2028 = ['2', '0', '2', '8'] := by decide
example : hexNumber? 0 ['1', 'F'] = some 31 := by decide

end MessagePattern.Text
