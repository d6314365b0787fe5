import MessagePattern.Text.Hex
import MessagePattern.Text.Printable

/-!
# Quoted texts

Messages and descriptions show a text between quotes. The quote is the single
one unless the text itself holds a single quote and no double one; then it is
the double one. The quote and the backslash are escaped by a backslash, the
line feed, carriage return and tab have escapes of their own, and every other
character that is not printable is written by its code point in two, four or
eight hexadecimal digits. A quoted text therefore never spans lines.
-/

namespace MessagePattern.Text

def quoteFor (cs : List Char) : Char :=
  if cs.contains '\'' && !cs.contains '"' then '"' else '\''

/-- The escape of a character by its code point. -/
def codePointEscape (n : Nat) : List Char :=
  if n ≤ 0xFF then '\\' :: 'x' :: hexPadded 2 n
  else if n ≤ 0xFFFF then '\\' :: 'u' :: hexPadded 4 n
  else '\\' :: 'U' :: hexPadded 8 n

/-- A character as it stands inside a text quoted by `q`. -/
def escapeIn (q : Char) (c : Char) : List Char :=
  if c = q ∨ c = '\\' then ['\\', c]
  else if c = '\t' then ['\\', 't']
  else if c = '\n' then ['\\', 'n']
  else if c = '\r' then ['\\', 'r']
  else if isPrintable c then [c]
  else codePointEscape c.toNat

def quotedChars (cs : List Char) : List Char :=
  let q := quoteFor cs
  q :: (cs.flatMap (escapeIn q) ++ [q])

def quoted (s : String) : String :=
  String.ofList (quotedChars s.toList)

theorem newline_notMem_escapeIn {q : Char} (hq : q ≠ '\n') (c : Char) : '\n' ∉ escapeIn q c := by
  have hex : ∀ w n, '\n' ∉ hexPadded w n := by
    intro w
    induction w with
    | zero => simp [hexPadded]
    | succ w ih =>
      intro n
      have hd : ∀ d, d < 16 → '\n' ≠ hexDigit d := by decide
      simp only [hexPadded, List.mem_append, List.mem_singleton, not_or]
      exact ⟨ih _, hd _ (Nat.mod_lt _ (by decide))⟩
  unfold escapeIn codePointEscape
  by_cases hc : c = '\n'
  · subst hc
    simp [hq.symm]
  · repeat' split
    all_goals simp [hex, Ne.symm hc]

/-- A quoted text is a single line. -/
theorem newline_notMem_quotedChars (cs : List Char) : '\n' ∉ quotedChars cs := by
  have hq : quoteFor cs ≠ '\n' := by unfold quoteFor; split <;> decide
  simp only [quotedChars, List.mem_cons, List.mem_append, List.mem_flatMap, List.not_mem_nil,
    or_false, not_or, not_exists, not_and]
  exact ⟨hq.symm, fun c _ => newline_notMem_escapeIn hq c, hq.symm⟩

end MessagePattern.Text
