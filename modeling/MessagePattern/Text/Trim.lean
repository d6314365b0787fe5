import MessagePattern.Text.Strip

/-!
# Trimming and splitting

The pieces of a pattern group are cut at their first delimiter and trimmed.
Trimming removes *low* characters only, those at or below U+0020: control
characters go, a no-break space stays. Both operations keep the inside of a
text as it is, and cutting loses nothing but the delimiter (`splitOnce_join`).
-/

namespace MessagePattern.Text

/-! ## Trimming -/

/-- A space or a control character below it. -/
def isLow (c : Char) : Bool :=
  c.toNat ≤ 0x20

/-- The text without the low characters at either end. -/
def trim (cs : List Char) : List Char :=
  stripWhile isLow cs

/-- Trimming leaves nothing exactly of a text of low characters. -/
theorem trim_eq_nil_iff (cs : List Char) : trim cs = [] ↔ cs.all isLow = true :=
  stripWhile_eq_nil_iff isLow cs

/-! ## Cutting at a delimiter -/

/-- Cuts a text at the first occurrence of a delimiter; without one, the whole
text is the first part and there is no second. The empty delimiter occurs at
the start of every text. -/
def splitOnce (delimiter : List Char) : List Char → List Char × Option (List Char)
  | [] => if delimiter.isEmpty then ([], some []) else ([], none)
  | c :: r =>
    if delimiter.isPrefixOf (c :: r) then ([], some ((c :: r).drop delimiter.length))
    else
      let (head, tail) := splitOnce delimiter r
      (c :: head, tail)

/-- The two parts joined by the delimiter are the text, and a text without a
second part is its first. -/
theorem splitOnce_join (delimiter cs : List Char) :
    cs = match splitOnce delimiter cs with
      | (head, some tail) => head ++ delimiter ++ tail
      | (head, none) => head := by
  induction cs with
  | nil => cases delimiter <;> simp [splitOnce]
  | cons c r ih =>
    rw [splitOnce]
    by_cases h : delimiter.isPrefixOf (c :: r) = true
    · obtain ⟨t, ht⟩ := List.isPrefixOf_iff_prefix.mp h
      rw [if_pos h, ← ht]
      simp
    · rw [if_neg h]
      rcases hs : splitOnce delimiter r with ⟨head, _ | tail⟩ <;> rw [hs] at ih <;> simp [ih]

end MessagePattern.Text
