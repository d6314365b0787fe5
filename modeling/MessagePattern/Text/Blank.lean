import MessagePattern.Text.Strip

/-!
# Blank characters

Two notions of "nothing to see" meet in this library. A *blank* character is
white space in the sense of the Unicode property, together with the four ASCII
separators U+001C to U+001F; it decides whether a pattern is empty, which lines
of a record file count, and how a bare key may be padded. The narrower notion
of a *low* character, a space or anything below it, belongs to trimming and
lives in `MessagePattern.Text.Trim`.
-/

namespace MessagePattern.Text

/-- The blank code points, in order: the 25 with the Unicode white-space
property and the four ASCII separators. -/
def blanks : List Nat :=
  [0x09, 0x0A, 0x0B, 0x0C, 0x0D, 0x1C, 0x1D, 0x1E, 0x1F, 0x20, 0x85, 0xA0, 0x1680,
   0x2000, 0x2001, 0x2002, 0x2003, 0x2004, 0x2005, 0x2006, 0x2007, 0x2008, 0x2009, 0x200A,
   0x2028, 0x2029, 0x202F, 0x205F, 0x3000]

/-- A character whose code point is listed in `blanks`. -/
def isBlank (c : Char) : Bool :=
  blanks.contains c.toNat

/-- Whether a text holds no character that is not blank. -/
def isBlankText (cs : List Char) : Bool :=
  cs.all isBlank

/-- The text without the blank characters at either end. -/
def strip (cs : List Char) : List Char :=
  stripWhile isBlank cs

example : blanks.length = 29 := rfl

/-- Every character that the core library counts as white space is blank. -/
theorem isBlank_of_isWhitespace {c : Char} (h : c.isWhitespace = true) : isBlank c = true := by
  simp only [Char.isWhitespace, Bool.or_eq_true, decide_eq_true_eq] at h
  rcases h with ((rfl | rfl) | rfl) | rfl <;> decide

/-- Of the printable ASCII characters only the space is blank. -/
theorem isBlank_of_visible {c : Char} (hlow : 0x20 < c.toNat) (hhigh : c.toNat ≤ 0x7E) :
    isBlank c = false := by
  have hall : ∀ n ∈ blanks, n ≤ 0x20 ∨ 0x7E < n := by decide
  rw [isBlank, Bool.eq_false_iff]
  intro hmem
  have hblank := hall _ (List.contains_iff_mem.mp hmem)
  omega

/-- Stripping leaves nothing exactly of a blank text. -/
theorem strip_eq_nil_iff (cs : List Char) : strip cs = [] ↔ isBlankText cs = true :=
  stripWhile_eq_nil_iff isBlank cs

end MessagePattern.Text
