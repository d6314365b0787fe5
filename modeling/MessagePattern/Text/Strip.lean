/-!
# Stripping both ends of a text

Trimming, blank-line tests and word separators all remove a class of
characters from the ends of a text and leave its inside alone. The class is a
parameter here; the modules that use it supply theirs. Texts under analysis are
lists of characters throughout the library, so that the library's recursions
and their proofs follow the data.
-/

namespace MessagePattern.Text

/-- The text without the characters of class `p` at either end. -/
def stripWhile (p : Char → Bool) (cs : List Char) : List Char :=
  ((cs.dropWhile p).reverse.dropWhile p).reverse

/-- Dropping a class leaves nothing exactly of a text inside the class. -/
theorem dropWhile_eq_nil_iff (p : Char → Bool) (cs : List Char) :
    cs.dropWhile p = [] ↔ cs.all p = true := by
  induction cs with
  | nil => simp
  | cons c r ih => by_cases h : p c = true <;> simp [h, ih]

/-- What is left after dropping a class is within the class only if nothing is
left. -/
theorem all_dropWhile_iff (p : Char → Bool) (cs : List Char) :
    (cs.dropWhile p).all p = true ↔ cs.all p = true := by
  induction cs with
  | nil => simp
  | cons c r ih => by_cases h : p c = true <;> simp [h, ih]

/-- Stripping leaves nothing exactly of a text inside the class. -/
theorem stripWhile_eq_nil_iff (p : Char → Bool) (cs : List Char) :
    stripWhile p cs = [] ↔ cs.all p = true := by
  rw [stripWhile, List.reverse_eq_nil_iff, dropWhile_eq_nil_iff, List.all_reverse,
    all_dropWhile_iff]

end MessagePattern.Text
