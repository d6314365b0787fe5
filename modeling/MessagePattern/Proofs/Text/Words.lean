import MessagePattern.Text.Word

/-!
# First words

A space in front of a text belongs to the raw text of its first word and changes nothing
else (`splitFirst_separator_cons`), and whatever is left behind a word is empty or starts
with a space (`atBreak_splitFirst`). With the texts behind the first words, one after
the other, the words of a text can be told one by one (`splitWords_getD`).
-/

namespace MessagePattern.Text

variable {cs : List Char}

/-! ## What is left behind a word -/

/-- What ends a word: the end of the text or a space. -/
def AtBreak (cs : List Char) : Prop :=
  cs = [] ∨ ∃ rest, cs = separator :: rest

theorem atBreak_readPlain (cs : List Char) : AtBreak (readPlain cs).2 := by
  unfold readPlain
  cases hdrop : cs.dropWhile (· != separator) with
  | nil => exact Or.inl rfl
  | cons c rest =>
      have hstop := List.head?_dropWhile_not (· != separator) cs
      rw [hdrop] at hstop
      have hc : c = separator := by simpa using hstop
      exact Or.inr ⟨rest, by rw [hc]⟩

theorem atBreak_readQuoted (q : Char) (cs : List Char) : AtBreak (readQuoted q cs).2 := by
  induction cs with
  | nil => exact Or.inl rfl
  | cons c rest ih =>
      by_cases hc : (c == q) = true
      · simp only [readQuoted, hc, if_true]
        exact atBreak_readPlain rest
      · simp only [readQuoted, hc, Bool.false_eq_true, if_false]
        exact ih

theorem atBreak_readWord (cs : List Char) : AtBreak (readWord cs).2 := by
  cases cs with
  | nil => exact Or.inl rfl
  | cons c rest =>
      by_cases hc : isQuote c = true
      · simp only [readWord, hc, if_true]
        exact atBreak_readQuoted c rest
      · simp only [readWord, hc, Bool.false_eq_true, if_false]
        exact atBreak_readPlain (c :: rest)

/-- A word ends at the end of the text or in front of a space. -/
theorem atBreak_splitFirst (cs : List Char) : AtBreak (splitFirst cs).2 :=
  atBreak_readWord _

/-- A space in front belongs to the raw text of the word. -/
theorem splitFirst_separator_cons (cs : List Char) :
    splitFirst (separator :: cs) =
      (⟨(splitFirst cs).1.value, separator :: (splitFirst cs).1.raw⟩, (splitFirst cs).2) := by
  simp [splitFirst]

/-- A blank text is raw text of a word without a value. -/
theorem splitFirst_of_blank (h : cs.all (· == separator) = true) :
    splitFirst cs = (⟨[], cs⟩, []) := by
  have hdrop := (dropWhile_eq_nil_iff (· == separator) cs).mpr h
  have htake : cs.takeWhile (· == separator) = cs := by
    have hjoin := List.takeWhile_append_dropWhile (p := (· == separator)) (l := cs)
    rwa [hdrop, List.append_nil] at hjoin
  rw [splitFirst, hdrop, htake]
  simp [readWord, unquote]

/-- If something is left behind the first word, it is less than the text. -/
theorem splitFirst_snd_shorter (h : (splitFirst cs).2 ≠ []) :
    (splitFirst cs).2.length < cs.length := by
  cases hblank : cs.all (· == separator) with
  | false => exact splitFirst_shorter hblank
  | true => exact absurd (congrArg Prod.snd (splitFirst_of_blank hblank)) h

/-! ## One word after the other -/

/-- What is left of a text behind some of its first words. -/
def behindWords (cs : List Char) : Nat → List Char
  | 0 => cs
  | n + 1 => (splitFirst (behindWords cs n)).2

/-- The value of a word of a text, counted from zero; empty if there are fewer words. -/
def wordAt (cs : List Char) (n : Nat) : List Char :=
  (splitFirst (behindWords cs n)).1.value

theorem behindWords_succ (cs : List Char) (n : Nat) :
    behindWords cs (n + 1) = behindWords (splitFirst cs).2 n := by
  induction n with
  | zero => rfl
  | succ n ih => rw [behindWords, ih, behindWords]

theorem wordAt_succ (cs : List Char) (n : Nat) :
    wordAt cs (n + 1) = wordAt (splitFirst cs).2 n := by
  rw [wordAt, behindWords_succ, wordAt]

theorem behindWords_nil (n : Nat) : behindWords [] n = [] := by
  induction n with
  | zero => rfl
  | succ n ih =>
      rw [behindWords, ih]
      rfl

theorem wordAt_nil (n : Nat) : wordAt [] n = [] := by
  rw [wordAt, behindWords_nil]
  rfl

/-- The words of a text are its first word, the first word of what is left, and so on. -/
theorem splitWords_getD (cs : List Char) (n : Nat) : (splitWords cs)[n]?.getD [] = wordAt cs n := by
  induction n generalizing cs with
  | zero =>
      rw [splitWords]
      split
      · rename_i hblank
        rw [wordAt, behindWords, splitFirst_of_blank hblank]
        rfl
      · rfl
  | succ n ih =>
      rw [splitWords, wordAt_succ]
      split
      · rename_i hblank
        rw [splitFirst_of_blank hblank, wordAt_nil]
        rfl
      · exact ih _

end MessagePattern.Text
