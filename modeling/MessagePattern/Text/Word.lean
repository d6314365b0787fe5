import MessagePattern.Text.Strip

/-!
# Words of a text blob

A blob is read word by word. A word is whatever stands between spaces, except
that a word which opens with a quote runs on to the matching quote, over any
spaces in between; the other quote is plain text inside. The spaces before a
word belong to its raw text, so that the raw texts and what is left over always
join to the blob again (`splitFirst_join`), and every split of a text that is
not blank makes it shorter (`splitFirst_shorter`), which is why reading all words
ends.
-/

namespace MessagePattern.Text

def separator : Char := ' '

def isQuote (c : Char) : Bool :=
  c = '\'' || c = '"'

/-- A word: its value and the text it was read from, leading spaces included. -/
structure Word where
  value : List Char
  raw : List Char
  deriving DecidableEq, Repr

/-- Whether reading the word removed a pair of quotes. -/
def Word.quoted (w : Word) : Bool :=
  w.value != w.raw.dropWhile (· == separator)

/-- The text between a pair of equal quotes at its two ends; any other text as
it is. A lone quote is no pair. -/
def unquote (word : List Char) : List Char :=
  match word with
  | q :: c :: r =>
    if isQuote q && (c :: r).getLast (by simp) == q then (c :: r).dropLast else word
  | _ => word

/-! ## The first word -/

def readPlain (cs : List Char) : List Char × List Char :=
  (cs.takeWhile (· != separator), cs.dropWhile (· != separator))

/-- Reads on to the closing quote `q` and from there to the next space; an
unclosed quote takes all. -/
def readQuoted (q : Char) : List Char → List Char × List Char
  | [] => ([], [])
  | c :: r =>
    let (word, tail) := if c == q then readPlain r else readQuoted q r
    (c :: word, tail)

/-- Reads one word of a text that does not start with a space. -/
def readWord : List Char → List Char × List Char
  | [] => ([], [])
  | c :: r =>
    if isQuote c then
      let (word, tail) := readQuoted c r
      (c :: word, tail)
    else readPlain (c :: r)

/-- Splits the first word off a text; the tail keeps its leading space. -/
def splitFirst (cs : List Char) : Word × List Char :=
  let lead := cs.takeWhile (· == separator)
  let (core, tail) := readWord (cs.dropWhile (· == separator))
  (⟨unquote core, lead ++ core⟩, tail)

theorem readPlain_join (cs : List Char) : (readPlain cs).1 ++ (readPlain cs).2 = cs :=
  List.takeWhile_append_dropWhile

theorem readQuoted_join (q : Char) (cs : List Char) :
    (readQuoted q cs).1 ++ (readQuoted q cs).2 = cs := by
  induction cs with
  | nil => rfl
  | cons c r ih => by_cases h : (c == q) = true <;> simp [readQuoted, h, ih, readPlain_join]

theorem readWord_join (cs : List Char) : (readWord cs).1 ++ (readWord cs).2 = cs := by
  cases cs with
  | nil => rfl
  | cons c r => by_cases h : isQuote c = true <;> simp [readWord, h, readQuoted_join, readPlain_join]

/-- The raw text of the first word and the tail make up the text. -/
theorem splitFirst_join (cs : List Char) : (splitFirst cs).1.raw ++ (splitFirst cs).2 = cs := by
  simp only [splitFirst, List.append_assoc, readWord_join]
  exact List.takeWhile_append_dropWhile

theorem readWord_ne_nil {c : Char} (h : c ≠ separator) (r : List Char) :
    (readWord (c :: r)).1 ≠ [] := by
  by_cases hq : isQuote c = true <;> simp [readWord, hq, readPlain, h]

/-- Splitting a text that holds more than spaces takes at least one character
off it. -/
theorem splitFirst_shorter {cs : List Char} (h : cs.all (· == separator) = false) :
    (splitFirst cs).2.length < cs.length := by
  have hjoin := congrArg List.length (splitFirst_join cs)
  rw [List.length_append] at hjoin
  have hne : cs.dropWhile (· == separator) ≠ [] := by
    intro hnil
    rw [dropWhile_eq_nil_iff] at hnil
    simp [hnil] at h
  obtain ⟨c, r, hcr⟩ := List.exists_cons_of_ne_nil hne
  have hc : c ≠ separator := by
    have := List.head?_dropWhile_not (· == separator) cs
    rw [hcr] at this
    simpa using this
  have hpos : 0 < (readWord (c :: r)).1.length :=
    List.length_pos_iff.mpr (readWord_ne_nil hc r)
  have : 0 < (splitFirst cs).1.raw.length := by
    simp only [splitFirst, hcr, List.length_append]
    omega
  omega

/-! ## All words -/

/-- The values of all words of a text, in order. -/
def splitWords (cs : List Char) : List (List Char) :=
  if h : cs.all (· == separator) = true then []
  else
    have : (splitFirst cs).2.length < cs.length := splitFirst_shorter (by simpa using h)
    (splitFirst cs).1.value :: splitWords (splitFirst cs).2
  termination_by cs.length

end MessagePattern.Text
