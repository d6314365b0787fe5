import MessagePattern.Proofs.Text.Words

/-!
# Reading all words of a text

The words of a text are read in turns: each takes the first word off what the one before it has
left, until nothing but spaces is left (`Reads`). A turn takes at least one character that is no
space (`exists_mem_raw`), whatever spaces stand in front of the word and whether or not its quote
is ever closed, so the turns come to an end (`exists_reads`). They lose nothing: the raw texts of
the words and the spaces at the end make up the text (`splitWords_coverage`).
-/

namespace MessagePattern.Text

/-! ## One turn -/

section

variable {cs : List Char}

theorem mem_readWord {c : Char} (h : c ≠ separator) (rest : List Char) :
    c ∈ (readWord (c :: rest)).1 := by
  by_cases hquote : isQuote c = true <;> simp [readWord, hquote, readPlain, h]

/-- The raw text of a word holds more than spaces, unless there is no word. -/
theorem exists_mem_raw (h : cs.all (· == separator) = false) :
    ∃ c ∈ (splitFirst cs).1.raw, c ≠ separator := by
  have hne : cs.dropWhile (· == separator) ≠ [] := by
    intro hnil
    rw [dropWhile_eq_nil_iff, h] at hnil
    cases hnil
  obtain ⟨c, rest, hdrop⟩ := List.exists_cons_of_ne_nil hne
  have hc : c ≠ separator := by
    have hstop := List.head?_dropWhile_not (· == separator) cs
    rw [hdrop] at hstop
    simpa using hstop
  refine ⟨c, ?_, hc⟩
  show c ∈ cs.takeWhile _ ++ (readWord (cs.dropWhile (· == separator))).1
  rw [hdrop]
  exact List.mem_append_right _ (mem_readWord hc rest)

/-- A turn makes any text shorter, even one that is blank. -/
theorem splitFirst_shorter_of_ne_nil (h : cs ≠ []) : (splitFirst cs).2.length < cs.length := by
  cases hblank : cs.all (· == separator) with
  | false => exact splitFirst_shorter hblank
  | true =>
      rw [splitFirst_of_blank hblank]
      exact List.length_pos_iff.mpr h

/-- A space that a text begins with is the first character of the raw text. -/
theorem head?_raw_of_atBreak (hbreak : AtBreak cs) (h : cs.all (· == separator) = false) :
    (splitFirst cs).1.raw.head? = some separator := by
  rcases hbreak with rfl | ⟨rest, rfl⟩
  · cases h
  · rw [splitFirst_separator_cons, List.head?_cons]

end

/-! ## All turns -/

/-- The turns in which words are read off a text, and what is left in the end. -/
inductive Reads : List Char → List Word → List Char → Prop
  | done {cs : List Char} (hblank : cs.all (· == separator) = true) : Reads cs [] cs
  | turn {cs left : List Char} {words : List Word} (hword : cs.all (· == separator) = false)
      (hmore : Reads (splitFirst cs).2 words left) : Reads cs ((splitFirst cs).1 :: words) left

variable {cs left : List Char} {words : List Word}

/-- There is an end to the turns, because each leaves less than there was. -/
theorem exists_reads (cs : List Char) : ∃ words left, Reads cs words left := by
  fun_induction splitWords cs with
  | case1 cs hblank => exact ⟨[], cs, .done hblank⟩
  | case2 cs hword hshorter ih =>
      obtain ⟨words, left, hmore⟩ := ih
      exact ⟨_, left, .turn (by simpa using hword) hmore⟩

namespace Reads

theorem splitWords_eq (h : Reads cs words left) : splitWords cs = words.map Word.value := by
  induction h with
  | done hblank => rw [splitWords, dif_pos hblank, List.map_nil]
  | turn hword hmore ih => rw [splitWords, dif_neg (by simp [hword]), List.map_cons, ih]

theorem join (h : Reads cs words left) : (words.map Word.raw).flatten ++ left = cs := by
  induction h with
  | done hblank => rfl
  | @turn cs left words hword hmore ih =>
      rw [List.map_cons, List.flatten_cons, List.append_assoc, ih, splitFirst_join]

theorem all_left (h : Reads cs words left) : left.all (· == separator) = true := by
  induction h with
  | done hblank => exact hblank
  | turn hword hmore ih => exact ih

theorem exists_mem_raw (h : Reads cs words left) : ∀ w ∈ words, ∃ c ∈ w.raw, c ≠ separator := by
  induction h with
  | done hblank => exact List.forall_mem_nil _
  | turn hword hmore ih => exact List.forall_mem_cons.mpr ⟨Text.exists_mem_raw hword, ih⟩

/-- Behind another word, each raw text begins with a space. -/
theorem head?_raw (h : Reads cs words left) (hbreak : AtBreak cs) :
    ∀ w ∈ words, w.raw.head? = some separator := by
  induction h with
  | done hblank => exact List.forall_mem_nil _
  | turn hword hmore ih =>
      exact List.forall_mem_cons.mpr
        ⟨head?_raw_of_atBreak hbreak hword, ih (atBreak_splitFirst _)⟩

theorem head?_raw_tail (h : Reads cs words left) :
    ∀ w ∈ words.tail, w.raw.head? = some separator := by
  cases h with
  | done hblank => exact List.forall_mem_nil _
  | turn hword hmore => exact hmore.head?_raw (atBreak_splitFirst _)

end Reads

/-- Reading words comes to an end, and then the raw texts of all words and some spaces make up the
text. Each raw text holds more than spaces, and all but the first begin with one. A single turn
parts its text in two, behind the word there is nothing or a space, and less than there was. -/
theorem splitWords_coverage (cs : List Char) :
    (∃ words left, Reads cs words left) ∧
    (∀ words left, Reads cs words left →
      splitWords cs = words.map Word.value ∧
      cs = (words.map Word.raw).flatten ++ left ∧ left.all (· == separator) = true ∧
      (∀ w ∈ words, ∃ c ∈ w.raw, c ≠ separator) ∧
      ∀ w ∈ words.tail, w.raw.head? = some separator) ∧
    ∀ text, (splitFirst text).1.raw ++ (splitFirst text).2 = text ∧
      AtBreak (splitFirst text).2 ∧ (text ≠ [] → (splitFirst text).2.length < text.length) := by
  refine ⟨exists_reads cs, fun words left h => ?_, fun text => ?_⟩
  · exact ⟨h.splitWords_eq, h.join.symm, h.all_left, h.exists_mem_raw, h.head?_raw_tail⟩
  · exact ⟨splitFirst_join text, atBreak_splitFirst text, splitFirst_shorter_of_ne_nil⟩

/-- A quote that is never closed takes all that is behind it. -/
theorem splitWords_coverage_open_quote :
    ∃ words left, Reads ['a', ' ', ' ', '"', 'b', ' ', 'c'] words left ∧
      splitWords ['a', ' ', ' ', '"', 'b', ' ', 'c'] = [['a'], ['"', 'b', ' ', 'c']] ∧
      words.map Word.raw = [['a'], [' ', ' ', '"', 'b', ' ', 'c']] ∧
      ∀ w ∈ words.tail, w.raw.head? = some ' ' := by
  obtain ⟨words, left, h, hvalues, hraws⟩ :
      ∃ words left, Reads ['a', ' ', ' ', '"', 'b', ' ', 'c'] words left ∧
        words.map Word.value = [['a'], ['"', 'b', ' ', 'c']] ∧
        words.map Word.raw = [['a'], [' ', ' ', '"', 'b', ' ', 'c']] :=
    ⟨_, _, .turn rfl (.turn rfl (.done rfl)), rfl, rfl⟩
  obtain ⟨hsplit, _, _, _, hstart⟩ :=
    (splitWords_coverage ['a', ' ', ' ', '"', 'b', ' ', 'c']).2.1 words left h
  exact ⟨words, left, h, hsplit.trans hvalues, hraws, hstart⟩

end MessagePattern.Text
