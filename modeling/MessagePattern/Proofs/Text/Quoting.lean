import Mathlib.Data.List.TakeWhile
import MessagePattern.Proofs.Text.Words

/-!
# Quoted words

A word can be written bare, if nothing in it would be misread, or else between two copies of
a quote that does not occur in it (`SpelledAs`). However the words of a list are written, and
however many spaces stand between and around them, they are read as the list
(`splitWords_of_laidOut`).

Read the other way, a pair of quotes that is taken off a word need not be such a pair. A closing
quote ends a group but not the word, which goes on to the next space; where it then ends with the
same quote once more, it loses the first quote and the last one, and keeps two in between. This
is the only case in which more is unquoted than a group (`quoted_isGroup_iff`).
-/

namespace MessagePattern.Text

def spaces (n : Nat) : List Char :=
  List.replicate n separator

/-! ## Reading a word in front of a text -/

theorem readPlain_append {plain tail : List Char} (hplain : separator ∉ plain)
    (htail : AtBreak tail) : readPlain (plain ++ tail) = (plain, tail) := by
  have hgoesOn : ∀ c ∈ plain, (c != separator) = true := by
    intro c hc
    rw [bne_iff_ne]
    rintro rfl
    exact hplain hc
  rw [readPlain, List.takeWhile_append_of_pos hgoesOn, List.dropWhile_append_of_pos hgoesOn]
  rcases htail with rfl | ⟨rest, rfl⟩
  · simp
  · simp

theorem readQuoted_append {q : Char} {inside : List Char} (hinside : q ∉ inside)
    (behind : List Char) :
    readQuoted q (inside ++ q :: behind) =
      (inside ++ q :: (readPlain behind).1, (readPlain behind).2) := by
  induction inside with
  | nil => simp [readQuoted]
  | cons c inside ih =>
      obtain ⟨hc, hinside⟩ := not_or.mp fun hmem => hinside (List.mem_cons.mpr hmem)
      have hne : (c == q) = false := beq_eq_false_iff_ne.mpr (Ne.symm hc)
      simp [readQuoted, hne, ih hinside]

/-- An unclosed quote takes all. -/
theorem readQuoted_of_notMem {q : Char} {cs : List Char} (h : q ∉ cs) :
    readQuoted q cs = (cs, []) := by
  induction cs with
  | nil => rfl
  | cons c rest ih =>
      obtain ⟨hc, hrest⟩ := not_or.mp fun hmem => h (List.mem_cons.mpr hmem)
      have hne : (c == q) = false := beq_eq_false_iff_ne.mpr (Ne.symm hc)
      simp [readQuoted, hne, ih hrest]

/-- A word that opens with no quote is read to its end. -/
theorem readWord_bare {word tail : List Char} (hquote : ∀ c, word.head? = some c → isQuote c = false)
    (hword : separator ∉ word) (htail : AtBreak tail) :
    readWord (word ++ tail) = (word, tail) := by
  cases word with
  | nil =>
      rcases htail with rfl | ⟨rest, rfl⟩
      · rfl
      · rfl
  | cons c word =>
      rw [List.cons_append, readWord, hquote c rfl, if_neg Bool.false_ne_true, ← List.cons_append,
        readPlain_append hword htail]

/-- A group is read to its closing quote, and on to the end of the word. -/
theorem readWord_group {q : Char} {inside glued tail : List Char} (hquote : isQuote q = true)
    (hinside : q ∉ inside) (hglued : separator ∉ glued) (htail : AtBreak tail) :
    readWord (q :: (inside ++ q :: glued) ++ tail) = (q :: (inside ++ q :: glued), tail) := by
  rw [List.cons_append, List.append_assoc, List.cons_append, readWord, if_pos hquote,
    readQuoted_append hinside, readPlain_append hglued htail]

/-- A word is split off as it is read, if it does not start with a space. -/
theorem splitFirst_of_readWord {core tail : List Char} {c : Char} (hhead : core.head? = some c)
    (hc : c ≠ separator) (hread : readWord (core ++ tail) = (core, tail)) :
    splitFirst (core ++ tail) = (⟨unquote core, core⟩, tail) := by
  obtain ⟨rest, rfl⟩ := List.head?_eq_some_iff.mp hhead
  have hne : ¬ (c == separator) = true := by simpa using hc
  have hlead : (c :: rest ++ tail).takeWhile (· == separator) = [] :=
    List.takeWhile_cons_of_neg hne
  have hdrop : (c :: rest ++ tail).dropWhile (· == separator) = c :: rest ++ tail :=
    List.dropWhile_cons_of_neg hne
  rw [splitFirst, hlead, hdrop, hread]
  rfl

/-- Spaces in front belong to the raw text of the word. -/
theorem splitFirst_spaces_append (n : Nat) (cs : List Char) :
    splitFirst (spaces n ++ cs) =
      (⟨(splitFirst cs).1.value, spaces n ++ (splitFirst cs).1.raw⟩, (splitFirst cs).2) := by
  induction n with
  | zero => rfl
  | succ n ih =>
      have hspaces : ∀ cs, spaces (n + 1) ++ cs = separator :: (spaces n ++ cs) := fun _ => rfl
      rw [hspaces, splitFirst_separator_cons, ih, hspaces]

/-! ## Taking quotes off -/

/-- A pair of quotes is taken off. -/
theorem unquote_group {q : Char} (hquote : isQuote q = true) (inside : List Char) :
    unquote (q :: (inside ++ [q])) = inside := by
  obtain ⟨c, rest, hrest⟩ : ∃ c rest, inside ++ [q] = c :: rest :=
    List.exists_cons_of_ne_nil (List.append_ne_nil_of_right_ne_nil inside (List.cons_ne_nil q []))
  have hlast : (c :: rest).getLast (List.cons_ne_nil c rest) = q := by
    simp only [← hrest, List.getLast_concat]
  rw [hrest, unquote, hlast, hquote, beq_self_eq_true, Bool.and_true, if_pos rfl, ← hrest,
    List.dropLast_concat]

theorem unquote_bare {word : List Char} (h : ∀ c, word.head? = some c → isQuote c = false) :
    unquote word = word := by
  unfold unquote
  split
  · rename_i q c rest
    rw [h q rfl, Bool.false_and, if_neg Bool.false_ne_true]
  · rfl

/-- Nothing is taken off a word but a quote at either end, the same one. -/
theorem unquote_cases (word : List Char) :
    unquote word = word ∨
      ∃ q, isQuote q = true ∧ word = q :: (unquote word ++ [q]) := by
  unfold unquote
  split
  · rename_i q c rest
    split
    · rename_i hpair
      obtain ⟨hquote, hlast⟩ := Bool.and_eq_true_iff.mp hpair
      right
      refine ⟨q, hquote, ?_⟩
      rw [← eq_of_beq hlast, List.dropLast_concat_getLast]
    · exact Or.inl rfl
  · exact Or.inl rfl

theorem isInfix_unquote (word : List Char) : unquote word <:+: word := by
  rcases unquote_cases word with hsame | ⟨q, _, hpair⟩
  · exact ⟨[], [], by simp [hsame]⟩
  · exact ⟨[q], [q], hpair.symm⟩

/-- The value of the first word stands in the text as it is. -/
theorem isInfix_value_splitFirst (cs : List Char) : (splitFirst cs).1.value <:+: cs := by
  have hraw : (splitFirst cs).1.raw <+: cs := ⟨(splitFirst cs).2, splitFirst_join cs⟩
  have hcore : (readWord (cs.dropWhile (· == separator))).1 <:+ (splitFirst cs).1.raw :=
    List.suffix_append _ _
  exact ((isInfix_unquote _).trans hcore.isInfix).trans hraw.isInfix

/-! ## Words that are written -/

/-- The ways to write a word: bare, or between two copies of a quote that it does not hold. -/
inductive SpelledAs (word : List Char) : List Char → Prop
  | bare (hne : word ≠ []) (hspace : separator ∉ word)
      (hquote : ∀ c, word.head? = some c → isQuote c = false) : SpelledAs word word
  | quoted {q : Char} (hquote : isQuote q = true) (hword : q ∉ word) :
      SpelledAs word (q :: (word ++ [q]))

/-- A text in which words are written in order, with spaces in front of them, between any two of
them and behind them. -/
inductive LaidOut : List (List Char) → List Char → Prop
  | blank (n : Nat) : LaidOut [] (spaces n)
  | word {word form text : List Char} {words : List (List Char)} (n : Nat)
      (hform : SpelledAs word form) (hwords : LaidOut words text)
      (hapart : words ≠ [] → ∃ rest, text = separator :: rest) :
      LaidOut (word :: words) (spaces n ++ (form ++ text))

variable {word form text : List Char} {words : List (List Char)}

theorem SpelledAs.exists_head (h : SpelledAs word form) :
    ∃ c, form.head? = some c ∧ c ≠ separator := by
  cases h with
  | bare hne hspace _ =>
      obtain ⟨c, rest, rfl⟩ := List.exists_cons_of_ne_nil hne
      exact ⟨c, rfl, fun hc => hspace (hc ▸ List.mem_cons_self)⟩
  | @quoted q hquote _ =>
      refine ⟨q, rfl, ?_⟩
      rintro rfl
      cases hquote

theorem SpelledAs.unquote_eq (h : SpelledAs word form) : unquote form = word := by
  cases h with
  | bare _ _ hquote => exact unquote_bare hquote
  | quoted hquote _ => exact unquote_group hquote word

/-- A word that is written in front of a break is the first word there. -/
theorem SpelledAs.splitFirst_eq (h : SpelledAs word form) {tail : List Char}
    (htail : AtBreak tail) : splitFirst (form ++ tail) = (⟨word, form⟩, tail) := by
  obtain ⟨c, hhead, hc⟩ := h.exists_head
  have hread : readWord (form ++ tail) = (form, tail) := by
    cases h with
    | bare _ hspace hquote => exact readWord_bare hquote hspace htail
    | quoted hquote hword => exact readWord_group hquote hword List.not_mem_nil htail
  rw [splitFirst_of_readWord hhead hc hread, h.unquote_eq]

/-- What stands behind a word is more spaces, or the next word at some distance. -/
theorem LaidOut.atBreak (h : LaidOut words text)
    (hapart : words ≠ [] → ∃ rest, text = separator :: rest) : AtBreak text := by
  cases h with
  | blank n =>
      cases n with
      | zero => exact Or.inl rfl
      | succ n => exact Or.inr ⟨spaces n, rfl⟩
  | word n hform hwords hnext => exact Or.inr (hapart (List.cons_ne_nil _ _))

/-- A text whose first word is known has that word and those of the rest. -/
theorem splitWords_of_splitFirst {w : Word} {cs tail : List Char} (h : splitFirst cs = (w, tail))
    (hraw : ¬ w.raw.all (· == separator) = true) :
    splitWords cs = w.value :: splitWords tail := by
  have hjoin := splitFirst_join cs
  rw [h] at hjoin
  have hblank : ¬ cs.all (· == separator) = true := by
    rw [← hjoin, List.all_append, Bool.and_eq_true]
    exact fun hall => hraw hall.1
  rw [splitWords, dif_neg hblank]
  show (splitFirst cs).1.value :: splitWords (splitFirst cs).2 = _
  rw [h]

/-- However words are written, and however many spaces stand between and around them, they are
the words of the text. -/
theorem splitWords_of_laidOut (h : LaidOut words text) : splitWords text = words := by
  induction h with
  | blank n =>
      have hblank : (spaces n).all (· == separator) = true := by simp [spaces]
      rw [splitWords, dif_pos hblank]
  | @word word form text words n hform hwords hapart ih =>
      have hsplit : splitFirst (spaces n ++ (form ++ text)) = (⟨word, spaces n ++ form⟩, text) := by
        rw [splitFirst_spaces_append, hform.splitFirst_eq (hwords.atBreak hapart)]
      rw [splitWords_of_splitFirst hsplit, ih]
      obtain ⟨c, hhead, hc⟩ := hform.exists_head
      obtain ⟨rest, rfl⟩ := List.head?_eq_some_iff.mp hhead
      simp [hc]

/-- An empty word, an apostrophe inside a word, quotes around the other quote, and a word of
spaces. -/
theorem splitWords_of_laidOut_mixed :
    LaidOut [[], ['i', 't', '\'', 's'], ['a', ' ', '"'], [' ', ' ']]
      [' ', '"', '"', ' ', 'i', 't', '\'', 's', ' ', ' ', '\'', 'a', ' ', '"', '\'', ' ', '"', ' ',
        ' ', '"', ' '] ∧
    splitWords
        [' ', '"', '"', ' ', 'i', 't', '\'', 's', ' ', ' ', '\'', 'a', ' ', '"', '\'', ' ', '"', ' ',
          ' ', '"', ' '] =
      [[], ['i', 't', '\'', 's'], ['a', ' ', '"'], [' ', ' ']] := by
  have hbare : SpelledAs ['i', 't', '\'', 's'] ['i', 't', '\'', 's'] := by
    refine .bare (by decide) (by decide) ?_
    rintro c ⟨⟩
    rfl
  have hlaidOut : LaidOut [[], ['i', 't', '\'', 's'], ['a', ' ', '"'], [' ', ' ']]
      [' ', '"', '"', ' ', 'i', 't', '\'', 's', ' ', ' ', '\'', 'a', ' ', '"', '\'', ' ', '"', ' ',
        ' ', '"', ' '] :=
    .word 1 (.quoted rfl (by decide))
      (.word 1 hbare
        (.word 2 (.quoted rfl (by decide))
          (.word 1 (.quoted rfl (by decide)) (.blank 1) fun _ => ⟨_, rfl⟩)
          fun _ => ⟨_, rfl⟩)
        fun _ => ⟨_, rfl⟩)
      fun _ => ⟨_, rfl⟩
  exact ⟨hlaidOut, splitWords_of_laidOut hlaidOut⟩

/-! ## What is unquoted -/

/-- The word as it stands in the text, without the spaces in front of it. -/
def Word.core (w : Word) : List Char :=
  w.raw.dropWhile (· == separator)

/-- The word is what stands between two copies of a quote that it does not hold. -/
def Word.IsGroup (w : Word) : Prop :=
  ∃ q, isQuote q = true ∧ w.core = q :: (w.value ++ [q]) ∧ q ∉ w.value

/-- A text whose first word goes on behind the quote that closes its group, and ends with that
quote once more. -/
inductive Reopens : List Char → Prop
  | word (n : Nat) {q : Char} {inside glued tail : List Char} (hquote : isQuote q = true)
      (hinside : q ∉ inside) (hglued : separator ∉ glued) (htail : AtBreak tail) :
      Reopens (spaces n ++ (q :: (inside ++ q :: (glued ++ [q])) ++ tail))

/-- A word that opens with a quote is a group and what is glued to it, or all that is left. -/
theorem readWord_quote_cases {q : Char} (hquote : isQuote q = true) (cs : List Char) :
    readWord (q :: cs) = (q :: cs, []) ∧ q ∉ cs ∨
    ∃ inside glued tail, readWord (q :: cs) = (q :: (inside ++ q :: glued), tail) ∧ q ∉ inside ∧
      separator ∉ glued ∧ AtBreak tail := by
  by_cases hmem : q ∈ cs
  · right
    obtain ⟨inside, behind, rfl, hinside⟩ := List.eq_append_cons_of_mem hmem
    refine ⟨inside, (readPlain behind).1, (readPlain behind).2, ?_, hinside, ?_,
      atBreak_readPlain behind⟩
    · rw [readWord, if_pos hquote, readQuoted_append hinside]
    · intro hspace
      have hgoesOn := List.mem_takeWhile_imp hspace
      simp at hgoesOn
  · left
    rw [readWord, if_pos hquote, readQuoted_of_notMem hmem]
    exact ⟨rfl, hmem⟩

theorem core_spaces_append {core : List Char} (h : ∀ c, core.head? = some c → c ≠ separator)
    (value : List Char) (n : Nat) : Word.core ⟨value, spaces n ++ core⟩ = core := by
  have hspaces : ∀ c ∈ spaces n, (c == separator) = true := by
    intro c hc
    rw [(List.mem_replicate.mp hc).2, beq_self_eq_true]
  rw [Word.core, List.dropWhile_append_of_pos hspaces]
  cases core with
  | nil => rfl
  | cons c rest => rw [List.dropWhile_cons_of_neg (by simpa using h c rfl)]

/-- A text is some spaces, its first word as it stands there, and the tail. -/
theorem exists_core (cs : List Char) :
    ∃ n core tail, cs = spaces n ++ (core ++ tail) ∧
      (∀ c, core.head? = some c → c ≠ separator) ∧ readWord (core ++ tail) = (core, tail) ∧
      splitFirst cs = (⟨unquote core, spaces n ++ core⟩, tail) := by
  have hlead : cs.takeWhile (· == separator) =
      spaces (cs.takeWhile (· == separator)).length := by
    refine List.eq_replicate_of_mem fun c hc => ?_
    exact eq_of_beq (List.mem_takeWhile_imp (p := (· == separator)) hc)
  have hjoin := readWord_join (cs.dropWhile (· == separator))
  refine ⟨(cs.takeWhile (· == separator)).length, (readWord (cs.dropWhile (· == separator))).1,
    (readWord (cs.dropWhile (· == separator))).2, ?_, ?_, ?_, ?_⟩
  · rw [← hlead, hjoin, List.takeWhile_append_dropWhile]
  · intro c hc
    obtain ⟨rest, hrest⟩ := List.head?_eq_some_iff.mp hc
    have hstop := List.head?_dropWhile_not (· == separator) cs
    rw [← hjoin, hrest] at hstop
    simpa using hstop
  · rw [hjoin]
  · rw [← hlead]
    rfl

/-- A word that has lost a quote at either end was a group, or goes on behind one. -/
theorem isGroup_or_reopens {cs : List Char} {q : Char} (hquote : isQuote q = true)
    (hcore : (splitFirst cs).1.core = q :: ((splitFirst cs).1.value ++ [q])) :
    (splitFirst cs).1.IsGroup ∨ Reopens cs := by
  obtain ⟨n, core, tail, hcs, hhead, hread, hsplit⟩ := exists_core cs
  rw [Word.IsGroup, hcore, hsplit]
  rw [hsplit, core_spaces_append hhead] at hcore
  simp only at hcore ⊢
  generalize unquote core = value at hcore ⊢
  subst hcore
  rw [List.cons_append] at hread
  rcases readWord_quote_cases hquote (value ++ [q] ++ tail) with
    ⟨_, hunclosed⟩ | ⟨inside, glued, tail', hgroup, hinside, hglued, htail⟩
  · exact absurd (by simp) hunclosed
  · obtain ⟨hword, rfl⟩ := Prod.mk.inj (hread.symm.trans hgroup)
    have hword : value ++ [q] = inside ++ q :: glued := (List.cons.inj hword).2
    rcases List.eq_nil_or_concat glued with rfl | ⟨glued, c, rfl⟩
    · obtain rfl : value = inside := (List.append_inj' hword rfl).1
      exact Or.inl ⟨q, hquote, rfl, hinside⟩
    · right
      rw [List.concat_eq_append] at hword hglued
      have hlast : value ++ [q] = (inside ++ q :: glued) ++ [c] := by
        rw [hword, List.append_assoc, List.cons_append]
      obtain ⟨rfl, hc⟩ := List.append_inj' hlast rfl
      obtain rfl : q = c := (List.cons.inj hc).1
      have hspace : separator ∉ glued := fun hmem => hglued (List.mem_append_left _ hmem)
      rw [hcs, List.append_assoc inside, List.cons_append]
      exact .word n hquote hinside hspace htail

/-- A word that goes on behind a group and ends with its quote is unquoted, and keeps quotes. -/
theorem Reopens.not_isGroup {cs : List Char} (h : Reopens cs) :
    (splitFirst cs).1.quoted = true ∧ ¬ (splitFirst cs).1.IsGroup := by
  obtain @⟨n, q, inside, glued, tail, hquote, hinside, hglued, htail⟩ := h
  have hne : q ≠ separator := by
    rintro rfl
    cases hquote
  have hglued : separator ∉ glued ++ [q] := by
    simp [hglued, Ne.symm hne]
  have hcore : q :: (inside ++ q :: (glued ++ [q])) = q :: ((inside ++ q :: glued) ++ [q]) := by
    rw [List.append_assoc, List.cons_append]
  have hhead : ∀ c, (q :: ((inside ++ q :: glued) ++ [q])).head? = some c → c ≠ separator := by
    rintro c ⟨⟩
    exact hne
  have hsplit := splitFirst_of_readWord rfl hne (readWord_group hquote hinside hglued htail)
  rw [hcore, unquote_group hquote] at hsplit
  rw [splitFirst_spaces_append, hcore, hsplit, Word.IsGroup, core_spaces_append hhead]
  constructor
  · show ((inside ++ q :: glued) != Word.core _) = true
    rw [core_spaces_append hhead, bne_iff_ne]
    intro hsame
    have hlength := congrArg List.length hsame
    simp only [List.length_append, List.length_cons] at hlength
    omega
  · rintro ⟨q', _, hcore', hvalue⟩
    obtain rfl : q = q' := (List.cons.inj hcore').1
    exact hvalue (by simp)

/-- A word that is unquoted has lost a quote at either end, the same one. It was a group of that
quote unless it goes on behind the group and ends with the quote once more. -/
theorem quoted_isGroup_iff (cs : List Char) :
    ((splitFirst cs).1.quoted = true → ∃ q, isQuote q = true ∧
      (splitFirst cs).1.core = q :: ((splitFirst cs).1.value ++ [q])) ∧
    (((splitFirst cs).1.quoted = true → (splitFirst cs).1.IsGroup) ↔ ¬ Reopens cs) := by
  have hpair : (splitFirst cs).1.quoted = true → ∃ q, isQuote q = true ∧
      (splitFirst cs).1.core = q :: ((splitFirst cs).1.value ++ [q]) := by
    obtain ⟨n, core, tail, _, hhead, _, hsplit⟩ := exists_core cs
    intro hquoted
    have hne : unquote core ≠ core := by
      rwa [hsplit, Word.quoted, bne_iff_ne, ← Word.core, core_spaces_append hhead] at hquoted
    obtain ⟨q, hquote, hcore⟩ := (unquote_cases core).resolve_left hne
    refine ⟨q, hquote, ?_⟩
    rwa [hsplit, core_spaces_append hhead]
  refine ⟨hpair, ?_⟩
  constructor
  · intro hgroup hreopens
    obtain ⟨hquoted, hnot⟩ := hreopens.not_isGroup
    exact hnot (hgroup hquoted)
  · intro hreopens hquoted
    obtain ⟨q, hquote, hcore⟩ := hpair hquoted
    exact (isGroup_or_reopens hquote hcore).resolve_right hreopens

/-- Text that is glued to a group and ends with its quote takes the quotes between along. -/
theorem not_forall_quoted_isGroup :
    ¬ ∀ cs : List Char, (splitFirst cs).1.quoted = true → (splitFirst cs).1.IsGroup := by
  intro h
  have hreopens : Reopens ['\'', 'a', '\'', 'b', '\''] :=
    @Reopens.word 0 '\'' ['a'] ['b'] [] rfl (by decide) (by decide) (Or.inl rfl)
  obtain ⟨hquoted, hnot⟩ := hreopens.not_isGroup
  exact hnot (h _ hquoted)

end MessagePattern.Text
