import MessagePattern.Explain
import MessagePattern.Proofs.File.Lines
import MessagePattern.Proofs.Json.Reading
import MessagePattern.Proofs.Pattern.Origin

/-!
# The lines of an explained pattern

A pattern is explained by one numbered line per token. Names, texts and defaults are shown
between quotes or as JSON and never break a line. Kinds and data types are inserted as they are
(`Token.inserted`), and they may hold line feeds, each of which makes one line more. So there is
one line per token exactly if no kind and no data type is broken (`explainTokens_lines_iff`).
-/

namespace MessagePattern

/-! ## Lists between separators -/

section

variable {α : Type} [DecidableEq α]

/-- A list is split in one more place by each of its separators. -/
theorem length_splitOn (a : α) (l : List α) : (l.splitOn a).length = l.count a + 1 := by
  induction l with
  | nil => rfl
  | cons b l ih =>
      rw [List.splitOn_cons_eq_if_modifyHead, List.count_cons]
      split
      · rw [List.length_cons, ih]
      · rw [List.length_modifyHead, ih, Nat.add_zero]

theorem count_intercalate (a : α) (part : List α) (parts : List (List α)) :
    ([a].intercalate (part :: parts)).count a =
      parts.length + (part :: parts).flatten.count a := by
  induction parts generalizing part with
  | nil => simp
  | cons part' parts ih =>
      rw [List.intercalate_cons_cons, List.count_append, List.count_append, ih,
        List.count_singleton_self, List.flatten_cons (L := part' :: parts), List.count_append,
        List.length_cons]
      omega

/-- What is put between separators is split into the same parts if there are none in them. -/
theorem splitOn_intercalate_iff (a : α) {parts : List (List α)} (hne : parts ≠ []) :
    ([a].intercalate parts).splitOn a = parts ↔ parts.flatten.count a = 0 := by
  constructor
  · intro h
    obtain ⟨part, rest, rfl⟩ := List.exists_cons_of_ne_nil hne
    have hlength := congrArg List.length h
    rw [length_splitOn, count_intercalate, List.length_cons] at hlength
    omega
  · intro h
    refine List.splitOn_intercalate a (fun part hpart hmem => ?_) hne
    exact List.count_eq_zero.mp h (List.mem_flatten.mpr ⟨part, hpart, hmem⟩)

end

/-! ## Phrases -/

namespace Token

/-- What the phrase for a token holds as it is: a kind or a data type. -/
def inserted : Token → List Char
  | literal _ _ => []
  | typedLiteral kind _ => kind.toList
  | parameter _ dataType _ _ => dataType.toList
  | rest _ dataType => (dataType.getD "").toList

theorem count_quoted (s : String) : (Text.quoted s).toList.count '\n' = 0 := by
  rw [Text.quoted, String.toList_ofList]
  exact List.count_eq_zero.mpr (Text.newline_notMem_quotedChars s.toList)

theorem count_print {v : Value} (h : v.IsJson) : (Json.print .line 0 v).count '\n' = 0 :=
  List.count_eq_zero.mpr (Json.newline_notMem_print h 0)

/-- A phrase has the line feeds of what is inserted as it is, and no others. -/
theorem exists_describe {t : Token} (h : t.DefaultIsJson) :
    ∃ phrase, t.describe = .ok phrase ∧ phrase.toList.count '\n' = t.inserted.count '\n' := by
  cases t with
  | literal text optional =>
      refine ⟨_, rfl, ?_⟩
      cases optional <;> simp [inserted, count_quoted]
  | typedLiteral kind value =>
      refine ⟨_, rfl, ?_⟩
      by_cases hvalue : value = "" <;> simp [inserted, hvalue, count_quoted]
  | rest name dataType =>
      refine ⟨_, rfl, ?_⟩
      rcases dataType with _ | kind
      · simp [inserted, count_quoted]
      · by_cases hkind : kind = "" <;> simp [inserted, hkind, count_quoted]
  | parameter name dataType optional default =>
      cases default with
      | none =>
          refine ⟨_, rfl, ?_⟩
          cases optional <;> simp [inserted, count_quoted]
      | some v =>
          have hv : v.IsJson := h name dataType optional v rfl
          rw [describe, Json.write_of_isData (Json.isData_of_isJson hv)]
          refine ⟨_, rfl, ?_⟩
          cases optional <;> simp [inserted, count_quoted, count_print hv]

end Token

variable {pattern : String} {tokens : List Token} {phrases : List String}

theorem exists_phrases (h : ∀ t ∈ tokens, t.DefaultIsJson) :
    ∃ phrases, tokens.mapM Token.describe = .ok phrases ∧ phrases.length = tokens.length ∧
      (phrases.flatMap String.toList).count '\n' = (tokens.flatMap Token.inserted).count '\n' := by
  induction tokens with
  | nil => exact ⟨[], rfl, rfl, rfl⟩
  | cons t rest ih =>
      obtain ⟨ht, hrest⟩ := List.forall_mem_cons.mp h
      obtain ⟨phrase, hphrase, hcount⟩ := Token.exists_describe ht
      obtain ⟨phrases, hphrases, hlength, hcounts⟩ := ih hrest
      refine ⟨phrase :: phrases, ?_, congrArg (· + 1) hlength, ?_⟩
      · rw [List.mapM_cons, hphrase, hphrases]
        rfl
      · rw [List.flatMap_cons, List.flatMap_cons, List.count_append, List.count_append, hcount,
          hcounts]

/-! ## Lines -/

/-- Phrases as lines, the first of which has the number given. -/
def numberedFrom (n : Nat) (phrases : List String) : List (List Char) :=
  phrases.mapIdx fun i phrase => lineNumber (n + i) ++ '.' :: ' ' :: phrase.toList

theorem numberedFrom_cons (n : Nat) (phrase : String) (phrases : List String) :
    numberedFrom n (phrase :: phrases) =
      (lineNumber n ++ '.' :: ' ' :: phrase.toList) :: numberedFrom (n + 1) phrases := by
  simp only [numberedFrom, List.mapIdx_cons, Nat.add_zero, Nat.add_assoc, Nat.add_comm 1]

theorem count_lineNumber (n : Nat) : (lineNumber n).count '\n' = 0 := by
  refine List.count_eq_zero.mpr fun hmem => ?_
  rcases List.mem_append.mp hmem with hspace | hdigit
  · cases (List.mem_replicate.mp hspace).2
  · cases Decimal.isDigit_of_mem_digits hdigit

theorem count_numberedFrom (n : Nat) (phrases : List String) :
    (numberedFrom n phrases).flatten.count '\n' = (phrases.flatMap String.toList).count '\n' := by
  induction phrases generalizing n with
  | nil => rfl
  | cons phrase phrases ih =>
      have hmarks : ('.' :: ' ' :: phrase.toList).count '\n' = phrase.toList.count '\n' := by simp
      rw [numberedFrom_cons, List.flatten_cons, List.flatMap_cons, List.count_append, ih,
        List.count_append, List.count_append, count_lineNumber, hmarks, Nat.zero_add]

theorem numberedLines_eq (h : tokens.mapM Token.describe = .ok phrases) (n : Nat) :
    (numberedLines n tokens).map (List.map String.toList) = .ok (numberedFrom n phrases) := by
  induction tokens generalizing phrases n with
  | nil =>
      cases h
      rfl
  | cons t rest ih =>
      rw [List.mapM_cons] at h
      obtain ⟨phrase, hphrase, h⟩ := bind_eq_ok_iff.mp h
      obtain ⟨more, hmore, h⟩ := bind_eq_ok_iff.mp h
      cases h
      obtain ⟨lines, hlines, hmap⟩ := map_eq_ok_iff.mp (ih hmore (n + 1))
      rw [numberedLines, numberedLine, hphrase, hlines, numberedFrom_cons, ← hmap]
      simp [bind, Except.bind, pure, Except.pure, Except.map]

/-- The explanation of a pattern is its phrases as lines. -/
theorem explainTokens_eq (hne : tokens ≠ [])
    (h : tokens.mapM Token.describe = .ok phrases) :
    ∃ text, explainTokens tokens = .ok text ∧
      text.toList = ['\n'].intercalate (numberedFrom 1 phrases) := by
  obtain ⟨lines, hlines, hmap⟩ := map_eq_ok_iff.mp (numberedLines_eq h 1)
  refine ⟨joinLines lines, ?_, ?_⟩
  · rw [explainTokens, if_neg (by simpa using hne), hlines]
    rfl
  · rw [joinLines, String.toList_intercalate, hmap]
    rfl

theorem exists_explainTokens (h : ∀ t ∈ tokens, t.DefaultIsJson) :
    ∃ text, explainTokens tokens = .ok text := by
  by_cases hempty : tokens = []
  · subst hempty
    exact ⟨_, rfl⟩
  · obtain ⟨phrases, hphrases, _⟩ := exists_phrases h
    obtain ⟨text, htext, _⟩ := explainTokens_eq hempty hphrases
    exact ⟨text, htext⟩

/-- Every pattern that has tokens is explained, by one line per token and one more for each line
feed in a kind or a data type. So the lines are the phrases of the tokens behind their numbers
exactly if there is no such line feed. -/
theorem explainTokens_lines_iff (h : compile pattern = .ok tokens) (hne : tokens ≠ []) :
    ∃ phrases text, tokens.mapM Token.describe = .ok phrases ∧ explainTokens tokens = .ok text ∧
      (text.toList.splitOn '\n').length =
        tokens.length + (tokens.flatMap Token.inserted).count '\n' ∧
      (text.toList.splitOn '\n' = numberedFrom 1 phrases ↔
        ∀ t ∈ tokens, '\n' ∉ t.inserted) := by
  obtain ⟨phrases, hphrases, hlength, hcounts⟩ := exists_phrases (defaultIsJson_of_compile h)
  obtain ⟨text, htext, hlines⟩ := explainTokens_eq hne hphrases
  have hnumbered : (numberedFrom 1 phrases).length = tokens.length :=
    List.length_mapIdx.trans hlength
  have hlinesNe : numberedFrom 1 phrases ≠ [] := by
    intro hnil
    rw [hnil] at hnumbered
    exact hne (List.eq_nil_of_length_eq_zero hnumbered.symm)
  refine ⟨phrases, text, hphrases, htext, ?_, ?_⟩
  · rw [hlines, length_splitOn, ← hcounts, ← count_numberedFrom 1, ← hnumbered]
    obtain ⟨line, lines, hcons⟩ := List.exists_cons_of_ne_nil hlinesNe
    rw [hcons, count_intercalate, List.length_cons]
    omega
  · rw [hlines, splitOn_intercalate_iff _ hlinesNe, count_numberedFrom, hcounts,
      List.count_eq_zero]
    simp only [List.mem_flatMap, not_exists, not_and]

/-- Tokens with line feeds wherever they are shown between quotes. -/
theorem explainTokens_lines_iff_quoted :
    let tokens : List Token :=
      [.literal "a\nb" false, .typedLiteral "at" "1\n2",
        .parameter "n\nm" "text" true (some (.text "x\ny"))]
    compile "a\nb\x7bat:1\n2\x7d[n\nm=x\ny]" = .ok tokens ∧ tokens ≠ [] ∧
      (∀ t ∈ tokens, '\n' ∉ t.inserted) ∧
      ∃ phrases text, tokens.mapM Token.describe = .ok phrases ∧
        explainTokens tokens = .ok text ∧
        (text.toList.splitOn '\n').length =
          tokens.length + (tokens.flatMap Token.inserted).count '\n' ∧
        (text.toList.splitOn '\n' = numberedFrom 1 phrases ↔
          ∀ t ∈ tokens, '\n' ∉ t.inserted) := by
  intro tokens
  have hcompile : compile "a\nb\x7bat:1\n2\x7d[n\nm=x\ny]" = .ok tokens := by
    with_unfolding_all rfl
  have hne : tokens ≠ [] := List.cons_ne_nil _ _
  have hplain : ∀ t ∈ tokens, '\n' ∉ t.inserted := by simp [tokens, Token.inserted]
  exact ⟨hcompile, hne, hplain, explainTokens_lines_iff hcompile hne⟩

/-- A kind may be broken, and then so is its line. -/
theorem not_forall_explained_lines :
    ¬ ∀ (pattern : String) (tokens : List Token) (phrases : List String) (text : String),
      compile pattern = .ok tokens → tokens ≠ [] →
      tokens.mapM Token.describe = .ok phrases → explainTokens tokens = .ok text →
        text.toList.splitOn '\n' = numberedFrom 1 phrases := by
  intro hall
  have hcompile : compile "\x7ba\nb\x7d" = .ok [.typedLiteral "a\nb" ""] := by
    with_unfolding_all rfl
  have htext : explainTokens [.typedLiteral "a\nb" ""] = .ok "  1. any a\nb segment" :=
    eq_ok_of_toOption (by decide +kernel)
  have hlines := hall _ _ ["any a\nb segment"] _ hcompile (List.cons_ne_nil _ _) rfl htext
  have hlength := congrArg List.length hlines
  rw [length_splitOn] at hlength
  exact absurd hlength (by decide)

end MessagePattern
