import MessagePattern.File.Records
import MessagePattern.Proofs.Decimal.Notation
import MessagePattern.Proofs.File.Encoding
import MessagePattern.Proofs.Json.RoundTrip

/-!
# Files with one record per line

A value that is written on one line has no control character in it and does not start or end
with a blank, so its line is read as the value and as nothing else. Blank lines may stand
anywhere between (`LineFile`); what the lines of such a text are read as is its records
(`lineRecords_lineFile`).
-/

namespace MessagePattern

namespace Json

/-! ## The characters of a line -/

/-- A character that is no control character. -/
def isPlain (c : Char) : Bool :=
  0x20 ≤ c.toNat

theorem toNat_of_isDigit {c : Char} (h : c.isDigit = true) : 48 ≤ c.toNat ∧ c.toNat ≤ 57 := by
  simp only [Char.isDigit, Bool.and_eq_true, decide_eq_true_eq] at h
  exact ⟨h.1, h.2⟩

theorem isPlain_of_isDigit {c : Char} (h : c.isDigit = true) : isPlain c = true := by
  obtain ⟨hlow, _⟩ := toNat_of_isDigit h
  exact decide_eq_true (by omega)

theorem isBlank_of_isDigit {c : Char} (h : c.isDigit = true) : Text.isBlank c = false := by
  obtain ⟨hlow, hhigh⟩ := toNat_of_isDigit h
  exact Text.isBlank_of_visible (by omega) (by omega)

theorem isBlank_of_isValueStart {c : Char} (h : isValueStart c = true) :
    Text.isBlank c = false := by
  rcases Bool.or_eq_true_iff.mp h with hdigit | hother
  · exact isBlank_of_isDigit hdigit
  · simp only [List.contains_eq_mem, decide_eq_true_eq, List.mem_cons, List.not_mem_nil,
      or_false] at hother
    rcases hother with rfl | rfl | rfl | rfl | rfl | rfl | rfl <;> rfl

theorem isPlain_escapeChar (c : Char) : ∀ d ∈ escapeChar c, isPlain d = true := by
  intro d hd
  rcases mem_escapeChar hd with hpart | ⟨rfl, hlow, _⟩
  · have hall : escapeParts.all isPlain = true := rfl
    exact List.all_eq_true.mp hall d hpart
  · exact decide_eq_true hlow

theorem isPlain_stringChars (cs : List Char) : ∀ c ∈ stringChars cs, isPlain c = true := by
  refine List.forall_mem_cons.mpr ⟨rfl, List.forall_mem_append.mpr ⟨?_, ?_⟩⟩
  · intro d hd
    obtain ⟨c, _, hd⟩ := List.mem_flatMap.mp hd
    exact isPlain_escapeChar c d hd
  · exact List.forall_mem_singleton.mpr rfl

theorem isPlain_intChars (i : Int) : ∀ c ∈ Decimal.intChars i, isPlain c = true := by
  have hdigits : ∀ c ∈ Decimal.digits i.natAbs, isPlain c = true := fun _ hc =>
    isPlain_of_isDigit (Decimal.isDigit_of_mem_digits hc)
  unfold Decimal.intChars
  split
  · exact List.forall_mem_cons.mpr ⟨rfl, hdigits⟩
  · exact hdigits

theorem isPlain_write (x : Float) : ∀ c ∈ numberLayout.write x, isPlain c = true :=
  Decimal.Layout.forall_mem_write (fun _ => isPlain_of_isDigit) (List.all_eq_true.mp rfl)
    (List.all_eq_true.mp rfl) (List.all_eq_true.mp rfl) x

section

variable {P : Char → Prop}

theorem forall_mem_intercalate {between : List Char} (hbetween : ∀ c ∈ between, P c)
    {texts : List (List Char)} (h : ∀ text ∈ texts, ∀ c ∈ text, P c) :
    ∀ c ∈ List.intercalate between texts, P c := by
  induction texts with
  | nil => exact List.forall_mem_nil _
  | cons text texts ih =>
      obtain ⟨htext, htexts⟩ := List.forall_mem_cons.mp h
      cases texts with
      | nil => rwa [List.intercalate_singleton]
      | cons text' texts =>
          rw [List.intercalate_cons_cons]
          exact List.forall_mem_append.mpr
            ⟨List.forall_mem_append.mpr ⟨htext, hbetween⟩, ih htexts⟩

variable (hplain : ∀ c, isPlain c = true → P c) {style : Style}
  (hlead : ∀ level, ∀ c ∈ style.lead level, P c)

include hplain hlead

theorem forall_mem_between (level : Nat) : ∀ c ∈ style.between level, P c := by
  unfold Style.between
  split
  · exact List.forall_mem_cons.mpr ⟨hplain _ rfl, List.forall_mem_singleton.mpr (hplain _ rfl)⟩
  · exact List.forall_mem_cons.mpr ⟨hplain _ rfl, hlead level⟩

theorem forall_mem_bracketed {opening closing : Char} (hopening : P opening) (hclosing : P closing)
    (level : Nat) {texts : List (List Char)} (h : ∀ text ∈ texts, ∀ c ∈ text, P c) :
    ∀ c ∈ bracketed style level opening closing texts, P c := by
  have hclose : ∀ c ∈ [closing], P c := List.forall_mem_singleton.mpr hclosing
  cases texts with
  | nil => exact List.forall_mem_cons.mpr ⟨hopening, hclose⟩
  | cons text texts =>
      have hrow := forall_mem_intercalate (forall_mem_between hplain hlead (level + 1)) h
      refine List.forall_mem_cons.mpr ⟨hopening, List.forall_mem_append.mpr ⟨?_, hclose⟩⟩
      exact List.forall_mem_append.mpr
        ⟨List.forall_mem_append.mpr ⟨hlead (level + 1), hrow⟩, hlead level⟩

/-- The text of a value has plain characters, and those that a style puts in front of items. -/
theorem forall_mem_print {v : Value} (h : v.IsJson) (level : Nat) :
    ∀ c ∈ print style level v, P c := by
  have hstring : ∀ cs, ∀ c ∈ stringChars cs, P c := fun cs c hc =>
    hplain c (isPlain_stringChars cs c hc)
  induction h generalizing level with
  | null => exact fun c hc => hplain c (List.all_eq_true.mp rfl c hc)
  | bool b => cases b <;> exact fun c hc => hplain c (List.all_eq_true.mp rfl c hc)
  | @int i _ => exact fun c hc => hplain c (isPlain_intChars i c hc)
  | float x => exact fun c hc => hplain c (isPlain_write x c hc)
  | text s => exact hstring s.toList
  | list _ ih =>
      rw [print_list]
      refine forall_mem_bracketed hplain hlead (hplain _ rfl) (hplain _ rfl) level
        fun text htext => ?_
      obtain ⟨v, hv, rfl⟩ := List.mem_map.mp htext
      exact ih v hv (level + 1)
  | dict _ _ ih =>
      rw [print_dict]
      refine forall_mem_bracketed hplain hlead (hplain _ rfl) (hplain _ rfl) level
        fun text htext => ?_
      obtain ⟨e, he, rfl⟩ := List.mem_map.mp htext
      have hvalue := ih e ((arrange_perm style _).mem_iff.mp he) (level + 1)
      exact List.forall_mem_append.mpr ⟨hstring e.1.toList, List.forall_mem_cons.mpr
        ⟨hplain _ rfl, List.forall_mem_cons.mpr ⟨hplain _ rfl, hvalue⟩⟩⟩

end

theorem return_notMem_print {v : Value} (h : v.IsJson) (style : Style) (level : Nat) :
    '\r' ∉ print style level v := by
  intro hmem
  refine forall_mem_print (P := fun c => c ≠ '\r') ?_ ?_ h level _ hmem rfl
  · rintro c hc rfl
    cases hc
  · intro level c hc
    unfold Style.lead at hc
    split at hc
    · cases hc
    · rcases List.mem_cons.mp hc with rfl | hc
      · decide
      · rw [(List.mem_replicate.mp hc).2]
        decide

/-- A value is written on one line. -/
theorem newline_notMem_print {v : Value} (h : v.IsJson) (level : Nat) :
    '\n' ∉ print .line level v := by
  intro hmem
  refine forall_mem_print (P := fun c => c ≠ '\n') ?_ ?_ h level _ hmem rfl
  · rintro c hc rfl
    cases hc
  · exact fun _ => List.forall_mem_nil _

/-! ## The ends of a line -/

theorem exists_last_print {v : Value} (h : v.IsFloatFree) (style : Style) (level : Nat) :
    ∃ cs c, print style level v = cs ++ [c] ∧ Text.isBlank c = false := by
  cases h with
  | null => exact ⟨['n', 'u', 'l'], 'l', rfl, rfl⟩
  | bool b =>
      cases b with
      | false => exact ⟨['f', 'a', 'l', 's'], 'e', rfl, rfl⟩
      | true => exact ⟨['t', 'r', 'u'], 'e', rfl, rfl⟩
  | @int i _ =>
      obtain ⟨hne, hdigits⟩ := Decimal.isDigits_iff.mp (Decimal.isDigits_digits i.natAbs)
      have hlast := isBlank_of_isDigit (hdigits _ (List.getLast_mem hne))
      show ∃ cs c, Decimal.intChars i = cs ++ [c] ∧ _
      unfold Decimal.intChars
      split
      · refine ⟨'-' :: (Decimal.digits i.natAbs).dropLast, _, ?_, hlast⟩
        rw [List.cons_append, List.dropLast_concat_getLast]
      · exact ⟨_, _, (List.dropLast_concat_getLast hne).symm, hlast⟩
  | text s => exact ⟨'"' :: s.toList.flatMap escapeChar, '"', rfl, rfl⟩
  | list _ =>
      rw [print_list]
      obtain ⟨cs, hcs⟩ := exists_last_bracketed style level '[' ']' _
      exact ⟨cs, ']', hcs, rfl⟩
  | dict _ _ =>
      rw [print_dict]
      obtain ⟨cs, hcs⟩ := exists_last_bracketed style level '\x7b' '\x7d' _
      exact ⟨cs, '\x7d', hcs, rfl⟩

/-- There is nothing to strip off the text of a value. -/
theorem strip_print {v : Value} (h : v.IsFloatFree) (style : Style) (level : Nat) :
    Text.strip (print style level v) = print style level v := by
  obtain ⟨c, cs, hfirst, hc⟩ := (readsBack h style).start level
  obtain ⟨ds, d, hlast, hd⟩ := exists_last_print h style level
  have hfront : (print style level v).dropWhile Text.isBlank = print style level v := by
    rw [hfirst, List.dropWhile_cons_of_neg]
    simp [isBlank_of_isValueStart hc]
  rw [Text.strip, Text.stripWhile, hfront, hlast, List.reverse_append, List.reverse_singleton,
    List.singleton_append, List.dropWhile_cons_of_neg (by simp [hd]), List.reverse_cons,
    List.reverse_reverse]

end Json

namespace File

open Json (print Style)

/-! ## Lines -/

theorem linesOf_newline (cs : List Char) : linesOf ('\n' :: cs) = [] :: linesOf cs := rfl

theorem linesOf_cons {c : Char} (h : c ≠ '\n') (cs : List Char) :
    linesOf (c :: cs) =
      match linesOf cs with
      | [] => [[c]]
      | line :: lines => (c :: line) :: lines := by
  rw [linesOf, splitLines, if_neg h, linesOf]
  rcases splitLines cs with ⟨_ | ⟨line, lines⟩, _ | ⟨d, tail⟩⟩ <;> rfl

/-- A line ends at its line feed. -/
theorem linesOf_append_newline {line : List Char} (h : '\n' ∉ line) (cs : List Char) :
    linesOf (line ++ '\n' :: cs) = line :: linesOf cs := by
  induction line with
  | nil => exact linesOf_newline cs
  | cons c line ih =>
      obtain ⟨hc, hline⟩ := not_or.mp fun hmem => h (List.mem_cons.mpr hmem)
      rw [List.cons_append, linesOf_cons (Ne.symm hc), ih hline]

theorem linesOf_of_notMem {line : List Char} (h : '\n' ∉ line) (hne : line ≠ []) :
    linesOf line = [line] := by
  induction line with
  | nil => exact absurd rfl hne
  | cons c line ih =>
      obtain ⟨hc, hline⟩ := not_or.mp fun hmem => h (List.mem_cons.mpr hmem)
      rw [linesOf_cons (Ne.symm hc)]
      cases line with
      | nil => rfl
      | cons d line => rw [ih hline (List.cons_ne_nil d line)]

theorem unifyLineEnds_append {cs : List Char} (h : '\r' ∉ cs) (rest : List Char) :
    unifyLineEnds (cs ++ rest) = cs ++ unifyLineEnds rest := by
  induction cs with
  | nil => rfl
  | cons c cs ih =>
      obtain ⟨hc, hcs⟩ := not_or.mp fun hmem => h (List.mem_cons.mpr hmem)
      rw [List.cons_append, unifyLineEnds, ih hcs, List.cons_append]
      · exact fun _ hfirst _ => hc hfirst.symm
      · exact fun hfirst => hc hfirst.symm

/-- A carriage return reads as a line feed, as does one with a line feed behind it. -/
theorem exists_unifyLineEnds {c : Char} (h : c = '\n' ∨ c = '\r') (rest : List Char) :
    ∃ more, unifyLineEnds (c :: rest) = '\n' :: more := by
  rcases h with rfl | rfl
  · exact ⟨unifyLineEnds rest, rfl⟩
  · rw [unifyLineEnds.eq_def]
    split
    · rename_i h
      cases h
    · exact ⟨_, rfl⟩
    · exact ⟨_, rfl⟩
    · rename_i hreturn h
      cases h
      exact absurd rfl hreturn

/-! ## Records -/

/-- The texts that have the records on one line each; blanks, line ends among them, may stand in
front of a record, and behind the last one. -/
inductive LineFile : List Value → List Char → Prop
  | nil : LineFile [] []
  | blank {records : List Value} {rest : List Char} {c : Char} (hc : Text.isBlank c = true)
      (h : LineFile records rest) : LineFile records (c :: rest)
  | record {records : List Value} {rest : List Char} (r : Value) (h : LineFile records rest)
      (hend : ∀ c, rest.head? = some c → c = '\n' ∨ c = '\r') :
      LineFile (r :: records) (print .line 0 r ++ rest)

/-- Records that each end their line are such a text. -/
theorem lineFile_flatMap (records : List Value) :
    LineFile records (records.flatMap fun r => print .line 0 r ++ ['\n']) := by
  induction records with
  | nil => exact .nil
  | cons r rest ih =>
      rw [List.flatMap_cons, List.append_assoc, List.singleton_append]
      refine .record r (.blank rfl ih) ?_
      rintro c ⟨⟩
      exact Or.inl rfl

theorem lineRecords_cons_of_blank {line : List Char} (h : Text.isBlankText line = true)
    (lines : List (List Char)) : lineRecords (line :: lines) = lineRecords lines := by
  rw [lineRecords, (Text.strip_eq_nil_iff line).mpr h]

/-- A blank in front of a text changes none of its records. -/
theorem lineRecords_blank_cons {c : Char} (hc : Text.isBlank c = true) (cs : List Char) :
    lineRecords (linesOf (c :: cs)) = lineRecords (linesOf cs) := by
  by_cases hnewline : c = '\n'
  · rw [hnewline, linesOf_newline, lineRecords_cons_of_blank rfl]
  · rw [linesOf_cons hnewline]
    cases linesOf cs with
    | nil => exact lineRecords_cons_of_blank (by simp [Text.isBlankText, hc]) []
    | cons line lines =>
        have hstrip : Text.strip (c :: line) = Text.strip line := by
          rw [Text.strip, Text.stripWhile, List.dropWhile_cons_of_pos hc]
          rfl
        simp only
        rw [lineRecords, hstrip, lineRecords]

/-- A line end is a blank like others, whatever it reads as. -/
theorem lineRecords_unifyLineEnds_cons {c : Char} (hc : Text.isBlank c = true) (cs : List Char) :
    lineRecords (linesOf (unifyLineEnds (c :: cs))) =
      lineRecords (linesOf (unifyLineEnds cs)) := by
  rw [unifyLineEnds.eq_def]
  split
  · rename_i h
    cases h
  · rename_i rest h
    cases h
    rfl
  · rename_i rest _ h
    cases h
    exact lineRecords_blank_cons rfl _
  · rename_i rest _ _ h
    cases h
    exact lineRecords_blank_cons hc _

/-- A line with the text of a value is the record of that value. -/
theorem lineRecords_print_cons {r : Value} (hr : r.IsFloatFree) {lines : List (List Char)}
    {records : List Value} (h : lineRecords lines = .ok records) :
    lineRecords (print .line 0 r :: lines) = .ok (r :: records) := by
  have hparse : parseText (print .line 0 r) = .ok r := by
    have hread := Json.parse_print hr .line (List.forall_mem_nil _)
    rw [List.append_nil] at hread
    rw [parseText, hread]
    rfl
  obtain ⟨c, cs, hfirst, _⟩ := (Json.readsBack hr .line).start 0
  rw [lineRecords, Json.strip_print hr]
  rw [hfirst] at hparse ⊢
  simp only [hparse, h, bind, Except.bind]
  rfl

theorem lineRecords_lineFile {records : List Value} {text : List Char}
    (hrecords : ∀ r ∈ records, r.IsFloatFree) (h : LineFile records text) :
    lineRecords (linesOf (unifyLineEnds text)) = .ok records := by
  induction h with
  | nil => rfl
  | blank hc _ ih => rw [lineRecords_unifyLineEnds_cons hc, ih hrecords]
  | @record records rest r _ hend ih =>
      obtain ⟨hr, hrecords⟩ := List.forall_mem_cons.mp hrecords
      have hfeed := Json.newline_notMem_print hr.isJson 0
      have hrest := ih hrecords
      rw [unifyLineEnds_append (Json.return_notMem_print hr.isJson .line 0)]
      -- Behind the record stands nothing, or a line end, which reads as a line feed.
      cases rest with
      | nil =>
          obtain ⟨c, cs, hfirst, _⟩ := (Json.readsBack hr .line).start 0
          have hne : print .line 0 r ≠ [] := by
            rw [hfirst]
            exact List.cons_ne_nil c cs
          rw [unifyLineEnds, List.append_nil, linesOf_of_notMem hfeed hne]
          exact lineRecords_print_cons hr hrest
      | cons c rest =>
          obtain ⟨more, hmore⟩ := exists_unifyLineEnds (hend c rfl) rest
          rw [hmore, linesOf_newline, lineRecords_cons_of_blank rfl] at hrest
          rw [hmore, linesOf_append_newline hfeed]
          exact lineRecords_print_cons hr hrest

end File

end MessagePattern
