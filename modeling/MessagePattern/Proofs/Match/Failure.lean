import MessagePattern.Proofs.Decimal.Numeral
import MessagePattern.Proofs.Match.Reach

/-!
# Where matching fails

Under the types known from the start, only integers beyond the digit limit make a match
fail (`builtin_answers_iff`). Either a run comes to a parameter of a number or an integer that reads
an integer of too many digits off a text, or it comes to a typed literal that is compared
with a value that holds such an integer. All other texts are accepted or refused, and
every other token answers on every segment.
-/

namespace MessagePattern

/-! ## Integers that are too long -/

namespace Decimal

variable {e : DigitLimit} {n : Numeral} {digits : Nat}

/-- The text of an integer with more digits than can be read. -/
def Overlong (cs : List Char) (digits : Nat) : Prop :=
  ∃ n : Numeral, n.WellFormed ∧ n.fraction = none ∧ n.chars = cs ∧
    n.whole.length = digits ∧ maxDigits < digits

theorem Numeral.WellFormed.overlong_iff (hn : n.WellFormed) :
    Overlong n.chars digits ↔ n.fraction = none ∧ n.whole.length = digits ∧ maxDigits < digits := by
  constructor
  · rintro ⟨m, hm, hfraction, hchars, hlength, hlong⟩
    have hsame : m = n := Numeral.chars_inj hm hn hchars
    rw [hsame] at hfraction hlength
    exact ⟨hfraction, hlength, hlong⟩
  · rintro ⟨hfraction, hlength, hlong⟩
    exact ⟨n, hn, hfraction, rfl, hlength, hlong⟩

/-- A digit may be repeated too often. -/
theorem overlong_replicate {c : Char} (hc : c.isDigit = true) (h : maxDigits < digits) :
    Overlong (List.replicate digits c) digits := by
  have hdigits : isDigits (List.replicate digits c) = true := by
    rw [isDigits_iff]
    constructor
    · intro hnil
      rw [List.replicate_eq_nil_iff] at hnil
      omega
    · intro d hd
      rw [List.eq_of_mem_replicate hd]
      exact hc
  have hn : Numeral.WellFormed ⟨none, List.replicate digits c, none⟩ := by
    refine ⟨?_, hdigits, ?_⟩
    · intro sign hsign
      cases hsign
    · intro fraction hfraction
      cases hfraction
  exact ⟨_, hn, rfl, List.append_nil _, List.length_replicate, h⟩

theorem readInt_eq_error_iff {negative : Bool} {ds : List Char} :
    readInt negative ds = .error e ↔ maxDigits < ds.length ∧ e = .reading ds.length := by
  unfold readInt
  by_cases h : maxDigits < ds.length
  · rw [if_pos h, Except.error.injEq]
    exact ⟨fun he => ⟨h, he.symm⟩, fun he => he.2.symm⟩
  · rw [if_neg h]
    constructor
    · intro he
      cases he
    · intro hlong
      exact absurd hlong.1 h

/-- A numeral is not read exactly if it is an integer and too long. -/
theorem Numeral.WellFormed.number_eq_error_iff (hn : n.WellFormed) :
    n.number = .error e ↔ ∃ digits, Overlong n.chars digits ∧ e = .reading digits := by
  have hoverlong : (∃ digits, Overlong n.chars digits ∧ e = .reading digits) ↔
      n.fraction = none ∧ maxDigits < n.whole.length ∧ e = .reading n.whole.length := by
    constructor
    · rintro ⟨digits, hlong, rfl⟩
      obtain ⟨hfraction, rfl, hlong⟩ := hn.overlong_iff.mp hlong
      exact ⟨hfraction, hlong, rfl⟩
    · rintro ⟨hfraction, hlong, he⟩
      exact ⟨_, hn.overlong_iff.mpr ⟨hfraction, rfl, hlong⟩, he⟩
  rw [hoverlong]
  unfold Numeral.number
  cases n.fraction with
  | none => simp [toInt, map_eq_error_iff, readInt_eq_error_iff]
  | some fraction => simp

end Decimal

open Decimal (DigitLimit Numeral Overlong)

variable {e : DigitLimit} {fault : MatchFault}

/-! ## Matchers -/

/-- A matcher of numerals fails on those that it welcomes and that cannot be read. -/
theorem numeral_eq_error_iff {welcome : Numeral → Bool} {v : Value} :
    Matcher.numeral welcome (·.number) v = .error fault ↔
      ∃ text n e, v = .text text ∧ Numeral.scan? text.toList = some n ∧ welcome n = true ∧
        n.number = .error e ∧ fault = .digits e := by
  cases v with
  | text text =>
      simp only [Matcher.numeral, Matcher.onText]
      cases hscan : Numeral.scan? text.toList with
      | none => simp [hscan]
      | some n =>
          by_cases hwelcome : welcome n = true
          · simp [hscan, hwelcome, map_eq_error_iff, mapError_eq_error_iff]
          · simp [hscan, hwelcome]
  | _ => simp [Matcher.numeral, Matcher.onText]

/-- A matcher that welcomes all integers fails on those that are too long. -/
theorem numeral_eq_error_iff_overlong {welcome : Numeral → Bool} {v : Value}
    (hwelcome : ∀ n : Numeral, n.fraction = none → welcome n = true) :
    Matcher.numeral welcome (·.number) v = .error fault ↔
      ∃ text digits, v = .text text ∧ Overlong text.toList digits ∧
        fault = .digits (.reading digits) := by
  rw [numeral_eq_error_iff]
  constructor
  · rintro ⟨text, n, e, hv, hscan, _, herror, rfl⟩
    obtain ⟨hn, hchars⟩ := Numeral.scan?_eq_some_iff.mp hscan
    obtain ⟨digits, hlong, rfl⟩ := hn.number_eq_error_iff.mp herror
    exact ⟨text, digits, hv, hchars ▸ hlong, rfl⟩
  · rintro ⟨text, digits, hv, ⟨n, hn, hfraction, hchars, hlong⟩, rfl⟩
    have hscan : Numeral.scan? text.toList = some n := Numeral.scan?_eq_some_iff.mpr ⟨hn, hchars⟩
    refine ⟨text, n, _, hv, hscan, hwelcome n hfraction, hn.number_eq_error_iff.mpr ?_, rfl⟩
    exact ⟨digits, hn.overlong_iff.mpr ⟨hfraction, hlong⟩, rfl⟩

/-- The matcher of decimals never fails: it refuses integers of any length. -/
theorem float_ne_error {v : Value} : Matcher.float v ≠ .error fault := by
  rw [Matcher.float_eq]
  intro h
  obtain ⟨text, n, e, _, hscan, hwelcome, herror, _⟩ := numeral_eq_error_iff.mp h
  obtain ⟨hn, _⟩ := Numeral.scan?_eq_some_iff.mp hscan
  obtain ⟨digits, hlong, _⟩ := hn.number_eq_error_iff.mp herror
  rw [(hn.overlong_iff.mp hlong).1] at hwelcome
  cases hwelcome

/-- The types whose values may be integers. -/
def ReadsIntegers (type : String) : Prop :=
  type = "number" ∨ type = "integer"

theorem builtin_eq_error_iff {type : String} {matcher : Matcher} {v : Value}
    (h : Registry.builtin.matcher? (some type) = some matcher) :
    matcher v = .error fault ↔ ReadsIntegers type ∧
      ∃ text digits, v = .text text ∧ Overlong text.toList digits ∧
        fault = .digits (.reading digits) := by
  have hmem : (type, matcher) ∈ Matcher.builtins := Table.mem_of_get? h
  simp only [Matcher.builtins, List.mem_cons, List.not_mem_nil, or_false, Prod.mk.injEq] at hmem
  have hnumber : ReadsIntegers "number" := Or.inl rfl
  have hinteger : ReadsIntegers "integer" := Or.inr rfl
  rcases hmem with ⟨rfl, rfl⟩ | ⟨rfl, rfl⟩ | ⟨rfl, rfl⟩ | ⟨rfl, rfl⟩ | ⟨rfl, rfl⟩
  · rw [and_iff_right hnumber]
    exact numeral_eq_error_iff_overlong fun _ _ => rfl
  · rw [and_iff_right hinteger, Matcher.integer_eq]
    refine numeral_eq_error_iff_overlong fun n hfraction => ?_
    rw [hfraction]
    rfl
  · simp [float_ne_error, ReadsIntegers]
  · have hok : ∀ v, Matcher.boolean v ≠ .error fault := by
      intro v hv
      cases v <;> cases hv
    simp [hok, ReadsIntegers]
  · simp [Matcher.text, ReadsIntegers, textKind]

/-! ## Tokens -/

theorem written_eq_error_iff {v : Value} :
    v.written = .error e ↔ e = .writing ∧ v.isWritable = false := by
  unfold Value.written
  cases v.isWritable <;> simp [eq_comm]

/-- A typed literal fails exactly if it has to be compared with a value that cannot be
written. -/
theorem tryTypedLiteral_eq_error_iff {setting : Setting} {kind value : String} {s : Segment}
    {blob : Bool} :
    tryTypedLiteral setting kind value s blob = .error fault ↔
      fault = .digits .writing ∧ s.kind = kind ∧ value ≠ "" ∧ ∃ rule, setting.rules.get? kind = some rule ∧
        (rule.extract s).isWritable = false := by
  unfold tryTypedLiteral
  by_cases hkind : s.kind = kind
  · rw [if_neg (not_not_intro hkind)]
    cases hrule : setting.rules.get? kind with
    | none => simp
    | some rule =>
        by_cases hvalue : value = ""
        · simp [hvalue]
        · have hright : (fault = .digits .writing ∧ s.kind = kind ∧ value ≠ "" ∧
              ∃ rule', some rule = some rule' ∧ (rule'.extract s).isWritable = false) ↔
              fault = .digits .writing ∧ (rule.extract s).isWritable = false := by
            simp [hkind, hvalue]
          rw [hright]
          simp only [if_neg hvalue]
          split
          · rename_i hnull
            simp [hnull, Value.isWritable]
          · simp only [map_eq_error_iff, mapError_eq_error_iff, written_eq_error_iff]
            constructor
            · rintro ⟨_, ⟨rfl, hlong⟩, rfl⟩
              exact ⟨rfl, hlong⟩
            · rintro ⟨rfl, hlong⟩
              exact ⟨_, ⟨rfl, hlong⟩, rfl⟩
  · simp [hkind]

/-- Reading a text fails only in the matcher of a special type. -/
theorem readAs_eq_error_iff {registry : Registry} {dataType text : String} :
    readAs registry dataType text = .error fault ↔ dataType ≠ textKind ∧
      ∃ matcher, registry.matcher? (some dataType) = some matcher ∧
        matcher (.text text) = .error fault := by
  unfold readAs
  by_cases htext : dataType = textKind
  · simp [htext]
  · rw [if_neg htext, and_iff_right htext]
    cases registry.matcher? (some dataType) with
    | none => simp
    | some matcher =>
        simp only [Option.some.injEq, exists_eq_left']
        rcases matcher (.text text) with e' | v | _ | _ <;>
          simp [bind, Except.bind, pure, Except.pure]

theorem isSpecial_of_matcher? {registry : Registry} {type : String} {matcher : Matcher}
    (htext : type ≠ textKind) (h : registry.matcher? (some type) = some matcher) :
    registry.isSpecial (some type) = true := by
  have hhas : registry.matchers.has type = true := by
    have hget : registry.matchers.get? type = some matcher := h
    rw [Table.has, hget]
    rfl
  simp [Registry.isSpecial, htext, hhas]

theorem tryTextParameter_eq_error_iff {setting : Setting} (name : String) {dataType : String}
    {shared : Bool} {s : Segment} {blob : Bool} :
    tryTextParameter setting name dataType shared s blob = .error fault ↔
      ∃ text, s.text? = some text ∧
        readAs setting.registry dataType
          (String.ofList (portion shared blob text.toList).reads) = .error fault := by
  unfold tryTextParameter
  cases s.text? with
  | none => simp
  | some text =>
      simp only [Option.some.injEq, exists_eq_left']
      rcases readAs setting.registry dataType
        (String.ofList (portion shared blob text.toList).reads) with e' | _ | v <;>
          simp [bind, Except.bind, pure, Except.pure]

/-- A parameter fails exactly if its portion of a text cannot be read. -/
theorem tryParameter_eq_error_iff {setting : Setting} {name dataType : String} {shared : Bool}
    {s : Segment} {blob : Bool} :
    tryParameter setting name dataType shared s blob = .error fault ↔
      ∃ text, s.text? = some text ∧
        readAs setting.registry dataType
          (String.ofList (portion shared blob text.toList).reads) = .error fault := by
  rw [← tryTextParameter_eq_error_iff name]
  unfold tryParameter
  split
  · rfl
  · rename_i hkind
    constructor
    · intro h
      cases h
    · intro h
      -- What cannot be read is a text, and the type is special.
      exfalso
      obtain ⟨text, htext, hread⟩ := (tryTextParameter_eq_error_iff name).mp h
      obtain ⟨hne, matcher, hmatcher, _⟩ := readAs_eq_error_iff.mp hread
      have hisText : s.isText = true := (Option.ite_none_right_eq_some.mp htext).1
      apply hkind
      rw [hisText, isSpecial_of_matcher? hne hmatcher]
      simp

theorem readAs_builtin_eq_error_iff {dataType text : String} :
    readAs .builtin dataType text = .error fault ↔
      ReadsIntegers dataType ∧
        ∃ digits, Overlong text.toList digits ∧ fault = .digits (.reading digits) := by
  rw [readAs_eq_error_iff]
  constructor
  · rintro ⟨_, matcher, hmatcher, herror⟩
    obtain ⟨hreads, text', digits, htext, hlong, he⟩ := (builtin_eq_error_iff hmatcher).mp herror
    cases htext
    exact ⟨hreads, digits, hlong, he⟩
  · rintro ⟨hreads, digits, hlong, he⟩
    have hmatcher : ∃ matcher, Registry.builtin.matcher? (some dataType) = some matcher := by
      rcases hreads with rfl | rfl
      · exact ⟨Matcher.number, rfl⟩
      · exact ⟨Matcher.integer, rfl⟩
    obtain ⟨matcher, hmatcher⟩ := hmatcher
    refine ⟨?_, matcher, hmatcher, ?_⟩
    · rcases hreads with rfl | rfl <;> decide
    · exact (builtin_eq_error_iff hmatcher).mpr ⟨hreads, text, digits, rfl, hlong, he⟩

/-- A token meets an integer beyond the digit limit: a parameter of a number or an integer
reads one off a text, or a typed literal is compared with a value that holds one. -/
inductive Overruns (rules : Rules) (rest : List Token) (s : Segment) (blob : Bool) :
    Token → DigitLimit → Prop
  | reading {name dataType text : String} {optional : Bool} {default : Option Value} {digits : Nat}
      (htype : ReadsIntegers dataType) (htext : s.text? = some text)
      (hlong : Overlong (portion
        (1 < optionalsSharing .builtin (.parameter name dataType optional default :: rest)) blob
          text.toList).reads digits) :
      Overruns rules rest s blob (.parameter name dataType optional default) (.reading digits)
  | writing {kind value : String} {rule : Rule} (hkind : s.kind = kind) (hvalue : value ≠ "")
      (hrule : rules.get? kind = some rule) (hlong : (rule.extract s).isWritable = false) :
      Overruns rules rest s blob (.typedLiteral kind value) .writing

/-- Under the types known from the start, tokens fail on nothing else. -/
theorem intake?_builtin_eq_error_iff {rules : Rules} {token : Token} {rest : List Token}
    {s : Segment} {blob : Bool} :
    intake? ⟨rules, .builtin⟩ token rest s blob = .error fault ↔
      ∃ e, Overruns rules rest s blob token e ∧ fault = .digits e := by
  constructor
  · intro h
    cases token with
    | parameter name dataType optional default =>
        obtain ⟨text, htext, hread⟩ := tryParameter_eq_error_iff.mp h
        obtain ⟨htype, digits, hlong, rfl⟩ := readAs_builtin_eq_error_iff.mp hread
        rw [String.toList_ofList] at hlong
        exact ⟨_, .reading htype htext hlong, rfl⟩
    | typedLiteral kind value =>
        obtain ⟨rfl, hkind, hvalue, rule, hrule, hlong⟩ := tryTypedLiteral_eq_error_iff.mp h
        exact ⟨_, .writing hkind hvalue hrule hlong, rfl⟩
    | literal text optional => cases h
    | rest name dataType => cases h
  · rintro ⟨e, h, rfl⟩
    cases h with
    | @reading name dataType text optional default digits htype htext hlong =>
        refine tryParameter_eq_error_iff.mpr ⟨text, htext, readAs_builtin_eq_error_iff.mpr ?_⟩
        rw [String.toList_ofList]
        exact ⟨htype, digits, hlong, rfl⟩
    | @writing kind value rule hkind hvalue hrule hlong =>
        exact tryTypedLiteral_eq_error_iff.mpr ⟨rfl, hkind, hvalue, rule, hrule, hlong⟩

/-! ## Runs and matches -/

/-- A run comes to a token that meets an integer beyond the limit on the current segment. -/
def RunOverruns (rules : Rules) (tokens : List Token) (segments : List Segment)
    (e : DigitLimit) : Prop :=
  ∃ token rest st current,
    Reaches ⟨rules, .builtin⟩ tokens { cursor := .start segments } (token :: rest) st ∧
    st.cursor.current? = some current ∧
    Overruns rules rest current.segment (st.cursor.isBlob current.label) token e

theorem matchTokens_builtin_eq_error_iff {rules : Rules} {tokens : List Token}
    {segments : List Segment} :
    matchTokens ⟨rules, .builtin⟩ tokens segments = .error fault ↔
      ∃ e, RunOverruns rules tokens segments e ∧ fault = .digits e := by
  rw [matchTokens_eq_error_iff, steps_eq_error_iff]
  constructor
  · rintro ⟨token, rest, st, hreaches, hfails⟩
    obtain ⟨current, hcurrent, hintake⟩ := step_eq_error_iff.mp hfails
    obtain ⟨e, hoverruns, he⟩ := intake?_builtin_eq_error_iff.mp hintake
    exact ⟨e, ⟨token, rest, st, current, hreaches, hcurrent, hoverruns⟩, he⟩
  · rintro ⟨e, ⟨token, rest, st, current, hreaches, hcurrent, hoverruns⟩, he⟩
    have hintake := intake?_builtin_eq_error_iff.mpr ⟨e, hoverruns, he⟩
    exact ⟨token, rest, st, hreaches, step_eq_error_iff.mpr ⟨current, hcurrent, hintake⟩⟩

section Answers

variable {pattern : String} {tokens : List Token} {message : Value} {items : List Value}
  {segments : List Segment} {raw : Option RawRules} {rules : Rules}

/-- A match of a pattern against segments that can be read, under rules that can be
read, is refused exactly if its run meets an integer beyond the limit. -/
theorem matchMessage_builtin_eq_error_iff {refusal : Refusal}
    (hpattern : compile pattern = .ok tokens) (hitems : message.items? = some items)
    (hsegments : readMessage items = .ok segments) (hrules : Rules.resolve raw = .ok rules) :
    matchMessage (.pattern pattern) message raw .builtin = .error refusal ↔
      ∃ e, RunOverruns rules tokens segments e ∧ refusal = .broken (.digits e) := by
  have hresolve : (PatternSource.pattern pattern).resolve = .ok tokens := by
    rw [PatternSource.resolve, hpattern]
    rfl
  rw [matchMessage_of_read .builtin hresolve hitems hsegments hrules, mapError_eq_error_iff]
  simp only [matchTokens_builtin_eq_error_iff]
  constructor
  · rintro ⟨_, ⟨e, hoverruns, rfl⟩, hrefusal⟩
    exact ⟨e, hoverruns, hrefusal⟩
  · rintro ⟨e, hoverruns, hrefusal⟩
    exact ⟨_, ⟨e, hoverruns, rfl⟩, hrefusal⟩

/-- A match under the types known from the start is broken off for nothing but an integer. -/
theorem matchMessage_builtin_ne_failed (source : PatternSource) (message : Value)
    (raw : Option RawRules) (text : String) :
    matchMessage source message raw .builtin ≠ .error (.broken (.failed text)) := by
  intro h
  obtain ⟨tokens, items, rules, segments, _, _, _, _, hmatch⟩ := matchMessage_broken_cases h
  obtain ⟨e, _, hfault⟩ := matchTokens_builtin_eq_error_iff.mp hmatch
  cases hfault

/-- A match of a pattern under the types known from the start answers exactly if its run
meets no integer beyond the digit limit; and the matchers of these types answer on all
but the texts of such integers. -/
theorem builtin_answers_iff (hpattern : compile pattern = .ok tokens)
    (hitems : message.items? = some items) (hsegments : readMessage items = .ok segments)
    (hrules : Rules.resolve raw = .ok rules) :
    ((∃ answer, matchMessage (.pattern pattern) message raw .builtin = .ok answer) ↔
      ∀ e, ¬ RunOverruns rules tokens segments e) ∧
    ∀ type matcher v, Registry.builtin.matcher? (some type) = some matcher →
      ((∃ answer, matcher v = .ok answer) ↔
        ∀ text digits, v = .text text → Overlong text.toList digits → ¬ ReadsIntegers type) := by
  constructor
  · rw [exists_ok_iff]
    have hrefused : ∀ refusal,
        matchMessage (.pattern pattern) message raw .builtin = .error refusal ↔
          ∃ e, RunOverruns rules tokens segments e ∧ refusal = .broken (.digits e) := fun refusal =>
      matchMessage_builtin_eq_error_iff hpattern hitems hsegments hrules
    constructor
    · intro hanswers e hoverruns
      exact hanswers (.broken (.digits e)) ((hrefused _).mpr ⟨e, hoverruns, rfl⟩)
    · intro hnone refusal h
      obtain ⟨e, hoverruns, _⟩ := (hrefused refusal).mp h
      exact hnone e hoverruns
  · intro type matcher v hmatcher
    rw [exists_ok_iff]
    constructor
    · intro hanswers text digits hv hlong htype
      exact hanswers _ ((builtin_eq_error_iff hmatcher).mpr
        ⟨htype, text, digits, hv, hlong, rfl⟩)
    · intro hnone fault herror
      obtain ⟨htype, text, digits, hv, hlong, _⟩ := (builtin_eq_error_iff hmatcher).mp herror
      exact hnone text digits hv hlong htype

end Answers

theorem compile_sole_integer :
    compile "<n:integer>" = .ok [.parameter "n" "integer" false none] := by
  with_unfolding_all rfl

/-- In front of an overlong text, a sole integer parameter reads it. -/
theorem runOverruns_sole {digits : Nat} (rules : Rules) (h : Decimal.maxDigits < digits) :
    RunOverruns rules [.parameter "n" "integer" false none]
      [.ofText (String.ofList (List.replicate digits '1'))] (.reading digits) := by
  refine ⟨_, _, _, _, .here, rfl, .reading (Or.inr rfl) rfl ?_⟩
  show Overlong (String.ofList (List.replicate digits '1')).toList digits
  rw [String.toList_ofList]
  exact Decimal.overlong_replicate rfl h

theorem builtin_answers_iff_ones :
    (¬ ∃ answer, matchMessage (.pattern "<n:integer>")
        (.list [.segment "text" [("text", .text (String.ofList (List.replicate 4301 '1')))]])
        none .builtin = .ok answer) ∧
      ¬ ∃ answer, Matcher.integer (.text (String.ofList (List.replicate 4301 '1'))) =
        .ok answer := by
  have hlong : Decimal.maxDigits < 4301 := by decide
  have hitems : ∀ items, (Value.list items).items? = some items := fun _ => rfl
  have hsegments : readMessage
      [.segment "text" [("text", .text (String.ofList (List.replicate 4301 '1')))]] =
        .ok [.ofText (String.ofList (List.replicate 4301 '1'))] := rfl
  have hrules : Rules.resolve none = .ok Rules.defaults := rfl
  obtain ⟨hmatch, hmatcher⟩ :=
    builtin_answers_iff compile_sole_integer (hitems _) hsegments hrules
  constructor
  · intro hanswers
    exact hmatch.mp hanswers _ (runOverruns_sole _ hlong)
  · intro hanswers
    have hinteger : Registry.builtin.matcher? (some "integer") = some Matcher.integer := rfl
    have hdigits : Overlong (String.ofList (List.replicate 4301 '1')).toList 4301 := by
      rw [String.toList_ofList]
      exact Decimal.overlong_replicate rfl hlong
    exact (hmatcher _ _ _ hinteger).mp hanswers _ 4301 rfl hdigits (Or.inr rfl)

/-- A text of ones is refused for every length beyond the limit. -/
theorem matchMessage_ones {digits : Nat} (h : Decimal.maxDigits < digits) :
    matchMessage (.pattern "<n:integer>")
        (.list [.segment "text" [("text", .text (String.ofList (List.replicate digits '1')))]])
        none .builtin =
      .error (.broken (.digits (.reading digits))) := by
  refine (matchMessage_builtin_eq_error_iff compile_sole_integer rfl rfl rfl).mpr ?_
  exact ⟨.reading digits, runOverruns_sole _ h, rfl⟩

/-- So there are valid arguments that matching does not answer. -/
theorem not_forall_matchMessage_answers :
    ¬ ∀ (pattern : String) (tokens : List Token) (items : List Value) (segments : List Segment)
        (raw : Option RawRules) (rules : Rules),
      compile pattern = .ok tokens → readMessage items = .ok segments →
      Rules.resolve raw = .ok rules →
        ∃ answer, matchMessage (.pattern pattern) (.list items) raw .builtin = .ok answer := by
  intro hanswers
  have hrefused := @matchMessage_ones 4301 (by decide)
  obtain ⟨answer, hanswer⟩ := hanswers "<n:integer>" _
    [.segment "text" [("text", .text (String.ofList (List.replicate 4301 '1')))]] _ none _
    compile_sole_integer rfl rfl
  rw [hanswer] at hrefused
  cases hrefused

end MessagePattern
