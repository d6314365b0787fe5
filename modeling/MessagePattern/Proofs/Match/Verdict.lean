import MessagePattern.Proofs.Match.Failure
import MessagePattern.Proofs.Match.Validity
import MessagePattern.Proofs.Text.Quoting

/-!
# When there is no match

There are two ways for a message not to match (`NoMatch`). Either the run comes to a token
that the message cannot go without, and the token takes nothing; or the tokens are nothing but
optional literals, and none of them is found. The check at the end of a run is there for the
second way only: where any token took something, the result counts (`isValid_of_tried`).
-/

namespace MessagePattern

variable {setting : Setting} {token : Token} {rest tokens tokens' : List Token}
  {segments : List Segment} {st st' taken ended : MatchState}

/-! ## Tokens that take nothing -/

/-- A token takes nothing: the run is at the end of the message, or the token does not match
the current segment. -/
inductive Misses (setting : Setting) (token : Token) (rest : List Token) (st : MatchState) : Prop
  | atEnd (hend : st.cursor.current? = none)
  | onSegment {current : Labelled} (hcurrent : st.cursor.current? = some current)
      (hintake : intake? setting token rest current.segment (st.cursor.isBlob current.label) =
        .ok none)

theorem tryHere_eq_none_iff (hrest : ∀ name dataType, token ≠ .rest name dataType) :
    tryHere setting token rest st = .ok none ↔ Misses setting token rest st := by
  constructor
  · intro htry
    unfold tryHere at htry
    split at htry
    · rename_i hend
      exact .atEnd hend
    · rename_i current hcurrent
      rw [tryToken] at htry
      · obtain ⟨i, hintake, hnone⟩ := map_eq_ok_iff.mp htry
        rw [Option.map_eq_none_iff.mp hnone] at hintake
        exact .onSegment hcurrent hintake
      · exact hrest
  · intro hmisses
    unfold tryHere
    cases hmisses with
    | atEnd hend => rw [hend]
    | @onSegment current hcurrent hintake =>
        rw [hcurrent]
        show tryToken setting token rest current st = .ok none
        rw [tryToken]
        · rw [hintake]
          rfl
        · exact hrest

theorem ne_rest_of_required (hrequired : token.isDispensable = false) (name : String)
    (dataType : Option String) : token ≠ .rest name dataType := by
  rintro rfl
  cases hrequired

/-- Optional literals that take nothing leave the state of a run as it is. -/
theorem steps_of_misses (hall : ∀ token ∈ tokens, ∃ text, token = .literal text true)
    (hmisses : ∀ token rest st', Reaches setting tokens st (token :: rest) st' →
      Misses setting token rest st') :
    steps setting tokens st = .ok (some st) := by
  induction tokens with
  | nil => rfl
  | cons token rest ih =>
      obtain ⟨text, rfl⟩ := hall token List.mem_cons_self
      have htry : tryHere setting (.literal text true) rest st = .ok none := by
        apply (tryHere_eq_none_iff _).mpr
        · exact hmisses _ _ _ .here
        · intro name dataType htoken
          cases htoken
      have hstep : step setting (.literal text true) rest st = .ok (some st) :=
        step_eq_some_iff.mpr (Or.inr ⟨htry, st.result, rfl, rfl⟩)
      rw [steps_cons_of_step hstep]
      apply ih
      · intro token hmem
        exact hall token (List.mem_cons_of_mem _ hmem)
      · intro token rest' st' hreaches
        exact hmisses token rest' st' (hreaches.of_step hstep)

/-! ## Results that count -/

/-- A token that took something has made the result count. -/
theorem isValid_of_tryHere (h : tryHere setting token rest st = .ok (some taken)) :
    taken.result.isValid = true := by
  obtain ⟨current, _, ⟨i, hintake, rfl⟩ | ⟨name, dataType, _, rfl⟩⟩ := tryHere_cases h
  · exact MatchResult.isValid_note (taken_ne_nil_of_intake hintake)
  · exact MatchResult.isValid_setParam _ _ _

theorem isValid_of_steps (htidy : st.cursor.Tidy) (h : WillCount st.result tokens)
    (hsteps : steps setting tokens st = .ok (some ended)) : ended.result.isValid = true := by
  have hseen : st.outlook.steps setting tokens = .ok (some ended.outlook) := by
    rw [← outlook_steps htidy, hsteps]
    rfl
  exact Outlook.isValid_of_steps (o := st.outlook) h hseen

/-- Where any token took something, the result counts at the end of the run. -/
theorem isValid_of_tried (htidy : st.cursor.Tidy)
    (hreaches : Reaches setting tokens st (token :: rest) st')
    (htry : tryHere setting token rest st' = .ok (some taken))
    (hsteps : steps setting tokens st = .ok (some ended)) : ended.result.isValid = true := by
  have hstep : step setting token rest st' = .ok (some taken) :=
    step_eq_some_iff.mpr (Or.inl htry)
  have hreaches' : Reaches setting tokens st rest taken := .next hreaches hstep
  have hvalid : taken.result.isValid = true := isValid_of_tryHere htry
  rw [hreaches'.steps_eq] at hsteps
  exact isValid_of_steps (hreaches'.tidy htidy) (Or.inl hvalid) hsteps

/-! ## The verdict -/

/-- Why tokens do not match the segments of a message. -/
inductive NoMatch (setting : Setting) (tokens : List Token) (segments : List Segment) : Prop
  /-- A token that the message cannot go without takes nothing. -/
  | required {token : Token} {rest : List Token} {st : MatchState}
      (hreaches : Reaches setting tokens { cursor := .start segments } (token :: rest) st)
      (hrequired : token.isDispensable = false) (hmisses : Misses setting token rest st)
  /-- There are tokens and segments, but all tokens are optional literals and none of them is
  found. -/
  | nothingFound (htokens : tokens ≠ []) (hsegments : segments ≠ [])
      (hall : ∀ token ∈ tokens, ∃ text, token = .literal text true)
      (hmisses : ∀ token rest st,
        Reaches setting tokens { cursor := .start segments } (token :: rest) st →
          Misses setting token rest st)

/-- There is no match if the run stops at a token, or if it gets through and its result does
not count. -/
theorem matchTokens_eq_none_iff_steps : matchTokens setting tokens segments = .ok none ↔
    steps setting tokens { cursor := .start segments } = .ok none ∨
    (tokens ≠ [] ∧ segments ≠ []) ∧ ∃ ended,
      steps setting tokens { cursor := .start segments } = .ok (some ended) ∧
        ended.result.isValid = false := by
  rw [matchTokens_eq_outlook, ← MatchState.outlook_start,
    ← outlook_steps (Cursor.tidy_start segments)]
  rcases steps setting tokens { cursor := .start segments } with e | _ | ended
  · simp [Except.map]
  · simp [Except.map]
  · have hanswer : ended.outlook.answer (tokens.isEmpty || segments.isEmpty) = none ↔
        (tokens ≠ [] ∧ segments ≠ []) ∧ ended.result.isValid = false := by
      have hsame : (ended.outlook.result.leave ended.outlook.ahead).isValid =
          ended.result.isValid := rfl
      simp [Outlook.answer, hsame, and_assoc]
    simpa [Except.map] using hanswer

theorem matchTokens_eq_none_iff :
    matchTokens setting tokens segments = .ok none ↔ NoMatch setting tokens segments := by
  rw [matchTokens_eq_none_iff_steps, steps_eq_none_iff]
  constructor
  · rintro (⟨token, rest, st, hreaches, htry, hrequired⟩ |
      ⟨⟨htokens, hsegments⟩, ended, hsteps, hinvalid⟩)
    · exact .required hreaches hrequired
        ((tryHere_eq_none_iff (ne_rest_of_required hrequired)).mp htry)
    · have htidy := Cursor.tidy_start segments
      have hall : ∀ token ∈ tokens, ∃ text, token = .literal text true := by
        rcases exists_other_or_all_optionalLiterals tokens with hother | hall
        · have hvalid := isValid_of_steps htidy (Or.inr hother) hsteps
          rw [hvalid] at hinvalid
          cases hinvalid
        · exact hall
      refine .nothingFound htokens hsegments hall ?_
      intro token rest st hreaches
      obtain ⟨text, rfl⟩ := hall token hreaches.mem
      apply (tryHere_eq_none_iff _).mp
      · rcases htry : tryHere setting (.literal text true) rest st with e | _ | taken
        · have hstep : step setting (.literal text true) rest st = .error e := by
            rw [step, htry]
            rfl
          rw [steps_eq_error_iff.mpr ⟨_, rest, st, hreaches, hstep⟩] at hsteps
          cases hsteps
        · rfl
        · have hvalid := isValid_of_tried htidy hreaches htry hsteps
          rw [hvalid] at hinvalid
          cases hinvalid
      · intro name dataType htoken
        cases htoken
  · intro h
    cases h with
    | required hreaches hrequired hmisses =>
        have htry := (tryHere_eq_none_iff (ne_rest_of_required hrequired)).mpr hmisses
        exact Or.inl ⟨_, _, _, hreaches, htry, hrequired⟩
    | nothingFound htokens hsegments hall hmisses =>
        exact Or.inr ⟨⟨htokens, hsegments⟩, _, steps_of_misses hall hmisses, rfl⟩

/-! ## Tokens that match every message -/

/-- A text stands somewhere in a text of the message. -/
def InTexts (segments : List Segment) (part : List Char) : Prop :=
  ∃ s ∈ segments, ∃ text, s.text? = some text ∧ part <:+: text.toList

/-- The matchers answer on all that stands in the texts of the message. -/
def Registry.AnswersOn (registry : Registry) (segments : List Segment) : Prop :=
  ∀ type matcher text, registry.matcher? (some type) = some matcher →
    InTexts segments text.toList → ∃ answer, matcher (.text text) = .ok answer

/-- The types known from the start answer unless there are too many digits in a text. -/
theorem Registry.builtin_answersOn
    (h : ∀ s ∈ segments, ∀ text, s.text? = some text →
      text.toList.countP Char.isDigit ≤ Decimal.maxDigits) :
    Registry.builtin.AnswersOn segments := by
  intro type matcher part hmatcher hpart
  obtain ⟨s, hs, text, htext, hinfix⟩ := hpart
  rw [exists_ok_iff]
  intro fault hfails
  obtain ⟨_, _, digits, hpart, ⟨n, hn, _, hchars, hlength, hlong⟩, _⟩ :=
    (builtin_eq_error_iff hmatcher).mp hfails
  cases hpart
  have hwhole := hn.length_whole_le
  have hcount : part.toList.countP Char.isDigit ≤ text.toList.countP Char.isDigit :=
    hinfix.sublist.countP_le
  have hfew := h s hs text htext
  rw [hchars] at hwhole
  omega

theorem isInfix_portion_reads (shared blob : Bool) (text : List Char) :
    (portion shared blob text).reads <:+: text := by
  have hvalue := Text.isInfix_value_splitFirst text
  unfold portion
  split
  rename_i word tail hsplit
  rw [hsplit] at hvalue
  split
  · exact hvalue
  · split
    · exact hvalue
    · exact List.infix_refl text

/-- What a token leaves is the end of a text. A typed literal may leave more, but no message can go
without one. -/
theorem left_suffix_of_intake {s : Segment} {blob : Bool} {i : Intake}
    (hdispensable : token.isDispensable = true)
    (hintake : intake? setting token rest s blob = .ok (some i)) (hleft : i.left ≠ []) :
    ∃ text, s.text? = some text ∧ i.left <:+ text.toList := by
  cases token with
  | literal text optional =>
      obtain ⟨behind, htext, rfl⟩ := tryLiteral_cases (Except.ok.inj hintake)
      refine ⟨_, htext, ?_⟩
      rw [String.toList_append, String.toList_ofList]
      exact List.suffix_append _ _
  | typedLiteral kind value => cases hdispensable
  | parameter name dataType optional default =>
      rcases tryParameter_cases hintake with ⟨text, v, htext, rfl⟩ | ⟨_, v, rfl⟩
      · refine ⟨text, htext, ?_⟩
        rcases portion_cases _ _ text.toList with ⟨_, hnil⟩ | ⟨raw, _, hjoin⟩
        · exact absurd hnil hleft
        · exact ⟨raw, hjoin⟩
      · exact absurd rfl hleft
  | rest name dataType => cases hintake

/-- All that lies ahead in a run of such tokens stands in the texts of the message. -/
theorem Reaches.inTexts
    (h : Reaches setting tokens { cursor := .start segments } tokens' st)
    (hdispensable : ∀ token ∈ tokens, token.isDispensable = true) :
    ∀ s ∈ st.ahead, ∀ text, s.text? = some text → InTexts segments text.toList := by
  induction h with
  | here =>
      intro s hs text htext
      rw [MatchState.ahead_start] at hs
      exact ⟨s, hs, text, htext, List.infix_refl _⟩
  | @next token rest st₁ st₂ hreaches hstep ih =>
      cases step_cases hstep with
      | @took current i hcurrent hintake =>
          intro s hs text htext
          rw [MatchState.ahead_absorb] at hs
          rcases List.mem_append.mp hs with hpiece | hbehind
          · by_cases hleft : i.left = []
            · rw [pieceOf, hleft] at hpiece
              cases hpiece
            · rw [pieceOf, if_neg (by simpa using hleft)] at hpiece
              obtain rfl := List.mem_singleton.mp hpiece
              obtain rfl := Option.some.inj ((Segment.text?_ofText _).symm.trans htext)
              obtain ⟨whole, hwhole, hsuffix⟩ :=
                left_suffix_of_intake (hdispensable _ hreaches.mem) hintake hleft
              have hahead : current.segment ∈ st₁.ahead :=
                MatchState.ahead_eq_cons hcurrent ▸ List.mem_cons_self
              obtain ⟨given, hgiven, text, htext, hinfix⟩ := ih _ hahead whole hwhole
              rw [String.toList_ofList]
              exact ⟨given, hgiven, text, htext, hsuffix.isInfix.trans hinfix⟩
          · exact ih s (List.mem_of_mem_tail hbehind) text htext
      | @collected name dataType htoken =>
          intro s hs
          refine ih s ?_
          rw [MatchState.ahead, takeRest, Cursor.upcoming_advance, List.map_drop] at hs
          exact List.mem_of_mem_drop hs
      | skipped _ => exact ih

/-- A token that the message can go without fails only if a matcher does. -/
theorem exists_matcher_of_intake_eq_error {s : Segment} {blob : Bool} {e : MatchFault}
    (hdispensable : token.isDispensable = true)
    (h : intake? setting token rest s blob = .error e) :
    ∃ type matcher text part, setting.registry.matcher? (some type) = some matcher ∧
      s.text? = some text ∧ part.toList <:+: text.toList ∧ matcher (.text part) = .error e := by
  cases token with
  | literal text optional => cases h
  | typedLiteral kind value => cases hdispensable
  | parameter name dataType optional default =>
      obtain ⟨text, htext, hread⟩ := tryParameter_eq_error_iff.mp h
      obtain ⟨_, matcher, hmatcher, hfails⟩ := readAs_eq_error_iff.mp hread
      refine ⟨dataType, matcher, text, _, hmatcher, htext, ?_, hfails⟩
      rw [String.toList_ofList]
      exact isInfix_portion_reads _ _ _
  | rest name dataType => cases h

/-- Tokens that the message can go without match every message, if not all of them are
literals. -/
theorem exists_matchTokens_eq_some (hregistry : setting.registry.AnswersOn segments)
    (hdispensable : ∀ token ∈ tokens, token.isDispensable = true)
    (hother : ∃ token ∈ tokens, ∀ text, token ≠ .literal text true) :
    ∃ r, matchTokens setting tokens segments = .ok (some r) := by
  rcases hmatch : matchTokens setting tokens segments with e | _ | r
  · rw [matchTokens_eq_error_iff, steps_eq_error_iff] at hmatch
    obtain ⟨token, rest, st, hreaches, hfails⟩ := hmatch
    obtain ⟨current, hcurrent, hintake⟩ := step_eq_error_iff.mp hfails
    obtain ⟨type, matcher, text, part, hmatcher, htext, hpart, hfails⟩ :=
      exists_matcher_of_intake_eq_error (hdispensable token hreaches.mem) hintake
    have hahead : current.segment ∈ st.ahead :=
      MatchState.ahead_eq_cons hcurrent ▸ List.mem_cons_self
    obtain ⟨given, hgiven, whole, hwhole, hinfix⟩ :=
      hreaches.inTexts hdispensable _ hahead text htext
    obtain ⟨answer, hanswer⟩ :=
      hregistry type matcher part hmatcher ⟨given, hgiven, whole, hwhole, hpart.trans hinfix⟩
    rw [hanswer] at hfails
    cases hfails
  · cases matchTokens_eq_none_iff.mp hmatch with
    | required hreaches hrequired _ =>
        rw [hdispensable _ hreaches.mem] at hrequired
        cases hrequired
    | nothingFound _ _ hall _ =>
        obtain ⟨token, hmem, hno⟩ := hother
        obtain ⟨text, htoken⟩ := hall token hmem
        exact absurd htoken (hno text)
  · exact ⟨r, rfl⟩

/-- A message is not matched exactly for one of the two reasons. So tokens that it can go
without match every message, if not all of them are literals; and no run in which a token took
something is turned down at its end. -/
theorem matchMessage_eq_none_iff {source : PatternSource} {message : Value} {items : List Value}
    {raw : Option RawRules} {rules : Rules} (registry : Registry)
    (hsource : source.resolve = .ok tokens) (hitems : message.items? = some items)
    (hsegments : readMessage items = .ok segments) (hrules : Rules.resolve raw = .ok rules) :
    (matchMessage source message raw registry = .ok none ↔
      NoMatch ⟨rules, registry⟩ tokens segments) ∧
    (registry.AnswersOn segments → (∀ token ∈ tokens, token.isDispensable = true) →
      (∃ token ∈ tokens, ∀ text, token ≠ .literal text true) →
        ∃ r, matchMessage source message raw registry = .ok (some r)) ∧
    (∀ token rest st taken ended,
      Reaches ⟨rules, registry⟩ tokens { cursor := .start segments } (token :: rest) st →
      tryHere ⟨rules, registry⟩ token rest st = .ok (some taken) →
      steps ⟨rules, registry⟩ tokens { cursor := .start segments } = .ok (some ended) →
        ∃ r, ended.finish = some r) := by
  have hmatch := matchMessage_of_read registry hsource hitems hsegments hrules
  rw [hmatch]
  refine ⟨?_, ?_, ?_⟩
  · rw [mapError_eq_ok_iff]
    exact matchTokens_eq_none_iff
  · intro hregistry hdispensable hother
    obtain ⟨r, hr⟩ : ∃ r, matchTokens ⟨rules, registry⟩ tokens segments = .ok (some r) :=
      exists_matchTokens_eq_some hregistry hdispensable hother
    exact ⟨r, mapError_eq_ok_iff.mpr hr⟩
  · intro token rest st taken ended hreaches htry hsteps
    have hvalid := isValid_of_tried (Cursor.tidy_start segments) hreaches htry hsteps
    exact ⟨_, finish_eq_some_iff.mpr ⟨rfl, hvalid⟩⟩

/-- An `a` is needed where a `b` stands; a space that may be missing is not found, and nothing
else was asked for; a number that may be missing is enough in front of a `b`; and a `b` that
may be missing is found. -/
theorem matchMessage_eq_none_iff_b :
    matchMessage (.tokens [.literal "a" false])
        (.list [.segment "text" [("text", .text "b")]]) none .builtin = .ok none ∧
    matchMessage (.tokens [.literal " " true])
        (.list [.segment "text" [("text", .text "b")]]) none .builtin = .ok none ∧
    (∃ r, matchMessage (.tokens [.parameter "n" "integer" true none, .literal "!" true])
        (.list [.segment "text" [("text", .text "b")]]) none .builtin = .ok (some r)) ∧
    ∃ ended, steps ⟨.defaults, .builtin⟩ [.literal "b" true]
        { cursor := .start [.ofText "b"] } = .ok (some ended) ∧ ∃ r, ended.finish = some r := by
  have htext : readMessage [.segment "text" [("text", .text "b")]] = .ok [.ofText "b"] := rfl
  have hrules : Rules.resolve none = .ok .defaults := rfl
  have hsource : ∀ tokens, (PatternSource.tokens tokens).resolve = .ok tokens := fun _ => rfl
  have hitems : ∀ items, (Value.list items).items? = some items := fun _ => rfl
  refine ⟨?_, ?_, ?_, ?_⟩
  · apply (matchMessage_eq_none_iff _ (hsource _) (hitems _) htext hrules).1.mpr
    exact .required .here rfl (.onSegment rfl rfl)
  · apply (matchMessage_eq_none_iff _ (hsource _) (hitems _) htext hrules).1.mpr
    refine .nothingFound (List.cons_ne_nil _ _) (List.cons_ne_nil _ _) ?_ ?_
    · intro token hmem
      exact ⟨" ", List.mem_singleton.mp hmem⟩
    · intro token rest st hreaches
      cases hreaches with
      | here => exact .onSegment rfl rfl
      | next hbefore _ => exact absurd hbefore.suffix.length_le (by simp)
  · apply (matchMessage_eq_none_iff _ (hsource _) (hitems _) htext hrules).2.1
    · refine Registry.builtin_answersOn (List.forall_mem_singleton.mpr fun text hb => ?_)
      rw [Segment.text?_ofText] at hb
      obtain rfl := Option.some.inj hb
      decide
    · intro token hmem
      simp only [List.mem_cons, List.not_mem_nil, or_false] at hmem
      rcases hmem with rfl | rfl <;> rfl
    · exact ⟨_, List.mem_cons_self, fun text htoken => by cases htoken⟩
  · have hcounts := (matchMessage_eq_none_iff .builtin (hsource [.literal "b" true]) (hitems _)
      htext hrules).2.2
    exact ⟨_, rfl, hcounts _ _ _ _ _ .here rfl rfl⟩

end MessagePattern
