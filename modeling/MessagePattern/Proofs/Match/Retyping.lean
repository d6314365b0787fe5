import MessagePattern.Proofs.Match.Agreement
import MessagePattern.Proofs.Match.Lockstep

/-!
# Text parameters by way of a matcher

Text parameters ask no matcher and have a path of their own through a match. Here they are given
another type, whose matcher takes every text as it is (`Token.Retyped`). Such a parameter is
tried as one of a typed text, and on other segments as one of a kind; as long as no segment is of
that kind, it takes what the text parameter takes (`tryParameter_of_takesText`), and texts are
shared by the same tokens. So the tokens go in step (`goInStep_retyped`). What is left is the
empty text: a text parameter without a default that finds nothing holds it, and one of another
type holds nothing. Those parameters are told by where the run comes to them (`Lapses`).
-/

namespace MessagePattern

/-- A type other than plain text whose matcher takes every text as it is. -/
structure Registry.TakesText (registry : Registry) (type : String) : Prop where
  ne_text : type ≠ textKind
  matcher_eq : registry.matcher? (some type) = some Matcher.text

/-- Of two tokens, the second is the first, which is none of the type, or the first is a text
parameter that the second gives the type. -/
inductive Token.Retyped (type : String) : Token → Token → Prop
  | same {token : Token} (hfresh : token.matcherType? ≠ some type) : Retyped type token token
  | retyped (name : String) (optional : Bool) (default : Option Value) :
      Retyped type (.parameter name textKind optional default)
        (.parameter name type optional default)

/-- A state in which no segment ahead is of the kind. -/
def MatchState.Without (kind : String) (st : MatchState) : Prop :=
  ∀ s ∈ st.ahead, s.kind ≠ kind

/-- The token is an optional parameter of the type that has no default and takes nothing. -/
def LapsesAt (setting : Setting) (type name : String) (token : Token) (rest : List Token)
    (st : MatchState) : Prop :=
  token = .parameter name type true none ∧ tryHere setting token rest st = .ok none

/-- Of the tokens of a name, the last is an optional parameter of the type that has no default,
and where the run comes to it, it takes nothing. -/
def Lapses (setting : Setting) (type : String) (tokens : List Token) (segments : List Segment)
    (name : String) : Prop :=
  ∃ front token behind st, tokens = front ++ token :: behind ∧
    (∀ other ∈ behind, other.name? ≠ some name) ∧
    Reaches setting tokens { cursor := .start segments } (token :: behind) st ∧
    LapsesAt setting type name token behind st

/-- Results that differ in nothing but the values of some parameters, for which the one holds the
empty text and the other nothing. -/
structure MatchResult.SameButLapsed (lapsed : String → Prop) (r r' : MatchResult) : Prop where
  matched_eq : r'.matched = r.matched
  remaining_eq : r'.remaining = r.remaining
  keys_nodup : r.params.keys.Nodup
  keys_eq : r'.params.keys = r.params.keys
  get?_eq : ∀ name, ¬ lapsed name → r'.params.get? name = r.params.get? name
  get?_lapsed : ∀ name, lapsed name →
    r.params.get? name = some (.text "") ∧ r'.params.get? name = some .null

/-- Two answers that are alike: the same failure, twice no match, or results that differ in
nothing but lapsed parameters. -/
inductive AnswersAlike {ε : Type} (lapsed : String → Prop) :
    Except ε (Option MatchResult) → Except ε (Option MatchResult) → Prop
  | failed (e : ε) : AnswersAlike lapsed (.error e) (.error e)
  | unmatched : AnswersAlike lapsed (.ok none) (.ok none)
  | matched {r r' : MatchResult} (h : r.SameButLapsed lapsed r') :
      AnswersAlike lapsed (.ok (some r)) (.ok (some r'))

variable {setting : Setting} {type name : String} {token token' : Token}
  {rest rest' tokens tokens' : List Token} {st st' st₁ st₁' ended ended' : MatchState}
  {segments : List Segment}

/-! ## What a parameter of the type takes -/

section TakesText

variable {registry : Registry}

theorem Registry.TakesText.isSpecial (h : registry.TakesText type) :
    registry.isSpecial (some type) = true := by
  have hmatcher : registry.matchers.get? type = some Matcher.text := h.matcher_eq
  simp [Registry.isSpecial, Table.has, h.ne_text, hmatcher]

theorem Registry.TakesText.readAs_eq (h : registry.TakesText type) (text : String) :
    readAs registry type text = readAs registry textKind text := by
  rw [readAs, readAs, if_neg h.ne_text, if_pos rfl, h.matcher_eq]
  rfl

/-- A registry takes text for a type under which the matcher of plain text is registered. -/
theorem takesText_of_register {registry' : Registry} (hne : type ≠ textKind)
    (h : registry.register type (some Matcher.text) = .ok registry') :
    registry'.TakesText type where
  ne_text := hne
  matcher_eq := by
    cases h
    exact (Table.get?_set _ _ _ _).trans (if_pos rfl)

/-- Texts are shared by the same tokens, for the retyped parameters are still filled from text. -/
theorem optionalsSharing_of_retyped (h : registry.TakesText type)
    (hretyped : List.Forall₂ (Token.Retyped type) tokens tokens') :
    optionalsSharing registry tokens' = optionalsSharing registry tokens := by
  induction hretyped with
  | nil => rfl
  | @cons token token' rest rest' htoken _ ih =>
      cases htoken with
      | same _ =>
          cases token with
          | literal text optional =>
              cases optional with
              | true => exact ih
              | false => rfl
          | typedLiteral kind value => rfl
          | parameter name dataType optional default => rw [optionalsSharing, optionalsSharing, ih]
          | rest name dataType => rfl
      | retyped name optional default =>
          have hfills : fillsFromText registry type = fillsFromText registry textKind := by
            simp [fillsFromText, h.isSpecial]
          rw [optionalsSharing, optionalsSharing, hfills, ih]

end TakesText

/-- A parameter of the type takes what a text parameter takes. Of a segment that is no text,
neither takes anything. -/
theorem tryParameter_of_takesText (h : setting.registry.TakesText type) {shared blob : Bool}
    {s : Segment} (hkind : s.kind ≠ type) :
    tryParameter setting name type shared s blob =
      tryParameter setting name textKind shared s blob := by
  have hplain : tryParameter setting name textKind shared s blob =
      tryTextParameter setting name textKind shared s blob := by
    rw [tryParameter, decide_eq_true rfl, Bool.true_or, if_pos rfl]
  rw [hplain, tryParameter, decide_eq_false h.ne_text, h.isSpecial, Bool.false_or, Bool.and_true]
  cases htext : s.isText with
  | true => simp only [if_true, tryTextParameter, h.readAs_eq]
  | false =>
      have hnone : s.text? = none := by
        rw [Segment.text?, htext]
        rfl
      rw [if_neg Bool.false_ne_true, tryKindParameter, if_pos hkind, tryTextParameter, hnone]

theorem intake?_of_retyped (h : setting.registry.TakesText type)
    (htoken : Token.Retyped type token token')
    (hrest : List.Forall₂ (Token.Retyped type) rest rest') {s : Segment} (hkind : s.kind ≠ type)
    (blob : Bool) : intake? setting token' rest' s blob = intake? setting token rest s blob := by
  have hshared := optionalsSharing_of_retyped h (.cons htoken hrest)
  cases htoken with
  | same _ =>
      cases token with
      | literal text optional => rfl
      | typedLiteral kind value => rfl
      | parameter name dataType optional default => rw [intake?, intake?, hshared]
      | rest name dataType => rfl
  | retyped name optional default =>
      rw [intake?, intake?, hshared]
      exact tryParameter_of_takesText h hkind

/-! ## Retyped parameters go in step -/

theorem Token.Retyped.name?_eq (h : Token.Retyped type token token') :
    token'.name? = token.name? := by
  cases h <;> rfl

theorem names_of_retyped (h : List.Forall₂ (Token.Retyped type) tokens tokens') :
    tokens'.filterMap Token.name? = tokens.filterMap Token.name? := by
  induction h with
  | nil => rfl
  | cons htoken _ ih => rw [List.filterMap_cons, List.filterMap_cons, htoken.name?_eq, ih]

theorem matcherType?_ne_of_retyped (h : List.Forall₂ (Token.Retyped type) tokens tokens') :
    ∀ token ∈ tokens, token.matcherType? ≠ some type := by
  induction h with
  | nil => exact fun token hmem => nomatch hmem
  | @cons token token' rest rest' htoken _ ih =>
      refine List.forall_mem_cons.mpr ⟨?_, ih⟩
      cases htoken with
      | same hfresh => exact hfresh
      | retyped name optional default => exact fun hmatcher => nomatch hmatcher

theorem Token.Retyped.counterpart (h : Token.Retyped type token token') :
    token.Counterpart token' where
  isSome_name? := by rw [h.name?_eq]
  isDispensable_eq := by cases h <;> rfl
  runType?_eq := by cases h <;> rfl

theorem tryHere_of_retyped (h : setting.registry.TakesText type)
    (htoken : Token.Retyped type token token')
    (hrest : List.Forall₂ (Token.Retyped type) rest rest') (hwithout : st.Without type)
    (hsame : st.SameButParams st') :
    TriedAlike setting token token' st st' (tryHere setting token rest st)
      (tryHere setting token' rest' st') := by
  apply triedAlike_of_intake htoken.counterpart hsame
  intro current hcurrent
  have hkind : current.segment.kind ≠ type := by
    apply hwithout
    rw [MatchState.ahead_eq_cons hcurrent]
    exact List.mem_cons_self
  rw [intake?_of_retyped h htoken hrest hkind, map_notedFor_intake htoken.name?_eq]

/-- What a step leaves of a segment is text, so no segment of the kind comes up. -/
theorem MatchState.Without.of_stepped (hne : type ≠ textKind) (h : st.Without type)
    (hstep : Stepped setting token rest st st₁) : st₁.Without type := by
  intro s hs
  rcases mem_ahead_of_stepped hstep hs with hahead | htext
  · exact h s hahead
  · rw [htext]
    exact Ne.symm hne

theorem goInStep_retyped (h : setting.registry.TakesText type) :
    GoInStep setting (Token.Retyped type) (MatchState.Without type) where
  counterpart := Token.Retyped.counterpart
  tried htoken hrest hwithout hsame := tryHere_of_retyped h htoken hrest hwithout hsame
  keeps hwithout hstep := hwithout.of_stepped h.ne_text hstep

/-! ## The values of retyped parameters -/

/-- Where both are skipped, the tokens leave the same value, unless the second is a parameter of
the type that has no default. -/
theorem values_of_skip_retyped {r r' result result' : MatchResult} (hne : type ≠ textKind)
    (htoken : Token.Retyped type token token') (hname : token'.name? = some name)
    (hskip : r.skip token = some result) (hskip' : r'.skip token' = some result') :
    ∃ v v', result.params = Table.set r.params name v ∧
      result'.params = Table.set r'.params name v' ∧
      (v' = v ∧ token' ≠ .parameter name type true none ∨
        token' = .parameter name type true none ∧ v = .text "" ∧ v' = .null) := by
  cases htoken with
  | same hfresh =>
      have hother : token ≠ .parameter name type true none := by
        rintro rfl
        exact hfresh (nonText_of_ne hne)
      cases token with
      | literal text optional => cases hname
      | typedLiteral kind value => cases hname
      | parameter _ dataType optional default =>
          cases hname
          cases optional with
          | false => cases hskip
          | true =>
              cases hskip
              cases hskip'
              exact ⟨_, _, rfl, rfl, Or.inl ⟨rfl, hother⟩⟩
      | rest _ dataType =>
          cases hname
          cases hskip
          cases hskip'
          exact ⟨_, _, rfl, rfl, Or.inl ⟨rfl, hother⟩⟩
  | retyped _ optional default =>
      cases hname
      cases optional with
      | false => cases hskip
      | true =>
          cases hskip
          cases hskip'
          cases default with
          | some v => exact ⟨_, _, rfl, rfl, Or.inl ⟨rfl, fun h => nomatch h⟩⟩
          | none => exact ⟨_, _, rfl, rfl, Or.inr ⟨rfl, rfl, if_neg hne⟩⟩

/-- The steps of a parameter set the same value, unless the second lapses. -/
theorem values_of_step_retyped (h : setting.registry.TakesText type)
    (htoken : Token.Retyped type token token')
    (hrest : List.Forall₂ (Token.Retyped type) rest rest') (hwithout : st.Without type)
    (hsame : st.SameButParams st') (hname' : token'.name? = some name)
    (hstep : step setting token rest st = .ok (some st₁))
    (hstep' : step setting token' rest' st' = .ok (some st₁')) :
    ∃ v v', st₁.result.params = Table.set st.result.params name v ∧
      st₁'.result.params = Table.set st'.result.params name v' ∧
      (v' = v ∧ ¬ LapsesAt setting type name token' rest' st' ∨
        LapsesAt setting type name token' rest' st' ∧ v = .text "" ∧ v' = .null) := by
  have hname : token.name? = some name := htoken.name?_eq.symm.trans hname'
  rcases (goInStep_retyped h).values_of_step htoken hrest hwithout hsame hname hname' hstep
    hstep' with ⟨htook, v, hparams, hparams'⟩ | ⟨_, hnone', hskip, hskip'⟩
  · exact ⟨v, v, hparams, hparams', Or.inl ⟨rfl, fun hlapses => htook hlapses.2⟩⟩
  · obtain ⟨v, v', hparams, hparams', ⟨hvalue, hother⟩ | ⟨htype, hvalues⟩⟩ :=
      values_of_skip_retyped h.ne_text htoken hname' hskip hskip'
    · exact ⟨v, v', hparams, hparams', Or.inl ⟨hvalue, fun hlapses => hother hlapses.1⟩⟩
    · exact ⟨v, v', hparams, hparams', Or.inr ⟨⟨htype, hnone'⟩, hvalues⟩⟩

/-- Runs that get through leave a parameter the same value, unless the last token of its name
lapses in the second. -/
theorem values_of_steps_retyped (h : setting.registry.TakesText type) {front' behind' : List Token}
    (hretyped : List.Forall₂ (Token.Retyped type) tokens (front' ++ token' :: behind'))
    (hwithout : st.Without type) (hsame : st.SameButParams st')
    (hname' : token'.name? = some name) (hlast' : ∀ other ∈ behind', other.name? ≠ some name)
    (hsteps : steps setting tokens st = .ok (some ended))
    (hsteps' : steps setting (front' ++ token' :: behind') st' = .ok (some ended')) :
    ∃ st₁' v v', Reaches setting (front' ++ token' :: behind') st' (token' :: behind') st₁' ∧
      ended.result.params.get? name = some v ∧ ended'.result.params.get? name = some v' ∧
      (v' = v ∧ ¬ LapsesAt setting type name token' behind' st₁' ∨
        LapsesAt setting type name token' behind' st₁' ∧ v = .text "" ∧ v' = .null) := by
  obtain ⟨front, token, behind, hlength, rfl⟩ : ∃ front token behind,
      front.length = front'.length ∧ tokens = front ++ token :: behind := by
    obtain ⟨token, behind, _, _, hdrop⟩ :=
      List.forall₂_cons_right_iff.mp (List.forall₂_drop_append _ _ _ hretyped)
    refine ⟨tokens.take front'.length, token, behind, ?_, ?_⟩
    · exact (List.forall₂_take_append _ _ _ hretyped).length_eq
    · rw [← hdrop, List.take_append_drop]
  obtain ⟨st₁, hreaches, hsteps⟩ := exists_reaches_of_append hsteps
  obtain ⟨hwithout₁, st₁', hreaches', ⟨htoken, hbehind⟩, hsame₁⟩ :=
    (goInStep_retyped h).reaches_alike_split hretyped hlength hwithout hsame hreaches
  rw [hreaches'.steps_eq] at hsteps'
  obtain ⟨st₂, hstep, hsteps⟩ := exists_step_of_steps hsteps
  obtain ⟨st₂', hstep', hsteps'⟩ := exists_step_of_steps hsteps'
  obtain ⟨v, v', hparams, hparams', hvalues⟩ :=
    values_of_step_retyped h htoken hbehind hwithout₁ hsame₁ hname' hstep hstep'
  have hlast : ∀ other ∈ behind, other.name? ≠ some name := by
    intro other hmem hother
    have hdeclared : name ∈ behind.filterMap Token.name? :=
      List.mem_filterMap.mpr ⟨other, hmem, hother⟩
    rw [← names_of_retyped hbehind] at hdeclared
    obtain ⟨other', hmem', hother'⟩ := List.mem_filterMap.mp hdeclared
    exact hlast' other' hmem' hother'
  refine ⟨st₁', v, v', hreaches', ?_, ?_, hvalues⟩
  · rw [get?_params_of_steps hlast hsteps, hparams, Table.get?_set, if_pos rfl]
  · rw [get?_params_of_steps hlast' hsteps', hparams', Table.get?_set, if_pos rfl]

section Segments

variable (h : setting.registry.TakesText type)
  (hretyped : List.Forall₂ (Token.Retyped type) tokens tokens')
  (hkinds : ∀ s ∈ segments, s.kind ≠ type)
  (hsteps : steps setting tokens { cursor := .start segments } = .ok (some ended))
  (hsteps' : steps setting tokens' { cursor := .start segments } = .ok (some ended'))

include hkinds in
theorem without_start : MatchState.Without type { cursor := .start segments } := by
  intro s hs
  rw [MatchState.ahead_start] at hs
  exact hkinds s hs

include h hretyped hkinds hsteps hsteps'

theorem get?_eq_of_not_lapses (hkept : ¬ Lapses setting type tokens' segments name) :
    ended'.result.params.get? name = ended.result.params.get? name := by
  by_cases hdeclared : name ∈ tokens'.filterMap Token.name?
  · obtain ⟨front', token', behind', rfl, hname', hlast'⟩ := exists_last_of_name hdeclared
    obtain ⟨st₁', v, v', hreaches', hv, hv', ⟨rfl, _⟩ | ⟨hlapses, _⟩⟩ :=
      values_of_steps_retyped h hretyped (without_start hkinds) .start hname' hlast' hsteps hsteps'
    · rw [hv, hv']
    · exact absurd ⟨front', token', behind', st₁', rfl, hlast', hreaches', hlapses⟩ hkept
  · -- Neither run sets a parameter that no token declares.
    have hothers : ∀ tokens : List Token, name ∉ tokens.filterMap Token.name? →
        ∀ token ∈ tokens, token.name? ≠ some name :=
      fun tokens hnot token hmem hname => hnot (List.mem_filterMap.mpr ⟨token, hmem, hname⟩)
    rw [get?_params_of_steps (hothers tokens' hdeclared) hsteps']
    rw [names_of_retyped hretyped] at hdeclared
    rw [get?_params_of_steps (hothers tokens hdeclared) hsteps]

theorem get?_of_lapses (hlapses : Lapses setting type tokens' segments name) :
    ended.result.params.get? name = some (.text "") ∧
      ended'.result.params.get? name = some .null := by
  obtain ⟨front', token', behind', st', rfl, hlast', hreaches', hlapses⟩ := hlapses
  have hname' : token'.name? = some name := by
    rw [hlapses.1]
    rfl
  obtain ⟨st₁', v, v', hreaches, hv, hv', ⟨_, hkept⟩ | ⟨_, rfl, rfl⟩⟩ :=
    values_of_steps_retyped h hretyped (without_start hkinds) .start hname' hlast' hsteps hsteps'
  · rw [hreaches'.state_unique hreaches] at hkept
    exact absurd hlapses hkept
  · exact ⟨hv, hv'⟩

end Segments

/-! ## Matches with retyped parameters -/

theorem matchTokens_of_retyped (h : setting.registry.TakesText type)
    (hretyped : List.Forall₂ (Token.Retyped type) tokens tokens')
    (hkinds : ∀ s ∈ segments, s.kind ≠ type) :
    AnswersAlike (Lapses setting type tokens' segments) (matchTokens setting tokens segments)
      (matchTokens setting tokens' segments) := by
  have hparts := (goInStep_retyped h).matchTokens_parts hretyped (without_start hkinds)
  rcases hmatch : matchTokens setting tokens segments with e | _ | r <;> rw [hmatch] at hparts
  · rw [map_eq_error_iff.mp hparts]
    exact .failed e
  · obtain ⟨answer', hmatch', hnone⟩ := map_eq_ok_iff.mp hparts
    rw [hmatch', Option.map_eq_none_iff.mp hnone]
    exact .unmatched
  · obtain ⟨answer', hmatch', hsome⟩ := map_eq_ok_iff.mp hparts
    obtain ⟨r', rfl, hparts⟩ := Option.map_eq_some_iff.mp hsome
    rw [hmatch']
    obtain ⟨ended, hsteps, rfl⟩ := exists_steps_of_matchTokens hmatch
    obtain ⟨ended', hsteps', rfl⟩ := exists_steps_of_matchTokens hmatch'
    have hkeys : ended'.result.params.keys = ended.result.params.keys := by
      rw [(keys_of_steps hsteps').2, (keys_of_steps hsteps).2, names_of_retyped hretyped]
    exact .matched
      { matched_eq := congrArg Prod.fst hparts
        remaining_eq := congrArg Prod.snd hparts
        keys_nodup := (keys_of_steps hsteps).1
        keys_eq := hkeys
        get?_eq := fun _ => get?_eq_of_not_lapses h hretyped hkinds hsteps hsteps'
        get?_lapsed := fun _ => get?_of_lapses h hretyped hkinds hsteps hsteps' }

theorem AnswersAlike.mapError {ε ε' : Type} {lapsed : String → Prop}
    {answer answer' : Except ε (Option MatchResult)} (h : AnswersAlike lapsed answer answer')
    (f : ε → ε') : AnswersAlike lapsed (answer.mapError f) (answer'.mapError f) := by
  cases h with
  | failed e => exact .failed (f e)
  | unmatched => exact .unmatched
  | matched h => exact .matched h

/-- A matcher is not asked for a type that no token names. -/
theorem agreeOn_of_register {rules : Rules} {registry registry' : Registry} {offer : Option Matcher}
    (hregister : registry.register type offer = .ok registry')
    (hother : token.matcherType? ≠ some type) :
    Setting.AgreeOn ⟨rules, registry'⟩ ⟨rules, registry⟩ token where
  rule _ _ := rfl
  matcher other hasked := by
    have hne : type ≠ other := by
      rintro rfl
      exact hother hasked
    cases offer with
    | none => cases hregister
    | some matcher =>
        cases hregister
        exact (Table.get?_set _ _ _ _).trans (if_neg hne)

/-- Give some of the text parameters of a pattern a type that it does not name, and register the
matcher of plain text for that type. Then a message that has no segment of the kind is answered as
before: both fail alike, or neither matches, or both take and leave the same segments and hold the
same values in the same order. Only an optional parameter that lost plain text and has no default
holds nothing in place of the empty text, where it is the last of its name and takes nothing. -/
theorem matchMessage_of_retyped {message : Value} {items : List Value} {raw : Option RawRules}
    {rules : Rules} {registry registry' : Registry} (hne : type ≠ textKind)
    (hregister : registry.register type (some Matcher.text) = .ok registry')
    (hretyped : List.Forall₂ (Token.Retyped type) tokens tokens')
    (hitems : message.items? = some items) (hsegments : readMessage items = .ok segments)
    (hkinds : ∀ s ∈ segments, s.kind ≠ type) (hrules : Rules.resolve raw = .ok rules) :
    AnswersAlike (Lapses ⟨rules, registry'⟩ type tokens' segments)
      (matchMessage (.tokens tokens) message raw registry)
      (matchMessage (.tokens tokens') message raw registry') := by
  have hagree : ∀ token ∈ tokens, Setting.AgreeOn ⟨rules, registry'⟩ ⟨rules, registry⟩ token := by
    intro token hmem
    exact agreeOn_of_register hregister (matcherType?_ne_of_retyped hretyped token hmem)
  rw [matchMessage_of_read registry rfl hitems hsegments hrules,
    matchMessage_of_read registry' rfl hitems hsegments hrules, ← matchTokens_of_agree hagree]
  exact (matchTokens_of_retyped (takesText_of_register hne hregister) hretyped hkinds).mapError _

/-- The first parameter takes the word, of whichever type it is; the other is at the end of the
message and holds nothing once it is a word. -/
theorem matchMessage_of_retyped_word :
    @AnswersAlike Refusal
        (Lapses ⟨.defaults, ⟨Table.set Registry.builtin.matchers "word" Matcher.text⟩⟩ "word"
          [.parameter "who" "word" true none, .parameter "more" "word" true none] [.ofText "ann"])
        (.ok (some
          { matched := [.ofText "ann"], params := [("who", .text "ann"), ("more", .text "")] }))
        (.ok (some
          { matched := [.ofText "ann"], params := [("who", .text "ann"), ("more", .null)] })) ∧
      Lapses ⟨.defaults, ⟨Table.set Registry.builtin.matchers "word" Matcher.text⟩⟩ "word"
        [.parameter "who" "word" true none, .parameter "more" "word" true none] [.ofText "ann"]
        "more" := by
  have hretyped : List.Forall₂ (Token.Retyped "word")
      [.parameter "who" "text" true none, .parameter "more" "text" true none]
      [.parameter "who" "word" true none, .parameter "more" "word" true none] :=
    .cons (.retyped _ _ _) (.cons (.retyped _ _ _) .nil)
  have hitems : ∀ items, (Value.list items).items? = some items := fun _ => rfl
  have hsegments : readMessage [.segment "text" [("text", .text "ann")]] = .ok [.ofText "ann"] := rfl
  have hkinds : ∀ s ∈ [Segment.ofText "ann"], s.kind ≠ "word" := by decide
  have hregister : Registry.builtin.register "word" (some Matcher.text) =
      .ok ⟨Table.set Registry.builtin.matchers "word" Matcher.text⟩ := rfl
  have hrules : Rules.resolve none = .ok .defaults := rfl
  have halike := matchMessage_of_retyped (by decide) hregister hretyped (hitems _) hsegments
    hkinds hrules
  refine ⟨halike, ?_⟩
  cases halike with
  | matched h =>
      by_contra hkept
      cases h.get?_eq "more" hkept

end MessagePattern
