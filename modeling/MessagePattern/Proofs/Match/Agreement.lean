import MessagePattern.Proofs.Match.Step

/-!
# What a match asks of its setting

A pattern names the kinds whose rules it needs and the types whose matchers it needs, and a
match asks for no others. A typed literal needs the rule of its kind. A parameter may need
both: a matcher for texts, and a rule for other segments of its kind. A rest parameter needs
the rule of its kind. Plain text is read without a rule and taken without a matcher. So two
settings that agree on what the tokens name (`Setting.AgreeOn`) answer every message alike, and
nothing that is set up for other patterns shows in a result.
-/

namespace MessagePattern

/-! ## What tokens name -/

/-- A data type, unless it is plain text. -/
def nonText (dataType : String) : Option String :=
  if dataType = textKind then none else some dataType

/-- The kind whose rule a token may ask for. -/
def Token.ruleKind? : Token → Option String
  | .literal _ _ => none
  | .typedLiteral kind _ => some kind
  | .parameter _ dataType _ _ => nonText dataType
  | .rest _ dataType => dataType.bind nonText

/-- The type whose matcher a token may ask for. -/
def Token.matcherType? : Token → Option String
  | .parameter _ dataType _ _ => nonText dataType
  | _ => none

/-- Two settings have the same rule and the same matcher for a token, or both have none, as far as
the token asks for any. -/
structure Setting.AgreeOn (a b : Setting) (token : Token) : Prop where
  rule : ∀ kind, token.ruleKind? = some kind → a.rules.get? kind = b.rules.get? kind
  matcher : ∀ type, token.matcherType? = some type →
    a.registry.matcher? (some type) = b.registry.matcher? (some type)

theorem nonText_of_ne {dataType : String} (h : dataType ≠ textKind) :
    nonText dataType = some dataType :=
  if_neg h

/-- Whether a type is special hangs on its matcher; plain text never is. -/
theorem isSpecial_of_matcher?_eq {r r' : Registry} {type : String}
    (h : type ≠ textKind → r.matcher? (some type) = r'.matcher? (some type)) :
    r.isSpecial (some type) = r'.isSpecial (some type) := by
  by_cases htext : type = textKind
  · simp [Registry.isSpecial, htext]
  · have hmatcher : r.matchers.get? type = r'.matchers.get? type := h htext
    simp only [Registry.isSpecial, Table.has, hmatcher]

/-! ## What tokens do under settings that agree -/

section Agree

variable {a b : Setting} {token : Token} {rest tokens : List Token} {s : Segment} {blob : Bool}

theorem Setting.AgreeOn.matcher?_eq {name dataType : String} {optional : Bool}
    {default : Option Value} (h : a.AgreeOn b (.parameter name dataType optional default))
    (htext : dataType ≠ textKind) :
    a.registry.matcher? (some dataType) = b.registry.matcher? (some dataType) :=
  h.matcher dataType (nonText_of_ne htext)

/-- The tokens that share a text are the same, for this hangs on the presence of matchers. -/
theorem optionalsSharing_of_agree (h : ∀ token ∈ tokens, a.AgreeOn b token) :
    optionalsSharing a.registry tokens = optionalsSharing b.registry tokens := by
  induction tokens with
  | nil => rfl
  | cons token rest ih =>
      have hrest := ih fun token hmem => h token (List.mem_cons_of_mem _ hmem)
      cases token with
      | literal text optional =>
          cases optional with
          | true => exact hrest
          | false => rfl
      | typedLiteral kind value => rfl
      | parameter name dataType optional default =>
          have hspecial := isSpecial_of_matcher?_eq (h _ List.mem_cons_self).matcher?_eq
          have hfills : fillsFromText a.registry dataType = fillsFromText b.registry dataType := by
            rw [fillsFromText, fillsFromText, hspecial]
          rw [optionalsSharing, optionalsSharing, hfills, hrest]
      | rest name dataType => rfl

theorem tryTypedLiteral_of_agree {kind value : String}
    (h : a.AgreeOn b (.typedLiteral kind value)) :
    tryTypedLiteral a kind value s blob = tryTypedLiteral b kind value s blob := by
  have hrule : a.rules.get? kind = b.rules.get? kind := h.rule kind rfl
  simp only [tryTypedLiteral, hrule]

theorem readAs_of_agree {name dataType text : String} {optional : Bool} {default : Option Value}
    (h : a.AgreeOn b (.parameter name dataType optional default)) :
    readAs a.registry dataType text = readAs b.registry dataType text := by
  unfold readAs
  by_cases htext : dataType = textKind
  · rw [if_pos htext, if_pos htext]
  · rw [if_neg htext, if_neg htext, h.matcher?_eq htext]

/-- A parameter is read off the same segments. Where a special type meets a segment that is no
text, the rule for its kind counts and not its matcher. -/
theorem tryParameter_of_agree {name dataType : String} {optional shared : Bool}
    {default : Option Value} (h : a.AgreeOn b (.parameter name dataType optional default)) :
    tryParameter a name dataType shared s blob = tryParameter b name dataType shared s blob := by
  have hspecial := isSpecial_of_matcher?_eq h.matcher?_eq
  have hread : ∀ text, readAs a.registry dataType text = readAs b.registry dataType text :=
    fun _ => readAs_of_agree h
  unfold tryParameter
  rw [hspecial]
  split
  · simp only [tryTextParameter, hread]
  · rename_i hkind
    have htext : dataType ≠ textKind := by
      intro htext
      simp [htext] at hkind
    have hrule : a.rules.get? dataType = b.rules.get? dataType :=
      h.rule dataType (nonText_of_ne htext)
    simp only [tryKindParameter, hrule]

theorem intake?_of_agree (h : ∀ token' ∈ token :: rest, a.AgreeOn b token') :
    intake? a token rest s blob = intake? b token rest s blob := by
  have htoken : a.AgreeOn b token := h token List.mem_cons_self
  cases token with
  | literal text optional => rfl
  | typedLiteral kind value => exact tryTypedLiteral_of_agree htoken
  | parameter name dataType optional default =>
      rw [intake?, intake?, optionalsSharing_of_agree h]
      exact tryParameter_of_agree htoken
  | rest name dataType => rfl

theorem restRun_of_agree {name : String} {dataType : Option String}
    (h : a.AgreeOn b (.rest name dataType)) (segments : List Segment) :
    restRun a dataType segments = restRun b dataType segments := by
  have hpart : ∀ s, restPart a dataType s = restPart b dataType s := by
    intro s
    cases dataType with
    | none => rfl
    | some kind =>
        have hcollected : collected a kind s = collected b kind s := by
          unfold collected
          by_cases htext : kind = textKind
          · rw [if_pos htext, if_pos htext]
          · rw [if_neg htext, if_neg htext, h.rule kind (nonText_of_ne htext)]
        simp only [restPart, hcollected]
  induction segments with
  | nil => rfl
  | cons s more ih => simp only [restRun, hpart, ih]

theorem tryHere_of_agree (h : ∀ token' ∈ token :: rest, a.AgreeOn b token') (st : MatchState) :
    tryHere a token rest st = tryHere b token rest st := by
  unfold tryHere
  cases st.cursor.current? with
  | none => rfl
  | some current =>
      show tryToken a token rest current st = tryToken b token rest current st
      cases token with
      | rest name dataType =>
          have hrun := restRun_of_agree (h _ List.mem_cons_self) st.ahead
          simp only [tryToken, takeRest, hrun]
      | literal text optional => rfl
      | typedLiteral kind value => simp only [tryToken, intake?_of_agree h]
      | parameter name dataType optional default => simp only [tryToken, intake?_of_agree h]

/-- A run goes the same way under settings that agree on all its tokens. -/
theorem steps_of_agree (h : ∀ token ∈ tokens, a.AgreeOn b token) (st : MatchState) :
    steps a tokens st = steps b tokens st := by
  induction tokens generalizing st with
  | nil => rfl
  | cons token rest ih =>
      have hstep : step a token rest st = step b token rest st := by
        rw [step, step, tryHere_of_agree h]
      have hrest : ∀ st, steps a rest st = steps b rest st :=
        ih fun token hmem => h token (List.mem_cons_of_mem _ hmem)
      simp only [steps, hstep, hrest]

theorem matchTokens_of_agree (h : ∀ token ∈ tokens, a.AgreeOn b token) (message : List Segment) :
    matchTokens a tokens message = matchTokens b tokens message := by
  cases tokens with
  | nil => rfl
  | cons token rest =>
      cases message with
      | nil => rfl
      | cons s more =>
          show runTokens a (token :: rest) (s :: more) = runTokens b (token :: rest) (s :: more)
          rw [runTokens, runTokens, steps_of_agree h]

end Agree

/-! ## What does not show in a match -/

variable {source : PatternSource} {tokens : List Token} {raw : Option RawRules} {rules : Rules}

/-- A match hangs on no more of its setting than the tokens name: rules and registries that agree
on what they name answer every message alike. So no matcher of plain text shows in an answer, and
no rule for a kind whose rule none of the tokens asks for. -/
theorem matchMessage_of_agree (hsource : source.resolve = .ok tokens)
    (hrules : Rules.resolve raw = .ok rules) (message : Value) (registry : Registry) :
    (∀ raw' rules' registry', Rules.resolve raw' = .ok rules' →
      (∀ token ∈ tokens, Setting.AgreeOn ⟨rules', registry'⟩ ⟨rules, registry⟩ token) →
        matchMessage source message raw' registry' = matchMessage source message raw registry) ∧
    (∀ registry' : Registry,
      (∀ type, type ≠ textKind → registry'.matcher? (some type) = registry.matcher? (some type)) →
        matchMessage source message raw registry' = matchMessage source message raw registry) ∧
    (∀ raw' rules', Rules.resolve raw' = .ok rules' →
      (∀ kind, rules'.get? kind ≠ rules.get? kind →
        ∀ token ∈ tokens, token.ruleKind? ≠ some kind) →
        matchMessage source message raw' registry = matchMessage source message raw registry) := by
  have hagree : ∀ raw' rules' registry', Rules.resolve raw' = .ok rules' →
      (∀ token ∈ tokens, Setting.AgreeOn ⟨rules', registry'⟩ ⟨rules, registry⟩ token) →
        matchMessage source message raw' registry' =
          matchMessage source message raw registry := by
    intro raw' rules' registry' hrules' h
    have hkept : ∀ rules : Rules,
        (Except.ok rules).mapError Refusal.invalid = .ok rules := fun _ => rfl
    unfold matchMessage
    rw [hsource, hrules, hrules']
    simp only [bind, Except.bind, hkept, matchTokens_of_agree h]
  refine ⟨hagree, ?_, ?_⟩
  · intro registry' hothers
    refine hagree raw rules registry' hrules fun token _ => ⟨fun _ _ => rfl, ?_⟩
    intro type htype
    apply hothers
    rintro rfl
    cases token <;> simp [Token.matcherType?, nonText] at htype
  · intro raw' rules' hrules' hothers
    refine hagree raw' rules' registry hrules' fun token hmem => ⟨?_, fun _ _ => rfl⟩
    intro kind hkind
    by_cases hsame : rules'.get? kind = rules.get? kind
    · exact hsame
    · exact absurd hkind (hothers kind hsame token hmem)

/-- Where a special type meets a segment of its kind, another rule for faces and another matcher
for plain text do not show; a text parameter does not need the matchers; and a typed literal for
faces does not see a rule for images. -/
theorem matchMessage_of_agree_at :
    matchMessage (.tokens [.parameter "who" "at" false none])
        (.list [.segment "at" [("user_id", .int 7)]]) (some (.table [(.text "face", .text "name")] .none))
        ⟨[("text", Matcher.never), ("at", Matcher.mention)]⟩ =
      .ok (some { matched := [⟨"at", [("user_id", .int 7)]⟩], params := [("who", .int 7)] }) ∧
    matchMessage (.tokens [.parameter "say" "text" false none])
        (.list [.segment "text" [("text", .text "hi")]]) none .empty =
      .ok (some { matched := [.ofText "hi"], params := [("say", .text "hi")] }) ∧
    matchMessage (.tokens [.typedLiteral "face" "1"]) (.list [.segment "face" [("id", .int 1)]])
        (some (.table [(.text "image", .text "src")] .none)) .builtin =
      .ok (some { matched := [⟨"face", [("id", .int 1)]⟩] }) := by
  have hrules : Rules.resolve none = .ok .defaults := rfl
  have hsource : ∀ tokens, (PatternSource.tokens tokens).resolve = .ok tokens := fun _ => rfl
  refine ⟨?_, ?_, ?_⟩
  · rw [(matchMessage_of_agree (hsource _) hrules _ ⟨[("at", Matcher.mention)]⟩).1 _
      (Table.set Rules.defaults "face" (.field "name")) _ rfl]
    · rfl
    · intro token hmem
      obtain rfl := List.mem_singleton.mp hmem
      constructor
      · intro kind hkind
        obtain rfl : "at" = kind := Option.some.inj hkind
        rfl
      · intro type htype
        obtain rfl : "at" = type := Option.some.inj htype
        rfl
  · rw [(matchMessage_of_agree (hsource _) hrules _ ⟨[(textKind, Matcher.text)]⟩).2.1]
    · rfl
    · intro type htype
      have hne : ¬ textKind = type := Ne.symm htype
      simp [Registry.matcher?, Registry.empty, Table.get?, hne]
  · rw [(matchMessage_of_agree (hsource _) hrules _ .builtin).2.2 _
      (Table.set Rules.defaults "image" (.field "src")) rfl]
    · rfl
    · intro kind hdiffers token hmem hkind
      obtain rfl := List.mem_singleton.mp hmem
      obtain rfl : "face" = kind := Option.some.inj hkind
      exact hdiffers rfl

end MessagePattern
