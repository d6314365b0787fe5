import MessagePattern.Proofs.Json.Reading
import MessagePattern.Proofs.Match.Intake
import MessagePattern.Proofs.Match.Outlook

/-!
# Results that can be written

A match brings no integer into its result that is too long to be written, if the message, the
defaults and the setting hold none: every step keeps this (`isWritable_of_stepped`), so the
whole result does (`isWritable_of_matchTokens`). The setting is that of a table of rules that
was read from a file, and of the types known from the start.
-/

namespace MessagePattern

/-! ## Segments and settings -/

/-- No integer in the fields of a segment is too long to be written. -/
def Segment.IsWritable (s : Segment) : Prop :=
  ∀ e ∈ s.fields, e.2.isWritable = true

theorem Segment.isWritable_ofText (text : String) : (Segment.ofText text).IsWritable :=
  List.forall_mem_singleton.mpr rfl

theorem Segment.IsWritable.isWritable_toValue {s : Segment} (h : s.IsWritable) :
    s.toValue.isWritable = true :=
  Json.areEntriesWritable_iff.mpr h

theorem Segment.IsWritable.fieldOrNull {s : Segment} (h : s.IsWritable) (name : String) :
    (s.fieldOrNull name).isWritable = true := by
  unfold Segment.fieldOrNull
  cases hfield : s.field? name with
  | none => rfl
  | some v => exact h _ (Table.mem_of_get? hfield)

/-- A rule finds nothing too long in a segment that holds nothing too long. -/
def Rule.KeepsWritable (rule : Rule) : Prop :=
  ∀ s : Segment, s.IsWritable → (rule.extract s).isWritable = true

/-- A matcher reads nothing too long off a text. -/
def Matcher.ReadsWritable (matcher : Matcher) : Prop :=
  ∀ text v, matcher (.text text) = .ok (.accepted v) → v.isWritable = true

/-- Neither the rules nor the matchers bring up anything too long. -/
structure Setting.KeepsWritable (setting : Setting) : Prop where
  rule : ∀ {kind rule}, setting.rules.get? kind = some rule → rule.KeepsWritable
  matcher : ∀ {type matcher}, setting.registry.matcher? type = some matcher →
    matcher.ReadsWritable

theorem Rule.keepsWritable_field (name : String) : (Rule.field name).KeepsWritable :=
  fun _ h => h.fieldOrNull name

theorem Rule.keepsWritable_firstOf (names : List String) : (Rule.firstOf names).KeepsWritable := by
  intro s h
  unfold Rule.extract firstHeld
  simp only
  cases hfound : (names.map s.fieldOrNull).find? (!·.isNull) with
  | none => rfl
  | some v =>
      obtain ⟨name, _, rfl⟩ := List.mem_map.mp (List.mem_of_find?_eq_some hfound)
      exact h.fieldOrNull name

/-- Data names fields, and no extractor. -/
theorem Rule.keepsWritable_of_isData {extractors : Extractors} {v : Value} {rule : Rule}
    (hv : Json.IsData v) (h : Rule.ofValue? extractors v = some rule) : rule.KeepsWritable := by
  cases v with
  | text name =>
      cases h
      exact keepsWritable_field name
  | extractor name argument => cases hv
  | list items =>
      obtain ⟨names, _, rfl⟩ := Option.map_eq_some_iff.mp h
      exact keepsWritable_firstOf names
  | tuple items =>
      obtain ⟨names, _, rfl⟩ := Option.map_eq_some_iff.mp h
      exact keepsWritable_firstOf names
  | _ => cases h

theorem Rules.keepsWritable_defaults : ∀ e ∈ Rules.defaults, e.2.KeepsWritable := by
  simp only [Rules.defaults, List.forall_mem_cons]
  exact ⟨Rule.keepsWritable_field _, Rule.keepsWritable_field _, Rule.keepsWritable_firstOf _,
    Rule.keepsWritable_field _, fun _ h => absurd h List.not_mem_nil⟩

/-! ## Matchers -/

namespace Matcher

theorem readsWritable_numeral (welcome : Decimal.Numeral → Bool) :
    (numeral welcome (·.number)).ReadsWritable := by
  intro text v h
  unfold numeral onText at h
  simp only at h
  split at h
  · rename_i n hscan
    split at h
    · obtain ⟨number, hnumber, hv⟩ := map_eq_ok_iff.mp h
      cases hv
      exact Json.isWritable_of_isJson
        (isJson_ofNumber (Decimal.Numeral.wellFormed_of_scan? hscan)
          (mapError_eq_ok_iff.mp hnumber))
    · cases h
  · cases h

theorem readsWritable_boolean : boolean.ReadsWritable := by
  intro text v h
  unfold boolean onText at h
  simp only at h
  split at h
  · cases h
    rfl
  · split at h
    · cases h
      rfl
    · cases h

theorem readsWritable_text : Matcher.text.ReadsWritable := by
  intro text v h
  cases h
  rfl

theorem readsWritable_builtins : ∀ e ∈ builtins, e.2.ReadsWritable := by
  simp only [builtins, List.forall_mem_cons]
  exact ⟨readsWritable_numeral _, integer_eq ▸ readsWritable_numeral _,
    float_eq ▸ readsWritable_numeral _, readsWritable_boolean, readsWritable_text, fun _ h => absurd h List.not_mem_nil⟩

end Matcher

theorem Setting.keepsWritable_builtin {rules : Rules} (hrules : ∀ e ∈ rules, e.2.KeepsWritable) :
    Setting.KeepsWritable ⟨rules, .builtin⟩ where
  rule := by
    intro kind rule hrule
    exact hrules _ (Table.mem_of_get? hrule)
  matcher := by
    intro type matcher hmatcher
    obtain ⟨name, _, hmatcher⟩ := Option.bind_eq_some_iff.mp hmatcher
    exact Matcher.readsWritable_builtins _ (Table.mem_of_get? hmatcher)

/-! ## Results -/

/-- No integer in a result is too long to be written. -/
structure MatchResult.IsWritable (r : MatchResult) : Prop where
  matched : ∀ s ∈ r.matched, s.IsWritable
  params : ∀ e ∈ r.params, e.2.isWritable = true
  remaining : ∀ s ∈ r.remaining, s.IsWritable

namespace MatchResult

variable {r : MatchResult} {segments : List Segment}

theorem isWritable_empty : IsWritable {} :=
  ⟨List.forall_mem_nil _, List.forall_mem_nil _, List.forall_mem_nil _⟩

theorem IsWritable.take (h : r.IsWritable) (hsegments : ∀ s ∈ segments, s.IsWritable) :
    (r.take segments).IsWritable :=
  ⟨List.forall_mem_append.mpr ⟨h.matched, hsegments⟩, h.params, h.remaining⟩

theorem IsWritable.leave (h : r.IsWritable) (hsegments : ∀ s ∈ segments, s.IsWritable) :
    (r.leave segments).IsWritable :=
  ⟨h.matched, h.params, List.forall_mem_append.mpr ⟨h.remaining, hsegments⟩⟩

theorem IsWritable.setParam (h : r.IsWritable) {v : Value} (hv : v.isWritable = true)
    (name : String) : (r.setParam name v).IsWritable :=
  ⟨h.matched, Table.forall_set (P := (Value.isWritable · = true)) h.params hv name, h.remaining⟩

/-- What a token falls back to is its default, or holds no integer. -/
theorem IsWritable.skip {r' : MatchResult} {token : Token} (h : r.IsWritable)
    (hdefault : ∀ name dataType optional v,
      token = .parameter name dataType optional (some v) → v.isWritable = true)
    (hskip : r.skip token = some r') : r'.IsWritable := by
  unfold MatchResult.skip at hskip
  split at hskip
  · cases hskip
    exact h.setParam rfl _
  · rename_i name dataType default
    cases hskip
    apply h.setParam
    cases default with
    | some v => exact hdefault name dataType true v rfl
    | none =>
        unfold Token.fallback
        simp only
        split <;> rfl
  · cases hskip
    exact h
  · cases hskip

end MatchResult

/-! ## What tokens take -/

structure Intake.IsWritable (i : Intake) : Prop where
  taken : ∀ s ∈ i.taken, s.IsWritable
  value : ∀ name v, i.param = some (name, v) → v.isWritable = true

section Intakes

variable {setting : Setting} {token : Token} {rest : List Token} {s : Segment} {blob : Bool}
  {i : Intake} {kind value name dataType : String} {shared : Bool}

theorem isWritable_pieceOf (piece : List Char) : ∀ s ∈ pieceOf piece, s.IsWritable := by
  unfold pieceOf
  split
  · exact List.forall_mem_nil _
  · exact List.forall_mem_singleton.mpr (Segment.isWritable_ofText _)

theorem isWritable_tryLiteral (h : tryLiteral value s blob = some i) : i.IsWritable := by
  obtain ⟨behind, _, rfl⟩ := tryLiteral_cases h
  refine ⟨List.forall_mem_singleton.mpr (Segment.isWritable_ofText value), ?_⟩
  intro name v hparam
  cases hparam

theorem isWritable_tryTypedLiteral (hs : s.IsWritable)
    (h : tryTypedLiteral setting kind value s blob = .ok (some i)) : i.IsWritable := by
  obtain ⟨_, rule, _, rfl | ⟨text, before, after, _, _, _, rfl⟩⟩ := tryTypedLiteral_cases h
  · refine ⟨List.forall_mem_singleton.mpr hs, ?_⟩
    intro name v hparam
    cases hparam
  · refine ⟨List.forall_mem_append.mpr ⟨isWritable_pieceOf before,
      List.forall_mem_singleton.mpr (Segment.isWritable_ofText value)⟩, ?_⟩
    intro name v hparam
    cases hparam

theorem isWritable_readAs (hsetting : setting.KeepsWritable) {text : String} {v : Value}
    (h : readAs setting.registry dataType text = .ok (some v)) : v.isWritable = true := by
  unfold readAs at h
  split at h
  · cases h
    rfl
  · split at h
    · cases h
    · rename_i matcher hmatcher
      obtain ⟨answer, hanswer, h⟩ := bind_eq_ok_iff.mp h
      cases answer with
      | accepted v' =>
          cases h
          exact hsetting.matcher hmatcher text v hanswer
      | refused => cases h
      | silent => cases h

/-- What the rule for a kind finds, or what stands for it if there is no rule. -/
theorem isWritable_elim_extract (hsetting : setting.KeepsWritable) (hs : s.IsWritable)
    {v : Value} (hv : v.isWritable = true) :
    ((setting.rules.get? kind).elim v (·.extract s)).isWritable = true := by
  cases hrule : setting.rules.get? kind with
  | none => exact hv
  | some rule => exact hsetting.rule hrule s hs

theorem isWritable_tryParameter (hsetting : setting.KeepsWritable) (hs : s.IsWritable)
    (h : tryParameter setting name dataType shared s blob = .ok (some i)) : i.IsWritable := by
  constructor
  · rcases tryParameter_cases h with ⟨text, v, _, rfl⟩ | ⟨_, v, rfl⟩
    · intro taken htaken
      rw [List.mem_singleton.mp htaken]
      cases (portion shared blob text.toList).taken with
      | none => exact hs
      | some raw => exact Segment.isWritable_ofText _
    · exact List.forall_mem_singleton.mpr hs
  · intro other v hparam
    obtain ⟨v', hvalue, horigin⟩ := value_of_tryParameter h
    rw [hvalue] at hparam
    cases hparam
    rcases horigin with ⟨text, hread⟩ | rfl
    · exact isWritable_readAs hsetting hread
    · exact isWritable_elim_extract hsetting hs rfl

theorem isWritable_intake (hsetting : setting.KeepsWritable) (hs : s.IsWritable)
    (h : intake? setting token rest s blob = .ok (some i)) : i.IsWritable := by
  cases token with
  | literal text optional => exact isWritable_tryLiteral (Except.ok.inj h)
  | typedLiteral kind value => exact isWritable_tryTypedLiteral hs h
  | parameter name dataType optional default => exact isWritable_tryParameter hsetting hs h
  | rest name dataType => cases h

/-! ## Runs of rest parameters -/

theorem mem_of_mem_restRun {dataType : Option String} {segments : List Segment}
    {e : Segment × Option Value} (h : e ∈ restRun setting dataType segments) :
    e.1 ∈ segments ∧ restPart setting dataType e.1 = some e.2 := by
  induction segments with
  | nil => cases h
  | cons s more ih =>
      cases hpart : restPart setting dataType s with
      | none =>
          rw [restRun, hpart] at h
          cases h
      | some added =>
          rw [restRun, hpart] at h
          rcases List.mem_cons.mp h with rfl | hmem
          · exact ⟨List.mem_cons_self, hpart⟩
          · exact ⟨List.mem_cons_of_mem _ (ih hmem).1, (ih hmem).2⟩

theorem isWritable_collected (hsetting : setting.KeepsWritable) (hs : s.IsWritable) :
    (collected setting kind s).isWritable = true := by
  unfold collected
  split
  · cases s.text? <;> rfl
  · exact isWritable_elim_extract hsetting hs hs.isWritable_toValue

theorem isWritable_restPart (hsetting : setting.KeepsWritable) (hs : s.IsWritable)
    {dataType : Option String} {v : Value}
    (h : restPart setting dataType s = some (some v)) : v.isWritable = true := by
  unfold restPart at h
  split at h
  · cases h
    exact hs.isWritable_toValue
  · split at h
    · cases h
      exact isWritable_collected hsetting hs
    · split at h
      · cases h
      · cases h

end Intakes

/-! ## Runs -/

/-- Nothing that a run sees is too long to be written. -/
structure Outlook.IsWritable (o : Outlook) : Prop where
  ahead : ∀ s ∈ o.ahead, s.IsWritable
  result : o.result.IsWritable

namespace Outlook

variable {setting : Setting} {token : Token} {rest tokens : List Token} {o o' : Outlook}

theorem IsWritable.absorb (h : o.IsWritable) {i : Intake} (hi : i.IsWritable) :
    (o.absorb i).IsWritable := by
  constructor
  · intro s hs
    rcases List.mem_append.mp hs with hs | hs
    · exact isWritable_pieceOf i.left s hs
    · exact h.ahead s (List.mem_of_mem_tail hs)
  · have htaken := h.result.take hi.taken
    show (o.result.note i).IsWritable
    unfold MatchResult.note
    cases hparam : i.param with
    | none => exact htaken
    | some entry => exact htaken.setParam (hi.value entry.1 entry.2 hparam) entry.1

theorem IsWritable.takeRest (h : o.IsWritable) (hsetting : setting.KeepsWritable) (name : String)
    (dataType : Option String) : (o.takeRest setting name dataType).IsWritable := by
  constructor
  · intro s hs
    exact h.ahead s (List.mem_of_mem_drop hs)
  · apply MatchResult.IsWritable.setParam
    · apply h.result.take
      intro s hs
      obtain ⟨e, he, rfl⟩ := List.mem_map.mp hs
      exact h.ahead _ (mem_of_mem_restRun he).1
    · apply Json.areWritable_iff.mpr
      intro v hv
      obtain ⟨e, he, hadded⟩ := List.mem_filterMap.mp hv
      obtain ⟨hmem, hpart⟩ := mem_of_mem_restRun he
      rw [hadded] at hpart
      exact isWritable_restPart hsetting (h.ahead _ hmem) hpart

/-- The defaults of the tokens hold nothing too long. -/
def DefaultsWritable (tokens : List Token) : Prop :=
  ∀ name dataType optional v, .parameter name dataType optional (some v) ∈ tokens →
    v.isWritable = true

theorem isWritable_of_stepped (hsetting : setting.KeepsWritable)
    (hdefaults : DefaultsWritable (token :: rest)) (h : o.IsWritable)
    (hstepped : Stepped setting token rest o o') : o'.IsWritable := by
  cases hstepped with
  | took hahead hintake =>
      exact h.absorb (isWritable_intake hsetting (h.ahead _ (List.mem_of_mem_head? hahead)) hintake)
  | collected htoken => exact h.takeRest hsetting _ _
  | skipped hskip =>
      refine ⟨h.ahead, h.result.skip ?_ hskip⟩
      intro name dataType optional v htoken
      exact hdefaults name dataType optional v (htoken ▸ List.mem_cons_self)

theorem isWritable_of_steps (hsetting : setting.KeepsWritable)
    (hdefaults : DefaultsWritable tokens) (h : o.IsWritable)
    (hsteps : o.steps setting tokens = .ok (some o')) : o'.IsWritable := by
  induction tokens generalizing o with
  | nil =>
      cases hsteps
      exact h
  | cons token rest ih =>
      obtain ⟨stepped, hstep, hsteps⟩ := bind_eq_ok_iff.mp hsteps
      cases stepped with
      | none => cases hsteps
      | some o₁ =>
          have hrest : DefaultsWritable rest := by
            intro name dataType optional v hmem
            exact hdefaults name dataType optional v (List.mem_cons_of_mem _ hmem)
          exact ih hrest (isWritable_of_stepped hsetting hdefaults h (step_cases hstep)) hsteps

end Outlook

/-- A match of a message without integers that are too long has no such integer in its
result. -/
theorem isWritable_of_matchTokens {setting : Setting} {tokens : List Token}
    {message : List Segment} {r : MatchResult} (hsetting : setting.KeepsWritable)
    (hdefaults : Outlook.DefaultsWritable tokens) (hmessage : ∀ s ∈ message, s.IsWritable)
    (h : matchTokens setting tokens message = .ok (some r)) : r.IsWritable := by
  rw [matchTokens_eq_outlook] at h
  obtain ⟨ended, hsteps, hended⟩ := map_eq_ok_iff.mp h
  obtain ⟨o, rfl, hanswer⟩ := Option.bind_eq_some_iff.mp hended
  obtain ⟨rfl, _⟩ := Outlook.answer_eq_some_iff.mp hanswer
  have hstart : Outlook.IsWritable { ahead := message } :=
    ⟨hmessage, MatchResult.isWritable_empty⟩
  have hend := Outlook.isWritable_of_steps hsetting hdefaults hstart hsteps
  exact hend.result.leave hend.ahead

end MessagePattern
