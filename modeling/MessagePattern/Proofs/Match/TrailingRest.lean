import MessagePattern.Proofs.Match.Validity

/-!
# A rest parameter at the end

A rest parameter behind all other tokens goes over what they left over, and over nothing
else. It takes the longest run of segments that are of its kind or a single space, and holds
the values of those of its kind (`MatchResult.withRest`). What the other tokens take does not
change: a rest parameter shares no text with the parameters in front of it, so the run over
those is the same with it and without it.
-/

namespace MessagePattern

variable {setting : Setting} {token : Token} {front rest : List Token}

/-! ## The run of a rest parameter -/

/-- Whether a rest parameter collects a segment: it is of the kind asked for, if one is. -/
def isCollected (dataType : Option String) (s : Segment) : Bool :=
  dataType.all (s.kind = ·)

/-- Whether a segment may stand in the run of a rest parameter: it is collected, or a text of
a single space. -/
def isInRun (dataType : Option String) (s : Segment) : Bool :=
  isCollected dataType s || s.text? = some " "

/-- What a rest parameter holds for a segment that it collects. Of a text it is the text, of
another kind the value that the rule finds. Where there is no rule, or no kind was asked for,
it is the segment. -/
def restValue (rules : Rules) (dataType : Option String) (s : Segment) : Value :=
  match dataType with
  | none => s.toValue
  | some kind =>
    if kind = textKind then (s.text?.map Value.text).getD .null
    else ((rules.get? kind).map (·.extract s)).getD s.toValue

/-- A result with a rest parameter that takes its run of what was left over. -/
def MatchResult.withRest (rules : Rules) (name : String) (dataType : Option String)
    (r : MatchResult) : MatchResult :=
  let run := r.remaining.takeWhile (isInRun dataType)
  { matched := r.matched ++ run
    params := Table.set r.params name
      (.list ((run.filter (isCollected dataType)).map (restValue rules dataType)))
    remaining := r.remaining.drop run.length }

theorem collected_eq_restValue (setting : Setting) (kind : String) (s : Segment) :
    collected setting kind s = restValue setting.rules (some kind) s := by
  unfold collected restValue
  by_cases htext : kind = textKind
  · simp only [htext, if_true]
    cases s.text? <;> rfl
  · simp only [htext, if_false]
    cases setting.rules.get? kind <;> rfl

theorem restPart_eq (setting : Setting) (dataType : Option String) (s : Segment) :
    restPart setting dataType s =
      if isInRun dataType s then
        some (if isCollected dataType s then some (restValue setting.rules dataType s) else none)
      else none := by
  cases dataType with
  | none => rfl
  | some kind =>
      have hspace : String.singleton Text.separator = " " := rfl
      by_cases hkind : s.kind = kind
      · have hcollected : isCollected (some kind) s = true := by
          simp [isCollected, hkind]
        simp [restPart, isInRun, hkind, hcollected, collected_eq_restValue]
      · have hcollected : isCollected (some kind) s = false := by
          simp [isCollected, hkind]
        by_cases htext : s.text? = some " "
        · simp [restPart, isInRun, hkind, hcollected, hspace, htext]
        · simp [restPart, isInRun, hkind, hcollected, hspace, htext]

/-- The run of a rest parameter is the longest that it can be. -/
theorem restRun_eq (setting : Setting) (dataType : Option String) (segments : List Segment) :
    restRun setting dataType segments =
      (segments.takeWhile (isInRun dataType)).map fun s =>
        (s, if isCollected dataType s then some (restValue setting.rules dataType s)
          else none) := by
  induction segments with
  | nil => rfl
  | cons s more ih =>
      cases hrun : isInRun dataType s with
      | true =>
          have hpart := restPart_eq setting dataType s
          rw [hrun, if_pos rfl] at hpart
          rw [List.takeWhile_cons_of_pos hrun, List.map_cons, ← ih]
          simp only [restRun, hpart]
      | false =>
          have hpart := restPart_eq setting dataType s
          rw [hrun, if_neg Bool.false_ne_true] at hpart
          rw [List.takeWhile_cons_of_neg (by rw [hrun]; exact Bool.false_ne_true), List.map_nil]
          simp only [restRun, hpart]

theorem map_fst_restRun (setting : Setting) (dataType : Option String)
    (segments : List Segment) :
    (restRun setting dataType segments).map (·.1) =
      segments.takeWhile (isInRun dataType) := by
  rw [restRun_eq, List.map_map]
  exact List.map_id _

theorem filterMap_snd_restRun (setting : Setting) (dataType : Option String)
    (segments : List Segment) :
    (restRun setting dataType segments).filterMap (·.2) =
      ((segments.takeWhile (isInRun dataType)).filter (isCollected dataType)).map
        (restValue setting.rules dataType) := by
  rw [restRun_eq]
  induction segments.takeWhile (isInRun dataType) with
  | nil => rfl
  | cons s more ih =>
      cases hcollected : isCollected dataType s with
      | true => simpa [hcollected] using ih
      | false => simpa [hcollected] using ih

/-! ## A rest parameter behind other tokens -/

/-- No text is shared with a rest parameter. -/
theorem optionalsSharing_concat_rest (registry : Registry) (name : String)
    (dataType : Option String) (tokens : List Token) :
    optionalsSharing registry (tokens ++ [.rest name dataType]) =
      optionalsSharing registry tokens := by
  induction tokens with
  | nil => rfl
  | cons token tokens ih =>
      cases token with
      | literal text optional =>
          cases optional with
          | true => exact ih
          | false => rfl
      | typedLiteral kind value => rfl
      | parameter name dataType optional default =>
          simp only [List.cons_append, optionalsSharing, ih]
      | rest name dataType => rfl

namespace Outlook

/-- A run over tokens and a rest parameter is the run over the tokens, and at its end the
rest parameter takes its run. -/
theorem steps_concat_rest (name : String) (dataType : Option String) (o : Outlook) :
    o.steps setting (front ++ [.rest name dataType]) =
      (o.steps setting front).map (Option.map (takeRest setting name dataType)) := by
  rw [steps_append_of_sharing]
  · rcases o.steps setting front with e | _ | o'
    · rfl
    · rfl
    · show steps setting [.rest name dataType] o' = .ok (some _)
      rw [steps, step_rest]
      rfl
  · intro token rest _
    exact optionalsSharing_concat_rest setting.registry name dataType (token :: rest)

theorem leave_takeRest {o : Outlook} (hremaining : o.result.remaining = []) (name : String)
    (dataType : Option String) :
    (o.takeRest setting name dataType).result.leave (o.takeRest setting name dataType).ahead =
      (o.result.leave o.ahead).withRest setting.rules name dataType := by
  have hlength : (restRun setting dataType o.ahead).length =
      (o.ahead.takeWhile (isInRun dataType)).length := by
    rw [restRun_eq, List.length_map]
  have hleft : (o.result.leave o.ahead).remaining = o.ahead := by
    rw [MatchResult.leave, hremaining, List.nil_append]
  rw [MatchResult.withRest, hleft]
  simp only [takeRest, MatchResult.take, MatchResult.setParam, MatchResult.leave,
    map_fst_restRun, filterMap_snd_restRun, hlength, hremaining, List.nil_append]

end Outlook

/-- A rest parameter behind other tokens matches whatever they match, and takes its run of
what they left over. -/
theorem matchTokens_concat_rest
    (hfront : front = [] ∨ ∃ token ∈ front, ∀ text, token ≠ .literal text true) (name : String)
    (dataType : Option String) (message : List Segment) :
    matchTokens setting (front ++ [.rest name dataType]) message =
      (matchTokens setting front message).map
        (Option.map (MatchResult.withRest setting.rules name dataType)) := by
  rw [matchTokens_eq_outlook, matchTokens_eq_outlook, Outlook.steps_concat_rest]
  rcases hsteps : Outlook.steps setting front { ahead := message } with e | _ | o
  · rfl
  · rfl
  · have hremaining : o.result.remaining = [] := remaining_of_steps hsteps
    have hcounts : (front.isEmpty || message.isEmpty) = true ∨
        (o.result.leave o.ahead).isValid = true := by
      rcases hfront with rfl | hother
      · exact Or.inl rfl
      · exact Or.inr (Outlook.isValid_of_steps (Or.inr hother) hsteps)
    have hshort : o.answer (front.isEmpty || message.isEmpty) =
        some (o.result.leave o.ahead) := Outlook.answer_eq_some_iff.mpr ⟨rfl, hcounts⟩
    have hlong : ∀ free, (o.takeRest setting name dataType).answer free =
        some ((o.result.leave o.ahead).withRest setting.rules name dataType) := by
      intro free
      have hvalid : (o.takeRest setting name dataType).result.isValid = true :=
        MatchResult.isValid_setParam _ _ _
      rw [← Outlook.leave_takeRest hremaining]
      exact Outlook.answer_eq_some_iff.mpr ⟨rfl, Or.inr hvalid⟩
    show Except.ok ((o.takeRest setting name dataType).answer _) =
      .ok ((o.answer (front.isEmpty || message.isEmpty)).map _)
    rw [hlong, hshort]
    rfl

/-- Let a rest parameter stand behind tokens that are none, or not all optional literals. Then a
message is matched with it exactly if it is matched without it, and the rest parameter takes
the longest run of what was left over that it can. -/
theorem matchMessage_concat_rest {raw : Option RawRules} {rules : Rules}
    (hfront : front = [] ∨ ∃ token ∈ front, ∀ text, token ≠ .literal text true)
    (hrules : Rules.resolve raw = .ok rules) (name : String) (dataType : Option String)
    (message : Value) (registry : Registry) :
    matchMessage (.tokens (front ++ [.rest name dataType])) message raw registry =
      (matchMessage (.tokens front) message raw registry).map
        (Option.map (MatchResult.withRest rules name dataType)) := by
  rcases refused_or_read message raw with ⟨refusal, hrefused⟩ |
    ⟨items, rules', segments, hitems, hrules', hsegments⟩
  · rw [hrefused, hrefused]
    rfl
  · have hsame : rules' = rules := Except.ok.inj (hrules'.symm.trans hrules)
    have hmatch : ∀ tokens, matchMessage (.tokens tokens) message raw registry =
        (matchTokens ⟨rules, registry⟩ tokens segments).mapError .broken :=
      fun tokens => matchMessage_of_read registry rfl hitems hsegments hrules
    rw [hmatch, hmatch, matchTokens_concat_rest hfront]
    cases matchTokens ⟨rules, registry⟩ front segments <;> rfl

/-- The literal leaves a space over. The faces behind it are collected with the space in
between; the text of two spaces ends the run. The name is taken already and keeps its place. -/
theorem matchMessage_concat_rest_faces :
    matchMessage (.tokens ([.parameter "faces" "image" true none, .literal "go" false] ++
          [.rest "faces" (some "face")]))
        (.list [.segment "text" [("text", .text "go ")], .segment "face" [("id", .int 1)],
          .segment "text" [("text", .text "  ")], .segment "face" [("id", .int 2)]])
        none .builtin =
      .ok (some
        { matched := [.ofText "go", .ofText " ", ⟨"face", [("id", .int 1)]⟩]
          params := [("faces", .list [.int 1])]
          remaining := [.ofText "  ", ⟨"face", [("id", .int 2)]⟩] }) := by
  have hother : ∃ token ∈ [Token.parameter "faces" "image" true none, .literal "go" false],
      ∀ text, token ≠ .literal text true :=
    ⟨_, List.mem_cons_self, fun text htoken => by cases htoken⟩
  have hrules : Rules.resolve none = .ok .defaults := rfl
  rw [matchMessage_concat_rest (Or.inr hother) hrules]
  rfl

end MessagePattern
