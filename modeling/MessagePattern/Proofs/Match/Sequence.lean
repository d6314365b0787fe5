import MessagePattern.Proofs.Match.Validity

/-!
# Patterns one behind the other

A pattern is not matched token by token alone: an optional parameter counts the
parameters behind it that could read from the same text, and the mark of a blob goes from
one token to the next. A token that takes whole segments other than texts stops both. So behind
such a token a match goes on like a match of its own over what is left
(`matchTokens_sequence`), up to the result, which goes on from the first one
(`MatchResult.followedBy`).
-/

namespace MessagePattern

/-- The token takes a whole segment that is no text, and the message cannot go without
it. -/
def Token.TakesWhole (registry : Registry) : Token → Prop
  | .typedLiteral kind _ => kind ≠ textKind
  | .parameter _ dataType optional _ =>
    optional = false ∧ dataType ≠ textKind ∧ registry.isSpecial (some dataType) = false
  | _ => False

variable {setting : Setting} {token last : Token} {front rest behind : List Token}

section Whole

variable {s : Segment} {blob : Bool} {i : Intake}

theorem intake_of_takesWhole (hlast : last.TakesWhole setting.registry)
    (h : intake? setting last rest s blob = .ok (some i)) : i.taken = [s] ∧ i.left = [] := by
  cases last with
  | typedLiteral kind value =>
      obtain ⟨hkind, _, _, rfl | ⟨_, _, _, htext, _⟩⟩ := tryTypedLiteral_cases h
      · exact ⟨rfl, rfl⟩
      · -- Only texts are cut.
        have hkindText : kind = textKind := hkind ▸ of_decide_eq_true htext
        exact absurd hkindText hlast
  | parameter name dataType optional default =>
      obtain ⟨_, hne, hspecial⟩ := hlast
      simp only [intake?, tryParameter, hne, hspecial, decide_false, Bool.and_false, Bool.or_false,
        Bool.false_eq_true, if_false, tryKindParameter] at h
      obtain ⟨_, hi⟩ := Option.ite_none_left_eq_some.mp (Except.ok.inj h)
      cases hi
      exact ⟨rfl, rfl⟩
  | literal text optional => cases hlast
  | rest name dataType => cases hlast

theorem skip_of_takesWhole {registry : Registry} (hlast : last.TakesWhole registry)
    (r : MatchResult) : r.skip last = none := by
  cases last with
  | typedLiteral kind value => rfl
  | parameter name dataType optional default =>
      obtain ⟨rfl, _⟩ := hlast
      rfl
  | literal text optional => cases hlast
  | rest name dataType => cases hlast

/-- What stands behind a token that takes whole segments does not share a text with what
stands before it. -/
theorem optionalsSharing_append {registry : Registry} (hlast : last.TakesWhole registry)
    (front behind : List Token) :
    optionalsSharing registry (front ++ last :: behind) =
      optionalsSharing registry (front ++ [last]) := by
  induction front with
  | nil =>
      cases last with
      | typedLiteral kind value => rfl
      | parameter name dataType optional default =>
          obtain ⟨_, hne, hspecial⟩ := hlast
          simp [optionalsSharing, fillsFromText, hne, hspecial]
      | literal text optional => cases hlast
      | rest name dataType => cases hlast
  | cons token front ih =>
      cases token with
      | literal text optional =>
          cases optional with
          | true => exact ih
          | false => rfl
      | parameter name dataType optional default =>
          simp only [List.cons_append, optionalsSharing, ih]
      | typedLiteral kind value => rfl
      | rest name dataType => rfl

end Whole

/-! ## Results one behind the other -/

namespace MatchResult

/-- The result of a match, with that of another over what it left. -/
def followedBy (r next : MatchResult) : MatchResult :=
  { matched := r.matched ++ next.matched
    params := Table.setAll r.params next.params
    remaining := next.remaining }

variable {r next next' : MatchResult}

theorem followedBy_take (segments : List Segment) :
    r.followedBy (next.take segments) = (r.followedBy next).take segments := by
  simp [followedBy, take]

theorem followedBy_setParam (h : next.params.keys.Nodup) (name : String) (v : Value) :
    r.followedBy (next.setParam name v) = (r.followedBy next).setParam name v := by
  simp only [followedBy, setParam, Table.setAll_set r.params h]

theorem followedBy_note (h : next.params.keys.Nodup) (i : Intake) :
    r.followedBy (next.note i) = (r.followedBy next).note i := by
  cases hparam : i.param with
  | none => simp only [note, hparam, Option.elim_none, followedBy_take]
  | some entry =>
      have htake : (next.take i.taken).params.keys.Nodup := h
      have hset : r.followedBy ((next.take i.taken).setParam entry.1 entry.2) =
          (r.followedBy (next.take i.taken)).setParam entry.1 entry.2 :=
        followedBy_setParam htake entry.1 entry.2
      simp only [note, hparam, Option.elim_some, hset, followedBy_take]

theorem skip_followedBy (h : next.params.keys.Nodup) (token : Token) :
    (r.followedBy next).skip token = (next.skip token).map r.followedBy := by
  unfold skip
  split
  · exact congrArg some (followedBy_setParam h _ _).symm
  · exact congrArg some (followedBy_setParam h _ _).symm
  · rfl
  · rfl

theorem nodup_params_note (h : next.params.keys.Nodup) (i : Intake) :
    (next.note i).params.keys.Nodup := by
  cases hparam : i.param with
  | none =>
      rw [note, hparam]
      exact h
  | some entry =>
      rw [note, hparam]
      exact Table.nodup_keys_set h entry.1 entry.2

theorem nodup_params_skip (h : next.params.keys.Nodup) (hskip : next.skip token = some next') :
    next'.params.keys.Nodup := by
  unfold skip at hskip
  split at hskip <;> cases hskip
  · exact Table.nodup_keys_set h _ _
  · exact Table.nodup_keys_set h _ _
  · exact h

end MatchResult

/-! ## Runs one behind the other -/

namespace Outlook

variable {o o' : Outlook} {r : MatchResult}

/-- The outlook with a result to go on from. -/
def after (r : MatchResult) (o : Outlook) : Outlook :=
  { o with result := r.followedBy o.result }

theorem absorb_after (h : o.result.params.keys.Nodup) (i : Intake) :
    (o.after r).absorb i = (o.absorb i).after r := by
  unfold absorb after
  rw [MatchResult.followedBy_note h]

theorem takeRest_after (h : o.result.params.keys.Nodup) (name : String)
    (dataType : Option String) :
    (o.after r).takeRest setting name dataType = (o.takeRest setting name dataType).after r := by
  have htake : ∀ segments, (o.result.take segments).params.keys.Nodup := fun _ => h
  unfold takeRest after
  rw [MatchResult.followedBy_setParam (htake _), MatchResult.followedBy_take]

/-- A step does not ask for what was found before. -/
theorem step_after (h : o.result.params.keys.Nodup) :
    (o.after r).step setting token rest =
      (o.step setting token rest).map (Option.map (after r)) := by
  have hskip : (o.after r).skip token = (o.skip token).map (after r) := by
    rw [skip, skip, Option.map_map]
    show ((r.followedBy o.result).skip token).map _ = _
    rw [MatchResult.skip_followedBy h, Option.map_map]
    rfl
  exact step_change rfl rfl (absorb_after h) (fun name dataType _ => takeRest_after h name dataType)
    hskip

theorem nodup_params_of_stepped (h : o.result.params.keys.Nodup)
    (hstep : Stepped setting token rest o o') : o'.result.params.keys.Nodup := by
  cases hstep with
  | took _ _ => exact MatchResult.nodup_params_note h _
  | collected _ => exact Table.nodup_keys_set h _ _
  | skipped hskip => exact MatchResult.nodup_params_skip h hskip

/-- A run does not ask for what was found before. -/
theorem steps_after {tokens : List Token} (h : o.result.params.keys.Nodup) :
    (o.after r).steps setting tokens = (o.steps setting tokens).map (Option.map (after r)) := by
  induction tokens generalizing o with
  | nil => rfl
  | cons token rest ih =>
      rw [steps, steps, step_after h]
      rcases hstep : o.step setting token rest with e | _ | o₁
      · rfl
      · rfl
      · exact ih (nodup_params_of_stepped h (step_cases hstep))

/-- A run over tokens behind one that takes whole segments goes on from the end of the run
up to that token. -/
theorem steps_append (hlast : last.TakesWhole setting.registry) (front behind : List Token)
    (o : Outlook) :
    o.steps setting (front ++ last :: behind) = (do
      match ← o.steps setting (front ++ [last]) with
      | some o => o.steps setting behind
      | none => return none) := by
  have hsplit : front ++ last :: behind = front ++ [last] ++ behind := by
    rw [List.append_assoc, List.singleton_append]
  rw [hsplit]
  apply steps_append_of_sharing
  intro token rest hsuffix
  rcases List.suffix_concat_iff.mp hsuffix with hnil | ⟨between, hbetween, _⟩
  · cases hnil
  · rw [hbetween, List.append_assoc, List.singleton_append]
    exact optionalsSharing_append hlast between behind

/-- Behind a token that took a whole segment nothing is left of a text. -/
theorem stepped_of_takesWhole (hlast : last.TakesWhole setting.registry)
    (hstep : Stepped setting last rest o o') : o'.blob = false ∧ o'.result.matched ≠ [] := by
  cases hstep with
  | @took s i hahead hintake =>
      obtain ⟨htaken, hleft⟩ := intake_of_takesWhole hlast hintake
      constructor
      · simp [absorb, hleft]
      · cases hparam : i.param <;>
          simp [absorb, MatchResult.note, hparam, htaken, MatchResult.take, MatchResult.setParam]
  | collected htoken =>
      rw [htoken] at hlast
      cases hlast
  | skipped hskip =>
      rw [skip_of_takesWhole hlast] at hskip
      cases hskip

theorem steps_of_takesWhole (hlast : last.TakesWhole setting.registry)
    (h : o.steps setting (front ++ [last]) = .ok (some o')) :
    o'.blob = false ∧ o'.result.matched ≠ [] := by
  induction front generalizing o with
  | nil =>
      obtain ⟨stepped, hstep, h⟩ := bind_eq_ok_iff.mp h
      cases stepped with
      | none => cases h
      | some o₁ =>
          cases h
          exact stepped_of_takesWhole hlast (step_cases hstep)
  | cons token front ih =>
      obtain ⟨stepped, hstep, h⟩ := bind_eq_ok_iff.mp h
      cases stepped with
      | none => cases h
      | some o₁ => exact ih h

end Outlook

/-! ## Matches one behind the other -/

/-- Where no text is pushed and nothing is left over yet, a run goes on like one of its own,
behind the result so far. -/
theorem Outlook.after_start {o : Outlook} (hblob : o.blob = false)
    (hremaining : o.result.remaining = []) :
    ({ ahead := o.ahead } : Outlook).after o.result = o := by
  have hresult : o.result.followedBy {} = o.result := by
    rw [MatchResult.followedBy, List.append_nil, ← hremaining]
    rfl
  rw [after, hresult, ← hblob]

/-- What is found behind counts, and with it what is found in all. -/
theorem Outlook.answer_after {o : Outlook} {r : MatchResult} (left : List Segment)
    (hmatched : r.matched ≠ []) (hvalid : o.result.isValid = true) (free free' : Bool) :
    (o.after r).answer free = (o.answer free').map (r.leave left).followedBy := by
  have hown : o.answer free' = some (o.result.leave o.ahead) :=
    answer_eq_some_iff.mpr ⟨rfl, Or.inr hvalid⟩
  rw [hown, Option.map_some, answer_eq_some_iff]
  have hall : (r.matched ++ o.result.matched) ≠ [] :=
    List.append_ne_nil_of_left_ne_nil hmatched _
  exact ⟨rfl, Or.inr (MatchResult.isValid_of_matched hall)⟩

/-- Where some token took a segment and no text is pushed, a run goes on like one of its
own. -/
theorem Outlook.answers_go_on {o : Outlook} (hblob : o.blob = false)
    (hremaining : o.result.remaining = []) (hmatched : o.result.matched ≠ [])
    (hbehind : ∃ token ∈ behind, ∀ text, token ≠ .literal text true) (free free' : Bool) :
    (o.steps setting behind).map (Option.bind · (answer free)) =
      ((steps setting behind { ahead := o.ahead }).map (Option.bind · (answer free'))).map
        (Option.map (o.result.leave o.ahead).followedBy) := by
  have hgoesOn : o.steps setting behind =
      (steps setting behind { ahead := o.ahead }).map (Option.map (after o.result)) := by
    have hnone : ({ ahead := o.ahead } : Outlook).result.params.keys.Nodup := List.nodup_nil
    rw [← steps_after hnone, after_start hblob hremaining]
  rw [hgoesOn]
  rcases hsteps : steps setting behind { ahead := o.ahead } with e | _ | o'
  · rfl
  · rfl
  · have hvalid : o'.result.isValid = true := isValid_of_steps (Or.inr hbehind) hsteps
    exact congrArg Except.ok (answer_after o.ahead hmatched hvalid free free')

/-- Behind a token that takes whole segments a match goes on like a match of its own over
what is left. -/
theorem matchTokens_sequence (hlast : last.TakesWhole setting.registry)
    (hbehind : ∃ token ∈ behind, ∀ text, token ≠ .literal text true) (front : List Token)
    (message : List Segment) :
    matchTokens setting (front ++ last :: behind) message = (do
      match ← matchTokens setting (front ++ [last]) message with
      | some r => (matchTokens setting behind r.remaining).map (Option.map r.followedBy)
      | none => return none) := by
  rw [matchTokens_eq_outlook, Outlook.steps_append hlast, matchTokens_eq_outlook]
  rcases hfirst : Outlook.steps setting (front ++ [last]) { ahead := message } with e | _ | o
  · rfl
  · rfl
  · obtain ⟨hblob, hmatched⟩ := Outlook.steps_of_takesWhole hlast hfirst
    have hremaining : o.result.remaining = [] := remaining_of_steps hfirst
    have hanswer : ∀ free, o.answer free = some (o.result.leave o.ahead) := fun free =>
      Outlook.answer_eq_some_iff.mpr ⟨rfl, Or.inr (MatchResult.isValid_of_matched hmatched)⟩
    have hleft : (o.result.leave o.ahead).remaining = o.ahead := by
      rw [MatchResult.leave, hremaining, List.nil_append]
    show (Outlook.steps setting behind o).map _ = (do
      match ← Except.ok (o.answer _) with
      | some r => (matchTokens setting behind r.remaining).map (Option.map r.followedBy)
      | none => return none)
    rw [hanswer]
    show _ = (matchTokens setting behind (o.result.leave o.ahead).remaining).map _
    rw [hleft, matchTokens_eq_outlook]
    exact Outlook.answers_go_on hblob hremaining hmatched hbehind _ _

theorem readMessage_toValue (segments : List Segment) :
    readMessage (segments.map Segment.toValue) = .ok segments := by
  unfold readMessage
  induction segments with
  | nil => rfl
  | cons s rest ih =>
      rw [List.map_cons, List.mapM_cons, ih]
      rfl

/-- Let the tokens of a match have one among them that takes whole segments, and behind it
one that is no optional literal. Then the match is the match of the tokens up to the
former, and after it the match of the others over what was left, if both match. -/
theorem matchMessage_sequence {registry : Registry} (hlast : last.TakesWhole registry)
    (hbehind : ∃ token ∈ behind, ∀ text, token ≠ .literal text true) (front : List Token)
    (message : Value) (raw : Option RawRules) :
    matchMessage (.tokens (front ++ last :: behind)) message raw registry = (do
      match ← matchMessage (.tokens (front ++ [last])) message raw registry with
      | some r =>
        (matchMessage (.tokens behind) (.list (r.remaining.map Segment.toValue)) raw
          registry).map (Option.map r.followedBy)
      | none => return none) := by
  rcases refused_or_read message raw with ⟨refusal, hrefused⟩ |
    ⟨items, rules, segments, hitems, hrules, hsegments⟩
  · rw [hrefused, hrefused]
    rfl
  · have hmatch : ∀ tokens, matchMessage (.tokens tokens) message raw registry =
        (matchTokens ⟨rules, registry⟩ tokens segments).mapError .broken :=
      fun tokens => matchMessage_of_read registry rfl hitems hsegments hrules
    have hgoesOn : ∀ r : MatchResult,
        matchMessage (.tokens behind) (.list (r.remaining.map Segment.toValue)) raw registry =
          (matchTokens ⟨rules, registry⟩ behind r.remaining).mapError .broken :=
      fun r => matchMessage_of_read registry rfl rfl (readMessage_toValue _) hrules
    rw [hmatch, hmatch, matchTokens_sequence hlast hbehind]
    rcases matchTokens ⟨rules, registry⟩ (front ++ [last]) segments with e | _ | r
    · rfl
    · rfl
    · show ((matchTokens ⟨rules, registry⟩ behind r.remaining).map _).mapError _ =
        (matchMessage (.tokens behind) _ raw registry).map _
      rw [hgoesOn]
      cases matchTokens ⟨rules, registry⟩ behind r.remaining <;> rfl

/-- In front of the face a single parameter takes the whole text, behind it two share one;
the name that is set on both sides keeps its first place and its last value. -/
theorem matchMessage_sequence_face :
    matchMessage (.tokens ([.parameter "who" "text" true none] ++
          .parameter "face" "face" false none ::
            [.parameter "who" "text" true none, .parameter "what" "text" true none]))
        (.list [.segment "text" [("text", .text "ann")], .segment "face" [("id", .int 1)],
          .segment "text" [("text", .text "bob waves")], .segment "face" [("id", .int 2)]])
        none .builtin =
      .ok (some
        { matched := [.ofText "ann", ⟨"face", [("id", .int 1)]⟩, .ofText "bob", .ofText " waves"]
          params := [("who", .text "bob"), ("face", .int 1), ("what", .text "waves")]
          remaining := [⟨"face", [("id", .int 2)]⟩] }) := by
  have hlast : (Token.parameter "face" "face" false none).TakesWhole .builtin :=
    ⟨rfl, by decide, by decide⟩
  have hbehind : ∃ token ∈ [Token.parameter "who" "text" true none,
      .parameter "what" "text" true none], ∀ text, token ≠ .literal text true :=
    ⟨_, List.mem_cons_self, fun text h => by cases h⟩
  refine (matchMessage_sequence hlast hbehind _ _ none).trans ?_
  rfl

end MessagePattern
