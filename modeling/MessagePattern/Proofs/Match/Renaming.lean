import MessagePattern.Proofs.Match.Lockstep

/-!
# Names and defaults

What a pattern calls its parameters, and what they hold where nothing is supplied, is for whoever
reads the result; it steers no match. Two lists of tokens that differ in nothing else
(`Token.Alike`) go in step (`goInStep_alike`), and where no name is given twice, they find the
same values, save for parameters that fall back to their defaults (`matchMessage_of_alike`).
-/

namespace MessagePattern

/-- Tokens that differ at most in the name of their parameter and in its default. -/
inductive Token.Alike : Token → Token → Prop
  | literal (text : String) (optional : Bool) :
      Alike (.literal text optional) (.literal text optional)
  | typedLiteral (kind value : String) :
      Alike (.typedLiteral kind value) (.typedLiteral kind value)
  | parameter (name name' dataType : String) (optional : Bool) (default default' : Option Value) :
      Alike (.parameter name dataType optional default)
        (.parameter name' dataType optional default')
  | rest (name name' : String) (dataType : Option String) :
      Alike (.rest name dataType) (.rest name' dataType)

variable {setting : Setting} {token token' : Token} {rest rest' tokens tokens' : List Token}
  {st st' ended ended' : MatchState} {name name' : String} {segments : List Segment}

/-! ## Attempts of tokens that are alike -/

/-- Texts are shared by the same tokens, whatever these are called. -/
theorem optionalsSharing_of_alike {registry : Registry}
    (h : List.Forall₂ Token.Alike tokens tokens') :
    optionalsSharing registry tokens' = optionalsSharing registry tokens := by
  induction h with
  | nil => rfl
  | cons halike _ ih =>
      cases halike with
      | literal text optional =>
          cases optional with
          | true => exact ih
          | false => rfl
      | typedLiteral kind value => rfl
      | parameter name name' dataType optional default default' =>
          rw [optionalsSharing, optionalsSharing, ih]
      | rest name name' dataType => rfl

theorem tryParameter_notedFor {dataType : String} {shared : Bool} {s : Segment} {blob : Bool}
    (hname : token.name? = some name') :
    tryParameter setting name' dataType shared s blob =
      (tryParameter setting name dataType shared s blob).map
        (Option.map (Intake.notedFor token)) := by
  have hnoted : ∀ (i : Intake) (v : Value), (i.named name v).notedFor token = i.named name' v := by
    intro i v
    rw [Intake.notedFor, hname]
    rfl
  unfold tryParameter
  split
  · unfold tryTextParameter
    cases s.text? with
    | none => rfl
    | some text =>
        simp only
        rcases readAs setting.registry dataType
          (String.ofList (portion shared blob text.toList).reads) with e | _ | v
        · rfl
        · rfl
        · exact congrArg (Except.ok ∘ some) (hnoted _ v).symm
  · unfold tryKindParameter
    split
    · rfl
    · exact congrArg (Except.ok ∘ some) (hnoted _ _).symm

/-- A token that is alike takes the same of a segment, and notes the same value under its own
name. -/
theorem intake?_of_alike (halike : token.Alike token')
    (hrest : List.Forall₂ Token.Alike rest rest') (s : Segment) (blob : Bool) :
    intake? setting token' rest' s blob =
      (intake? setting token rest s blob).map (Option.map (Intake.notedFor token')) := by
  have hshared : optionalsSharing setting.registry (token' :: rest') =
      optionalsSharing setting.registry (token :: rest) :=
    optionalsSharing_of_alike (.cons halike hrest)
  cases halike with
  | literal text optional => exact (map_notedFor_intake rfl s blob).symm
  | typedLiteral kind value => exact (map_notedFor_intake rfl s blob).symm
  | parameter name name' dataType optional default default' =>
      rw [intake?, intake?, hshared]
      exact tryParameter_notedFor rfl
  | rest name name' dataType => rfl

theorem Token.Alike.counterpart (h : token.Alike token') : token.Counterpart token' where
  isSome_name? := by cases h <;> rfl
  isDispensable_eq := by cases h <;> rfl
  runType?_eq := by cases h <;> rfl

theorem tryHere_of_alike (halike : token.Alike token')
    (hrest : List.Forall₂ Token.Alike rest rest') (hsame : st.SameButParams st') :
    TriedAlike setting token token' st st' (tryHere setting token rest st)
      (tryHere setting token' rest' st') :=
  triedAlike_of_intake halike.counterpart hsame fun _ _ => intake?_of_alike halike hrest _ _

/-- Tokens that are alike go in step, wherever their runs come to. -/
theorem goInStep_alike : GoInStep setting Token.Alike fun _ => True where
  counterpart := Token.Alike.counterpart
  tried halike hrest _ hsame := tryHere_of_alike halike hrest hsame
  keeps _ _ := trivial

/-! ## The values of parameters -/

/-- Of two parameters that are alike and are skipped, rest parameters hold the same, and others
their defaults. -/
theorem values_of_skip {r r' result result' : MatchResult} (halike : token.Alike token')
    (hname : token.name? = some name) (hname' : token'.name? = some name')
    (hskip : r.skip token = some result) (hskip' : r'.skip token' = some result') :
    ∃ v v', result.params = Table.set r.params name v ∧
      result'.params = Table.set r'.params name' v' ∧
      (v = v' ∨ ∃ name dataType default, token = .parameter name dataType true default) := by
  cases halike with
  | literal text optional => cases hname
  | typedLiteral kind value => cases hname
  | parameter _ _ dataType optional default default' =>
      cases hname
      cases hname'
      cases optional with
      | false => cases hskip
      | true =>
          cases hskip
          cases hskip'
          exact ⟨_, _, rfl, rfl, Or.inr ⟨_, _, _, rfl⟩⟩
  | rest _ _ dataType =>
      cases hname
      cases hname'
      cases hskip
      cases hskip'
      exact ⟨_, _, rfl, rfl, Or.inl rfl⟩

/-- Steps of two parameters that are alike set the same value, if they do not fall back. -/
theorem values_of_step {st₁ st₁' : MatchState} (halike : token.Alike token')
    (hrest : List.Forall₂ Token.Alike rest rest') (hsame : st.SameButParams st')
    (hname : token.name? = some name) (hname' : token'.name? = some name')
    (hstep : step setting token rest st = .ok (some st₁))
    (hstep' : step setting token' rest' st' = .ok (some st₁')) :
    ∃ v v', st₁.result.params = Table.set st.result.params name v ∧
      st₁'.result.params = Table.set st'.result.params name' v' ∧
      (v = v' ∨ FallsBack setting token rest st) := by
  rcases goInStep_alike.values_of_step halike hrest trivial hsame hname hname' hstep hstep' with
    ⟨_, v, hparams, hparams'⟩ | ⟨hnone, _, hskip, hskip'⟩
  · exact ⟨v, v, hparams, hparams', Or.inl rfl⟩
  · obtain ⟨v, v', hparams, hparams', hvalue | hoptional⟩ :=
      values_of_skip halike hname hname' hskip hskip'
    · exact ⟨v, v', hparams, hparams', Or.inl hvalue⟩
    · exact ⟨v, v', hparams, hparams', Or.inr ⟨hoptional, hnone⟩⟩

theorem name?_ne_of_nodup {front behind : List Token}
    (h : ((front ++ token :: behind).filterMap Token.name?).Nodup)
    (hname : token.name? = some name) : ∀ other ∈ behind, other.name? ≠ some name := by
  intro other hmem hother
  rw [List.filterMap_append, List.filterMap_cons_some hname] at h
  have hnotMem := (List.nodup_cons.mp (List.nodup_append.mp h).2.1).1
  exact hnotMem (List.mem_filterMap.mpr ⟨other, hmem, hother⟩)

/-- Where no name is given twice, runs over tokens that are alike end with the same value for
corresponding parameters, save for those that fall back. -/
theorem values_of_steps {front front' behind behind' : List Token}
    (halike : List.Forall₂ Token.Alike (front ++ token :: behind) (front' ++ token' :: behind'))
    (hlength : front.length = front'.length) (hsame : st.SameButParams st')
    (hnodup : ((front ++ token :: behind).filterMap Token.name?).Nodup)
    (hnodup' : ((front' ++ token' :: behind').filterMap Token.name?).Nodup)
    (hname : token.name? = some name) (hname' : token'.name? = some name')
    (hsteps : steps setting (front ++ token :: behind) st = .ok (some ended))
    (hsteps' : steps setting (front' ++ token' :: behind') st' = .ok (some ended')) :
    ∃ st₁ v v', Reaches setting (front ++ token :: behind) st (token :: behind) st₁ ∧
      ended.result.params.get? name = some v ∧ ended'.result.params.get? name' = some v' ∧
      (v = v' ∨ FallsBack setting token behind st₁) := by
  obtain ⟨st₁, hreaches, hsteps⟩ := exists_reaches_of_append hsteps
  obtain ⟨-, st₁', hreaches', ⟨htoken, hbehind⟩, hsame₁⟩ :=
    goInStep_alike.reaches_alike_split halike hlength trivial hsame hreaches
  rw [hreaches'.steps_eq] at hsteps'
  obtain ⟨st₂, hstep, hsteps⟩ := exists_step_of_steps hsteps
  obtain ⟨st₂', hstep', hsteps'⟩ := exists_step_of_steps hsteps'
  obtain ⟨v, v', hparams, hparams', hvalues⟩ :=
    values_of_step htoken hbehind hsame₁ hname hname' hstep hstep'
  refine ⟨st₁, v, v', hreaches, ?_, ?_, hvalues⟩
  · rw [get?_params_of_steps (name?_ne_of_nodup hnodup hname) hsteps, hparams, Table.get?_set,
      if_pos rfl]
  · rw [get?_params_of_steps (name?_ne_of_nodup hnodup' hname') hsteps', hparams',
      Table.get?_set, if_pos rfl]

/-! ## Matches of tokens that are alike -/

/-- Let two lists of tokens differ in nothing but the names and the defaults of parameters. Then
one matches a message exactly if the other does, and both take and leave the same segments. Their
runs come to corresponding tokens at the same places, and there both take something or neither
does. And where no name is given twice, corresponding parameters hold the same value, each under
its own name, save for those that fall back. -/
theorem matchMessage_of_alike {message : Value} {items : List Value} {raw : Option RawRules}
    {rules : Rules} (registry : Registry) (halike : List.Forall₂ Token.Alike tokens tokens')
    (hitems : message.items? = some items) (hsegments : readMessage items = .ok segments)
    (hrules : Rules.resolve raw = .ok rules) :
    (matchMessage (.tokens tokens') message raw registry).map (Option.map MatchResult.parts) =
      (matchMessage (.tokens tokens) message raw registry).map (Option.map MatchResult.parts) ∧
    ∀ front token behind front' token' behind', tokens = front ++ token :: behind →
      tokens' = front' ++ token' :: behind' → front.length = front'.length →
        (∀ st,
          Reaches ⟨rules, registry⟩ tokens { cursor := .start segments } (token :: behind) st →
          ∃ st', Reaches ⟨rules, registry⟩ tokens' { cursor := .start segments }
              (token' :: behind') st' ∧ st'.cursor = st.cursor ∧
            (tryHere ⟨rules, registry⟩ token' behind' st' = .ok none ↔
              tryHere ⟨rules, registry⟩ token behind st = .ok none)) ∧
        ∀ name name' r r', (tokens.filterMap Token.name?).Nodup →
          (tokens'.filterMap Token.name?).Nodup →
          token.name? = some name → token'.name? = some name' →
          matchMessage (.tokens tokens) message raw registry = .ok (some r) →
          matchMessage (.tokens tokens') message raw registry = .ok (some r') →
            ∃ st v v',
              Reaches ⟨rules, registry⟩ tokens { cursor := .start segments } (token :: behind) st ∧
              r.params.get? name = some v ∧ r'.params.get? name' = some v' ∧
              (v = v' ∨ FallsBack ⟨rules, registry⟩ token behind st) := by
  have hmatch : ∀ tokens, matchMessage (.tokens tokens) message raw registry =
      (matchTokens ⟨rules, registry⟩ tokens segments).mapError .broken :=
    fun tokens => matchMessage_of_read registry rfl hitems hsegments hrules
  constructor
  · have hparts : ∀ answer : Except MatchFault (Option MatchResult),
        (answer.mapError Refusal.broken).map (Option.map MatchResult.parts) =
          (answer.map (Option.map MatchResult.parts)).mapError Refusal.broken := by
      intro answer
      cases answer <;> rfl
    rw [hmatch, hmatch, hparts, hparts, goInStep_alike.matchTokens_parts halike trivial]
  · rintro front token behind front' token' behind' rfl rfl hlength
    constructor
    · intro st hreaches
      obtain ⟨-, st', hreaches', ⟨htoken, hbehind⟩, hsame⟩ :=
        goInStep_alike.reaches_alike_split halike hlength trivial .start hreaches
      refine ⟨st', hreaches', hsame.cursor_eq, ?_⟩
      have htried : TriedAlike ⟨rules, registry⟩ token token' st st'
          (tryHere ⟨rules, registry⟩ token behind st)
          (tryHere ⟨rules, registry⟩ token' behind' st') := tryHere_of_alike htoken hbehind hsame
      generalize tryHere _ token behind st = tried, tryHere _ token' behind' st' = tried'
        at htried ⊢
      cases htried <;> simp
    · intro name name' r r' hnodup hnodup' hname hname' hr hr'
      rw [hmatch, mapError_eq_ok_iff] at hr hr'
      obtain ⟨ended, hsteps, rfl⟩ := exists_steps_of_matchTokens hr
      obtain ⟨ended', hsteps', rfl⟩ := exists_steps_of_matchTokens hr'
      exact values_of_steps halike hlength .start hnodup hnodup' hname hname' hsteps hsteps'

/-- The name is a word of the shared text whatever it is called; the number falls back in front
of the face, to one default and to the other; and the rest parameter takes the face. -/
theorem matchMessage_of_alike_ann :
    (matchMessage (.tokens [.parameter "a" "text" true (some (.text "x")),
          .parameter "b" "integer" true none, .rest "c" none])
        (.list [.segment "text" [("text", .text "ann")], .segment "face" [("id", .int 7)]])
        none .builtin).map (Option.map MatchResult.parts) =
      .ok (some ([.ofText "ann", ⟨"face", [("id", .int 7)]⟩], [])) ∧
    ∃ st v v',
      Reaches ⟨.defaults, .builtin⟩
        [.parameter "who" "text" true none, .parameter "times" "integer" true (some (.int 1)),
          .rest "more" none]
        { cursor := .start [.ofText "ann", ⟨"face", [("id", .int 7)]⟩] }
        [.parameter "times" "integer" true (some (.int 1)), .rest "more" none] st ∧
      Table.get? [("who", Value.text "ann"), ("times", .int 1),
        ("more", .list [.segment "face" [("id", .int 7)]])] "times" = some v ∧
      Table.get? [("a", Value.text "ann"), ("b", .null),
        ("c", .list [.segment "face" [("id", .int 7)]])] "b" = some v' ∧
      (v = v' ∨ FallsBack ⟨.defaults, .builtin⟩
        (.parameter "times" "integer" true (some (.int 1))) [.rest "more" none] st) := by
  have halike : List.Forall₂ Token.Alike
      [.parameter "who" "text" true none, .parameter "times" "integer" true (some (.int 1)),
        .rest "more" none]
      [.parameter "a" "text" true (some (.text "x")), .parameter "b" "integer" true none,
        .rest "c" none] :=
    .cons (.parameter _ _ _ _ _ _) (.cons (.parameter _ _ _ _ _ _) (.cons (.rest _ _ _) .nil))
  have hitems : ∀ items, (Value.list items).items? = some items := fun _ => rfl
  have hsegments : readMessage
      [.segment "text" [("text", .text "ann")], .segment "face" [("id", .int 7)]] =
        .ok [.ofText "ann", ⟨"face", [("id", .int 7)]⟩] := rfl
  have hrules : Rules.resolve none = .ok .defaults := rfl
  obtain ⟨hparts, hplaces⟩ := matchMessage_of_alike .builtin halike (hitems _) hsegments hrules
  constructor
  · rw [hparts]
    rfl
  · exact (hplaces [.parameter "who" "text" true none] _ _
      [.parameter "a" "text" true (some (.text "x"))] _ _ rfl rfl rfl).2 "times" "b"
      { matched := [.ofText "ann", ⟨"face", [("id", .int 7)]⟩]
        params := [("who", .text "ann"), ("times", .int 1),
          ("more", .list [.segment "face" [("id", .int 7)]])] }
      { matched := [.ofText "ann", ⟨"face", [("id", .int 7)]⟩]
        params := [("a", .text "ann"), ("b", .null),
          ("c", .list [.segment "face" [("id", .int 7)]])] }
      (by decide) (by decide) rfl rfl rfl rfl

end MessagePattern
