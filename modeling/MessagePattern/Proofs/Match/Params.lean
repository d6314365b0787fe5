import MessagePattern.Proofs.Match.Validity

/-!
# The parameters of a result

Whoever handles a match looks parameters up by name, so a result has to hold every name that
the tokens declare, and no other. Each step sets the parameter of its token and leaves all
others as they are (`params_of_step`), whether the token matches, falls back or collects
nothing. Hence the keys of the parameters are the declared names, each at its first place,
and a name that is declared more than once has the value of its last token.
-/

namespace MessagePattern

variable {setting : Setting} {token : Token} {rest tokens tokens' behind : List Token}
  {segments : List Segment} {st st' ended : MatchState} {name : String}

/-- The name of the parameter that a token sets, if it sets one. -/
def Token.name? : Token → Option String
  | .parameter name _ _ _ => some name
  | .rest name _ => some name
  | _ => none

/-! ## What a step does to the parameters -/

/-- The value that a token gives its parameter in a state. -/
inductive Supplies (setting : Setting) (token : Token) (rest : List Token) (st : MatchState) :
    Value → Prop
  /-- The token matches the current segment, and this is what it reads off it. -/
  | matched {current : Labelled} {i : Intake} {name : String} {v : Value}
      (hcurrent : st.cursor.current? = some current)
      (hintake : intake? setting token rest current.segment (st.cursor.isBlob current.label) =
        .ok (some i))
      (hparam : i.param = some (name, v)) : Supplies setting token rest st v
  /-- An optional parameter does not match, or is at the end of the message. -/
  | fellBack {name dataType : String} {default : Option Value}
      (htoken : token = .parameter name dataType true default)
      (hnone : tryHere setting token rest st = .ok none) :
      Supplies setting token rest st (Token.fallback dataType default)
  /-- A rest parameter holds the values of its run, of which there may be none. -/
  | collected {name : String} {dataType : Option String} (htoken : token = .rest name dataType) :
      Supplies setting token rest st
        (.list ((restRun setting dataType st.ahead).filterMap (·.2)))

/-- A parameter notes its value under its own name, and literals note none. -/
theorem param_of_intake {s : Segment} {blob : Bool} {i : Intake}
    (h : intake? setting token rest s blob = .ok (some i)) :
    i.param.map Prod.fst = token.name? := by
  cases token with
  | literal text optional =>
      obtain ⟨_, _, rfl⟩ := tryLiteral_cases (Except.ok.inj h)
      rfl
  | typedLiteral kind value =>
      obtain ⟨_, _, _, rfl | ⟨_, _, _, _, _, _, rfl⟩⟩ := tryTypedLiteral_cases h
      · rfl
      · rfl
  | parameter name dataType optional default =>
      rcases tryParameter_cases h with ⟨_, _, _, rfl⟩ | ⟨_, _, rfl⟩
      · rfl
      · rfl
  | rest name dataType => cases h

/-- What is supplied for a token is set under its name, and nothing else changes. -/
inductive SetsOnly (setting : Setting) (token : Token) (rest : List Token) (st st' : MatchState) :
    Prop
  | nothing (hname : token.name? = none) (hparams : st'.result.params = st.result.params)
  | value {name : String} {v : Value} (hname : token.name? = some name)
      (hsupplies : Supplies setting token rest st v)
      (hparams : st'.result.params = Table.set st.result.params name v)

theorem setsOnly_absorb {current : Labelled} {i : Intake}
    (hcurrent : st.cursor.current? = some current)
    (hintake : intake? setting token rest current.segment (st.cursor.isBlob current.label) =
      .ok (some i)) : SetsOnly setting token rest st (st.absorb i) := by
  have hname := param_of_intake hintake
  cases hparam : i.param with
  | none =>
      rw [hparam] at hname
      apply SetsOnly.nothing hname.symm
      rw [MatchState.params_absorb, hparam, Option.elim_none]
  | some entry =>
      rw [hparam] at hname
      apply SetsOnly.value hname.symm (.matched hcurrent hintake hparam)
      rw [MatchState.params_absorb, hparam, Option.elim_some]

/-- A rest parameter that is skipped is at the end of the message, so its run is empty. -/
theorem restRun_of_tryHere_eq_none {dataType : Option String}
    (h : tryHere setting (.rest name dataType) rest st = .ok none) :
    restRun setting dataType st.ahead = [] := by
  unfold tryHere at h
  split at h
  · rename_i hend
    rw [MatchState.ahead_eq_nil hend]
    rfl
  · cases h

theorem setsOnly_skip {result : MatchResult} (hnone : tryHere setting token rest st = .ok none)
    (hskip : st.result.skip token = some result) :
    SetsOnly setting token rest st { st with result } := by
  cases token with
  | literal text optional =>
      cases optional with
      | true =>
          cases hskip
          exact .nothing rfl rfl
      | false => cases hskip
  | typedLiteral kind value => cases hskip
  | parameter name dataType optional default =>
      cases optional with
      | true =>
          cases hskip
          exact .value rfl (.fellBack rfl hnone) rfl
      | false => cases hskip
  | rest name dataType =>
      cases hskip
      have hsupplies : Supplies setting (.rest name dataType) rest st (.list []) := by
        have hcollected : Supplies setting (.rest name dataType) rest st _ := .collected rfl
        rwa [restRun_of_tryHere_eq_none hnone] at hcollected
      exact .value rfl hsupplies rfl

/-- A step sets the parameter of its token, if the token has one, and no other. -/
theorem params_of_step (hstep : step setting token rest st = .ok (some st')) :
    SetsOnly setting token rest st st' := by
  rcases step_eq_some_iff.mp hstep with htry | ⟨hnone, result, hskip, rfl⟩
  · obtain ⟨current, hcurrent, ⟨i, hintake, rfl⟩ | ⟨name, dataType, rfl, rfl⟩⟩ :=
      tryHere_cases htry
    · exact setsOnly_absorb hcurrent hintake
    · exact .value rfl (.collected rfl) rfl
  · exact setsOnly_skip hnone hskip

/-! ## What a run does to the parameters -/

theorem eraseDups_concat (names : List String) (name : String) :
    (names ++ [name]).eraseDups =
      if name ∈ names.eraseDups then names.eraseDups else names.eraseDups ++ [name] := by
  rw [List.eraseDups_append]
  by_cases hmem : name ∈ names
  · simp [List.removeAll, hmem]
  · simp [List.removeAll, hmem, List.eraseDups_cons]

/-- At every point of a run the keys are the names that were declared so far. -/
theorem Reaches.keys_eq
    (h : Reaches setting tokens { cursor := .start segments } tokens' st') :
    ∃ front, tokens = front ++ tokens' ∧ st'.result.params.keys.Nodup ∧
      st'.result.params.keys = (front.filterMap Token.name?).eraseDups := by
  induction h with
  | here => exact ⟨[], rfl, List.nodup_nil, rfl⟩
  | @next token rest st₁ st₂ _ hstep ih =>
      obtain ⟨front, htokens, hnodup, hkeys⟩ := ih
      refine ⟨front ++ [token], by simp [htokens], ?_⟩
      rw [List.filterMap_append]
      cases params_of_step hstep with
      | nothing hname hparams =>
          simp only [hparams, List.filterMap_cons, hname, List.filterMap_nil, List.append_nil]
          exact ⟨hnodup, hkeys⟩
      | @value name v hname _ hparams =>
          simp only [hparams, List.filterMap_cons, hname, List.filterMap_nil]
          constructor
          · exact Table.nodup_keys_set hnodup name v
          · rw [Table.keys_set, eraseDups_concat, hkeys]

/-- A run that comes past no token of a name leaves its parameter as it is. -/
theorem get?_params_of_steps (hother : ∀ token ∈ tokens, token.name? ≠ some name)
    (hsteps : steps setting tokens st = .ok (some ended)) :
    ended.result.params.get? name = st.result.params.get? name := by
  induction tokens generalizing st with
  | nil =>
      cases hsteps
      rfl
  | cons token rest ih =>
      obtain ⟨st₁, hstep, hsteps⟩ := exists_step_of_steps hsteps
      have hrest : ∀ token ∈ rest, token.name? ≠ some name :=
        fun token hmem => hother token (List.mem_cons_of_mem _ hmem)
      rw [ih hrest hsteps]
      cases params_of_step hstep with
      | nothing _ hparams => rw [hparams]
      | @value name' v hname _ hparams =>
          have hne : name' ≠ name := by
            intro hsame
            apply hother token List.mem_cons_self
            rw [hname, hsame]
          rw [hparams, Table.get?_set, if_neg hne]

/-- Of the tokens of a name that is declared, one is the last. -/
theorem exists_last_of_name (h : name ∈ tokens.filterMap Token.name?) :
    ∃ front token behind, tokens = front ++ token :: behind ∧ token.name? = some name ∧
      ∀ other ∈ behind, other.name? ≠ some name := by
  induction tokens with
  | nil => cases h
  | cons token rest ih =>
      by_cases hrest : name ∈ rest.filterMap Token.name?
      · obtain ⟨front, last, behind, rfl, hlast⟩ := ih hrest
        exact ⟨token :: front, last, behind, rfl, hlast⟩
      · obtain ⟨last, hmem, hname⟩ := List.mem_filterMap.mp h
        have hothers : ∀ other ∈ rest, other.name? ≠ some name :=
          fun other hmem hother => hrest (List.mem_filterMap.mpr ⟨other, hmem, hother⟩)
        rcases List.mem_cons.mp hmem with rfl | hmem
        · exact ⟨[], last, rest, rfl, hname, hothers⟩
        · exact absurd hname (hothers last hmem)

/-- A run leaves a parameter the value that the last token of its name supplies. -/
theorem exists_supplies_of_steps {front : List Token} (hname : token.name? = some name)
    (hlast : ∀ token ∈ behind, token.name? ≠ some name)
    (hsteps : steps setting (front ++ token :: behind) st = .ok (some ended)) :
    ∃ st' v, Reaches setting (front ++ token :: behind) st (token :: behind) st' ∧
      Supplies setting token behind st' v ∧ ended.result.params.get? name = some v := by
  obtain ⟨st₁, hreaches, hsteps⟩ := exists_reaches_of_append hsteps
  obtain ⟨st₂, hstep, hbehind⟩ := exists_step_of_steps hsteps
  cases params_of_step hstep with
  | nothing hnone _ =>
      rw [hname] at hnone
      cases hnone
  | @value name' v hname' hsupplies hparams =>
      have hsame : name' = name := Option.some.inj (hname'.symm.trans hname)
      refine ⟨st₁, v, hreaches, hsupplies, ?_⟩
      rw [get?_params_of_steps hlast hbehind, hparams, hsame, Table.get?_set, if_pos rfl]

/-- At the end of a run the keys are all the names that its tokens declare. -/
theorem keys_of_steps
    (hsteps : steps setting tokens { cursor := .start segments } = .ok (some ended)) :
    ended.result.params.keys.Nodup ∧
      ended.result.params.keys = (tokens.filterMap Token.name?).eraseDups := by
  obtain ⟨front, htokens, hnodup, hkeys⟩ := (reaches_of_steps hsteps).keys_eq
  rw [List.append_nil] at htokens
  rw [htokens]
  exact ⟨hnodup, hkeys⟩

/-! ## The parameters of a match -/

/-- A result holds exactly the parameters that the tokens declare, each once and in the order
in which they were first declared. A parameter has the value that the last token of its name
supplies when the run comes to it. -/
theorem matchMessage_params {source : PatternSource} {message : Value} {items : List Value}
    {raw : Option RawRules} {rules : Rules} {registry : Registry} {r : MatchResult}
    (hsource : source.resolve = .ok tokens) (hitems : message.items? = some items)
    (hsegments : readMessage items = .ok segments) (hrules : Rules.resolve raw = .ok rules)
    (hmatch : matchMessage source message raw registry = .ok (some r)) :
    (r.params.keys.Nodup ∧ r.params.keys = (tokens.filterMap Token.name?).eraseDups) ∧
    ∀ front token behind name, tokens = front ++ token :: behind → token.name? = some name →
      (∀ token ∈ behind, token.name? ≠ some name) →
        ∃ st v,
          Reaches ⟨rules, registry⟩ tokens { cursor := .start segments } (token :: behind) st ∧
          Supplies ⟨rules, registry⟩ token behind st v ∧ r.params.get? name = some v := by
  rw [matchMessage_of_read registry hsource hitems hsegments hrules, mapError_eq_ok_iff] at hmatch
  obtain ⟨ended, hsteps, rfl⟩ := exists_steps_of_matchTokens hmatch
  constructor
  · exact keys_of_steps hsteps
  · rintro front token behind name rfl hname hlast
    exact exists_supplies_of_steps hname hlast hsteps

/-- The text that `who` holds first gives way to the face behind it, in the same place; the
rest parameter finds no image in between. -/
theorem matchMessage_params_who :
    matchMessage (.tokens [.parameter "who" "text" true none, .rest "seen" (some "image"),
          .parameter "who" "face" false none])
        (.list [.segment "text" [("text", .text "ann")], .segment "face" [("id", .int 7)]])
        none .builtin =
      .ok (some
        { matched := [.ofText "ann", ⟨"face", [("id", .int 7)]⟩]
          params := [("who", .int 7), ("seen", .list [])] }) ∧
    Table.keys [("who", Value.int 7), ("seen", .list [])] =
      (["who", "seen", "who"] : List String).eraseDups ∧
    ∃ st v,
      Reaches ⟨.defaults, .builtin⟩
        [.parameter "who" "text" true none, .rest "seen" (some "image"),
          .parameter "who" "face" false none]
        { cursor := .start [.ofText "ann", ⟨"face", [("id", .int 7)]⟩] }
        [.parameter "who" "face" false none] st ∧
      Supplies ⟨.defaults, .builtin⟩ (.parameter "who" "face" false none) [] st v ∧
      Table.get? [("who", Value.int 7), ("seen", .list [])] "who" = some v := by
  have hmatch : matchMessage (.tokens [.parameter "who" "text" true none,
        .rest "seen" (some "image"), .parameter "who" "face" false none])
      (.list [.segment "text" [("text", .text "ann")], .segment "face" [("id", .int 7)]])
      none .builtin =
      .ok (some
        { matched := [.ofText "ann", ⟨"face", [("id", .int 7)]⟩]
          params := [("who", .int 7), ("seen", .list [])] }) := by
    rfl
  obtain ⟨⟨_, hkeys⟩, hvalues⟩ := matchMessage_params rfl rfl rfl rfl hmatch
  refine ⟨hmatch, hkeys, ?_⟩
  apply hvalues [.parameter "who" "text" true none, .rest "seen" (some "image")]
  · rfl
  · rfl
  · intro token hmem
    cases hmem

end MessagePattern
