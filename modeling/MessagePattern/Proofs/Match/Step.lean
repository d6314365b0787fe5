import MessagePattern.Match.Message
import MessagePattern.Proofs.Answer

/-!
# What a step of a run has done

A token that gets its step through has done one of three things: it took in the
current segment, it collected a run as a rest parameter, or it was skipped. Facts
about whole runs are proved from these three (`step_cases`) and carried over all
tokens by `steps_induction`. The cursor is seen here as the list of the
segments ahead; places, pushes and labels play no part.
-/

namespace MessagePattern

/-! ## The segments ahead -/

namespace MatchState

theorem ahead_start (message : List Segment) :
    ({ cursor := .start message } : MatchState).ahead = message := by
  have hlabel : ∀ place, (Cursor.labelFrom place message).map (·.segment) = message := by
    induction message with
    | nil => intro place; rfl
    | cons s rest ih => intro place; simp [Cursor.labelFrom, ih]
  exact hlabel 0

/-- The current segment is the first of those ahead. -/
theorem ahead_eq_cons {st : MatchState} {current : Labelled}
    (h : st.cursor.current? = some current) :
    st.ahead = current.segment :: st.ahead.tail := by
  rw [Cursor.current?_eq_head?] at h
  obtain ⟨behind, hbehind⟩ := List.head?_eq_some_iff.mp h
  simp [ahead, hbehind]

/-- What a token leaves of the current segment takes its place. -/
theorem ahead_absorb (st : MatchState) (i : Intake) :
    (st.absorb i).ahead = pieceOf i.left ++ st.ahead.tail := by
  have hpassed : (st.cursor.advance 1).upcoming = st.cursor.upcoming.tail := by
    rw [Cursor.upcoming_advance]
    exact List.drop_one
  cases hleft : i.left.isEmpty with
  | true => simp [absorb, ahead, pieceOf, hleft, hpassed]
  | false => simp [absorb, ahead, pieceOf, hleft, Cursor.upcoming_push, hpassed]

theorem matched_absorb (st : MatchState) (i : Intake) :
    (st.absorb i).result.matched = st.result.matched ++ i.taken := by
  cases h : i.param <;> simp [absorb, h, MatchResult.take, MatchResult.setParam]

theorem remaining_absorb (st : MatchState) (i : Intake) :
    (st.absorb i).result.remaining = st.result.remaining := by
  cases h : i.param <;> simp [absorb, h, MatchResult.take, MatchResult.setParam]

theorem params_absorb (st : MatchState) (i : Intake) :
    (st.absorb i).result.params =
      i.param.elim st.result.params fun (name, v) => Table.set st.result.params name v := by
  cases h : i.param <;> simp [absorb, h, MatchResult.take, MatchResult.setParam]

end MatchState

/-! ## Rest parameters -/

/-- A run and what lies behind it make up the segments it was read from. -/
theorem restRun_append_drop (setting : Setting) (dataType : Option String) :
    ∀ segments : List Segment,
      (restRun setting dataType segments).map (·.1) ++
        segments.drop (restRun setting dataType segments).length = segments
  | [] => rfl
  | s :: more => by
      cases h : restPart setting dataType s with
      | none => simp [restRun, h]
      | some added => simp [restRun, h, restRun_append_drop setting dataType more]

theorem ahead_takeRest (setting : Setting) (name : String) (dataType : Option String)
    (st : MatchState) : (takeRest setting name dataType st).ahead =
      st.ahead.drop (restRun setting dataType st.ahead).length := by
  simp [takeRest, MatchState.ahead, Cursor.upcoming_advance, List.map_drop]

theorem matched_append_ahead_takeRest (setting : Setting) (name : String)
    (dataType : Option String) (st : MatchState) :
    (takeRest setting name dataType st).result.matched ++
        (takeRest setting name dataType st).ahead =
      st.result.matched ++ st.ahead := by
  rw [ahead_takeRest]
  show (st.result.matched ++ (restRun setting dataType st.ahead).map (·.1)) ++ _ = _
  rw [List.append_assoc, restRun_append_drop]

/-! ## Steps -/

/-- What a step has done with its token. -/
inductive Stepped (setting : Setting) (token : Token) (rest : List Token) (st : MatchState) :
    MatchState → Prop
  /-- The token took in the current segment. -/
  | took {current : Labelled} {i : Intake} (hcurrent : st.cursor.current? = some current)
      (hintake : intake? setting token rest current.segment (st.cursor.isBlob current.label) =
        .ok (some i)) :
      Stepped setting token rest st (st.absorb i)
  /-- It is a rest parameter and collected its run. -/
  | collected {name : String} {dataType : Option String} (htoken : token = .rest name dataType) :
      Stepped setting token rest st (takeRest setting name dataType st)
  /-- The message can go without it. -/
  | skipped {result : MatchResult} (hskip : st.result.skip token = some result) :
      Stepped setting token rest st { st with result }

/-- An attempt that gets through took in the current segment, or collected the run of a rest
parameter. -/
theorem tryHere_cases {setting : Setting} {token : Token} {rest : List Token}
    {st st' : MatchState} (h : tryHere setting token rest st = .ok (some st')) :
    ∃ current, st.cursor.current? = some current ∧
      ((∃ i, intake? setting token rest current.segment (st.cursor.isBlob current.label) =
          .ok (some i) ∧ st' = st.absorb i) ∨
        ∃ name dataType, token = .rest name dataType ∧ st' = takeRest setting name dataType st) := by
  unfold tryHere at h
  split at h
  · cases h
  rename_i current hcurrent
  refine ⟨current, hcurrent, ?_⟩
  by_cases hrest : ∃ name dataType, token = .rest name dataType
  · obtain ⟨name, dataType, rfl⟩ := hrest
    have hst' : takeRest setting name dataType st = st' := Option.some.inj (Except.ok.inj h)
    exact Or.inr ⟨name, dataType, rfl, hst'.symm⟩
  · rw [tryToken] at h
    · obtain ⟨taken, hintake, h⟩ := map_eq_ok_iff.mp h
      obtain ⟨i, rfl, hst'⟩ := Option.map_eq_some_iff.mp h
      exact Or.inl ⟨i, hintake, hst'.symm⟩
    · -- The equation for the other tokens asks that this is no rest parameter.
      exact fun name dataType htoken => hrest ⟨name, dataType, htoken⟩

/-- A step gets through if its attempt does, or if the message can go without the token. -/
theorem step_eq_some_iff {setting : Setting} {token : Token} {rest : List Token}
    {st st' : MatchState} : step setting token rest st = .ok (some st') ↔
      tryHere setting token rest st = .ok (some st') ∨
      tryHere setting token rest st = .ok none ∧
        ∃ result, st.result.skip token = some result ∧ st' = { st with result } := by
  unfold step
  rcases tryHere setting token rest st with e | _ | tried
  · simp [bind, Except.bind]
  · simp [bind, Except.bind, pure, Except.pure, Option.map_eq_some_iff, @eq_comm _ st']
  · simp [bind, Except.bind, pure, Except.pure]

/-- Every step that gets through took a segment in, collected a run or was
skipped. -/
theorem step_cases {setting : Setting} {token : Token} {rest : List Token} {st st' : MatchState}
    (h : step setting token rest st = .ok (some st')) : Stepped setting token rest st st' := by
  rcases step_eq_some_iff.mp h with htry | ⟨_, result, hskip, rfl⟩
  · obtain ⟨current, hcurrent, ⟨i, hintake, rfl⟩ | ⟨name, dataType, htoken, rfl⟩⟩ :=
      tryHere_cases htry
    · exact .took hcurrent hintake
    · exact .collected htoken
  · exact .skipped hskip

/-- A run that gets through begins with a step that does. -/
theorem exists_step_of_steps {setting : Setting} {token : Token} {rest : List Token}
    {st ended : MatchState} (h : steps setting (token :: rest) st = .ok (some ended)) :
    ∃ st₁, step setting token rest st = .ok (some st₁) ∧
      steps setting rest st₁ = .ok (some ended) := by
  obtain ⟨stepped, hstep, h⟩ := bind_eq_ok_iff.mp h
  cases stepped with
  | none => cases h
  | some st₁ => exact ⟨st₁, hstep, h⟩

/-- What every step preserves, a run preserves. -/
theorem steps_induction {setting : Setting} {P : MatchState → Prop}
    (hstep : ∀ {token rest st st'}, P st → Stepped setting token rest st st' → P st') :
    ∀ {tokens : List Token} {st st' : MatchState},
      steps setting tokens st = .ok (some st') → P st → P st'
  | [], st, st', h, hP => by
      cases h
      exact hP
  | token :: rest, st, st', h, hP => by
      obtain ⟨st₁, hst₁, h⟩ := exists_step_of_steps h
      exact steps_induction hstep h (hstep hP (step_cases hst₁))

/-- What lies ahead after a step lay ahead before it, or is what was left of a text. -/
theorem mem_ahead_of_stepped {setting : Setting} {token : Token} {rest : List Token}
    {st st' : MatchState} (h : Stepped setting token rest st st') {s : Segment}
    (hs : s ∈ st'.ahead) : s ∈ st.ahead ∨ s.kind = textKind := by
  cases h with
  | took _ _ =>
      rw [MatchState.ahead_absorb, pieceOf, List.mem_append] at hs
      rcases hs with hpiece | hbehind
      · split at hpiece
        · cases hpiece
        · right
          rw [List.mem_singleton.mp hpiece]
          rfl
      · exact Or.inl (List.mem_of_mem_tail hbehind)
  | collected _ =>
      rw [ahead_takeRest] at hs
      exact Or.inl (List.mem_of_mem_drop hs)
  | skipped _ => exact Or.inl hs

/-! ## Skipped tokens and whole matches -/

/-- A token that is skipped takes nothing and leaves nothing over. -/
theorem skip_keeps {r r' : MatchResult} {token : Token} (h : r.skip token = some r') :
    r'.matched = r.matched ∧ r'.remaining = r.remaining := by
  unfold MatchResult.skip at h
  split at h <;> cases h <;> exact ⟨rfl, rfl⟩

/-- Nothing is left over before the end of a run. -/
theorem Stepped.remaining_eq {setting : Setting} {token : Token} {rest : List Token}
    {st st' : MatchState} (h : Stepped setting token rest st st') :
    st'.result.remaining = st.result.remaining := by
  cases h with
  | took _ _ => exact MatchState.remaining_absorb st _
  | collected _ => rfl
  | skipped hskip => exact (skip_keeps hskip).2

/-- Goes on without any of the tokens, if the message can. -/
def skipAll : List Token → MatchResult → Option MatchResult
  | [], result => some result
  | token :: rest, result => (result.skip token).bind (skipAll rest)

/-- The tokens that can be skipped are those that an empty message matches. -/
theorem skip_eq (r : MatchResult) (token : Token) :
    r.skip token = if token.isDispensable then some (r.setUnsupplied token) else none := by
  cases token with
  | literal text optional => cases optional <;> rfl
  | typedLiteral kind value => rfl
  | parameter name dataType optional default => cases optional <;> rfl
  | rest name dataType => rfl

/-- A step does not get through, without failing, exactly if its attempt takes nothing and the
message cannot go without the token. -/
theorem step_eq_none_iff {setting : Setting} {token : Token} {rest : List Token}
    {st : MatchState} : step setting token rest st = .ok none ↔
      tryHere setting token rest st = .ok none ∧ token.isDispensable = false := by
  unfold step
  rcases tryHere setting token rest st with e | _ | tried
  · simp [bind, Except.bind]
  · simp [bind, Except.bind, pure, Except.pure, skip_eq]
  · simp [bind, Except.bind, pure, Except.pure]

theorem skipAll_eq (tokens : List Token) (r : MatchResult) :
    skipAll tokens r =
      if tokens.all (·.isDispensable) then some (tokens.foldl MatchResult.setUnsupplied r)
      else none := by
  induction tokens generalizing r with
  | nil => rfl
  | cons token rest ih =>
      rw [skipAll, skip_eq, List.all_cons, List.foldl_cons]
      cases token.isDispensable with
      | false => rfl
      | true => exact ih (r.setUnsupplied token)

/-- An empty message is matched by going on without any of the tokens. -/
theorem matchTokens_nil (setting : Setting) (tokens : List Token) :
    matchTokens setting tokens [] = .ok (skipAll tokens {}) := by
  rw [skipAll_eq]
  cases tokens with
  | nil => rfl
  | cons token rest => rfl

theorem skipAll_keeps : ∀ {tokens : List Token} {r r' : MatchResult},
    skipAll tokens r = some r' → r'.matched = r.matched ∧ r'.remaining = r.remaining
  | [], r, r', h => by
      cases h
      exact ⟨rfl, rfl⟩
  | token :: rest, r, r', h => by
      obtain ⟨r₁, hskip, hrest⟩ := Option.bind_eq_some_iff.mp h
      obtain ⟨hmatched, hremaining⟩ := skip_keeps hskip
      obtain ⟨hmatched', hremaining'⟩ := skipAll_keeps hrest
      exact ⟨hmatched'.trans hmatched, hremaining'.trans hremaining⟩

/-- A run ends in what it found with all that lies ahead left over, if that is
anything. -/
theorem finish_eq_some_iff {st : MatchState} {r : MatchResult} :
    st.finish = some r ↔ r = st.result.leave st.ahead ∧ r.isValid = true := by
  show (if (st.result.leave st.ahead).isValid = true then some (st.result.leave st.ahead)
    else none) = some r ↔ _
  constructor
  · intro h
    obtain ⟨hvalid, hr⟩ := Option.ite_none_right_eq_some.mp h
    cases hr
    exact ⟨rfl, hvalid⟩
  · rintro ⟨rfl, hvalid⟩
    exact if_pos hvalid

/-- A match came about without any tokens, without any segments, or by a run. -/
theorem matchTokens_cases {setting : Setting} {tokens : List Token} {message : List Segment}
    {r : MatchResult} (h : matchTokens setting tokens message = .ok (some r)) :
    (tokens = [] ∧ r = { remaining := message }) ∨
    (message = [] ∧ skipAll tokens {} = some r) ∨
    ∃ st, steps setting tokens { cursor := .start message } = .ok (some st) ∧
      st.finish = some r := by
  cases tokens with
  | nil =>
      cases h
      exact Or.inl ⟨rfl, rfl⟩
  | cons token rest =>
      cases message with
      | nil =>
          rw [matchTokens_nil] at h
          exact Or.inr (Or.inl ⟨rfl, Except.ok.inj h⟩)
      | cons s more =>
          obtain ⟨ended, hsteps, h⟩ := bind_eq_ok_iff.mp h
          cases ended with
          | none => cases h
          | some st => exact Or.inr (Or.inr ⟨st, hsteps, Except.ok.inj h⟩)

/-- Once everything that was handed over is read, its segments are matched. -/
theorem matchMessage_of_read {source : PatternSource} {message : Value} {raw : Option RawRules}
    {tokens : List Token} {items : List Value} {rules : Rules} {segments : List Segment}
    (registry : Registry) (hsource : source.resolve = .ok tokens)
    (hitems : message.items? = some items) (hsegments : readMessage items = .ok segments)
    (hrules : Rules.resolve raw = .ok rules) :
    matchMessage source message raw registry =
      (matchTokens ⟨rules, registry⟩ tokens segments).mapError .broken := by
  unfold matchMessage
  rw [hsource, hitems, hrules]
  show ((readMessage items).mapError Refusal.invalid >>= fun segments => _) = _
  rw [hsegments]
  rfl

/-- A match that answers has read everything it was handed over. -/
theorem matchMessage_cases {source : PatternSource} {message : Value} {raw : Option RawRules}
    {registry : Registry} {answer : Option MatchResult}
    (h : matchMessage source message raw registry = .ok answer) :
    ∃ tokens items rules segments, source.resolve = .ok tokens ∧ message.items? = some items ∧
      Rules.resolve raw = .ok rules ∧ readMessage items = .ok segments ∧
      matchTokens ⟨rules, registry⟩ tokens segments = .ok answer := by
  obtain ⟨tokens, htokens, h⟩ := bind_eq_ok_iff.mp h
  rcases hitems : message.items? with _ | items <;> rw [hitems] at h
  · cases h
  obtain ⟨rules, hrules, h⟩ := bind_eq_ok_iff.mp h
  obtain ⟨segments, hsegments, h⟩ := bind_eq_ok_iff.mp h
  exact ⟨tokens, items, rules, segments, htokens, rfl, mapError_eq_ok_iff.mp hrules,
    mapError_eq_ok_iff.mp hsegments, mapError_eq_ok_iff.mp h⟩

theorem PatternSource.resolve_ne_broken (source : PatternSource) (fault : MatchFault) :
    source.resolve ≠ .error (.broken fault) := by
  intro h
  cases source with
  | pattern text =>
      obtain ⟨e, _, hrefusal⟩ := mapError_eq_error_iff.mp h
      cases hrefusal
  | tokens ts => cases h
  | other found => cases h

/-- A match that is broken off has read everything it was handed over. -/
theorem matchMessage_broken_cases {source : PatternSource} {message : Value}
    {raw : Option RawRules} {registry : Registry} {fault : MatchFault}
    (h : matchMessage source message raw registry = .error (.broken fault)) :
    ∃ tokens items rules segments, source.resolve = .ok tokens ∧ message.items? = some items ∧
      Rules.resolve raw = .ok rules ∧ readMessage items = .ok segments ∧
      matchTokens ⟨rules, registry⟩ tokens segments = .error fault := by
  have hinvalid : ∀ {α : Type} {x : Except Invalid α},
      x.mapError Refusal.invalid ≠ .error (.broken fault) := by
    intro α x hx
    obtain ⟨reason, _, hrefusal⟩ := mapError_eq_error_iff.mp hx
    cases hrefusal
  obtain htokens | ⟨tokens, htokens, h⟩ := bind_eq_error_iff.mp h
  · exact absurd htokens (source.resolve_ne_broken fault)
  rcases hitems : message.items? with _ | items <;> rw [hitems] at h
  · cases h
  obtain hrules | ⟨rules, hrules, h⟩ := bind_eq_error_iff.mp h
  · exact absurd hrules hinvalid
  obtain hsegments | ⟨segments, hsegments, h⟩ := bind_eq_error_iff.mp h
  · exact absurd hsegments hinvalid
  obtain ⟨e, hmatch, hfault⟩ := mapError_eq_error_iff.mp h
  cases hfault
  exact ⟨tokens, items, rules, segments, htokens, rfl, mapError_eq_ok_iff.mp hrules,
    mapError_eq_ok_iff.mp hsegments, hmatch⟩

/-- What is handed over besides the tokens is read, or refused whatever they are. -/
theorem refused_or_read (message : Value) (raw : Option RawRules) :
    (∃ refusal, ∀ tokens registry,
      matchMessage (.tokens tokens) message raw registry = .error refusal) ∨
    ∃ items rules segments, message.items? = some items ∧ Rules.resolve raw = .ok rules ∧
      readMessage items = .ok segments := by
  cases hitems : message.items? with
  | none =>
      refine Or.inl ⟨.invalid (.segments message), fun tokens registry => ?_⟩
      simp only [matchMessage, hitems]
      rfl
  | some items =>
      cases hrules : Rules.resolve raw with
      | error reason =>
          refine Or.inl ⟨.invalid reason, fun tokens registry => ?_⟩
          simp only [matchMessage, hitems, hrules]
          rfl
      | ok rules =>
          cases hsegments : readMessage items with
          | error reason =>
              refine Or.inl ⟨.invalid reason, fun tokens registry => ?_⟩
              simp only [matchMessage, hitems, hrules, hsegments]
              rfl
          | ok segments => exact Or.inr ⟨items, rules, segments, rfl, rfl, hsegments⟩

end MessagePattern
