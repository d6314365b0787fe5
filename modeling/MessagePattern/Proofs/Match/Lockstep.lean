import Mathlib.Data.List.Forall2
import MessagePattern.Proofs.Match.Params

/-!
# Runs in step

Two lists of tokens can have the same runs although their tokens are not the same. What they owe
for it is told token by token (`GoInStep`): of corresponding tokens, tried on the same segment,
both fail, both take nothing, or both take the same and find the same value, each under its own
name (`TriedAlike`). Then the runs try corresponding tokens at the same places, in states that
differ at most in their parameters (`MatchState.SameButParams`), and take and leave the same
segments (`GoInStep.matchTokens_parts`). The parameters are asked for only once, at the end of a
run, and then only whether there are any.
-/

namespace MessagePattern

/-- States of two runs at the same place, which may hold different parameters. -/
structure MatchState.SameButParams (st st' : MatchState) : Prop where
  cursor_eq : st'.cursor = st.cursor
  matched_eq : st'.result.matched = st.result.matched
  remaining_eq : st'.result.remaining = st.result.remaining
  params_nil_iff : st'.result.params = [] ↔ st.result.params = []

/-- The segments that a match took and those that it left over. -/
def MatchResult.parts (r : MatchResult) : List Segment × List Segment :=
  (r.matched, r.remaining)

/-- The token is an optional parameter that takes nothing, be it at the end of the message, and
holds its default. -/
def FallsBack (setting : Setting) (token : Token) (rest : List Token) (st : MatchState) : Prop :=
  (∃ name dataType default, token = .parameter name dataType true default) ∧
    tryHere setting token rest st = .ok none

/-- What was taken, with its value noted for another token. -/
def Intake.notedFor (token : Token) (i : Intake) : Intake :=
  { i with param := i.param.bind fun entry => token.name?.map (·, entry.2) }

variable {setting : Setting} {token token' : Token} {rest rest' tokens tokens' : List Token}
  {st st' st₁ st₁' : MatchState} {name name' : String} {segments : List Segment}

/-! ## Tokens that go in step -/

/-- How the attempts of two tokens have gone, if they went alike on the same segment. -/
inductive TriedAlike (setting : Setting) (token token' : Token) (st st' : MatchState) :
    Except MatchFault (Option MatchState) →
      Except MatchFault (Option MatchState) → Prop
  | failed (e : MatchFault) :
      TriedAlike setting token token' st st' (.error e) (.error e)
  | missed : TriedAlike setting token token' st st' (.ok none) (.ok none)
  | took {i : Intake} (hname : i.param.map Prod.fst = token.name?) :
      TriedAlike setting token token' st st' (.ok (some (st.absorb i)))
        (.ok (some (st'.absorb (i.notedFor token'))))
  | collected {name name' : String} {dataType : Option String}
      (htoken : token = .rest name dataType) (htoken' : token' = .rest name' dataType) :
      TriedAlike setting token token' st st' (.ok (some (takeRest setting name dataType st)))
        (.ok (some (takeRest setting name' dataType st')))

/-- The type of the run that a token collects, if it is a rest parameter. -/
def Token.runType? : Token → Option (Option String)
  | .rest _ dataType => some dataType
  | _ => none

/-- Tokens that can stand for each other: both set a parameter or neither does, a message can go
without both or without neither, and they collect the same run if they are rest parameters. -/
structure Token.Counterpart (token token' : Token) : Prop where
  isSome_name? : token'.name?.isSome = token.name?.isSome
  isDispensable_eq : token'.isDispensable = token.isDispensable
  runType?_eq : token'.runType? = token.runType?

/-- What corresponding tokens owe: wherever a run over the first list comes to, they are tried
alike. Of the states there, `P` may be assumed if steps preserve it. -/
structure GoInStep (setting : Setting) (Corresponds : Token → Token → Prop)
    (P : MatchState → Prop) : Prop where
  counterpart : ∀ {token token'}, Corresponds token token' → token.Counterpart token'
  tried : ∀ {token token' rest rest' st st'}, Corresponds token token' →
    List.Forall₂ Corresponds rest rest' → P st → st.SameButParams st' →
      TriedAlike setting token token' st st' (tryHere setting token rest st)
        (tryHere setting token' rest' st')
  keeps : ∀ {token rest st st₁}, P st → Stepped setting token rest st st₁ → P st₁

/-- For a token of the name under which it was noted, an intake stays as it is. -/
theorem notedFor_of_name {i : Intake} (h : i.param.map Prod.fst = token.name?) :
    i.notedFor token = i := by
  have hparam : (i.param.bind fun entry => token.name?.map (·, entry.2)) = i.param := by
    rw [← h]
    cases i.param <;> rfl
  rw [Intake.notedFor, hparam]

/-- What a token takes stays as it is if it is noted for another one of its name. -/
theorem map_notedFor_intake (hname : token'.name? = token.name?) (s : Segment) (blob : Bool) :
    (intake? setting token rest s blob).map (Option.map (Intake.notedFor token')) =
      intake? setting token rest s blob := by
  rcases hintake : intake? setting token rest s blob with e | _ | i
  · rfl
  · rfl
  · have hparam : i.param.map Prod.fst = token'.name? := (param_of_intake hintake).trans hname.symm
    exact congrArg (Except.ok ∘ some) (notedFor_of_name hparam)

/-- What a token noted is noted for its counterpart, under the name of that. -/
theorem Token.Counterpart.param_notedFor (h : token.Counterpart token') {i : Intake}
    (hname : i.param.map Prod.fst = token.name?) :
    (i.param = none ∧ (i.notedFor token').param = none) ∨
    ∃ name name' v, token'.name? = some name' ∧ i.param = some (name, v) ∧
      (i.notedFor token').param = some (name', v) := by
  cases hparam : i.param with
  | none => exact Or.inl ⟨rfl, by rw [Intake.notedFor, hparam, Option.bind_none]⟩
  | some entry =>
      right
      rw [hparam] at hname
      have hsome : token'.name?.isSome = true := by
        rw [h.isSome_name?, ← hname]
        rfl
      obtain ⟨name', hname'⟩ := Option.isSome_iff_exists.mp hsome
      exact ⟨entry.1, name', entry.2, hname', rfl, by rw [Intake.notedFor, hparam, hname']; rfl⟩

/-! ## States that differ in their parameters -/

namespace MatchState.SameButParams

/-- Runs over the same message start at the same place. -/
theorem start : SameButParams { cursor := .start segments } { cursor := .start segments } :=
  ⟨rfl, rfl, rfl, Iff.rfl⟩

theorem absorb (h : st.SameButParams st') {i : Intake} (hcounterpart : token.Counterpart token')
    (hname : i.param.map Prod.fst = token.name?) :
    (st.absorb i).SameButParams (st'.absorb (i.notedFor token')) where
  cursor_eq := by
    simp only [MatchState.absorb, Intake.notedFor, h.cursor_eq]
  matched_eq := by
    rw [matched_absorb, matched_absorb, h.matched_eq]
    rfl
  remaining_eq := by
    rw [remaining_absorb, remaining_absorb, h.remaining_eq]
  params_nil_iff := by
    rw [params_absorb, params_absorb]
    rcases hcounterpart.param_notedFor hname with
      ⟨hparam, hparam'⟩ | ⟨_, _, _, _, hparam, hparam'⟩
    · rw [hparam, hparam']
      exact h.params_nil_iff
    · rw [hparam, hparam']
      exact iff_of_false (Table.set_ne_nil _ _ _) (Table.set_ne_nil _ _ _)

theorem takeRest (h : st.SameButParams st') (dataType : Option String) :
    (takeRest setting name dataType st).SameButParams
      (MessagePattern.takeRest setting name' dataType st') where
  cursor_eq := by
    simp only [MessagePattern.takeRest, MatchState.ahead, h.cursor_eq]
  matched_eq := by
    simp only [MessagePattern.takeRest, MatchResult.take, MatchResult.setParam,
      MatchState.ahead, h.cursor_eq, h.matched_eq]
  remaining_eq := h.remaining_eq
  params_nil_iff := iff_of_false (Table.set_ne_nil _ _ _) (Table.set_ne_nil _ _ _)

theorem setUnsupplied (h : st.SameButParams st') (hcounterpart : token.Counterpart token') :
    SameButParams { st with result := st.result.setUnsupplied token }
      { st' with result := st'.result.setUnsupplied token' } := by
  have hkeeps : ∀ (r : MatchResult) (token : Token),
      (r.setUnsupplied token).matched = r.matched ∧
        (r.setUnsupplied token).remaining = r.remaining ∧
        ((r.setUnsupplied token).params = [] ↔ r.params = [] ∧ token.name?.isSome = false) := by
    intro r token
    cases token with
    | literal text optional => exact ⟨rfl, rfl, (and_iff_left rfl).symm⟩
    | typedLiteral kind value => exact ⟨rfl, rfl, (and_iff_left rfl).symm⟩
    | parameter name dataType optional default =>
        exact ⟨rfl, rfl, iff_of_false (Table.set_ne_nil _ _ _) fun h => nomatch h.2⟩
    | rest name dataType =>
        exact ⟨rfl, rfl, iff_of_false (Table.set_ne_nil _ _ _) fun h => nomatch h.2⟩
  obtain ⟨hmatched, hremaining, hparams⟩ := hkeeps st.result token
  obtain ⟨hmatched', hremaining', hparams'⟩ := hkeeps st'.result token'
  refine ⟨h.cursor_eq, ?_, ?_, ?_⟩
  · exact hmatched'.trans (h.matched_eq.trans hmatched.symm)
  · exact hremaining'.trans (h.remaining_eq.trans hremaining.symm)
  · rw [hparams, hparams', h.params_nil_iff, hcounterpart.isSome_name?]

end MatchState.SameButParams

/-! ## Attempts -/

theorem exists_rest_of_runType? {dataType : Option String} (h : token.runType? = some dataType) :
    ∃ name, token = .rest name dataType := by
  cases token with
  | rest name _ =>
      obtain rfl := Option.some.inj h
      exact ⟨name, rfl⟩
  | _ => cases h

theorem tryToken_of_runType?_eq_none (h : token.runType? = none) (current : Labelled) :
    tryToken setting token rest current st =
      (intake? setting token rest current.segment (st.cursor.isBlob current.label)).map
        (Option.map st.absorb) := by
  cases token with
  | rest name dataType => cases h
  | _ => rfl

/-- Counterparts are tried alike if they take the same of the current segment and note the same
value, each under its own name. -/
theorem triedAlike_of_intake (hcounterpart : token.Counterpart token')
    (hsame : st.SameButParams st')
    (hintake : ∀ current, st.cursor.current? = some current →
      intake? setting token' rest' current.segment (st.cursor.isBlob current.label) =
        (intake? setting token rest current.segment (st.cursor.isBlob current.label)).map
          (Option.map (Intake.notedFor token'))) :
    TriedAlike setting token token' st st' (tryHere setting token rest st)
      (tryHere setting token' rest' st') := by
  unfold tryHere
  rw [hsame.cursor_eq]
  cases hcurrent : st.cursor.current? with
  | none => exact .missed
  | some current =>
      show TriedAlike setting token token' st st' (tryToken setting token rest current st)
        (tryToken setting token' rest' current st')
      cases hrun : token.runType? with
      | some dataType =>
          obtain ⟨name, rfl⟩ := exists_rest_of_runType? hrun
          obtain ⟨name', rfl⟩ := exists_rest_of_runType? (hcounterpart.runType?_eq.trans hrun)
          exact .collected rfl rfl
      | none =>
          rw [tryToken_of_runType?_eq_none hrun,
            tryToken_of_runType?_eq_none (hcounterpart.runType?_eq.trans hrun), hsame.cursor_eq,
            hintake current hcurrent]
          rcases htaken : intake? setting token rest current.segment
            (st.cursor.isBlob current.label) with e | _ | i
          · exact .failed e
          · exact .missed
          · exact .took (param_of_intake htaken)

/-! ## Steps and runs -/

/-- How two steps or runs have ended: they failed alike, or neither got through, or both did and
came to the same place. -/
inductive EndedAlike : Except MatchFault (Option MatchState) →
    Except MatchFault (Option MatchState) → Prop
  | failed (e : MatchFault) : EndedAlike (.error e) (.error e)
  | stopped : EndedAlike (.ok none) (.ok none)
  | through {st st' : MatchState} (h : st.SameButParams st') :
      EndedAlike (.ok (some st)) (.ok (some st'))

/-- Counterparts that are tried alike have steps that end alike. -/
theorem step_of_triedAlike (hcounterpart : token.Counterpart token')
    (hsame : st.SameButParams st')
    (htried : TriedAlike setting token token' st st' (tryHere setting token rest st)
      (tryHere setting token' rest' st')) :
    EndedAlike (step setting token rest st) (step setting token' rest' st') := by
  unfold step
  generalize tryHere setting token rest st = tried, tryHere setting token' rest' st' = tried'
    at htried ⊢
  cases htried with
  | failed e => exact .failed e
  | missed =>
      show EndedAlike (.ok ((st.result.skip token).map _)) (.ok ((st'.result.skip token').map _))
      rw [skip_eq, skip_eq, hcounterpart.isDispensable_eq]
      cases token.isDispensable with
      | false => exact .stopped
      | true => exact .through (hsame.setUnsupplied hcounterpart)
  | took hname => exact .through (hsame.absorb hcounterpart hname)
  | collected _ _ => exact .through (hsame.takeRest _)

namespace GoInStep

variable {Corresponds : Token → Token → Prop} {P : MatchState → Prop}

theorem step_alike (h : GoInStep setting Corresponds P) (htoken : Corresponds token token')
    (hrest : List.Forall₂ Corresponds rest rest') (hst : P st) (hsame : st.SameButParams st') :
    EndedAlike (step setting token rest st) (step setting token' rest' st') :=
  step_of_triedAlike (h.counterpart htoken) hsame (h.tried htoken hrest hst hsame)

theorem steps_alike (h : GoInStep setting Corresponds P)
    (htokens : List.Forall₂ Corresponds tokens tokens') (hst : P st)
    (hsame : st.SameButParams st') :
    EndedAlike (steps setting tokens st) (steps setting tokens' st') := by
  induction htokens generalizing st st' with
  | nil => exact .through hsame
  | @cons token token' rest rest' htoken hrest ih =>
      have hended : EndedAlike (step setting token rest st) (step setting token' rest' st') :=
        h.step_alike htoken hrest hst hsame
      unfold steps
      cases hstep : step setting token rest st with
      | error e =>
          rw [hstep] at hended
          generalize step setting token' rest' st' = ended' at hended ⊢
          cases hended
          exact .failed e
      | ok stepped =>
          rw [hstep] at hended
          generalize step setting token' rest' st' = ended' at hended ⊢
          cases hended with
          | stopped => exact .stopped
          | through hsame₁ => exact ih (h.keeps hst (step_cases hstep)) hsame₁

/-- Wherever the one run comes to, the other comes to the same place, and has corresponding
tokens still to try. -/
theorem reaches_alike (h : GoInStep setting Corresponds P)
    (htokens : List.Forall₂ Corresponds tokens tokens') (hst : P st)
    (hsame : st.SameButParams st') {behind : List Token}
    (hreaches : Reaches setting tokens st behind st₁) :
    P st₁ ∧ ∃ behind' st₁', Reaches setting tokens' st' behind' st₁' ∧
      List.Forall₂ Corresponds behind behind' ∧ st₁.SameButParams st₁' := by
  induction hreaches with
  | here => exact ⟨hst, tokens', st', .here, htokens, hsame⟩
  | @next token rest st₁ st₂ _ hstep ih =>
      obtain ⟨hst₁, behind', st₁', hreaches', hbehind, hsame₁⟩ := ih
      obtain ⟨token', rest', htoken, hrest, rfl⟩ := List.forall₂_cons_left_iff.mp hbehind
      have hended : EndedAlike (step setting token rest st₁) (step setting token' rest' st₁') :=
        h.step_alike htoken hrest hst₁ hsame₁
      rw [hstep] at hended
      generalize hstep' : step setting token' rest' st₁' = ended' at hended
      cases hended with
      | through hsame₂ =>
          exact ⟨h.keeps hst₁ (step_cases hstep), rest', _, .next hreaches' hstep', hrest, hsame₂⟩

theorem reaches_alike_split (h : GoInStep setting Corresponds P) {front front' : List Token}
    (htokens : List.Forall₂ Corresponds (front ++ token :: rest) (front' ++ token' :: rest'))
    (hlength : front.length = front'.length) (hst : P st) (hsame : st.SameButParams st')
    (hreaches : Reaches setting (front ++ token :: rest) st (token :: rest) st₁) :
    P st₁ ∧ ∃ st₁', Reaches setting (front' ++ token' :: rest') st' (token' :: rest') st₁' ∧
      (Corresponds token token' ∧ List.Forall₂ Corresponds rest rest') ∧
      st₁.SameButParams st₁' := by
  obtain ⟨hst₁, behind', st₁', hreaches', hbehind, hsame₁⟩ :=
    h.reaches_alike htokens hst hsame hreaches
  -- Both are ends of the second list, and both are as long as what is left of the first.
  have hbehind' : behind' = token' :: rest' := by
    have hsuffix : token' :: rest' <:+ front' ++ token' :: rest' := List.suffix_append _ _
    have hlengths := htokens.length_eq
    have hcount := hbehind.length_eq
    simp only [List.length_append, List.length_cons] at hlengths hcount
    have heq : behind'.length = (token' :: rest').length := by
      rw [List.length_cons]
      omega
    exact (List.suffix_of_suffix_length_le hreaches'.suffix hsuffix
      (Nat.le_of_eq heq)).eq_of_length heq
  subst hbehind'
  exact ⟨hst₁, st₁', hreaches', List.forall₂_cons.mp hbehind, hsame₁⟩

end GoInStep

/-! ## The values of parameters -/

/-- Attempts that went alike, where they take something, find the same value. -/
theorem value_of_triedAlike {taken taken' : MatchState} (hcounterpart : token.Counterpart token')
    (hsame : st.SameButParams st') (hname : token.name? = some name)
    (hname' : token'.name? = some name')
    (htried : TriedAlike setting token token' st st' (.ok (some taken)) (.ok (some taken'))) :
    ∃ v, taken.result.params = Table.set st.result.params name v ∧
      taken'.result.params = Table.set st'.result.params name' v := by
  cases htried with
  | @took i hnoted =>
      rw [MatchState.params_absorb, MatchState.params_absorb]
      rcases hcounterpart.param_notedFor hnoted with
        ⟨hparam, _⟩ | ⟨n, n', v, hn', hparam, hparam'⟩
      · rw [hparam, hname] at hnoted
        cases hnoted
      · rw [hparam, hname] at hnoted
        obtain rfl : n = name := Option.some.inj hnoted
        obtain rfl : n' = name' := Option.some.inj (hn'.symm.trans hname')
        exact ⟨v, by rw [hparam]; rfl, by rw [hparam']; rfl⟩
  | collected htoken htoken' =>
      subst htoken htoken'
      cases hname
      cases hname'
      refine ⟨_, rfl, ?_⟩
      simp only [takeRest, MatchResult.take, MatchResult.setParam, MatchState.ahead,
        hsame.cursor_eq]

/-- The steps of two corresponding parameters set the same value, or both are skipped. -/
theorem GoInStep.values_of_step {Corresponds : Token → Token → Prop} {P : MatchState → Prop}
    (h : GoInStep setting Corresponds P) (htoken : Corresponds token token')
    (hrest : List.Forall₂ Corresponds rest rest') (hst : P st) (hsame : st.SameButParams st')
    (hname : token.name? = some name) (hname' : token'.name? = some name')
    (hstep : step setting token rest st = .ok (some st₁))
    (hstep' : step setting token' rest' st' = .ok (some st₁')) :
    (tryHere setting token' rest' st' ≠ .ok none ∧
      ∃ v, st₁.result.params = Table.set st.result.params name v ∧
        st₁'.result.params = Table.set st'.result.params name' v) ∨
    tryHere setting token rest st = .ok none ∧ tryHere setting token' rest' st' = .ok none ∧
      st.result.skip token = some st₁.result ∧ st'.result.skip token' = some st₁'.result := by
  have htried : TriedAlike setting token token' st st' (tryHere setting token rest st)
      (tryHere setting token' rest' st') := h.tried htoken hrest hst hsame
  rcases step_eq_some_iff.mp hstep with htry | ⟨hnone, r, hskip, rfl⟩ <;>
    rcases step_eq_some_iff.mp hstep' with htry' | ⟨hnone', r', hskip', rfl⟩
  -- It cannot be that only one of them takes something.
  · rw [htry, htry'] at htried
    refine Or.inl ⟨?_, value_of_triedAlike (h.counterpart htoken) hsame hname hname' htried⟩
    rw [htry']
    exact fun hnone => nomatch hnone
  · rw [htry, hnone'] at htried
    cases htried
  · rw [hnone, htry'] at htried
    cases htried
  · exact Or.inr ⟨hnone, hnone', hskip, hskip'⟩

/-! ## Matches -/

theorem MatchState.SameButParams.parts_answer (h : st.SameButParams st') (free : Bool) :
    (st'.outlook.answer free).map MatchResult.parts =
      (st.outlook.answer free).map MatchResult.parts := by
  have hahead : st'.outlook.ahead = st.outlook.ahead := by
    simp only [MatchState.outlook, MatchState.ahead, h.cursor_eq]
  have hempty : st'.result.params.isEmpty = st.result.params.isEmpty := by
    rw [Bool.eq_iff_iff, List.isEmpty_iff, List.isEmpty_iff]
    exact h.params_nil_iff
  have hvalid : (st'.outlook.result.leave st'.outlook.ahead).isValid =
      (st.outlook.result.leave st.outlook.ahead).isValid := by
    simp only [MatchResult.isValid, MatchResult.leave, MatchState.outlook, h.matched_eq, hempty]
  have hparts : (st'.outlook.result.leave st'.outlook.ahead).parts =
      (st.outlook.result.leave st.outlook.ahead).parts := by
    rw [hahead]
    simp only [MatchResult.parts, MatchResult.leave, MatchState.outlook, h.matched_eq,
      h.remaining_eq]
  unfold Outlook.answer
  rw [hvalid]
  split
  · exact congrArg some hparts
  · rfl

/-- Tokens that go in step match the same messages, and take and leave the same segments. -/
theorem GoInStep.matchTokens_parts {Corresponds : Token → Token → Prop} {P : MatchState → Prop}
    (h : GoInStep setting Corresponds P) (htokens : List.Forall₂ Corresponds tokens tokens')
    (hstart : P { cursor := .start segments }) :
    (matchTokens setting tokens' segments).map (Option.map MatchResult.parts) =
      (matchTokens setting tokens segments).map (Option.map MatchResult.parts) := by
  have hempty : tokens'.isEmpty = tokens.isEmpty := by
    cases htokens <;> rfl
  have hended : EndedAlike (steps setting tokens { cursor := .start segments })
      (steps setting tokens' { cursor := .start segments }) :=
    h.steps_alike htokens hstart .start
  rw [matchTokens_eq_outlook, matchTokens_eq_outlook, ← MatchState.outlook_start,
    ← outlook_steps (Cursor.tidy_start segments), ← outlook_steps (Cursor.tidy_start segments),
    hempty]
  generalize steps setting tokens { cursor := .start segments } = ended,
    steps setting tokens' { cursor := .start segments } = ended' at hended ⊢
  cases hended with
  | failed e => rfl
  | stopped => rfl
  | through hsame => exact congrArg Except.ok (hsame.parts_answer _)

end MessagePattern
