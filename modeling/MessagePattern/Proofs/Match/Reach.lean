import MessagePattern.Proofs.Match.Outlook

/-!
# The states that a run comes to

A run that has come to a state goes on from there (`Reaches.steps_eq`), so its answer is
that of the token that is tried last: it fails exactly if it comes to a state in which the
next token fails (`steps_eq_error_iff`).
-/

namespace MessagePattern

/-- The run of some tokens from a state comes to another state, with the tokens that are
still to be tried. -/
inductive Reaches (setting : Setting) (tokens : List Token) (st : MatchState) :
    List Token → MatchState → Prop
  | here : Reaches setting tokens st tokens st
  | next {token : Token} {rest : List Token} {st₁ st₂ : MatchState}
      (hreaches : Reaches setting tokens st (token :: rest) st₁)
      (hstep : step setting token rest st₁ = .ok (some st₂)) :
      Reaches setting tokens st rest st₂

variable {setting : Setting} {token : Token} {rest tokens tokens' : List Token}
  {st st₁ st' : MatchState} {e : MatchFault}

theorem steps_cons_of_step (h : step setting token rest st = .ok (some st₁)) :
    steps setting (token :: rest) st = steps setting rest st₁ := by
  rw [steps, h]
  rfl

theorem Reaches.steps_eq (h : Reaches setting tokens st tokens' st') :
    steps setting tokens st = steps setting tokens' st' := by
  induction h with
  | here => rfl
  | next _ hstep ih => rw [ih, steps_cons_of_step hstep]

/-- What holds of the first state and is preserved by steps holds of all states that a run
comes to. -/
theorem Reaches.induction {P : MatchState → Prop} (h : Reaches setting tokens st tokens' st')
    (hP : P st)
    (hstep : ∀ {token rest st st'}, P st → Stepped setting token rest st st' → P st') :
    P st' := by
  induction h with
  | here => exact hP
  | next _ hnext ih => exact hstep ih (step_cases hnext)

theorem Reaches.remaining_eq (h : Reaches setting tokens st tokens' st') :
    st'.result.remaining = st.result.remaining :=
  h.induction (P := fun st' => st'.result.remaining = st.result.remaining) rfl
    fun hremaining hstep => hstep.remaining_eq.trans hremaining

theorem Reaches.tidy (h : Reaches setting tokens st tokens' st') (htidy : st.cursor.Tidy) :
    st'.cursor.Tidy :=
  h.induction htidy fun htidy hstep => tidy_of_stepped htidy hstep

/-- The tokens still to be tried are the last of all. -/
theorem Reaches.suffix (h : Reaches setting tokens st tokens' st') : tokens' <:+ tokens := by
  induction h with
  | here => exact List.suffix_refl _
  | next _ _ ih => exact (List.suffix_cons _ _).trans ih

theorem Reaches.mem (h : Reaches setting tokens st (token :: rest) st') : token ∈ tokens :=
  h.suffix.subset List.mem_cons_self

/-- A run comes to the same tokens in one state only. -/
theorem Reaches.state_unique (h : Reaches setting tokens st tokens' st₁)
    (h' : Reaches setting tokens st tokens' st') : st' = st₁ := by
  induction h generalizing st' with
  | here =>
      cases h' with
      | here => rfl
      | next hreaches _ => exact absurd hreaches.suffix.length_le (Nat.not_succ_le_self _)
  | @next token rest st₁ st₂ hreaches hstep ih =>
      cases h' with
      | here => exact absurd hreaches.suffix.length_le (Nat.not_succ_le_self _)
      | @next token' _ st₁' _ hreaches' hstep' =>
          have hlast : token' :: rest = token :: rest :=
            (List.suffix_of_suffix_length_le hreaches'.suffix hreaches.suffix
              (Nat.le_refl _)).eq_of_length rfl
          obtain rfl : token' = token := (List.cons.inj hlast).1
          rw [ih hreaches', hstep] at hstep'
          exact (Option.some.inj (Except.ok.inj hstep')).symm

/-- A step may be put in front of a run. -/
theorem Reaches.of_step (hstep : step setting token rest st = .ok (some st₁))
    (h : Reaches setting rest st₁ tokens' st') :
    Reaches setting (token :: rest) st tokens' st' := by
  induction h with
  | here => exact .next .here hstep
  | next _ hnext ih => exact .next ih hnext

/-- A run that gets through comes to its last state, with no tokens left. -/
theorem reaches_of_steps (h : steps setting tokens st = .ok (some st')) :
    Reaches setting tokens st [] st' := by
  induction tokens generalizing st with
  | nil =>
      cases h
      exact .here
  | cons token rest ih =>
      obtain ⟨st₁, hstep, h⟩ := exists_step_of_steps h
      exact (ih h).of_step hstep

/-- A run that gets through comes past all its tokens. -/
theorem exists_reaches_of_append {front behind : List Token}
    (h : steps setting (front ++ behind) st = .ok (some st')) :
    ∃ st₁, Reaches setting (front ++ behind) st behind st₁ ∧
      steps setting behind st₁ = .ok (some st') := by
  induction front generalizing st with
  | nil => exact ⟨st, .here, h⟩
  | cons token front ih =>
      obtain ⟨st₁, hstep, h⟩ := exists_step_of_steps h
      obtain ⟨st₂, hreaches, hsteps⟩ := ih h
      exact ⟨st₂, hreaches.of_step hstep, hsteps⟩

/-- A run that does not get through answers what the step answers that it comes to last. -/
theorem steps_eq_iff_of_stops {answer : Except MatchFault (Option MatchState)}
    (hstops : ∀ st, answer ≠ .ok (some st)) : steps setting tokens st = answer ↔
    ∃ token rest st', Reaches setting tokens st (token :: rest) st' ∧
      step setting token rest st' = answer := by
  constructor
  · intro h
    induction tokens generalizing st with
    | nil => exact absurd h.symm (hstops st)
    | cons token rest ih =>
        rcases hstep : step setting token rest st with e' | _ | st₁
        · rw [steps, hstep] at h
          exact ⟨token, rest, st, .here, hstep.trans h⟩
        · rw [steps, hstep] at h
          exact ⟨token, rest, st, .here, hstep.trans h⟩
        · rw [steps_cons_of_step hstep] at h
          obtain ⟨token', rest', st', hreaches, hlast⟩ := ih h
          exact ⟨token', rest', st', hreaches.of_step hstep, hlast⟩
  · rintro ⟨token, rest, st', hreaches, hlast⟩
    rw [hreaches.steps_eq, steps, hlast]
    rcases answer with e' | _ | st₁
    · rfl
    · rfl
    · exact absurd rfl (hstops st₁)

/-- A run fails exactly where a token fails that it comes to. -/
theorem steps_eq_error_iff : steps setting tokens st = .error e ↔
    ∃ token rest st', Reaches setting tokens st (token :: rest) st' ∧
      step setting token rest st' = .error e := by
  apply steps_eq_iff_of_stops
  intro st h
  cases h

/-- A run finds no match exactly where a token finds none that it comes to and that the
message cannot go without. -/
theorem steps_eq_none_iff : steps setting tokens st = .ok none ↔
    ∃ token rest st', Reaches setting tokens st (token :: rest) st' ∧
      tryHere setting token rest st' = .ok none ∧ token.isDispensable = false := by
  have hstops : ∀ st : MatchState,
      (.ok none : Except MatchFault (Option MatchState)) ≠ .ok (some st) := by
    intro st h
    cases h
  rw [steps_eq_iff_of_stops hstops]
  simp only [step_eq_none_iff]

/-- A step fails exactly if its attempt on the current segment does. -/
theorem step_eq_error_iff : step setting token rest st = .error e ↔
    ∃ current, st.cursor.current? = some current ∧
      intake? setting token rest current.segment (st.cursor.isBlob current.label) = .error e := by
  have hstep : step setting token rest st = .error e ↔
      tryHere setting token rest st = .error e := by
    unfold step
    rcases tryHere setting token rest st with e' | _ | st' <;>
      simp [bind, Except.bind, pure, Except.pure]
  rw [hstep, tryHere]
  cases hcurrent : st.cursor.current? with
  | none => simp
  | some current =>
      have htry : (intake? setting token rest current.segment
            (st.cursor.isBlob current.label)).map (Option.map st.absorb) = .error e ↔
          intake? setting token rest current.segment (st.cursor.isBlob current.label) =
            .error e := by
        rcases intake? setting token rest current.segment (st.cursor.isBlob current.label) with
          e' | taken <;> simp [Except.map]
      cases token with
      | rest name dataType => simp [tryToken, intake?]
      | literal _ _ => simpa [tryToken] using htry
      | typedLiteral _ _ => simpa [tryToken] using htry
      | parameter _ _ _ _ => simpa [tryToken] using htry

end MessagePattern
