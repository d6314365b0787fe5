import MessagePattern.Match.InPlace
import MessagePattern.Proofs.Match.Params

/-!
# Attempts are all or nothing

An attempt in place checks, reads, moves the cursor and notes what it takes in an order of its own,
and may give up at many points. Yet whenever it does not match it leaves the state as it was, and
where it matches it does all that an attempt does which answers a state (`run_tryToken`). So a run
may go on from a failed attempt as if it had not been made, and a run in place comes to what a run
comes to (`runTokens_eq`). What a token that takes a single segment may change is little, and the
same for all of them (`attempt_all_or_nothing`).
-/

namespace MessagePattern

namespace Work

variable {setting : Setting} {current : Labelled} {st : MatchState}

/-! ## Attempts on single segments -/

/-- What work in place comes to if it does what leads to this answer: a state that is answered takes
the place of the one before, and otherwise that stays. -/
def settled (st : MatchState) : Except MatchFault (Option MatchState) →
    Except MatchFault Bool × MatchState
  | .error e => (.error e, st)
  | .ok none => (.ok false, st)
  | .ok (some st') => (.ok true, st')

theorem settled_cases {st st' : MatchState} {x : Except MatchFault (Option MatchState)}
    {answer : Except MatchFault Bool} (h : settled st x = (answer, st')) :
    answer ≠ .ok true ∧ st' = st ∨ answer = .ok true ∧ x = .ok (some st') := by
  rcases x with e | _ | tried
  · obtain ⟨rfl, rfl⟩ := Prod.mk.inj h
    exact Or.inl ⟨nofun, rfl⟩
  · obtain ⟨rfl, rfl⟩ := Prod.mk.inj h
    exact Or.inl ⟨nofun, rfl⟩
  · obtain ⟨rfl, rfl⟩ := Prod.mk.inj h
    exact Or.inr ⟨rfl, rfl⟩

/-- Work in place takes in what an attempt takes, all of it or nothing. -/
def Attempts (work : Work Bool) (st : MatchState)
    (answer : Except MatchFault (Option Intake)) : Prop :=
  work.run st = settled st (answer.map (Option.map st.absorb))

theorem attempts_false (st : MatchState) : Attempts (pure false) st (.ok none) := rfl

theorem attempts_whole (current : Labelled) (st : MatchState) :
    Attempts (do takeWhole current; return true) st (.ok (some (.whole current.segment))) := rfl

/-- What is read before anything is done may fail. -/
theorem attempts_bind {α : Type} {x : Except MatchFault α} {f : α → Work Bool}
    {g : α → Except MatchFault (Option Intake)} (h : ∀ a, Attempts (f a) st (g a)) :
    Attempts (liftM x >>= f) st (x >>= g) := by
  cases x with
  | error e => rfl
  | ok a => exact h a

theorem attempts_map {α : Type} {x : Except MatchFault α} {f : α → Work Bool}
    {g : α → Option Intake} (h : ∀ a, Attempts (f a) st (.ok (g a))) :
    Attempts (liftM x >>= f) st (x.map g) := by
  cases x with
  | error e => rfl
  | ok a => exact h a

theorem attempts_isBlob {f : Bool → Work Bool}
    {answer : Except MatchFault (Option Intake)}
    (h : Attempts (f (st.cursor.isBlob current.label)) st answer) :
    Attempts (isBlob current >>= f) st answer := h

theorem run_consume (left : List Char) (blob : Bool) (st : MatchState) :
    (consume left blob).run st = (.ok (), { st with
      cursor := if left.isEmpty then st.cursor.advance 1
        else (st.cursor.advance 1).push (.ofText (String.ofList left)) blob }) := by
  unfold consume
  cases left.isEmpty <;> rfl

/-- Once the cursor has moved, an attempt does the rest. -/
theorem attempts_consume {left : List Char} {blob : Bool} {taken : List Segment}
    {param : Option (String × Value)} {f : Unit → Work Bool}
    (h : (f ()).run { st with cursor := (st.absorb ⟨taken, left, blob, param⟩).cursor } =
      (.ok true, st.absorb ⟨taken, left, blob, param⟩)) :
    Attempts (consume left blob >>= f) st (.ok (some ⟨taken, left, blob, param⟩)) := by
  show (consume left blob >>= f).run st = _
  rw [run_bind, run_consume]
  exact h

theorem attempts_tryLiteral (literal : String) (current : Labelled) (st : MatchState) :
    Attempts (tryLiteral literal current) st (.ok (MessagePattern.tryLiteral literal
      current.segment (st.cursor.isBlob current.label))) := by
  unfold tryLiteral MessagePattern.tryLiteral
  cases current.segment.text? with
  | none => exact attempts_false st
  | some text =>
      simp only
      split
      · apply attempts_isBlob
        exact attempts_consume rfl
      · exact attempts_false st

/-- What stands in front of a value is noted by itself, unless it is empty. -/
theorem run_notePieces (before : List Char) (s : Segment) (st : MatchState) :
    ((do
      unless before.isEmpty do
        note [.ofText (String.ofList before)]
      note [s]
      return true) : Work Bool).run st =
      (.ok true, { st with result := st.result.take (pieceOf before ++ [s]) }) := by
  cases hbefore : before.isEmpty with
  | true =>
      simp only [pieceOf, hbefore, if_true]
      rfl
  | false =>
      have htake : (st.result.take [.ofText (String.ofList before)]).take [s] =
          st.result.take [.ofText (String.ofList before), s] := by
        simp [MatchResult.take]
      simp only [pieceOf, hbefore]
      show (Except.ok true, ({ st with result := (st.result.take _).take _ } : MatchState)) = _
      rw [htake]
      rfl

theorem attempts_tryFound (value : String) (found : Value) (current : Labelled)
    (st : MatchState) :
    Attempts (tryFound value found current) st
      ((found.written.mapError .digits).map fun plain =>
        if plain = value then some (Intake.whole current.segment)
        else if current.segment.isText then
          match found.text?.map fun text : String => Text.splitOnce value.toList text.toList with
          | some (before, some after) => some
              { taken := pieceOf before ++ [Segment.ofText value], left := after
                blob := st.cursor.isBlob current.label }
          | _ => none
        else none) := by
  unfold tryFound
  apply attempts_map
  intro plain
  by_cases hplain : plain = value
  · rw [if_pos hplain, if_pos hplain]
    exact attempts_whole current st
  · rw [if_neg hplain, if_neg hplain]
    cases current.segment.isText with
    | false => exact attempts_false st
    | true =>
        show Attempts (tryInside value found current) st _
        unfold tryInside
        rcases found.text?.map fun text : String => Text.splitOnce value.toList text.toList with
          _ | ⟨before, _ | after⟩
        · exact attempts_false st
        · exact attempts_false st
        · apply attempts_isBlob
          exact attempts_consume (run_notePieces before (.ofText value) _)

theorem attempts_tryTypedLiteral (kind value : String) (current : Labelled) (st : MatchState) :
    Attempts (tryTypedLiteral setting kind value current) st
      (MessagePattern.tryTypedLiteral setting kind value current.segment
        (st.cursor.isBlob current.label)) := by
  unfold tryTypedLiteral MessagePattern.tryTypedLiteral
  by_cases hkind : current.segment.kind = kind
  · rw [if_neg (not_not_intro hkind), if_neg (not_not_intro hkind)]
    cases setting.rules.get? kind with
    | none => exact attempts_false st
    | some rule =>
        simp only
        by_cases hvalue : value = ""
        · rw [if_pos hvalue, if_pos hvalue]
          exact attempts_whole current st
        · rw [if_neg hvalue, if_neg hvalue]
          cases rule.extract current.segment with
          | null => exact attempts_false st
          | _ => exact attempts_tryFound value _ current st
  · rw [if_pos hkind, if_pos hkind]
    exact attempts_false st

theorem attempts_tryTextParameter (name dataType : String) (shared : Bool) (current : Labelled)
    (st : MatchState) :
    Attempts (tryTextParameter setting name dataType shared current) st
      (MessagePattern.tryTextParameter setting name dataType shared current.segment
        (st.cursor.isBlob current.label)) := by
  unfold tryTextParameter MessagePattern.tryTextParameter
  cases current.segment.text? with
  | none => exact attempts_false st
  | some text =>
      apply attempts_isBlob
      apply attempts_bind
      intro read
      cases read with
      | none => exact attempts_false st
      | some v => exact attempts_consume rfl

theorem attempts_tryKindParameter (name kind : String) (current : Labelled) (st : MatchState) :
    Attempts (tryKindParameter setting name kind current) st
      (.ok (MessagePattern.tryKindParameter setting name kind current.segment)) := by
  unfold tryKindParameter MessagePattern.tryKindParameter
  by_cases hkind : current.segment.kind = kind
  · rw [if_neg (not_not_intro hkind), if_neg (not_not_intro hkind)]
    rfl
  · rw [if_pos hkind, if_pos hkind]
    exact attempts_false st

theorem attempts_tryParameter (name dataType : String) (shared : Bool) (current : Labelled)
    (st : MatchState) :
    Attempts (tryParameter setting name dataType shared current) st
      (MessagePattern.tryParameter setting name dataType shared current.segment
        (st.cursor.isBlob current.label)) := by
  unfold tryParameter MessagePattern.tryParameter
  split
  · exact attempts_tryTextParameter name dataType shared current st
  · exact attempts_tryKindParameter name dataType current st

/-! ## The run -/

/-- An attempt in place does what an attempt does that answers the state it has come to. -/
theorem run_tryToken (token : Token) (rest : List Token) (current : Labelled) (st : MatchState) :
    (tryToken setting token rest current).run st =
      settled st (MessagePattern.tryToken setting token rest current st) := by
  cases token with
  | literal text optional => exact attempts_tryLiteral text current st
  | typedLiteral kind value => exact attempts_tryTypedLiteral kind value current st
  | parameter name dataType optional default =>
      exact attempts_tryParameter name dataType _ current st
  | rest name dataType => rfl

/-- To read the state changes nothing. -/
theorem run_get_bind {α : Type} (f : MatchState → Work α) (st : MatchState) :
    (get >>= f : Work α).run st = (f st).run st := rfl

theorem run_tryHere (token : Token) (rest : List Token) (st : MatchState) :
    (tryHere setting token rest).run st =
      settled st (MessagePattern.tryHere setting token rest st) := by
  rw [tryHere, run_get_bind, MessagePattern.tryHere]
  cases st.cursor.current? with
  | none => rfl
  | some current => exact run_tryToken token rest current st

theorem run_skip (token : Token) (st : MatchState) :
    (skip token).run st =
      settled st (.ok ((st.result.skip token).map fun result => { st with result })) := by
  cases token with
  | literal text optional => cases optional <;> rfl
  | typedLiteral kind value => rfl
  | parameter name dataType optional default => cases optional <;> rfl
  | rest name dataType => rfl

theorem run_step (token : Token) (rest : List Token) (st : MatchState) :
    (step setting token rest).run st =
      settled st (MessagePattern.step setting token rest st) := by
  unfold step MessagePattern.step
  rw [run_bind, run_tryHere]
  rcases MessagePattern.tryHere setting token rest st with e | _ | st'
  · rfl
  · exact run_skip token st
  · rfl

/-- Where there is no match the states of the two may differ: the one in place has kept what was
taken before. -/
theorem outcome_steps (tokens : List Token) (st : MatchState) :
    outcome ((steps setting tokens).run st) =
      (MessagePattern.steps setting tokens st).map (Option.bind · MatchState.finish) := by
  induction tokens generalizing st with
  | nil => rfl
  | cons token rest ih =>
      rw [steps, MessagePattern.steps, run_bind, run_step]
      rcases MessagePattern.step setting token rest st with e | _ | st'
      · rfl
      · rfl
      · exact ih st'

/-- A run in place answers what a run answers. -/
theorem runTokens_eq (setting : Setting) (tokens : List Token) (message : List Segment) :
    runTokens setting tokens message = MessagePattern.runTokens setting tokens message := by
  rw [runTokens, outcome_steps, MessagePattern.runTokens]
  rcases MessagePattern.steps setting tokens { cursor := .start message } with e | _ | st <;> rfl

end Work

/-! ## What an attempt changes -/

variable {setting : Setting} {token : Token} {rest : List Token} {current : Labelled}
  {st st' : MatchState} {i : Intake}

/-- What changes in the state of a run when a token takes the current segment. -/
structure TakesCurrent (token : Token) (current : Labelled) (st st' : MatchState) : Prop where
  /-- Just the current segment is passed. -/
  upcoming_eq : st.cursor.upcoming = current :: (st.cursor.advance 1).upcoming
  /-- At most a text is pushed in its place. -/
  cursor_eq : st'.cursor = st.cursor.advance 1 ∨ ∃ text blob, text ≠ "" ∧
    st'.cursor = (st.cursor.advance 1).push (.ofText text) blob
  matched_eq : ∃ taken, (taken.length = 1 ∨ taken.length = 2) ∧
    st'.result.matched = st.result.matched ++ taken
  remaining_eq : st'.result.remaining = st.result.remaining
  /-- Only the parameter of the token is set, and no other for a literal. -/
  params_eq : token.name? = none ∧ st'.result.params = st.result.params ∨
    ∃ name v, token.name? = some name ∧ st'.result.params = Table.set st.result.params name v

/-- A typed literal may note what stands in front of its value; all others note one segment. -/
theorem length_taken_of_intake {s : Segment} {blob : Bool}
    (h : intake? setting token rest s blob = .ok (some i)) :
    i.taken.length = 1 ∨ i.taken.length = 2 := by
  cases token with
  | literal text optional =>
      obtain ⟨_, _, rfl⟩ := tryLiteral_cases (Except.ok.inj h)
      exact Or.inl rfl
  | typedLiteral kind value =>
      obtain ⟨_, _, _, rfl | ⟨_, before, _, _, _, _, rfl⟩⟩ := tryTypedLiteral_cases h
      · exact Or.inl rfl
      · cases before with
        | nil => exact Or.inl rfl
        | cons c before => exact Or.inr rfl
  | parameter name dataType optional default =>
      rcases tryParameter_cases h with ⟨_, _, _, rfl⟩ | ⟨_, _, rfl⟩
      · exact Or.inl rfl
      · exact Or.inl rfl
  | rest name dataType => cases h

theorem takesCurrent_absorb (hcurrent : st.cursor.current? = some current)
    (hintake : intake? setting token rest current.segment (st.cursor.isBlob current.label) =
      .ok (some i)) : TakesCurrent token current st (st.absorb i) where
  upcoming_eq := by
    rw [Cursor.current?_eq_head?] at hcurrent
    obtain ⟨behind, hbehind⟩ := List.head?_eq_some_iff.mp hcurrent
    rw [Cursor.upcoming_advance, hbehind]
    rfl
  cursor_eq := by
    by_cases hleft : i.left = []
    · left
      rw [MatchState.absorb, hleft]
      rfl
    · right
      refine ⟨String.ofList i.left, i.blob, ?_, ?_⟩
      · rwa [Ne, String.ofList_eq_empty_iff]
      · rw [MatchState.absorb, if_neg (by simpa using hleft)]
  matched_eq := ⟨i.taken, length_taken_of_intake hintake, MatchState.matched_absorb st i⟩
  remaining_eq := MatchState.remaining_absorb st i
  params_eq := by
    cases setsOnly_absorb hcurrent hintake with
    | nothing hname hparams => exact Or.inl ⟨hname, hparams⟩
    | @value name v hname _ hparams => exact Or.inr ⟨name, v, hname, hparams⟩

/-- An attempt in place comes to what an attempt answers. One that does not match leaves the state as
it was, also if it is broken off. One that matches, for any token but a rest parameter, passes the
current segment, pushes at most a text back, notes one segment or two and sets at most the
parameter of its token. -/
theorem attempt_all_or_nothing {answer : Except MatchFault Bool}
    (hcurrent : st.cursor.current? = some current)
    (hrun : (Work.tryToken setting token rest current).run st = (answer, st')) :
    Work.settled st (tryToken setting token rest current st) = (answer, st') ∧
      (answer ≠ .ok true → st' = st) ∧
      (answer = .ok true → (∀ name dataType, token ≠ .rest name dataType) →
        TakesCurrent token current st st') := by
  rw [Work.run_tryToken] at hrun
  refine ⟨hrun, fun hne => ?_, fun hmatches hrest => ?_⟩
  · rcases Work.settled_cases hrun with ⟨_, hstays⟩ | ⟨hmatches, _⟩
    · exact hstays
    · exact absurd hmatches hne
  · rcases Work.settled_cases hrun with ⟨hne, _⟩ | ⟨_, htry⟩
    · exact absurd hmatches hne
    have hhere : tryHere setting token rest st = .ok (some st') := by
      rw [tryHere, hcurrent]
      exact htry
    obtain ⟨current', hcurrent', ⟨i, hintake, rfl⟩ | ⟨name, dataType, htoken, _⟩⟩ :=
      tryHere_cases hhere
    · obtain rfl := Option.some.inj (hcurrent.symm.trans hcurrent')
      exact takesCurrent_absorb hcurrent hintake
    · exact absurd htoken (hrest name dataType)

/-- An integer is read from the first word of a text here, but that is no integer, and the text stays
as it is. A text parameter takes the word and leaves the rest. -/
theorem attempt_all_or_nothing_word :
    ∃ st st' : MatchState, ∃ current, st.cursor.current? = some current ∧
      (Work.tryToken ⟨.defaults, .builtin⟩ (.parameter "n" "integer" true none)
        [.parameter "m" "text" true none] current).run st = (.ok false, st) ∧
      (Work.tryToken ⟨.defaults, .builtin⟩ (.parameter "w" "text" true none)
        [.parameter "m" "text" true none] current).run st = (.ok true, st') ∧
      st'.cursor.current?.map (·.segment) = some (.ofText " cd") ∧
      TakesCurrent (.parameter "w" "text" true none) current st st' := by
  obtain ⟨st, current, failed, st', hcurrent, hfails, hmatches, hleft⟩ :
      ∃ (st : MatchState) (current : Labelled) (failed st' : MatchState),
        st.cursor.current? = some current ∧
        (Work.tryToken ⟨.defaults, .builtin⟩ (.parameter "n" "integer" true none)
          [.parameter "m" "text" true none] current).run st = (.ok false, failed) ∧
        (Work.tryToken ⟨.defaults, .builtin⟩ (.parameter "w" "text" true none)
          [.parameter "m" "text" true none] current).run st = (.ok true, st') ∧
        st'.cursor.current?.map (·.segment) = some (.ofText " cd") :=
    ⟨{ cursor := .start [.ofText "ab cd"] }, _, _, _, rfl, rfl, rfl, rfl⟩
  obtain rfl := (attempt_all_or_nothing hcurrent hfails).2.1 nofun
  exact ⟨_, st', current, hcurrent, hfails, hmatches, hleft,
    (attempt_all_or_nothing hcurrent hmatches).2.2 rfl nofun⟩

end MessagePattern
