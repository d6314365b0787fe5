import MessagePattern.Proofs.Match.Step

/-!
# What a run sees of its state

A run never asks where a segment comes from. It sees the list of the segments ahead,
whether the first of them is a blob, and the result so far. On that alone every step
can be done (`outlook_step`), so two runs that see the same go the same way, wherever in a
message they are, and a change of what is seen that agrees with what tokens do can be
put off to the end of a step (`Outlook.step_change`). This rests on two facts about the
cursor of a run (`Cursor.Tidy`): at most one text is pushed at a time, and nothing but a
pushed text is a blob.
-/

namespace MessagePattern

/-! ## Steps on what is seen -/

/-- What a result becomes when a token takes something in. -/
def MatchResult.note (r : MatchResult) (i : Intake) : MatchResult :=
  i.param.elim (r.take i.taken) fun (name, v) => (r.take i.taken).setParam name v

/-- What a run sees of its state. -/
structure Outlook where
  ahead : List Segment
  /-- Whether the first segment ahead is a blob. -/
  blob : Bool := false
  result : MatchResult := {}

namespace Outlook

def absorb (o : Outlook) (i : Intake) : Outlook :=
  { ahead := pieceOf i.left ++ o.ahead.tail
    blob := i.blob && !i.left.isEmpty
    result := o.result.note i }

def takeRest (setting : Setting) (name : String) (dataType : Option String) (o : Outlook) :
    Outlook :=
  let run := restRun setting dataType o.ahead
  { ahead := o.ahead.drop run.length
    blob := o.blob && run.isEmpty
    result := (o.result.take (run.map (·.1))).setParam name (.list (run.filterMap (·.2))) }

def tryToken (setting : Setting) (token : Token) (rest : List Token) (s : Segment)
    (o : Outlook) : Except MatchFault (Option Outlook) :=
  match token with
  | .rest name dataType => .ok (some (o.takeRest setting name dataType))
  | token => (intake? setting token rest s o.blob).map (Option.map o.absorb)

def tryHere (setting : Setting) (token : Token) (rest : List Token) (o : Outlook) :
    Except MatchFault (Option Outlook) :=
  match o.ahead with
  | [] => .ok none
  | s :: _ => o.tryToken setting token rest s

/-- Goes on without a token, if the message can. -/
def skip (o : Outlook) (token : Token) : Option Outlook :=
  (o.result.skip token).map fun result => { o with result }

def step (setting : Setting) (token : Token) (rest : List Token) (o : Outlook) :
    Except MatchFault (Option Outlook) := do
  match ← o.tryHere setting token rest with
  | some o => return some o
  | none => return o.skip token

def steps (setting : Setting) : List Token → Outlook →
    Except MatchFault (Option Outlook)
  | [], o => .ok (some o)
  | token :: rest, o => do
    match ← o.step setting token rest with
    | some o => steps setting rest o
    | none => return none

/-- The result at the end of the tokens. Where something has to be found for it to
count, `free` is not set. -/
def answer (free : Bool) (o : Outlook) : Option MatchResult :=
  if free || (o.result.leave o.ahead).isValid then some (o.result.leave o.ahead) else none

theorem answer_eq_some_iff {free : Bool} {o : Outlook} {r : MatchResult} :
    o.answer free = some r ↔
      r = o.result.leave o.ahead ∧ (free = true ∨ r.isValid = true) := by
  unfold answer
  constructor
  · intro h
    obtain ⟨hcounts, hr⟩ := Option.ite_none_right_eq_some.mp h
    cases hr
    exact ⟨rfl, Bool.or_eq_true_iff.mp hcounts⟩
  · rintro ⟨rfl, hcounts⟩
    exact if_pos (Bool.or_eq_true_iff.mpr hcounts)

/-! ## Runs over some tokens and runs at the end of the message -/

variable {setting : Setting} {token : Token} {rest tokens : List Token} {o o' : Outlook}

/-- At the end of the message every token is skipped, if it can be. -/
theorem step_of_ahead_nil (h : o.ahead = []) : o.step setting token rest = .ok (o.skip token) := by
  rw [step, tryHere, h]
  rfl

theorem steps_of_ahead_nil (h : o.ahead = []) :
    o.steps setting tokens =
      .ok ((skipAll tokens o.result).map fun result => { o with result }) := by
  induction tokens generalizing o with
  | nil => rfl
  | cons token rest ih =>
      rw [steps, step_of_ahead_nil h, skip, skipAll]
      cases o.result.skip token with
      | none => rfl
      | some result => exact ih h

/-- What a step has done with its token. -/
inductive Stepped (setting : Setting) (token : Token) (rest : List Token) (o : Outlook) :
    Outlook → Prop
  | took {s : Segment} {i : Intake} (hahead : o.ahead.head? = some s)
      (hintake : intake? setting token rest s o.blob = .ok (some i)) :
      Stepped setting token rest o (o.absorb i)
  | collected {name : String} {dataType : Option String} (htoken : token = .rest name dataType) :
      Stepped setting token rest o (o.takeRest setting name dataType)
  | skipped {result : MatchResult} (hskip : o.result.skip token = some result) :
      Stepped setting token rest o { o with result }

theorem step_cases (h : o.step setting token rest = .ok (some o')) :
    Stepped setting token rest o o' := by
  obtain ⟨tried, htry, h⟩ := bind_eq_ok_iff.mp h
  cases tried with
  | none =>
      obtain ⟨result, hskip, rfl⟩ := Option.map_eq_some_iff.mp (Except.ok.inj h)
      exact .skipped hskip
  | some o₁ =>
      cases h
      unfold tryHere at htry
      split at htry
      · cases htry
      rename_i s behind hahead
      by_cases hrest : ∃ name dataType, token = .rest name dataType
      · obtain ⟨name, dataType, rfl⟩ := hrest
        cases htry
        exact .collected rfl
      · rw [tryToken] at htry
        · obtain ⟨taken, hintake, htaken⟩ := map_eq_ok_iff.mp htry
          obtain ⟨i, rfl, rfl⟩ := Option.map_eq_some_iff.mp htaken
          exact .took (by rw [hahead]; rfl) hintake
        · -- The equation for the other tokens asks that this is no rest parameter.
          exact fun name dataType htoken => hrest ⟨name, dataType, htoken⟩

/-! ## Runs over tokens one behind the other -/

/-- A step asks for the tokens behind its own only to count those that share a text. -/
theorem step_congr {rest' : List Token}
    (h : optionalsSharing setting.registry (token :: rest) =
      optionalsSharing setting.registry (token :: rest')) :
    o.step setting token rest = o.step setting token rest' := by
  have hintake : ∀ s blob,
      intake? setting token rest s blob = intake? setting token rest' s blob := by
    intro s blob
    cases token with
    | parameter name dataType optional default => rw [intake?, intake?, h]
    | _ => rfl
  have htry : o.tryHere setting token rest = o.tryHere setting token rest' := by
    unfold tryHere
    cases o.ahead with
    | nil => rfl
    | cons s behind =>
        show o.tryToken setting token rest s = o.tryToken setting token rest' s
        unfold tryToken
        cases token <;> simp only [hintake]
  rw [step, step, htry]

/-- A run over tokens goes on to others behind them, if none of the former shares a text with
the latter. -/
theorem steps_append_of_sharing {front behind : List Token}
    (h : ∀ token rest, token :: rest <:+ front →
      optionalsSharing setting.registry (token :: rest ++ behind) =
        optionalsSharing setting.registry (token :: rest)) (o : Outlook) :
    o.steps setting (front ++ behind) = (do
      match ← o.steps setting front with
      | some o => o.steps setting behind
      | none => return none) := by
  induction front generalizing o with
  | nil => rfl
  | cons token rest ih =>
      have hsame : o.step setting token (rest ++ behind) = o.step setting token rest :=
        step_congr (h token rest (List.suffix_refl _))
      rw [List.cons_append, steps, steps, hsame]
      rcases o.step setting token rest with e | _ | o₁
      · rfl
      · rfl
      · apply ih
        intro token' rest' hsuffix
        exact h token' rest' (hsuffix.trans (List.suffix_cons token rest))

/-- A rest parameter takes its run, also at the end of the message. -/
theorem step_rest {name : String} {dataType : Option String} (o : Outlook) :
    o.step setting (.rest name dataType) rest =
      .ok (some (o.takeRest setting name dataType)) := by
  cases hahead : o.ahead with
  | nil =>
      have htake : o.takeRest setting name dataType =
          { o with result := o.result.setParam name (.list []) } := by
        simp [takeRest, hahead, restRun, MatchResult.take]
      rw [step_of_ahead_nil hahead, htake]
      rfl
  | cons s behind =>
      rw [step, tryHere, hahead]
      rfl

/-! ## Changes that steps agree with -/

section Change

variable {f : Outlook → Outlook}

theorem tryHere_change (hhead : (f o).ahead.head? = o.ahead.head?) (hblob : (f o).blob = o.blob)
    (habsorb : ∀ i, (f o).absorb i = f (o.absorb i))
    (hrest : ∀ name dataType, token = .rest name dataType →
      (f o).takeRest setting name dataType = f (o.takeRest setting name dataType)) :
    (f o).tryHere setting token rest = (o.tryHere setting token rest).map (Option.map f) := by
  have hintake : ∀ s, (intake? setting token rest s (f o).blob).map (Option.map (f o).absorb) =
      ((intake? setting token rest s o.blob).map (Option.map o.absorb)).map (Option.map f) := by
    intro s
    have hcomp : (f o).absorb = f ∘ o.absorb := funext habsorb
    rw [map_option_map, hcomp, hblob]
  unfold tryHere
  cases hahead : o.ahead with
  | nil =>
      rw [hahead, List.head?_nil, List.head?_eq_none_iff] at hhead
      rw [hhead]
      rfl
  | cons s behind =>
      rw [hahead, List.head?_cons] at hhead
      obtain ⟨behind', hahead'⟩ := List.head?_eq_some_iff.mp hhead
      rw [hahead']
      cases token with
      | rest name dataType => exact congrArg (Except.ok ∘ some) (hrest name dataType rfl)
      | literal _ _ => exact hintake s
      | typedLiteral _ _ => exact hintake s
      | parameter _ _ _ _ => exact hintake s

/-- A change that agrees with all that a token may do is the same before a step and
behind it. -/
theorem step_change (hhead : (f o).ahead.head? = o.ahead.head?) (hblob : (f o).blob = o.blob)
    (habsorb : ∀ i, (f o).absorb i = f (o.absorb i))
    (hrest : ∀ name dataType, token = .rest name dataType →
      (f o).takeRest setting name dataType = f (o.takeRest setting name dataType))
    (hskip : (f o).skip token = (o.skip token).map f) :
    (f o).step setting token rest = (o.step setting token rest).map (Option.map f) := by
  unfold step
  rw [tryHere_change hhead hblob habsorb hrest]
  rcases o.tryHere setting token rest with e | _ | o'
  · rfl
  · exact congrArg Except.ok hskip
  · rfl

end Change

end Outlook

/-! ## Tidy cursors -/

namespace Cursor

/-- What holds of the cursor of a run. -/
structure Tidy (c : Cursor) : Prop where
  pushed_length_le : c.pushed.length ≤ 1
  /-- The blobs are among the texts that were pushed so far. -/
  exists_push : ∀ label, c.isBlob label = true → ∃ push, push < c.pushes ∧ label = .pushed push
  /-- The segments of the message are known by their places. -/
  exists_place : ∀ l ∈ c.message, ∃ place, l.label = .given place

/-- Whether the current segment is a blob. -/
def blobHere (c : Cursor) : Bool :=
  c.current?.any fun l => c.isBlob l.label

theorem blobHere_of_current {c : Cursor} {l : Labelled} (h : c.current? = some l) :
    c.blobHere = c.isBlob l.label := by
  rw [blobHere, h]
  rfl

/-- To pass nothing is to stay. -/
theorem advance_zero (c : Cursor) : c.advance 0 = c := by
  obtain ⟨message, index, pushed, pushes, blobs, hle⟩ := c
  simp [advance, Nat.min_eq_left hle]

theorem tidy_start (segments : List Segment) : (start segments).Tidy where
  pushed_length_le := Nat.zero_le 1
  exists_push := by
    intro label h
    cases h
  exists_place := fun _ => label_of_mem_labelFrom

theorem Tidy.advance {c : Cursor} (h : c.Tidy) (count : Int) : (c.advance count).Tidy where
  pushed_length_le := by
    show (c.pushed.drop count.toNat).length ≤ 1
    rw [List.length_drop]
    exact Nat.le_trans (Nat.sub_le _ _) h.pushed_length_le
  exists_push := h.exists_push
  exists_place := h.exists_place

/-- Behind the current segment nothing is pushed. -/
theorem Tidy.pushed_advance {c : Cursor} (h : c.Tidy) {count : Int} (hcount : 1 ≤ count) :
    (c.advance count).pushed = [] := by
  refine List.drop_eq_nil_of_le ?_
  have := h.pushed_length_le
  omega

theorem Tidy.push {c : Cursor} (h : c.Tidy) (hpushed : c.pushed = []) (s : Segment)
    (blob : Bool) : (c.push s blob).Tidy where
  pushed_length_le := by
    show (_ :: c.pushed).length ≤ 1
    rw [hpushed]
    exact Nat.le_refl 1
  exists_push := by
    intro label hblob
    rw [isBlob_push, Bool.or_eq_true, Bool.and_eq_true, decide_eq_true_eq] at hblob
    rcases hblob with hbefore | ⟨_, hnew⟩
    · obtain ⟨push, hlt, hlabel⟩ := h.exists_push label hbefore
      exact ⟨push, Nat.lt_succ_of_lt hlt, hlabel⟩
    · exact ⟨c.pushes, Nat.lt_succ_self _, hnew⟩
  exists_place := h.exists_place

/-- A segment of the message is no blob. -/
theorem Tidy.isBlob_of_mem_message {c : Cursor} (h : c.Tidy) {l : Labelled} (hl : l ∈ c.message) :
    c.isBlob l.label = false := by
  rw [Bool.eq_false_iff]
  intro hblob
  obtain ⟨push, _, hpush⟩ := h.exists_push _ hblob
  obtain ⟨place, hplace⟩ := h.exists_place l hl
  rw [hplace] at hpush
  cases hpush

theorem Tidy.blobHere_of_pushed_nil {c : Cursor} (h : c.Tidy) (hpushed : c.pushed = []) :
    c.blobHere = false := by
  rw [blobHere, current?, hpushed]
  cases hcurrent : c.message[c.index]? with
  | none => rfl
  | some l => exact h.isBlob_of_mem_message (List.mem_of_getElem? hcurrent)

/-- A text that was pushed last is a blob if it was pushed as one. -/
theorem Tidy.blobHere_push {c : Cursor} (h : c.Tidy) (s : Segment) (blob : Bool) :
    (c.push s blob).blobHere = blob := by
  have hnew : c.isBlob (.pushed c.pushes) = false := by
    rw [Bool.eq_false_iff]
    intro hblob
    obtain ⟨push, hlt, hlabel⟩ := h.exists_push _ hblob
    cases hlabel
    exact Nat.lt_irrefl _ hlt
  show (c.push s blob).isBlob (.pushed c.pushes) = blob
  rw [isBlob_push, hnew]
  simp

end Cursor

/-! ## Steps of a run are steps on what is seen -/

namespace MatchState

def outlook (st : MatchState) : Outlook :=
  { ahead := st.ahead, blob := st.cursor.blobHere, result := st.result }

theorem outlook_start (message : List Segment) :
    ({ cursor := .start message } : MatchState).outlook = { ahead := message } := by
  rw [outlook, ahead_start, (Cursor.tidy_start message).blobHere_of_pushed_nil rfl]

/-- Without a current segment nothing lies ahead. -/
theorem ahead_eq_nil {st : MatchState} (h : st.cursor.current? = none) : st.ahead = [] := by
  rw [Cursor.current?_eq_head?] at h
  rw [ahead, List.head?_eq_none_iff.mp h, List.map_nil]

theorem tidy_absorb {st : MatchState} (h : st.cursor.Tidy) (i : Intake) :
    (st.absorb i).cursor.Tidy := by
  unfold absorb
  split
  · exact h.advance 1
  · exact (h.advance 1).push (h.pushed_advance (Int.le_refl 1)) _ _

theorem tidy_takeRest {st : MatchState} (h : st.cursor.Tidy) (setting : Setting) (name : String)
    (dataType : Option String) : (takeRest setting name dataType st).cursor.Tidy :=
  h.advance _

/-- What is left of a text is a blob if it was left as one, and a segment behind it is none. -/
theorem blobHere_absorb {st : MatchState} (h : st.cursor.Tidy) (i : Intake) :
    (st.absorb i).cursor.blobHere = (i.blob && !i.left.isEmpty) := by
  cases hleft : i.left.isEmpty with
  | true =>
      simp only [absorb, hleft, if_true, Bool.not_true, Bool.and_false]
      exact (h.advance 1).blobHere_of_pushed_nil (h.pushed_advance (Int.le_refl 1))
  | false =>
      simp only [absorb, hleft, Bool.false_eq_true, if_false, Bool.not_false, Bool.and_true]
      exact (h.advance 1).blobHere_push _ _

theorem outlook_absorb {st : MatchState} (h : st.cursor.Tidy) (i : Intake) :
    (st.absorb i).outlook = st.outlook.absorb i := by
  rw [outlook, ahead_absorb, blobHere_absorb h]
  rfl

theorem outlook_takeRest {st : MatchState} (h : st.cursor.Tidy) (setting : Setting)
    (name : String) (dataType : Option String) :
    (takeRest setting name dataType st).outlook = st.outlook.takeRest setting name dataType := by
  have hahead : (takeRest setting name dataType st).ahead =
      st.ahead.drop (restRun setting dataType st.ahead).length := by
    simp [takeRest, ahead, Cursor.upcoming_advance, List.map_drop]
  have hblob : (takeRest setting name dataType st).cursor.blobHere =
      (st.cursor.blobHere && (restRun setting dataType st.ahead).isEmpty) := by
    show (st.cursor.advance (restRun setting dataType st.ahead).length).blobHere = _
    cases hrun : restRun setting dataType st.ahead with
    | nil =>
        rw [List.isEmpty_nil, Bool.and_true]
        exact congrArg Cursor.blobHere st.cursor.advance_zero
    | cons first others =>
        rw [List.isEmpty_cons, Bool.and_false]
        refine (h.advance _).blobHere_of_pushed_nil (h.pushed_advance ?_)
        simp only [List.length_cons]
        omega
  rw [outlook, hahead, hblob]
  rfl

end MatchState

section Refinement

variable {setting : Setting} {token : Token} {rest : List Token} {st st' : MatchState}

theorem tidy_of_stepped (h : st.cursor.Tidy) (hstep : Stepped setting token rest st st') :
    st'.cursor.Tidy := by
  cases hstep with
  | took _ _ => exact MatchState.tidy_absorb h _
  | collected _ => exact MatchState.tidy_takeRest h _ _ _
  | skipped _ => exact h

theorem outlook_tryToken (h : st.cursor.Tidy) {current : Labelled}
    (hcurrent : st.cursor.current? = some current) :
    (tryToken setting token rest current st).map (Option.map MatchState.outlook) =
      st.outlook.tryToken setting token rest current.segment := by
  have hblob : st.outlook.blob = st.cursor.isBlob current.label :=
    Cursor.blobHere_of_current hcurrent
  have habsorb : MatchState.outlook ∘ st.absorb = st.outlook.absorb :=
    funext fun i => MatchState.outlook_absorb h i
  have htake : ((intake? setting token rest current.segment
      (st.cursor.isBlob current.label)).map (Option.map st.absorb)).map
        (Option.map MatchState.outlook) =
      (intake? setting token rest current.segment st.outlook.blob).map
        (Option.map st.outlook.absorb) := by
    rw [map_option_map, habsorb, hblob]
  cases token with
  | rest name dataType =>
      exact congrArg (Except.ok ∘ some) (MatchState.outlook_takeRest h setting name dataType)
  | literal _ _ => exact htake
  | typedLiteral _ _ => exact htake
  | parameter _ _ _ _ => exact htake

theorem outlook_tryHere (h : st.cursor.Tidy) :
    (tryHere setting token rest st).map (Option.map MatchState.outlook) =
      st.outlook.tryHere setting token rest := by
  unfold tryHere Outlook.tryHere
  cases hcurrent : st.cursor.current? with
  | none =>
      have hahead : st.outlook.ahead = [] := MatchState.ahead_eq_nil hcurrent
      rw [hahead]
      rfl
  | some current =>
      have hahead : st.outlook.ahead = current.segment :: st.ahead.tail :=
        MatchState.ahead_eq_cons hcurrent
      rw [hahead]
      exact outlook_tryToken h hcurrent

/-- A step on what is seen is what is seen of a step. -/
theorem outlook_step (h : st.cursor.Tidy) :
    (step setting token rest st).map (Option.map MatchState.outlook) =
      st.outlook.step setting token rest := by
  unfold step Outlook.step
  rw [← outlook_tryHere h]
  rcases tryHere setting token rest st with e | _ | st'
  · rfl
  · show Except.ok (Option.map _ (Option.map _ _)) = Except.ok (Option.map _ _)
    rw [Option.map_map]
    rfl
  · rfl

theorem outlook_steps {tokens : List Token} (h : st.cursor.Tidy) :
    (steps setting tokens st).map (Option.map MatchState.outlook) =
      st.outlook.steps setting tokens := by
  induction tokens generalizing st with
  | nil => rfl
  | cons token rest ih =>
      rw [steps, Outlook.steps, ← outlook_step h]
      rcases hstep : step setting token rest st with e | _ | st'
      · rfl
      · rfl
      · exact ih (tidy_of_stepped h (step_cases hstep))

/-- A run over a message is a run over what is seen of it. -/
theorem runTokens_eq_outlook (setting : Setting) (tokens : List Token) (message : List Segment) :
    runTokens setting tokens message =
      (Outlook.steps setting tokens { ahead := message }).map
        (Option.bind · (Outlook.answer false)) := by
  rw [← MatchState.outlook_start, ← outlook_steps (Cursor.tidy_start message)]
  unfold runTokens
  rcases steps setting tokens { cursor := .start message } with e | _ | st <;> rfl

/-- A match is a run over what is seen of the message. Without tokens, and without
segments, its result counts whatever was found. -/
theorem matchTokens_eq_outlook (setting : Setting) (tokens : List Token)
    (message : List Segment) :
    matchTokens setting tokens message =
      (Outlook.steps setting tokens { ahead := message }).map
        (Option.bind · (Outlook.answer (tokens.isEmpty || message.isEmpty))) := by
  cases tokens with
  | nil => rfl
  | cons token rest =>
      cases message with
      | nil =>
          rw [matchTokens_nil, Outlook.steps_of_ahead_nil rfl]
          cases hskip : skipAll (token :: rest) {} with
          | none => rfl
          | some r =>
              obtain ⟨_, hremaining⟩ := skipAll_keeps hskip
              have hleave : r.leave [] = r := by
                rw [MatchResult.leave, List.append_nil]
              exact congrArg (Except.ok ∘ some) hleave.symm
      | cons s more => exact runTokens_eq_outlook setting (token :: rest) (s :: more)

/-- A match fails exactly if its run does. -/
theorem matchTokens_eq_error_iff {tokens : List Token} {message : List Segment}
    {e : MatchFault} : matchTokens setting tokens message = .error e ↔
      steps setting tokens { cursor := .start message } = .error e := by
  rw [matchTokens_eq_outlook, map_eq_error_iff, ← MatchState.outlook_start,
    ← outlook_steps (Cursor.tidy_start message), map_eq_error_iff]

end Refinement

end MessagePattern
