import MessagePattern.Proofs.Match.Pushback

/-!
# Where pushed texts come from

In every state that a run comes to, at most one text is pushed. It is not empty, it is what
tokens have left of the segment of the message that was passed last (`StemsFrom`), and it is a
blob exactly if one of them was a parameter that took a word off it (`cursor_of_reaches`). No
segment of the message itself is ever a blob. So the last of several parameters in a text can
tell by the mark alone that others have read from the text before it.
-/

namespace MessagePattern

/-! ## The cursor of a run -/

/-- What is pushed are texts that the run itself has made, and none of them is empty. -/
structure Cursor.HoldsTexts (c : Cursor) : Prop where
  exists_push : ∀ l ∈ c.pushed, ∃ push, push < c.pushes ∧ l.label = .pushed push
  exists_text : ∀ l ∈ c.pushed, ∃ text, text ≠ "" ∧ l.segment = .ofText text

namespace Cursor

variable {c : Cursor} {l : Labelled}

theorem HoldsTexts.advance (h : c.HoldsTexts) (count : Int) : (c.advance count).HoldsTexts where
  exists_push l hl := h.exists_push l (List.mem_of_mem_drop hl)
  exists_text l hl := h.exists_text l (List.mem_of_mem_drop hl)

theorem HoldsTexts.push (h : c.HoldsTexts) {text : String} (htext : text ≠ "") (blob : Bool) :
    (c.push (.ofText text) blob).HoldsTexts where
  exists_push l hl := by
    rcases List.mem_cons.mp hl with rfl | hl
    · exact ⟨c.pushes, Nat.lt_succ_self _, rfl⟩
    · obtain ⟨push, hlt, hlabel⟩ := h.exists_push l hl
      exact ⟨push, Nat.lt_succ_of_lt hlt, hlabel⟩
  exists_text l hl := by
    rcases List.mem_cons.mp hl with rfl | hl
    · exact ⟨text, htext, rfl⟩
    · exact h.exists_text l hl

theorem getElem?_labelFrom (segments : List Segment) (place n : Nat) :
    (labelFrom place segments)[n]? = segments[n]?.map fun s => ⟨.given (place + n), s⟩ := by
  induction segments generalizing place n with
  | nil => rfl
  | cons s rest ih =>
      cases n with
      | zero => rfl
      | succ n =>
          show (labelFrom (place + 1) rest)[n]? = _
          rw [ih, List.getElem?_cons_succ, Nat.add_right_comm, Nat.add_assoc]

/-- To pass the current segment is to go on in the message, unless it is a text in front of it. -/
theorem Tidy.index_advance (h : c.Tidy) (hcurrent : c.current? = some l) :
    (c.advance 1).index + c.pushed.length = c.index + 1 := by
  have hindex : (c.advance 1).index =
      min (c.index + (1 - c.pushed.length)) c.message.length := rfl
  have hle := h.pushed_length_le
  cases hpushed : c.pushed with
  | nil =>
      rw [current?, hpushed] at hcurrent
      have hlt := (List.getElem?_eq_some_iff.mp hcurrent).1
      rw [hindex, hpushed]
      simp only [List.length_nil]
      omega
  | cons first others =>
      have hbound := c.index_le
      rw [hpushed, List.length_cons] at hle
      rw [hindex, hpushed]
      simp only [List.length_cons]
      omega

end Cursor

variable {setting : Setting} {token : Token} {rest tokens tokens₁ tokens' : List Token}
  {message : List Segment} {st st₁ st' : MatchState} {current : Labelled} {i : Intake}
  {place : Nat}

theorem index_absorb (htidy : st.cursor.Tidy) (hcurrent : st.cursor.current? = some current)
    (hleft : i.left ≠ []) :
    (st.absorb i).cursor.index + st.cursor.pushed.length = st.cursor.index + 1 := by
  rw [cursor_absorb_of_left st hleft]
  exact htidy.index_advance hcurrent

theorem pushed_absorb (htidy : st.cursor.Tidy) (hleft : i.left ≠ []) :
    (st.absorb i).cursor.pushed =
      [⟨.pushed st.cursor.pushes, .ofText (String.ofList i.left)⟩] := by
  rw [cursor_absorb_of_left st hleft]
  exact congrArg _ (htidy.pushed_advance (Int.le_refl 1))

theorem blobHere_absorb_of_left (htidy : st.cursor.Tidy) (hleft : i.left ≠ []) :
    (st.absorb i).cursor.blobHere = i.blob := by
  rw [MatchState.blobHere_absorb htidy, List.isEmpty_eq_false_iff.mpr hleft, Bool.not_false,
    Bool.and_true]

theorem holdsTexts_of_stepped (h : st.cursor.HoldsTexts)
    (hstep : Stepped setting token rest st st') : st'.cursor.HoldsTexts := by
  cases hstep with
  | @took current i _ _ =>
      unfold MatchState.absorb
      split
      · exact h.advance 1
      · rename_i hleft
        refine (h.advance 1).push ?_ _
        rwa [Ne, String.ofList_eq_empty_iff, ← List.isEmpty_iff]
  | collected _ => exact h.advance _
  | skipped _ => exact h

/-- The message is never changed. -/
theorem Stepped.message_eq (h : Stepped setting token rest st st') :
    st'.cursor.message = st.cursor.message := by
  cases h with
  | took _ _ =>
      unfold MatchState.absorb
      split <;> rfl
  | collected _ => rfl
  | skipped _ => rfl

/-- What a step does to the texts that are pushed: none is left, the cursor stays where it is, or
a token has taken a part of the current segment and what it left is pushed. -/
theorem cursor_cases_of_step (htidy : st.cursor.Tidy)
    (hstep : step setting token rest st = .ok (some st')) :
    st'.cursor.pushed = [] ∨ st'.cursor = st.cursor ∨
      ∃ current i, st.cursor.current? = some current ∧
        intake? setting token rest current.segment (st.cursor.isBlob current.label) =
          .ok (some i) ∧ i.left ≠ [] ∧ st' = st.absorb i := by
  cases step_cases hstep with
  | @took current i hcurrent hintake =>
      by_cases hleft : i.left = []
      · left
        rw [MatchState.absorb, hleft]
        exact htidy.pushed_advance (Int.le_refl 1)
      · exact Or.inr (Or.inr ⟨current, i, hcurrent, hintake, hleft, rfl⟩)
  | @collected name dataType _ =>
      cases hrun : restRun setting dataType st.ahead with
      | nil =>
          -- Nothing is passed.
          right
          left
          show st.cursor.advance (restRun setting dataType st.ahead).length = st.cursor
          rw [hrun]
          exact st.cursor.advance_zero
      | cons first others =>
          left
          refine htidy.pushed_advance ?_
          rw [hrun, List.length_cons]
          omega
  | skipped _ => exact Or.inr (Or.inl rfl)

/-! ## What is left of a segment -/

/-- Between two states of a run, nothing but texts are taken off the segment that is current in the
first of them: a token takes a part of it, or of what is left of it, and leaves a text, or else
the cursor stays where it is. -/
inductive Whittles (setting : Setting) (tokens : List Token) (st : MatchState) :
    List Token → MatchState → Prop
  | here : Whittles setting tokens st tokens st
  | cut {token : Token} {rest : List Token} {st₁ : MatchState} {current : Labelled} {i : Intake}
      (hwhittles : Whittles setting tokens st (token :: rest) st₁)
      (hcurrent : st₁.cursor.current? = some current)
      (hintake : intake? setting token rest current.segment (st₁.cursor.isBlob current.label) =
        .ok (some i))
      (hleft : i.left ≠ []) : Whittles setting tokens st rest (st₁.absorb i)
  | stayed {token : Token} {rest : List Token} {st₁ st₂ : MatchState}
      (hwhittles : Whittles setting tokens st (token :: rest) st₁)
      (hstep : step setting token rest st₁ = .ok (some st₂))
      (hcursor : st₂.cursor = st₁.cursor) : Whittles setting tokens st rest st₂

/-- What is current in a state that a run over a message comes to is the segment at a place of the
message, or what is left of it. -/
structure StemsFrom (setting : Setting) (tokens : List Token) (message : List Segment)
    (place : Nat) (tokens' : List Token) (st : MatchState) : Prop where
  exists_given : ∃ tokens₁ st₁ s,
    Reaches setting tokens { cursor := .start message } tokens₁ st₁ ∧ message[place]? = some s ∧
      st₁.cursor.current? = some ⟨.given place, s⟩ ∧ Whittles setting tokens₁ st₁ tokens' st
  /-- The cursor is in front of the place, or behind it with a text pushed back. -/
  index_eq : st.cursor.index = place + st.cursor.pushed.length

/-- A parameter that is filled from text takes the first word off the current text, and what is
left of the text is pushed back as a blob. -/
inductive SplitsWord (setting : Setting) (rest : List Token) (st : MatchState) :
    Token → MatchState → Prop
  | word {name dataType text : String} {optional : Bool} {default : Option Value} {v : Value}
      {current : Labelled} (htype : fillsFromText setting.registry dataType = true)
      (hcurrent : st.cursor.current? = some current) (htext : current.segment.text? = some text)
      (hleft : (Text.splitFirst text.toList).2 ≠ [])
      (hintake : intake? setting (.parameter name dataType optional default) rest current.segment
          (st.cursor.isBlob current.label) =
        .ok (some
          { taken := [.ofText (String.ofList (Text.splitFirst text.toList).1.raw)]
            left := (Text.splitFirst text.toList).2
            blob := true
            param := some (name, v) })) :
      SplitsWord setting rest st (.parameter name dataType optional default)
        (st.absorb
          { taken := [.ofText (String.ofList (Text.splitFirst text.toList).1.raw)]
            left := (Text.splitFirst text.toList).2
            blob := true
            param := some (name, v) })

/-- In the run over a message, a parameter has split a word off the segment at a place, or off
what was left of it then, and what is current is left of that. -/
def LeftByParameter (setting : Setting) (tokens : List Token) (message : List Segment)
    (place : Nat) (tokens' : List Token) (st : MatchState) : Prop :=
  ∃ token rest st₁ st₂, StemsFrom setting tokens message place (token :: rest) st₁ ∧
    SplitsWord setting rest st₁ token st₂ ∧ Whittles setting rest st₂ tokens' st

/-! ## Blobs -/

/-- A parameter that leaves something of a segment has split a word off its text. -/
theorem splitsWord_of_intake {name dataType : String} {optional : Bool} {default : Option Value}
    (hcurrent : st.cursor.current? = some current)
    (hintake : intake? setting (.parameter name dataType optional default) rest current.segment
      (st.cursor.isBlob current.label) = .ok (some i)) (hleft : i.left ≠ []) :
    SplitsWord setting rest st (.parameter name dataType optional default) (st.absorb i) := by
  have htry := hintake
  rw [intake?, tryParameter] at htry
  split at htry
  · rename_i htype
    have htype : fillsFromText setting.registry dataType = true := by
      simp only [Bool.or_eq_true, Bool.and_eq_true] at htype
      exact Bool.or_eq_true_iff.mpr (htype.imp_right And.right)
    unfold tryTextParameter at htry
    split at htry
    · cases htry
    rename_i text htext
    obtain ⟨read, _, htry⟩ := bind_eq_ok_iff.mp htry
    cases read with
    | none => cases htry
    | some v =>
        obtain rfl := Option.some.inj (Except.ok.inj htry)
        have hportion := portion_of_left hleft
        unfold Intake.named Portion.intake at hintake hleft ⊢
        rw [hportion] at hintake hleft ⊢
        exact .word htype hcurrent htext hleft hintake
  · -- A parameter of another type takes the segment as a whole.
    exfalso
    unfold tryKindParameter at htry
    split at htry
    · cases htry
    · obtain rfl := Option.some.inj (Except.ok.inj htry)
      exact hleft rfl

theorem SplitsWord.exists_intake (h : SplitsWord setting rest st token st') :
    ∃ current i, st.cursor.current? = some current ∧
      intake? setting token rest current.segment (st.cursor.isBlob current.label) =
        .ok (some i) ∧ i.left ≠ [] ∧ i.blob = true ∧ st' = st.absorb i := by
  cases h with
  | word _ hcurrent _ hleft hintake => exact ⟨_, _, hcurrent, hintake, hleft, rfl, rfl⟩

/-- A literal leaves a blob of a blob and plain text of plain text. A parameter leaves blobs. -/
theorem blob_of_intake {s : Segment} {blob : Bool}
    (h : intake? setting token rest s blob = .ok (some i)) (hleft : i.left ≠ []) :
    i.blob = blob ∨ i.blob = true ∧
      ∃ name dataType optional default, token = .parameter name dataType optional default := by
  cases token with
  | literal text optional =>
      obtain ⟨_, _, rfl⟩ := tryLiteral_cases (Except.ok.inj h)
      exact Or.inl rfl
  | typedLiteral kind value =>
      obtain ⟨_, _, _, rfl | ⟨_, _, _, _, _, _, rfl⟩⟩ := tryTypedLiteral_cases h
      · exact absurd rfl hleft
      · exact Or.inl rfl
  | parameter name dataType optional default =>
      rcases tryParameter_cases h with ⟨_, _, _, rfl⟩ | ⟨_, _, rfl⟩
      · exact Or.inr ⟨rfl, _, _, _, _, rfl⟩
      · exact absurd rfl hleft
  | rest name dataType => cases h

/-- A blob is the one text that is pushed. -/
theorem pushed_of_blobHere (htidy : st.cursor.Tidy) (hcurrent : st.cursor.current? = some current)
    (hblob : st.cursor.blobHere = true) : st.cursor.pushed = [current] := by
  cases hpushed : st.cursor.pushed with
  | nil =>
      rw [htidy.blobHere_of_pushed_nil hpushed] at hblob
      cases hblob
  | cons first others =>
      have hle := htidy.pushed_length_le
      rw [hpushed, List.length_cons] at hle
      obtain rfl : others = [] := List.length_eq_zero_iff.mp (by omega)
      rw [Cursor.current?, hpushed] at hcurrent
      rw [Option.some.inj hcurrent]

/-! ## Runs -/

section Runs

theorem Reaches.holdsTexts
    (h : Reaches setting tokens { cursor := .start message } tokens' st) :
    st.cursor.HoldsTexts :=
  h.induction (P := fun st => st.cursor.HoldsTexts)
    ⟨List.forall_mem_nil _, List.forall_mem_nil _⟩ holdsTexts_of_stepped

theorem Reaches.message_eq
    (h : Reaches setting tokens { cursor := .start message } tokens' st) :
    st.cursor.message = Cursor.labelFrom 0 message :=
  h.induction (P := fun st => st.cursor.message = Cursor.labelFrom 0 message) rfl
    fun hmessage hstep => hstep.message_eq.trans hmessage

theorem Whittles.reaches (h : Whittles setting tokens₁ st₁ tokens' st)
    (hreaches : Reaches setting tokens { cursor := .start message } tokens₁ st₁) :
    Reaches setting tokens { cursor := .start message } tokens' st := by
  induction h with
  | here => exact hreaches
  | cut _ hcurrent hintake _ ih => exact .next ih (step_of_intake hcurrent hintake)
  | stayed _ hstep _ ih => exact .next ih hstep

theorem StemsFrom.reaches (h : StemsFrom setting tokens message place tokens' st) :
    Reaches setting tokens { cursor := .start message } tokens' st := by
  obtain ⟨_, _, _, hreaches, _, _, hwhittles⟩ := h.exists_given
  exact hwhittles.reaches hreaches

theorem StemsFrom.tidy (h : StemsFrom setting tokens message place tokens' st) :
    st.cursor.Tidy :=
  h.reaches.tidy (Cursor.tidy_start message)

theorem StemsFrom.cut (h : StemsFrom setting tokens message place (token :: rest) st)
    (hcurrent : st.cursor.current? = some current)
    (hintake : intake? setting token rest current.segment (st.cursor.isBlob current.label) =
      .ok (some i)) (hleft : i.left ≠ []) :
    StemsFrom setting tokens message place rest (st.absorb i) where
  exists_given := by
    obtain ⟨tokens₁, st₁, s, hreaches, hs, hgiven, hwhittles⟩ := h.exists_given
    exact ⟨tokens₁, st₁, s, hreaches, hs, hgiven, hwhittles.cut hcurrent hintake hleft⟩
  index_eq := by
    have hindex := index_absorb h.tidy hcurrent hleft
    have hbefore := h.index_eq
    rw [pushed_absorb h.tidy hleft, List.length_singleton]
    omega

theorem StemsFrom.stayed (h : StemsFrom setting tokens message place (token :: rest) st)
    (hstep : step setting token rest st = .ok (some st')) (hcursor : st'.cursor = st.cursor) :
    StemsFrom setting tokens message place rest st' where
  exists_given := by
    obtain ⟨tokens₁, st₁, s, hreaches, hs, hgiven, hwhittles⟩ := h.exists_given
    exact ⟨tokens₁, st₁, s, hreaches, hs, hgiven, hwhittles.stayed hstep hcursor⟩
  index_eq := by rw [hcursor, h.index_eq]

theorem StemsFrom.whittles (h : StemsFrom setting tokens message place tokens₁ st₁)
    (hwhittles : Whittles setting tokens₁ st₁ tokens' st) :
    StemsFrom setting tokens message place tokens' st := by
  induction hwhittles with
  | here => exact h
  | cut _ hcurrent hintake hleft ih => exact ih.cut hcurrent hintake hleft
  | stayed _ hstep hcursor ih => exact ih.stayed hstep hcursor

/-- With nothing pushed, the current segment is the one of the message in front of the cursor. -/
theorem Reaches.stemsFrom_index
    (h : Reaches setting tokens { cursor := .start message } tokens' st)
    (hpushed : st.cursor.pushed = []) (hcurrent : st.cursor.current? = some current) :
    StemsFrom setting tokens message st.cursor.index tokens' st where
  exists_given := by
    have hgiven := hcurrent
    rw [Cursor.current?, hpushed] at hgiven
    rw [h.message_eq, Cursor.getElem?_labelFrom, Nat.zero_add] at hgiven
    obtain ⟨s, hs, rfl⟩ := Option.map_eq_some_iff.mp hgiven
    exact ⟨tokens', st, s, h, hs, hcurrent, .here⟩
  index_eq := by rw [hpushed, List.length_nil, Nat.add_zero]

/-- Whatever is current in a run stems from a segment of the message. -/
theorem Reaches.exists_stemsFrom
    (h : Reaches setting tokens { cursor := .start message } tokens' st)
    (hcurrent : st.cursor.current? = some current) :
    ∃ place, StemsFrom setting tokens message place tokens' st := by
  induction h generalizing current with
  | here => exact ⟨_, Reaches.stemsFrom_index .here rfl hcurrent⟩
  | @next token rest st₁ st₂ hreaches hstep ih =>
      rcases cursor_cases_of_step (hreaches.tidy (Cursor.tidy_start message)) hstep with
        hpushed | hcursor | ⟨cut, i, hcut, hintake, hleft, rfl⟩
      · exact ⟨_, (hreaches.next hstep).stemsFrom_index hpushed hcurrent⟩
      · obtain ⟨place, hstems⟩ := ih (hcursor ▸ hcurrent)
        exact ⟨place, hstems.stayed hstep hcursor⟩
      · obtain ⟨place, hstems⟩ := ih hcut
        exact ⟨place, hstems.cut hcut hintake hleft⟩

theorem LeftByParameter.stemsFrom
    (h : LeftByParameter setting tokens message place tokens' st) :
    StemsFrom setting tokens message place tokens' st := by
  obtain ⟨token, rest, st₁, st₂, hstems, hsplits, hwhittles⟩ := h
  obtain ⟨current, i, hcurrent, hintake, hleft, _, rfl⟩ := hsplits.exists_intake
  exact (hstems.cut hcurrent hintake hleft).whittles hwhittles

/-- What a parameter has left is a blob, and so is what literals leave of it. -/
theorem LeftByParameter.blobHere (h : LeftByParameter setting tokens message place tokens' st) :
    st.cursor.blobHere = true := by
  obtain ⟨token, rest, st₁, st₂, hstems, hsplits, hwhittles⟩ := h
  obtain ⟨current, i, hcurrent, hintake, hleft, hblob, rfl⟩ := hsplits.exists_intake
  have hstems₂ := hstems.cut hcurrent hintake hleft
  induction hwhittles with
  | here => rw [blobHere_absorb_of_left hstems.tidy hleft, hblob]
  | cut hwhittles hcurrent hintake hleft ih =>
      rw [blobHere_absorb_of_left (hstems₂.whittles hwhittles).tidy hleft]
      rcases blob_of_intake hintake hleft with hsame | ⟨hnew, _⟩
      · rw [hsame, ← Cursor.blobHere_of_current hcurrent, ih]
      · exact hnew
  | stayed _ _ hcursor ih => rw [hcursor, ih]

/-- A blob is what is left of a text that a parameter has split a word off. -/
theorem Reaches.exists_leftByParameter
    (h : Reaches setting tokens { cursor := .start message } tokens' st)
    (hblob : st.cursor.blobHere = true) :
    ∃ place, LeftByParameter setting tokens message place tokens' st := by
  induction h with
  | here =>
      rw [(Cursor.tidy_start message).blobHere_of_pushed_nil rfl] at hblob
      cases hblob
  | @next token rest st₁ st₂ hreaches hstep ih =>
      have htidy := hreaches.tidy (Cursor.tidy_start message)
      rcases cursor_cases_of_step htidy hstep with
        hpushed | hcursor | ⟨current, i, hcurrent, hintake, hleft, rfl⟩
      · rw [(tidy_of_stepped htidy (step_cases hstep)).blobHere_of_pushed_nil hpushed] at hblob
        cases hblob
      · rw [hcursor] at hblob
        obtain ⟨place, split, others, st₃, st₄, hstems, hsplits, hwhittles⟩ := ih hblob
        exact ⟨place, split, others, st₃, st₄, hstems, hsplits, hwhittles.stayed hstep hcursor⟩
      · rw [blobHere_absorb_of_left htidy hleft] at hblob
        rcases blob_of_intake hintake hleft with
          hsame | ⟨_, name, dataType, optional, default, rfl⟩
        · have hblob₁ : st₁.cursor.blobHere = true := by
            rw [Cursor.blobHere_of_current hcurrent, ← hsame, hblob]
          obtain ⟨place, split, others, st₃, st₄, hstems, hsplits, hwhittles⟩ := ih hblob₁
          exact ⟨place, split, others, st₃, st₄, hstems, hsplits,
            hwhittles.cut hcurrent hintake hleft⟩
        · obtain ⟨place, hstems⟩ := hreaches.exists_stemsFrom hcurrent
          exact ⟨place, _, rest, st₁, _, hstems, splitsWord_of_intake hcurrent hintake hleft,
            .here⟩

/-- The cursor in any state that a run over a message comes to. At most one segment is pushed; it
is a text, not an empty one, that was made in the run, and the cursor is no longer in front of the
message. The segments of the message are as they were given, and none is a blob. The current
segment stems from one of them, and it is a blob exactly if it is pushed and a parameter that is
filled from text has split a word off that segment before, or off what was left of it. -/
theorem cursor_of_reaches
    (h : Reaches setting tokens { cursor := .start message } tokens' st) :
    st.cursor.pushed.length ≤ 1 ∧
    (∀ l ∈ st.cursor.pushed, 1 ≤ st.cursor.index ∧
      (∃ text, text ≠ "" ∧ l.segment = .ofText text) ∧
      ∃ push, push < st.cursor.pushes ∧ l.label = .pushed push) ∧
    (st.cursor.message = Cursor.labelFrom 0 message ∧
      ∀ l ∈ st.cursor.message, st.cursor.isBlob l.label = false) ∧
    ∀ current, st.cursor.current? = some current →
      ∃ place, StemsFrom setting tokens message place tokens' st ∧
        (st.cursor.isBlob current.label = true ↔
          st.cursor.pushed = [current] ∧
            LeftByParameter setting tokens message place tokens' st) := by
  have htidy := h.tidy (Cursor.tidy_start message)
  have htexts := h.holdsTexts
  refine ⟨htidy.pushed_length_le, fun l hl => ⟨?_, htexts.exists_text l hl, htexts.exists_push l hl⟩,
    ⟨h.message_eq, fun l hl => htidy.isBlob_of_mem_message hl⟩, fun current hcurrent => ?_⟩
  · obtain ⟨first, others, hpushed⟩ := List.exists_cons_of_ne_nil (List.ne_nil_of_mem hl)
    have hcurrent : st.cursor.current? = some first := by rw [Cursor.current?, hpushed]
    obtain ⟨place, hstems⟩ := h.exists_stemsFrom hcurrent
    have hindex := hstems.index_eq
    rw [hpushed, List.length_cons] at hindex
    omega
  · obtain ⟨place, hstems⟩ := h.exists_stemsFrom hcurrent
    refine ⟨place, hstems, ?_⟩
    rw [← Cursor.blobHere_of_current hcurrent]
    constructor
    · intro hblob
      refine ⟨pushed_of_blobHere htidy hcurrent hblob, ?_⟩
      obtain ⟨place', hleft⟩ := h.exists_leftByParameter hblob
      -- The place is known from the cursor, so both are one.
      have hindex := hstems.index_eq
      rw [hleft.stemsFrom.index_eq] at hindex
      rwa [← Nat.add_right_cancel hindex]
    · rintro ⟨_, hleft⟩
      exact hleft.blobHere

/-- A literal takes the start of a text, a parameter the word behind it and an optional space the
next character. What is left for the last parameter is a blob, by that word. -/
theorem cursor_of_reaches_two :
    ∃ st, Reaches ⟨.defaults, .builtin⟩
        [.literal "say" false, .parameter "a" "text" true none, .literal " " true,
          .parameter "b" "text" true none]
        { cursor := .start [.ofText "say one two"] } [.parameter "b" "text" true none] st ∧
      st.cursor.current? = some ⟨.pushed 2, .ofText "two"⟩ ∧
      st.cursor.isBlob (.pushed 2) = true ∧ st.cursor.pushed.length ≤ 1 ∧
      ∃ place, StemsFrom ⟨.defaults, .builtin⟩
          [.literal "say" false, .parameter "a" "text" true none, .literal " " true,
            .parameter "b" "text" true none]
          [.ofText "say one two"] place [.parameter "b" "text" true none] st ∧
        LeftByParameter ⟨.defaults, .builtin⟩
          [.literal "say" false, .parameter "a" "text" true none, .literal " " true,
            .parameter "b" "text" true none]
          [.ofText "say one two"] place [.parameter "b" "text" true none] st := by
  obtain ⟨st, hreaches, hcurrent, hblob⟩ : ∃ st, Reaches ⟨.defaults, .builtin⟩
      [.literal "say" false, .parameter "a" "text" true none, .literal " " true,
        .parameter "b" "text" true none]
      { cursor := .start [.ofText "say one two"] } [.parameter "b" "text" true none] st ∧
      st.cursor.current? = some ⟨.pushed 2, .ofText "two"⟩ ∧
      st.cursor.isBlob (.pushed 2) = true :=
    ⟨_, .next (.next (.next .here rfl) rfl) rfl, rfl, rfl⟩
  obtain ⟨hlength, _, _, hstems⟩ := cursor_of_reaches hreaches
  obtain ⟨place, hstems, hleft⟩ := hstems _ hcurrent
  exact ⟨st, hreaches, hcurrent, hblob, hlength, place, hstems, (hleft.mp hblob).2⟩

end Runs

end MessagePattern
