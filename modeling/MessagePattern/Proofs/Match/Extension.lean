import MessagePattern.Proofs.Match.Reach

/-!
# Longer messages

A run looks at no more of a message than it passes, and at the segment it then stands
at. So once it has left something over it would have done the same in front of any
further segments, which are left over as well, and where it failed on a segment it
fails all the same. What has to be seen is that a run that leaves something over was
never at the end of the message before: whoever is at the end stays there
(`Outlook.ahead_ne_nil_of_step`), and a rest parameter that leaves something over has met
the end of its run (`restRun_append`).
-/

namespace MessagePattern

variable {setting : Setting} {token : Token} {rest : List Token} {more : List Segment}

/-! ## Steps in front of further segments -/

/-- A run that does not come to the end ends at the same place in a longer message. -/
theorem restRun_append {dataType : Option String} {segments : List Segment}
    (h : segments.drop (restRun setting dataType segments).length ≠ []) :
    restRun setting dataType (segments ++ more) = restRun setting dataType segments := by
  induction segments with
  | nil => exact absurd List.drop_nil h
  | cons s segments ih =>
      cases hpart : restPart setting dataType s with
      | none => simp [restRun, hpart]
      | some added =>
          have hrun : restRun setting dataType (s :: segments) =
              (s, added) :: restRun setting dataType segments := by
            simp [restRun, hpart]
          rw [hrun] at h ⊢
          have hbehind : restRun setting dataType (segments ++ more) =
              restRun setting dataType segments := ih h
          simp [restRun, hpart, hbehind]

namespace Outlook

variable {o o' : Outlook}

/-- The outlook with further segments behind those ahead. -/
def extend (more : List Segment) (o : Outlook) : Outlook :=
  { o with ahead := o.ahead ++ more }

theorem absorb_extend (h : o.ahead ≠ []) (i : Intake) :
    (o.extend more).absorb i = (o.absorb i).extend more := by
  have htail : (o.ahead ++ more).tail = o.ahead.tail ++ more := List.tail_append_of_ne_nil h
  unfold absorb extend
  rw [htail, List.append_assoc]

theorem takeRest_extend {name : String} {dataType : Option String}
    (h : (o.takeRest setting name dataType).ahead ≠ []) :
    (o.extend more).takeRest setting name dataType =
      (o.takeRest setting name dataType).extend more := by
  have hrun : restRun setting dataType (o.ahead ++ more) = restRun setting dataType o.ahead :=
    restRun_append h
  have hdrop : (o.ahead ++ more).drop (restRun setting dataType o.ahead).length =
      o.ahead.drop (restRun setting dataType o.ahead).length ++ more := by
    refine List.drop_append_of_le_length ?_
    have hlt := List.length_pos_iff.mpr h
    simp only [takeRest, List.length_drop] at hlt
    omega
  unfold takeRest extend
  simp only [hrun, hdrop]

/-- Whoever has something ahead makes a step as in front of further segments. Only of a
rest parameter it has to be known that it does not take all. -/
theorem step_extend (h : o.ahead ≠ [])
    (hrest : ∀ name dataType, token = .rest name dataType →
      (o.takeRest setting name dataType).ahead ≠ []) :
    (o.extend more).step setting token rest =
      (o.step setting token rest).map (Option.map (extend more)) := by
  have hhead : (o.extend more).ahead.head? = o.ahead.head? := by
    obtain ⟨s, behind, hahead⟩ := List.exists_cons_of_ne_nil h
    rw [extend, hahead]
    rfl
  have hskip : (o.extend more).skip token = (o.skip token).map (extend more) := by
    rw [skip, skip, Option.map_map]
    rfl
  refine step_change hhead rfl (absorb_extend h) ?_ hskip
  intro name dataType htoken
  exact takeRest_extend (hrest name dataType htoken)

/-- Where something lies ahead behind a step, something lay ahead before it. -/
theorem ahead_ne_nil_of_step (hstep : o.step setting token rest = .ok (some o'))
    (h : o'.ahead ≠ []) : o.ahead ≠ [] := by
  intro hnil
  rw [step_of_ahead_nil hnil] at hstep
  obtain ⟨result, _, rfl⟩ := Option.map_eq_some_iff.mp (Except.ok.inj hstep)
  exact h hnil

/-- A step that leaves something ahead is the same in front of further segments. -/
theorem step_extend_of_ok (hstep : o.step setting token rest = .ok (some o'))
    (h : o'.ahead ≠ []) :
    (o.extend more).step setting token rest = .ok (some (o'.extend more)) := by
  have hahead : o.ahead ≠ [] := ahead_ne_nil_of_step hstep h
  rw [step_extend hahead, hstep]
  · rfl
  · rintro name dataType rfl
    rw [step_rest, Except.ok.injEq, Option.some.injEq] at hstep
    rw [hstep]
    exact h

/-- A token that fails on a segment fails in front of further segments as well. -/
theorem step_extend_of_none (hstep : o.step setting token rest = .ok none)
    (h : o.ahead ≠ []) : (o.extend more).step setting token rest = .ok none := by
  rw [step_extend h, hstep]
  · rfl
  · rintro name dataType rfl
    rw [step_rest] at hstep
    cases hstep

end Outlook

/-! ## Runs and matches in front of further segments -/

variable {tokens tokens' : List Token} {st st' : MatchState}

/-- A run that comes to a state with something ahead comes to that state in front of
further segments as well, and goes on from there. -/
theorem Reaches.steps_extend (h : Reaches setting tokens st tokens' st')
    (more : List Segment) (htidy : st.cursor.Tidy) (hahead : st'.ahead ≠ []) :
    Outlook.steps setting tokens (st.outlook.extend more) =
      Outlook.steps setting tokens' (st'.outlook.extend more) := by
  induction h with
  | here => rfl
  | @next token rest st₁ st₂ hreaches hstep ih =>
      have hseen : st₁.outlook.step setting token rest = .ok (some st₂.outlook) := by
        rw [← outlook_step (hreaches.tidy htidy), hstep]
        rfl
      rw [ih (Outlook.ahead_ne_nil_of_step hseen hahead), Outlook.steps,
        Outlook.step_extend_of_ok hseen hahead]
      rfl

/-- Once something is left over, further segments are left over as well. -/
theorem matchTokens_append {segments : List Segment} {r : MatchResult}
    (h : matchTokens setting tokens segments = .ok (some r)) (hleft : r.remaining ≠ [])
    (more : List Segment) :
    matchTokens setting tokens (segments ++ more) = .ok (some (r.leave more)) := by
  rcases matchTokens_cases h with ⟨rfl, rfl⟩ | ⟨rfl, hskip⟩ | ⟨st, hsteps, hfinish⟩
  · rfl
  · -- Of no segments none is left over.
    exact absurd (skipAll_keeps hskip).2 hleft
  · have hreaches := reaches_of_steps hsteps
    obtain ⟨rfl, hvalid⟩ := finish_eq_some_iff.mp hfinish
    have hremaining : st.result.remaining = [] := hreaches.remaining_eq
    have hahead : st.ahead ≠ [] := by
      intro hnil
      apply hleft
      show st.result.remaining ++ st.ahead = []
      rw [hremaining, hnil, List.append_nil]
    have hrun : Outlook.steps setting tokens { ahead := segments ++ more } =
        .ok (some (st.outlook.extend more)) := by
      have hextend := hreaches.steps_extend more (Cursor.tidy_start segments) hahead
      rw [MatchState.outlook_start] at hextend
      exact hextend
    rw [matchTokens_eq_outlook, hrun]
    refine congrArg Except.ok (Outlook.answer_eq_some_iff.mpr ⟨?_, Or.inr hvalid⟩)
    simp [MatchResult.leave, Outlook.extend, MatchState.outlook]

/-- Where a token that is needed fails on a segment, there is no match, whatever segments
follow. -/
theorem matchTokens_append_eq_none {segments : List Segment}
    (h : Reaches setting tokens { cursor := .start segments } (token :: rest) st)
    (hahead : st.ahead ≠ []) (hstep : step setting token rest st = .ok none)
    (more : List Segment) :
    matchTokens setting tokens (segments ++ more) = .ok none := by
  have htidy := h.tidy (Cursor.tidy_start segments)
  have hseen : st.outlook.step setting token rest = .ok none := by
    rw [← outlook_step htidy, hstep]
    rfl
  have hextend := h.steps_extend more (Cursor.tidy_start segments) hahead
  rw [MatchState.outlook_start, Outlook.steps, Outlook.step_extend_of_none hseen hahead] at hextend
  have hrun : Outlook.steps setting tokens { ahead := segments ++ more } = .ok none := hextend
  rw [matchTokens_eq_outlook, hrun]
  rfl

theorem readMessage_append {items extra : List Value} {segments more : List Segment}
    (h : readMessage items = .ok segments) (hextra : readMessage extra = .ok more) :
    readMessage (items ++ extra) = .ok (segments ++ more) := by
  unfold readMessage at h hextra ⊢
  rw [List.mapM_append, h, hextra]
  rfl

/-- Matching does not look into the segments behind the first that it leaves over. If
something is left over of a message, then in front of further segments the result is
the same, with those left over too. And if a needed token fails on a segment, there is
no match, neither of the message nor in front of further segments. -/
theorem matchMessage_append {source : PatternSource} {items extra : List Value}
    {raw : Option RawRules} {registry : Registry} {tokens : List Token} {rules : Rules}
    {segments more : List Segment} (hsource : source.resolve = .ok tokens)
    (hrules : Rules.resolve raw = .ok rules) (hsegments : readMessage items = .ok segments)
    (hmore : readMessage extra = .ok more) :
    (∀ r, matchMessage source (.list items) raw registry = .ok (some r) → r.remaining ≠ [] →
      matchMessage source (.list (items ++ extra)) raw registry =
        .ok (some { r with remaining := r.remaining ++ more })) ∧
    (∀ token rest st,
      Reaches ⟨rules, registry⟩ tokens { cursor := .start segments } (token :: rest) st →
      st.ahead ≠ [] → step ⟨rules, registry⟩ token rest st = .ok none →
        matchMessage source (.list items) raw registry = .ok none ∧
        matchMessage source (.list (items ++ extra)) raw registry = .ok none) := by
  have hshort : matchMessage source (.list items) raw registry =
      (matchTokens ⟨rules, registry⟩ tokens segments).mapError .broken :=
    matchMessage_of_read registry hsource rfl hsegments hrules
  have hlong : matchMessage source (.list (items ++ extra)) raw registry =
      (matchTokens ⟨rules, registry⟩ tokens (segments ++ more)).mapError .broken :=
    matchMessage_of_read registry hsource rfl (readMessage_append hsegments hmore) hrules
  rw [hshort, hlong]
  constructor
  · intro r h hleft
    have hmatch := matchTokens_append (mapError_eq_ok_iff.mp h) hleft more
    exact mapError_eq_ok_iff.mpr hmatch
  · intro token rest st hreaches hahead hstep
    have hnone := matchTokens_append_eq_none hreaches hahead hstep
    refine ⟨mapError_eq_ok_iff.mpr ?_, mapError_eq_ok_iff.mpr (hnone more)⟩
    have hnil := hnone []
    rwa [List.append_nil] at hnil

/-- A run of faces ends at a text and takes no face behind it; and a face that is needed
where a text stands does not wait for the face behind it. -/
theorem matchMessage_append_face :
    matchMessage (.tokens [.literal "a" false, .rest "faces" (some "face")])
        (.list ([.segment "text" [("text", .text "a")], .segment "face" [("id", .int 1)],
          .segment "text" [("text", .text "b")]] ++ [.segment "face" [("id", .int 2)]]))
        none .builtin =
      .ok (some
        { matched := [.ofText "a", ⟨"face", [("id", .int 1)]⟩]
          params := [("faces", .list [.int 1])]
          remaining := [.ofText "b"] ++ [⟨"face", [("id", .int 2)]⟩] }) ∧
    matchMessage (.tokens [.literal "a" false, .typedLiteral "face" ""])
        (.list ([.segment "text" [("text", .text "ab")]] ++ [.segment "face" [("id", .int 2)]]))
        none .builtin =
      .ok none := by
  constructor
  · have hmatch : matchMessage (.tokens [.literal "a" false, .rest "faces" (some "face")])
        (.list [.segment "text" [("text", .text "a")], .segment "face" [("id", .int 1)],
          .segment "text" [("text", .text "b")]]) none .builtin =
        .ok (some
          { matched := [.ofText "a", ⟨"face", [("id", .int 1)]⟩]
            params := [("faces", .list [.int 1])]
            remaining := [.ofText "b"] }) := by
      rfl
    exact (matchMessage_append rfl rfl rfl rfl).1 _ hmatch (List.cons_ne_nil _ _)
  · refine ((matchMessage_append rfl rfl rfl rfl).2 (.typedLiteral "face" "") [] _
      (.next .here rfl) ?_ rfl).2
    intro hnil
    cases hnil

end MessagePattern
