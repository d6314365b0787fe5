import Mathlib.Data.List.Forall2
import MessagePattern.Proofs.Match.Intake
import MessagePattern.Proofs.Match.Step

/-!
# Matching conserves the message

What a match took and what it left over is the message again, except that some
texts were cut. Each segment of the message accounts for one block of the
segments in the result: itself, or texts that join to its text. The relation
is transitive (`InBlocks.trans`), so it is enough to look at the one segment
that a token takes in.
-/

namespace MessagePattern

/-! ## Blocks -/

/-- What may stand for a segment: the segment itself, or pieces of its text. -/
def IsBlock (s : Segment) (block : List Segment) : Prop :=
  block ≠ [] ∧
    (block = [s] ∨
      ∃ texts : List String, block = texts.map Segment.ofText ∧
        s.text? = some (String.join texts))

/-- The segments can be cut, in order, into one block for each segment of a
message. -/
def InBlocks (message segments : List Segment) : Prop :=
  ∃ blocks : List (List Segment), List.Forall₂ IsBlock message blocks ∧
    blocks.flatten = segments

theorem isBlock_self (s : Segment) : IsBlock s [s] :=
  ⟨List.cons_ne_nil s [], Or.inl rfl⟩

theorem isBlock_of_texts {s : Segment} {texts : List String} (hne : texts ≠ [])
    (h : s.text? = some (String.join texts)) : IsBlock s (texts.map Segment.ofText) :=
  ⟨fun hnil => hne (List.map_eq_nil_iff.mp hnil), Or.inr ⟨texts, rfl, h⟩⟩

theorem inBlocks_nil : InBlocks [] [] :=
  ⟨[], .nil, rfl⟩

theorem IsBlock.inBlocks_cons {s : Segment} {block message segments : List Segment}
    (h : IsBlock s block) (hrest : InBlocks message segments) :
    InBlocks (s :: message) (block ++ segments) := by
  obtain ⟨blocks, hblocks, rfl⟩ := hrest
  exact ⟨block :: blocks, .cons h hblocks, rfl⟩

theorem inBlocks_refl : ∀ message : List Segment, InBlocks message message
  | [] => inBlocks_nil
  | s :: rest => (isBlock_self s).inBlocks_cons (inBlocks_refl rest)

theorem InBlocks.append {a b a' b' : List Segment} (h : InBlocks a a') (h' : InBlocks b b') :
    InBlocks (a ++ b) (a' ++ b') := by
  obtain ⟨blocks, hblocks, rfl⟩ := h
  obtain ⟨blocks', hblocks', rfl⟩ := h'
  exact ⟨blocks ++ blocks', List.rel_append hblocks hblocks', List.flatten_append⟩

/-- What stands for two messages in a row is what stands for each. -/
theorem InBlocks.of_append {a b segments : List Segment} (h : InBlocks (a ++ b) segments) :
    ∃ left right, segments = left ++ right ∧ InBlocks a left ∧ InBlocks b right := by
  obtain ⟨blocks, hblocks, rfl⟩ := h
  refine ⟨(blocks.take a.length).flatten, (blocks.drop a.length).flatten, ?_,
    ⟨_, ?_, rfl⟩, ⟨_, ?_, rfl⟩⟩
  · rw [← List.flatten_append, List.take_append_drop]
  · simpa using List.forall₂_take a.length hblocks
  · simpa using List.forall₂_drop a.length hblocks

/-! ## Blocks of blocks -/

/-- Cutting texts further leaves texts that join to the same text. -/
theorem InBlocks.finer_texts : ∀ {texts : List String} {segments : List Segment},
    InBlocks (texts.map Segment.ofText) segments →
      ∃ finer : List String, segments = finer.map Segment.ofText ∧
        String.join finer = String.join texts
  | [], segments, ⟨blocks, hblocks, hflat⟩ => by
      cases hblocks
      exact ⟨[], hflat.symm, rfl⟩
  | t :: texts, segments, ⟨blocks, hblocks, hflat⟩ => by
      obtain _ | ⟨hblock, hrest⟩ := hblocks
      rename_i block blocks
      obtain ⟨finer, hfiner, hjoin⟩ := InBlocks.finer_texts ⟨blocks, hrest, rfl⟩
      -- The first text stands as it is, or it was cut into pieces.
      rcases hblock.2 with rfl | ⟨pieces, rfl, hpieces⟩
      · refine ⟨t :: finer, ?_, by rw [String.join_cons, String.join_cons, hjoin]⟩
        rw [← hflat, List.flatten_cons, hfiner, List.map_cons, List.singleton_append]
      · rw [Segment.text?_ofText] at hpieces
        refine ⟨pieces ++ finer, ?_, ?_⟩
        · rw [← hflat, List.flatten_cons, hfiner, List.map_append]
        · rw [String.join_append, String.join_cons, hjoin, Option.some.inj hpieces]

theorem InBlocks.ne_nil {message segments : List Segment} (h : InBlocks message segments)
    (hne : message ≠ []) : segments ≠ [] := by
  obtain ⟨blocks, hblocks, rfl⟩ := h
  cases hblocks with
  | nil => exact absurd rfl hne
  | cons hblock hrest =>
      intro hnil
      exact hblock.1 (List.append_eq_nil_iff.mp hnil).1

theorem IsBlock.of_inBlocks {s : Segment} {block segments : List Segment} (h : IsBlock s block)
    (hfiner : InBlocks block segments) : IsBlock s segments := by
  rcases h.2 with rfl | ⟨texts, rfl, htexts⟩
  · obtain ⟨blocks, hblocks, rfl⟩ := hfiner
    obtain _ | ⟨hblock, ⟨⟩⟩ := hblocks
    simpa using hblock
  · obtain ⟨finer, rfl, hjoin⟩ := hfiner.finer_texts
    exact ⟨hfiner.ne_nil h.1, Or.inr ⟨finer, rfl, by rw [htexts, hjoin]⟩⟩

/-- Blocks may be cut again. -/
theorem InBlocks.trans {message segments finer : List Segment} (h : InBlocks message segments)
    (h' : InBlocks segments finer) : InBlocks message finer := by
  obtain ⟨blocks, hblocks, rfl⟩ := h
  induction hblocks generalizing finer with
  | nil => exact h'
  | cons hblock _ ih =>
      obtain ⟨left, right, rfl, hleft, hright⟩ := h'.of_append
      exact (hblock.of_inBlocks hleft).inBlocks_cons (ih hright)

/-! ## What a token takes in -/

/-- What is taken and what is left stand for the segment. -/
def Intake.CutFrom (i : Intake) (s : Segment) : Prop :=
  IsBlock s (i.taken ++ pieceOf i.left)

theorem cutFrom_of_whole {i : Intake} {s : Segment} (htaken : i.taken = [s])
    (hleft : i.left = []) : i.CutFrom s := by
  unfold Intake.CutFrom
  rw [htaken, hleft]
  exact isBlock_self s

theorem exists_texts_pieceOf (piece : List Char) :
    ∃ texts : List String, pieceOf piece = texts.map Segment.ofText ∧
      String.join texts = String.ofList piece := by
  cases piece with
  | nil => exact ⟨[], rfl, rfl⟩
  | cons c rest => exact ⟨[String.ofList (c :: rest)], rfl, by simp⟩

theorem cutFrom_of_texts {i : Intake} {s : Segment} (texts : List String)
    (htaken : i.taken = texts.map Segment.ofText) (hne : texts ≠ [])
    (h : s.text? = some (String.join texts ++ String.ofList i.left)) : i.CutFrom s := by
  obtain ⟨lefts, hlefts, hjoin⟩ := exists_texts_pieceOf i.left
  unfold Intake.CutFrom
  rw [htaken, hlefts, ← List.map_append]
  refine isBlock_of_texts (fun hnil => hne (List.append_eq_nil_iff.mp hnil).1) ?_
  rw [h, String.join_append, hjoin]

theorem cutFrom_tryLiteral {literal : String} {s : Segment} {blob : Bool} {i : Intake}
    (h : tryLiteral literal s blob = some i) : i.CutFrom s := by
  obtain ⟨behind, htext, rfl⟩ := tryLiteral_cases h
  refine cutFrom_of_texts [literal] rfl (List.cons_ne_nil _ _) ?_
  rw [htext, String.join_cons, String.join_nil, String.append_empty]

/-- In a text segment the default rule finds the text. -/
theorem text?_extract_textField {s : Segment} (h : s.isText = true) :
    ((Rule.field "text").extract s).text? = s.text? := by
  show ((s.field? "text").getD .null).text? = s.text?
  rw [Segment.text?, if_pos h]
  cases s.field? "text" <;> rfl

theorem cutFrom_tryTypedLiteral {setting : Setting} {kind value : String} {s : Segment}
    {blob : Bool} {i : Intake} (htext : setting.rules.get? textKind = some (.field "text"))
    (h : tryTypedLiteral setting kind value s blob = .ok (some i)) : i.CutFrom s := by
  obtain ⟨hkind, rule, hrule, rfl | ⟨text, before, after, hisText, hfound, hsplit, rfl⟩⟩ :=
    tryTypedLiteral_cases h
  · exact cutFrom_of_whole rfl rfl
  · -- The text was found by the rule for texts, so it is all of the segment's text.
    have htextKind : kind = textKind := hkind ▸ of_decide_eq_true hisText
    rw [htextKind, htext] at hrule
    cases hrule
    rw [text?_extract_textField hisText] at hfound
    obtain ⟨befores, hbefores, hjoin⟩ := exists_texts_pieceOf before
    refine cutFrom_of_texts (befores ++ [value]) ?_ (by simp) ?_
    · rw [hbefores, List.map_append]
      rfl
    · have hparts : text.toList = before ++ value.toList ++ after := by
        have hparts := Text.splitOnce_join value.toList text.toList
        rwa [hsplit] at hparts
      rw [hfound, String.join_append, hjoin]
      refine congrArg some (String.toList_inj.mp ?_)
      simp [hparts]

theorem cutFrom_tryParameter {setting : Setting} {name dataType : String} {shared : Bool}
    {s : Segment} {blob : Bool} {i : Intake}
    (h : tryParameter setting name dataType shared s blob = .ok (some i)) : i.CutFrom s := by
  rcases tryParameter_cases h with ⟨text, v, htext, rfl⟩ | ⟨_, v, rfl⟩
  · rcases portion_cases shared blob text.toList with ⟨htaken, hleft⟩ | ⟨raw, htaken, hjoin⟩
    · refine cutFrom_of_whole ?_ hleft
      show [(portion shared blob text.toList).taken.elim s _] = [s]
      rw [htaken]
      rfl
    · refine cutFrom_of_texts [String.ofList raw] ?_ (List.cons_ne_nil _ _) ?_
      · show [(portion shared blob text.toList).taken.elim s _] = _
        rw [htaken]
        rfl
      · refine htext.trans (congrArg some (String.toList_inj.mp ?_))
        simpa [Intake.named, Portion.intake] using hjoin.symm
  · exact cutFrom_of_whole rfl rfl

theorem cutFrom_intake? {setting : Setting} {token : Token} {rest : List Token} {s : Segment}
    {blob : Bool} {i : Intake} (htext : setting.rules.get? textKind = some (.field "text"))
    (h : intake? setting token rest s blob = .ok (some i)) : i.CutFrom s := by
  cases token with
  | literal literal optional => exact cutFrom_tryLiteral (Except.ok.inj h)
  | typedLiteral kind value => exact cutFrom_tryTypedLiteral htext h
  | parameter name dataType optional default => exact cutFrom_tryParameter h
  | rest name dataType => cases h

/-! ## Runs and matches -/

/-- What was taken and what lies ahead stand for the message, and nothing was left
over yet. -/
structure Conserves (message : List Segment) (st : MatchState) : Prop where
  inBlocks : InBlocks message (st.result.matched ++ st.ahead)
  remaining_eq_nil : st.result.remaining = []

theorem Conserves.start (message : List Segment) :
    Conserves message { cursor := .start message } where
  inBlocks := by
    rw [MatchState.ahead_start]
    exact inBlocks_refl message
  remaining_eq_nil := rfl

/-- The segment that a token takes in is replaced by a block of its own; all other
segments stay where they are. -/
theorem Conserves.absorb {message : List Segment} {st : MatchState} {current : Labelled}
    {i : Intake} (h : Conserves message st) (hcurrent : st.cursor.current? = some current)
    (hcut : i.CutFrom current.segment) : Conserves message (st.absorb i) where
  inBlocks := by
    have hstep : InBlocks (st.result.matched ++ st.ahead)
        (st.result.matched ++ (i.taken ++ pieceOf i.left ++ st.ahead.tail)) := by
      refine (inBlocks_refl st.result.matched).append ?_
      rw [MatchState.ahead_eq_cons hcurrent]
      exact hcut.inBlocks_cons (inBlocks_refl _)
    have h' := h.inBlocks.trans hstep
    rw [MatchState.matched_absorb, MatchState.ahead_absorb]
    simpa only [List.append_assoc] using h'
  remaining_eq_nil := by rw [MatchState.remaining_absorb, h.remaining_eq_nil]

theorem Conserves.step {setting : Setting} {message : List Segment} {token : Token}
    {rest : List Token} {st st' : MatchState}
    (htext : setting.rules.get? textKind = some (.field "text")) (h : Conserves message st)
    (hstep : Stepped setting token rest st st') : Conserves message st' := by
  cases hstep with
  | took hcurrent hintake => exact h.absorb hcurrent (cutFrom_intake? htext hintake)
  | collected htoken =>
      -- The run only changes sides.
      refine ⟨?_, h.remaining_eq_nil⟩
      rw [matched_append_ahead_takeRest]
      exact h.inBlocks
  | skipped hskip =>
      obtain ⟨hmatched, hremaining⟩ := skip_keeps hskip
      refine ⟨?_, hremaining.trans h.remaining_eq_nil⟩
      show InBlocks message (_ ++ st.ahead)
      rw [hmatched]
      exact h.inBlocks

/-- A result of tokens and segments accounts for every segment. -/
theorem inBlocks_matchTokens {setting : Setting} {tokens : List Token} {message : List Segment}
    {r : MatchResult} (htext : setting.rules.get? textKind = some (.field "text"))
    (h : matchTokens setting tokens message = .ok (some r)) :
    InBlocks message (r.matched ++ r.remaining) := by
  rcases matchTokens_cases h with ⟨rfl, rfl⟩ | ⟨rfl, hskip⟩ | ⟨st, hsteps, hfinish⟩
  · exact inBlocks_refl message
  · obtain ⟨hmatched, hremaining⟩ := skipAll_keeps hskip
    rw [hmatched, hremaining]
    exact inBlocks_nil
  · -- The invariant leads from the start of the message to the end of the tokens.
    have hconserves : Conserves message st :=
      steps_induction (fun h hstep => h.step htext hstep) hsteps (.start message)
    obtain ⟨rfl, _⟩ := finish_eq_some_iff.mp hfinish
    show InBlocks message (st.result.matched ++ (st.result.remaining ++ st.ahead))
    rw [hconserves.remaining_eq_nil, List.nil_append]
    exact hconserves.inBlocks

/-- Whatever source, message, rules and registry are handed over: where a match
answers a result, the segments of the message fall into one block each of what was
taken and what was left over. The rule for texts must be the default one. -/
theorem matchMessage_conserves {source : PatternSource} {message : Value}
    {raw : Option RawRules} {registry : Registry} {r : MatchResult}
    (h : matchMessage source message raw registry = .ok (some r))
    (htext : ∀ rules, Rules.resolve raw = .ok rules →
      rules.get? textKind = some (.field "text")) :
    ∃ items segments, message.items? = some items ∧ readMessage items = .ok segments ∧
      ∃ blocks : List (List Segment), List.Forall₂ IsBlock segments blocks ∧
        blocks.flatten = r.matched ++ r.remaining := by
  obtain ⟨tokens, items, rules, segments, _, hitems, hrules, hsegments, hmatch⟩ :=
    matchMessage_cases h
  exact ⟨items, segments, hitems, hsegments, inBlocks_matchTokens (htext rules hrules) hmatch⟩

/-- A text is cut by a literal and by a typed literal, and the face behind it is left
over as it is. -/
theorem matchMessage_conserves_cut_text :
    matchMessage (.tokens [.literal "sa" false, .typedLiteral "text" "hell"])
        (.list [.segment "text" [("text", .text "say hello"), ("font", .text "mono")],
          .segment "face" [("id", .int 4)]]) none .builtin =
      .ok (some
        { matched := [.ofText "sa", .ofText "y ", .ofText "hell"]
          remaining := [.ofText "o", ⟨"face", [("id", .int 4)]⟩] }) ∧
    ∃ items segments,
      Value.items? (.list [.segment "text" [("text", .text "say hello"), ("font", .text "mono")],
        .segment "face" [("id", .int 4)]]) = some items ∧
      readMessage items = .ok segments ∧
      ∃ blocks : List (List Segment), List.Forall₂ IsBlock segments blocks ∧
        blocks.flatten = [.ofText "sa", .ofText "y ", .ofText "hell"] ++
          [.ofText "o", ⟨"face", [("id", .int 4)]⟩] := by
  have hmatch : matchMessage (.tokens [.literal "sa" false, .typedLiteral "text" "hell"])
      (.list [.segment "text" [("text", .text "say hello"), ("font", .text "mono")],
        .segment "face" [("id", .int 4)]]) none .builtin =
      .ok (some
        { matched := [.ofText "sa", .ofText "y ", .ofText "hell"]
          remaining := [.ofText "o", ⟨"face", [("id", .int 4)]⟩] }) := by
    rfl
  refine ⟨hmatch, matchMessage_conserves hmatch ?_⟩
  intro rules hrules
  cases hrules
  rfl

end MessagePattern
