import MessagePattern.Proofs.Match.Conservation
import MessagePattern.Proofs.Match.Validity
import MessagePattern.Proofs.Pattern.Origin
import MessagePattern.Proofs.Text.Words

/-!
# Texts that are pushed back

A run pushes back what a token leaves of a text. A literal and a word leave less than
they were split from, because neither is empty; only a typed literal may leave
more, for it cuts the text that the rule for texts finds, which need not be the text of the
segment. So the pushed texts shrink exactly if no such cut leaves too much
(`pushbacks_shrink_iff`), as is the case under the default rule, and a table with another
rule can make a match grow (`not_forall_pushbacks_shrink`).
-/

namespace MessagePattern

/-! ## Sizes of texts -/

/-- The number of characters of a segment's text; a segment without text has none. -/
def Segment.textSize (s : Segment) : Nat :=
  s.text?.elim 0 String.length

def textSizes : List Segment → Nat
  | [] => 0
  | s :: rest => s.textSize + textSizes rest

theorem textSize_eq {s : Segment} {text : String} (h : s.text? = some text) :
    s.textSize = text.length := by
  rw [Segment.textSize, h]
  rfl

theorem textSize_ofText (text : String) : (Segment.ofText text).textSize = text.length :=
  textSize_eq (Segment.text?_ofText text)

theorem textSizes_cons (s : Segment) (more : List Segment) :
    textSizes (s :: more) = s.textSize + textSizes more := rfl

theorem textSizes_append (segments more : List Segment) :
    textSizes (segments ++ more) = textSizes segments + textSizes more := by
  induction segments with
  | nil => exact (Nat.zero_add _).symm
  | cons s rest ih => rw [List.cons_append, textSizes_cons, textSizes_cons, ih, Nat.add_assoc]

theorem textSizes_pieceOf (piece : List Char) : textSizes (pieceOf piece) = piece.length := by
  cases piece with
  | nil => rfl
  | cons c rest =>
      show textSizes [.ofText (String.ofList (c :: rest))] = _
      rw [textSizes_cons, textSize_ofText, String.length_ofList]
      rfl

theorem textSizes_texts (texts : List String) :
    textSizes (texts.map Segment.ofText) = (String.join texts).length := by
  induction texts with
  | nil => rfl
  | cons text texts ih =>
      rw [List.map_cons, textSizes_cons, textSize_ofText, ih, String.join_cons,
        String.length_append]

/-- A block has as much text as the segment that it stands for. -/
theorem IsBlock.textSizes_eq {s : Segment} {block : List Segment} (h : IsBlock s block) :
    textSizes block = s.textSize := by
  rcases h.2 with rfl | ⟨texts, rfl, htexts⟩
  · rw [textSizes_cons]
    rfl
  · rw [textSizes_texts, textSize_eq htexts]

/-! ## What is left of a segment -/

/-- A portion that leaves something leaves less than the text. -/
theorem left_shorter_of_portion {shared blob : Bool} {text : List Char}
    (h : (portion shared blob text).left ≠ []) :
    (portion shared blob text).left.length < text.length := by
  have hportion := portion_of_left h
  rw [hportion] at h ⊢
  exact Text.splitFirst_snd_shorter h

/-- The rule for texts finds a text in a segment, and a value stands inside it. -/
structure FindsInside (rules : Rules) (value : String) (s : Segment) (found : String)
    (before behind : List Char) : Prop where
  kind_eq : s.kind = textKind
  value_ne_empty : value ≠ ""
  found_ne : found ≠ value
  extract_eq : ∃ rule, rules.get? textKind = some rule ∧ rule.extract s = .text found
  split_eq : Text.splitOnce value.toList found.toList = (before, some behind)

variable {setting : Setting} {token : Token} {rest tokens : List Token} {s : Segment}
  {blob : Bool} {i : Intake} {kind value found : String} {before behind : List Char}

namespace FindsInside

theorem length_eq {rules : Rules} (h : FindsInside rules value s found before behind) :
    found.length = before.length + value.length + behind.length := by
  have hjoin := Text.splitOnce_join value.toList found.toList
  rw [h.split_eq] at hjoin
  rw [← String.length_toList, ← String.length_toList, show found.toList = _ from hjoin]
  simp only [List.length_append]

/-- The default rule finds the text of the segment. -/
theorem text?_eq {rules : Rules} (hrule : rules.get? textKind = some (.field "text"))
    (h : FindsInside rules value s found before behind) : s.text? = some found := by
  obtain ⟨rule, hrule', hfound⟩ := h.extract_eq
  rw [hrule] at hrule'
  cases hrule'
  rw [← text?_extract_textField (decide_eq_true h.kind_eq), hfound]
  rfl

theorem intake_eq (h : FindsInside setting.rules value s found before behind) :
    intake? setting (.typedLiteral textKind value) rest s blob =
      .ok (some { taken := pieceOf before ++ [.ofText value], left := behind, blob }) := by
  obtain ⟨rule, hrule, hfound⟩ := h.extract_eq
  have hisText : s.isText = true := decide_eq_true h.kind_eq
  have hwritten : (Value.text found).written = .ok found := rfl
  show tryTypedLiteral setting textKind value s blob = _
  rw [tryTypedLiteral, if_neg (not_not_intro h.kind_eq), hrule]
  simp only [if_neg h.value_ne_empty, hfound, hwritten, Except.mapError, Except.map,
    if_neg h.found_ne, hisText, if_true, Value.text?, Option.map_some, h.split_eq]

end FindsInside

/-- A typed literal takes its segment whole, or its value stands inside the text that the
rule for texts finds. -/
theorem whole_or_findsInside (h : tryTypedLiteral setting kind value s blob = .ok (some i)) :
    i = .whole s ∨ kind = textKind ∧ ∃ found before behind,
      FindsInside setting.rules value s found before behind ∧
        i = { taken := pieceOf before ++ [.ofText value], left := behind, blob } := by
  unfold tryTypedLiteral at h
  split at h
  · cases h
  rename_i hkind
  have hkind : s.kind = kind := Decidable.not_not.mp hkind
  split at h
  · cases h
  rename_i rule hrule
  split at h
  · exact Or.inl (Option.some.inj (Except.ok.inj h)).symm
  rename_i hvalue
  split at h
  · cases h
  obtain ⟨plain, hplain, h⟩ := map_eq_ok_iff.mp h
  split at h
  · exact Or.inl (Option.some.inj h).symm
  rename_i hne
  split at h
  · rename_i hisText
    have htextKind : s.kind = textKind := of_decide_eq_true hisText
    have hkind' : kind = textKind := hkind.symm.trans htextKind
    split at h
    · rename_i before behind hsplit
      obtain ⟨found, hfound, hsplit⟩ := Option.map_eq_some_iff.mp hsplit
      have hextract : rule.extract s = .text found := by
        revert hfound
        cases rule.extract s <;> simp [Value.text?]
      -- A text is written as it is.
      have hplain : plain = found := by
        rw [hextract] at hplain
        exact (Except.ok.inj hplain).symm
      exact Or.inr ⟨hkind', found, before, behind,
        ⟨htextKind, hvalue, hplain ▸ hne, ⟨rule, hkind' ▸ hrule, hextract⟩, hsplit⟩,
        (Option.some.inj h).symm⟩
    · cases h
  · cases h

/-- A token leaves less of a text than there was, or it is a typed literal that cuts the text
which the rule for texts finds. -/
theorem left_shorter_or_findsInside (hliteral : ∀ text optional,
      token = .literal text optional → text ≠ "")
    (h : intake? setting token rest s blob = .ok (some i)) (hleft : i.left ≠ []) :
    i.left.length < s.textSize ∨ ∃ value found before,
      token = .typedLiteral textKind value ∧
        FindsInside setting.rules value s found before i.left := by
  cases token with
  | literal text optional =>
      obtain ⟨behind, htext, rfl⟩ := tryLiteral_cases (Except.ok.inj h)
      have hpos : 0 < text.length := by
        rw [Nat.pos_iff_ne_zero, Ne, String.length_eq_zero_iff]
        exact hliteral text optional rfl
      left
      rw [textSize_eq htext, String.length_append, String.length_ofList]
      show behind.length < _
      omega
  | typedLiteral kind value =>
      rcases whole_or_findsInside h with rfl | ⟨rfl, found, before, behind, hfinds, rfl⟩
      · exact absurd rfl hleft
      · exact Or.inr ⟨value, found, before, rfl, hfinds⟩
  | parameter name dataType optional default =>
      rcases tryParameter_cases h with ⟨text, v, htext, rfl⟩ | ⟨_, v, rfl⟩
      · left
        rw [textSize_eq htext, ← String.length_toList]
        exact left_shorter_of_portion hleft
      · exact absurd rfl hleft
  | rest name dataType => cases h

/-- What a token takes of a segment, and what it leaves, has as much text as the segment, or it
is what a typed literal has cut. -/
theorem textSizes_intake (h : intake? setting token rest s blob = .ok (some i)) :
    textSizes (i.taken ++ pieceOf i.left) = s.textSize ∨ ∃ value found before,
      token = .typedLiteral textKind value ∧
        FindsInside setting.rules value s found before i.left ∧
        textSizes (i.taken ++ pieceOf i.left) = found.length := by
  cases token with
  | literal text optional =>
      exact Or.inl (cutFrom_tryLiteral (Except.ok.inj h)).textSizes_eq
  | typedLiteral kind value =>
      rcases whole_or_findsInside h with rfl | ⟨rfl, found, before, behind, hfinds, rfl⟩
      · exact Or.inl (cutFrom_of_whole rfl rfl).textSizes_eq
      · refine Or.inr ⟨value, found, before, rfl, hfinds, ?_⟩
        rw [textSizes_append, textSizes_append, textSizes_pieceOf, textSizes_pieceOf,
          textSizes_cons, textSize_ofText, hfinds.length_eq]
        rfl
  | parameter name dataType optional default =>
      exact Or.inl (cutFrom_tryParameter h).textSizes_eq
  | rest name dataType => cases h

/-! ## Runs -/

/-- A run pushes a text back that is left of the current segment. -/
def PushesBack (setting : Setting) (tokens : List Token) (message : List Segment)
    (s pushed : Segment) : Prop :=
  ∃ token rest st st' current,
    Reaches setting tokens { cursor := .start message } (token :: rest) st ∧
    step setting token rest st = .ok (some st') ∧
    st.cursor.current? = some current ∧ current.segment = s ∧
    st'.cursor.pushes = st.cursor.pushes + 1 ∧
    st'.cursor.current? = some ⟨.pushed st.cursor.pushes, pushed⟩

/-- A run comes to a typed literal that cuts, at its value, the text which the rule for texts
finds in the current segment. -/
def CutsFound (setting : Setting) (tokens : List Token) (message : List Segment)
    (s : Segment) (found : String) (behind : List Char) : Prop :=
  ∃ value before rest st current,
    Reaches setting tokens { cursor := .start message } (.typedLiteral textKind value :: rest) st ∧
    st.cursor.current? = some current ∧ current.segment = s ∧
    FindsInside setting.rules value s found before behind

variable {message : List Segment} {st st' : MatchState} {pushed : Segment}

theorem cursor_absorb_of_left (st : MatchState) (h : i.left ≠ []) :
    (st.absorb i).cursor = (st.cursor.advance 1).push (.ofText (String.ofList i.left)) i.blob := by
  rw [MatchState.absorb, if_neg (by simpa using h)]

/-- What a token takes of the current segment, its step absorbs. -/
theorem step_of_intake {current : Labelled} (hcurrent : st.cursor.current? = some current)
    (hintake : intake? setting token rest current.segment (st.cursor.isBlob current.label) =
      .ok (some i)) : step setting token rest st = .ok (some (st.absorb i)) := by
  refine step_eq_some_iff.mpr (Or.inl ?_)
  rw [tryHere, hcurrent]
  cases token with
  | rest name dataType => cases hintake
  | _ => exact congrArg (Except.map (Option.map st.absorb)) hintake

theorem pushesBack_iff : PushesBack setting tokens message s pushed ↔
    ∃ token rest st current i,
      Reaches setting tokens { cursor := .start message } (token :: rest) st ∧
      st.cursor.current? = some current ∧ current.segment = s ∧
      intake? setting token rest s (st.cursor.isBlob current.label) = .ok (some i) ∧
      i.left ≠ [] ∧ pushed = .ofText (String.ofList i.left) := by
  constructor
  · rintro ⟨token, rest, st, st', current, hreaches, hstep, hcurrent, hs, hpushes, hpushed⟩
    cases step_cases hstep with
    | @took current' i hcurrent' hintake =>
        rw [hcurrent] at hcurrent'
        cases hcurrent'
        by_cases hleft : i.left = []
        · exfalso
          have hcursor : (st.absorb i).cursor = st.cursor.advance 1 := by
            rw [MatchState.absorb, hleft]
            rfl
          rw [hcursor] at hpushes
          exact Nat.succ_ne_self _ hpushes.symm
        · refine ⟨token, rest, st, current, i, hreaches, hcurrent, hs, hs ▸ hintake, hleft, ?_⟩
          rw [cursor_absorb_of_left st hleft] at hpushed
          cases hpushed
          rfl
    | collected htoken => exact absurd hpushes.symm (Nat.succ_ne_self _)
    | skipped hskip => exact absurd hpushes.symm (Nat.succ_ne_self _)
  · rintro ⟨token, rest, st, current, i, hreaches, hcurrent, hs, hintake, hleft, rfl⟩
    refine ⟨token, rest, st, st.absorb i, current, hreaches,
      step_of_intake hcurrent (hs ▸ hintake), hcurrent, hs, ?_, ?_⟩
    · rw [cursor_absorb_of_left st hleft]
      rfl
    · rw [cursor_absorb_of_left st hleft]
      rfl

/-- A pushed text is shorter than the text of its segment, or a typed literal has cut what the
rule for texts finds. -/
theorem shorter_or_cutsFound (hliteral : ∀ text optional, .literal text optional ∈ tokens →
      text ≠ "") (h : PushesBack setting tokens message s pushed) :
    pushed.textSize < s.textSize ∨ ∃ found behind,
      CutsFound setting tokens message s found behind ∧ behind ≠ [] ∧
        pushed.textSize = behind.length := by
  obtain ⟨token, rest, st, current, i, hreaches, hcurrent, hs, hintake, hleft, rfl⟩ :=
    pushesBack_iff.mp h
  rw [textSize_ofText, String.length_ofList]
  have hliteral' : ∀ text optional, token = .literal text optional → text ≠ "" := by
    rintro text optional rfl
    exact hliteral text optional hreaches.mem
  rcases left_shorter_or_findsInside hliteral' hintake hleft with hlt |
    ⟨value, found, before, rfl, hfinds⟩
  · exact Or.inl hlt
  · exact Or.inr ⟨found, i.left,
      ⟨value, before, rest, st, current, hreaches, hcurrent, hs, hfinds⟩, hleft, rfl⟩

/-- What stands behind the value of a cut is pushed back. -/
theorem CutsFound.pushesBack (h : CutsFound setting tokens message s found behind)
    (hbehind : behind ≠ []) :
    PushesBack setting tokens message s (.ofText (String.ofList behind)) := by
  obtain ⟨value, before, rest, st, current, hreaches, hcurrent, hs, hfinds⟩ := h
  exact pushesBack_iff.mpr
    ⟨_, rest, st, current, _, hreaches, hcurrent, hs, hfinds.intake_eq, hbehind, rfl⟩

/-- A run whose cuts find no more than the text of their segments keeps within the text of the
message. -/
theorem Reaches.textSizes_le
    (hcuts : ∀ s found behind, CutsFound setting tokens message s found behind →
      found.length ≤ s.textSize)
    {tokens' : List Token} (h : Reaches setting tokens { cursor := .start message } tokens' st) :
    textSizes (st.result.matched ++ st.ahead) ≤ textSizes message := by
  induction h with
  | here =>
      rw [MatchState.ahead_start]
      exact Nat.le_refl _
  | @next token rest st₁ st₂ hreaches hstep ih =>
      cases step_cases hstep with
      | @took current i hcurrent hintake =>
          have hsize : textSizes (i.taken ++ pieceOf i.left) ≤ current.segment.textSize := by
            rcases textSizes_intake hintake with heq | ⟨value, found, before, rfl, hfinds, heq⟩
            · exact Nat.le_of_eq heq
            · rw [heq]
              exact hcuts _ found i.left
                ⟨value, before, rest, st₁, current, hreaches, hcurrent, rfl, hfinds⟩
          rw [MatchState.ahead_eq_cons hcurrent] at ih
          rw [MatchState.matched_absorb, MatchState.ahead_absorb]
          simp only [textSizes_append, textSizes_cons] at ih hsize ⊢
          omega
      | collected htoken =>
          rw [matched_append_ahead_takeRest]
          exact ih
      | skipped hskip =>
          obtain ⟨hmatched, _⟩ := skip_keeps hskip
          show textSizes (_ ++ st₁.ahead) ≤ _
          rw [hmatched]
          exact ih

theorem textSizes_matchTokens_le
    (hcuts : ∀ s found behind, CutsFound setting tokens message s found behind →
      found.length ≤ s.textSize) {r : MatchResult}
    (h : matchTokens setting tokens message = .ok (some r)) :
    textSizes (r.matched ++ r.remaining) ≤ textSizes message := by
  obtain ⟨ended, hsteps, rfl⟩ := exists_steps_of_matchTokens h
  have hreaches := reaches_of_steps hsteps
  have hremaining : ended.result.remaining = [] := hreaches.remaining_eq
  show textSizes (ended.result.matched ++ (ended.result.remaining ++ ended.ahead)) ≤ _
  rw [hremaining, List.nil_append]
  exact hreaches.textSizes_le hcuts

/-- Under the default rule a typed literal cuts the text of its segment. -/
theorem CutsFound.text?_eq (hrule : setting.rules.get? textKind = some (.field "text"))
    (h : CutsFound setting tokens message s found behind) :
    s.text? = some found ∧ behind.length < found.length := by
  obtain ⟨value, before, rest, st, current, _, _, _, hfinds⟩ := h
  refine ⟨hfinds.text?_eq hrule, ?_⟩
  have hlength := hfinds.length_eq
  have hpos : 0 < value.length := by
    rw [Nat.pos_iff_ne_zero, Ne, String.length_eq_zero_iff]
    exact hfinds.value_ne_empty
  omega

/-! ## Matches -/

/-- The texts that a match of a compiled pattern pushes back are shorter than those they were
split from exactly if no typed literal cuts what the rule for texts finds so that too much
stays behind. If no such cut finds more text than its segment has, the result has no more
text than the message. Both is so under the default rule for texts. -/
theorem pushbacks_shrink_iff {pattern : String} {tokens : List Token} {message : Value}
    {items : List Value} {segments : List Segment} {raw : Option RawRules} {rules : Rules}
    (registry : Registry) (hpattern : compile pattern = .ok tokens)
    (hitems : message.items? = some items) (hsegments : readMessage items = .ok segments)
    (hrules : Rules.resolve raw = .ok rules) :
    ((∀ s pushed, PushesBack ⟨rules, registry⟩ tokens segments s pushed →
        pushed.textSize < s.textSize) ↔
      ∀ s found behind, CutsFound ⟨rules, registry⟩ tokens segments s found behind →
        behind ≠ [] → behind.length < s.textSize) ∧
    ((∀ s found behind, CutsFound ⟨rules, registry⟩ tokens segments s found behind →
        found.length ≤ s.textSize) →
      ∀ r, matchMessage (.pattern pattern) message raw registry = .ok (some r) →
        textSizes (r.matched ++ r.remaining) ≤ textSizes segments) ∧
    (rules.get? textKind = some (.field "text") →
      (∀ s pushed, PushesBack ⟨rules, registry⟩ tokens segments s pushed →
        pushed.textSize < s.textSize) ∧
      ∀ r, matchMessage (.pattern pattern) message raw registry = .ok (some r) →
        textSizes (r.matched ++ r.remaining) ≤ textSizes segments) := by
  have hshrink : (∀ s pushed, PushesBack ⟨rules, registry⟩ tokens segments s pushed →
        pushed.textSize < s.textSize) ↔
      ∀ s found behind, CutsFound ⟨rules, registry⟩ tokens segments s found behind →
        behind ≠ [] → behind.length < s.textSize := by
    constructor
    · intro hshrink s found behind hcuts hbehind
      have hlt := hshrink s _ (hcuts.pushesBack hbehind)
      rwa [textSize_ofText, String.length_ofList] at hlt
    · intro hcuts s pushed hpushes
      have hliteral : ∀ text optional, .literal text optional ∈ tokens → text ≠ "" :=
        fun _ _ hmem => literal_ne_empty hpattern hmem
      rcases shorter_or_cutsFound hliteral hpushes with hlt | ⟨found, behind, hcut, hne, heq⟩
      · exact hlt
      · exact heq ▸ hcuts s found behind hcut hne
  have hsizes : (∀ s found behind, CutsFound ⟨rules, registry⟩ tokens segments s found behind →
        found.length ≤ s.textSize) →
      ∀ r, matchMessage (.pattern pattern) message raw registry = .ok (some r) →
        textSizes (r.matched ++ r.remaining) ≤ textSizes segments := by
    intro hcuts r hmatch
    have hresolve : (PatternSource.pattern pattern).resolve = .ok tokens := by
      rw [PatternSource.resolve, hpattern]
      rfl
    rw [matchMessage_of_read registry hresolve hitems hsegments hrules] at hmatch
    exact textSizes_matchTokens_le hcuts (mapError_eq_ok_iff.mp hmatch)
  refine ⟨hshrink, hsizes, fun hrule => ⟨hshrink.mpr ?_, hsizes ?_⟩⟩
  · intro s found behind hcuts _
    obtain ⟨htext, hlt⟩ := hcuts.text?_eq hrule
    exact textSize_eq htext ▸ hlt
  · intro s found behind hcuts
    exact Nat.le_of_eq (textSize_eq (hcuts.text?_eq hrule).1).symm

/-- Rules that find the text of a text segment in its field `alt`. -/
def altRules : Rules :=
  [("text", .field "alt"), ("face", .field "id"), ("image", .firstOf ["file", "url", "path"]),
   ("at", .field "user_id")]

/-- A segment with more text in `alt` than in `text`. -/
def longAlt : Segment :=
  ⟨"text", [("text", .text "a"), ("alt", .text "x hello world")]⟩

theorem compile_sole_x : compile "{text:x}" = .ok [.typedLiteral "text" "x"] := by
  with_unfolding_all rfl

theorem cutsFound_longAlt : CutsFound ⟨altRules, .builtin⟩ [.typedLiteral "text" "x"] [longAlt]
    longAlt "x hello world" " hello world".toList := by
  refine ⟨"x", [], [], _, ⟨.given 0, longAlt⟩, .here, rfl, rfl, ?_⟩
  exact ⟨rfl, by decide, by decide, ⟨.field "alt", rfl, rfl⟩, by decide⟩

/-- Where the rule for texts names another field, a pushed text is longer than the text that it
was split from; where it does not, the same pattern keeps to the text. -/
theorem pushbacks_shrink_iff_alt :
    (¬ ∀ s pushed, PushesBack ⟨altRules, .builtin⟩ [.typedLiteral "text" "x"] [longAlt] s pushed →
        pushed.textSize < s.textSize) ∧
      ∀ r, matchMessage (.pattern "{text:x}") (.list [longAlt.toRecord]) none .builtin =
          .ok (some r) →
        textSizes (r.matched ++ r.remaining) ≤ 1 := by
  have hitems : (Value.list [longAlt.toRecord]).items? = some [longAlt.toRecord] := rfl
  have hsegments : readMessage [longAlt.toRecord] = .ok [longAlt] := rfl
  have hrules : Rules.resolve (some (.table [(.text "text", .text "alt")] .none)) = .ok altRules := rfl
  have hdefaults : Rules.resolve none = .ok .defaults := rfl
  constructor
  · intro hshrink
    have hcuts := (pushbacks_shrink_iff .builtin compile_sole_x hitems hsegments hrules).1.mp
      hshrink
    exact absurd (hcuts _ _ _ cutsFound_longAlt (by decide)) (by decide)
  · exact ((pushbacks_shrink_iff .builtin compile_sole_x hitems hsegments hdefaults).2.2 rfl).2

/-- So there are valid rules under which a pushed text does not shrink and the result has more
text than the message. -/
theorem not_forall_pushbacks_shrink :
    ¬ ∀ (pattern : String) (tokens : List Token) (items : List Value) (segments : List Segment)
        (raw : Option RawRules) (rules : Rules),
      compile pattern = .ok tokens → readMessage items = .ok segments →
      Rules.resolve raw = .ok rules →
        (∀ s pushed, PushesBack ⟨rules, .builtin⟩ tokens segments s pushed →
          pushed.textSize < s.textSize) ∨
        ∀ r, matchMessage (.pattern pattern) (.list items) raw .builtin = .ok (some r) →
          textSizes (r.matched ++ r.remaining) ≤ textSizes segments := by
  intro hall
  have hrules : Rules.resolve (some (.table [(.text "text", .text "alt")] .none)) = .ok altRules := rfl
  have hmatch : matchMessage (.pattern "{text:x}") (.list [longAlt.toRecord])
      (some (.table [(.text "text", .text "alt")] .none)) .builtin =
        .ok (some { matched := [.ofText "x"], remaining := [.ofText " hello world"] }) := by
    have hresolve : (PatternSource.pattern "{text:x}").resolve =
        .ok [.typedLiteral "text" "x"] := by
      rw [PatternSource.resolve, compile_sole_x]
      rfl
    rw [matchMessage_of_read .builtin hresolve rfl rfl hrules]
    rfl
  rcases hall "{text:x}" _ [longAlt.toRecord] [longAlt] _ _ compile_sole_x rfl hrules with
    hshrink | hsizes
  · exact absurd (hshrink _ _ (cutsFound_longAlt.pushesBack (by decide))) (by decide)
  · exact absurd (hsizes _ hmatch) (by decide)

end MessagePattern
