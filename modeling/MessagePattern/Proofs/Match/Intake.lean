import MessagePattern.Match.Run
import MessagePattern.Proofs.Answer

/-!
# What the attempts of the tokens take

One inversion lemma for each kind of token: what must have held of the segment
and what was taken of it. None of them looks at the state of a run.
-/

namespace MessagePattern

variable {setting : Setting} {s : Segment} {blob : Bool} {i : Intake}

/-- A literal took itself off the start of a text. -/
theorem tryLiteral_cases {literal : String} (h : tryLiteral literal s blob = some i) :
    ∃ behind, s.text? = some (literal ++ String.ofList behind) ∧
      i = { taken := [.ofText literal], left := behind, blob } := by
  unfold tryLiteral at h
  split at h
  · cases h
  · rename_i text htext
    split at h
    · rename_i hstarts
      obtain ⟨behind, hbehind⟩ := List.isPrefixOf_iff_prefix.mp hstarts
      have hdrop : text.toList.drop literal.length = behind := by
        rw [← hbehind, ← String.length_toList, List.drop_left]
      have hjoin : text = literal ++ String.ofList behind := by
        rw [← String.toList_inj, String.toList_append, String.toList_ofList, hbehind]
      cases h
      exact ⟨behind, by rw [htext, hjoin], by rw [hdrop]⟩
    · cases h

/-- A typed literal took a segment of its kind as a whole, or it took a text up to
the end of its value. -/
theorem tryTypedLiteral_cases {kind value : String}
    (h : tryTypedLiteral setting kind value s blob = .ok (some i)) :
    s.kind = kind ∧ ∃ rule, setting.rules.get? kind = some rule ∧
      (i = .whole s ∨
        ∃ text before after, s.isText = true ∧ (rule.extract s).text? = some text ∧
          Text.splitOnce value.toList text.toList = (before, some after) ∧
          i = { taken := pieceOf before ++ [.ofText value], left := after, blob }) := by
  unfold tryTypedLiteral at h
  split at h
  · cases h
  rename_i hkind
  split at h
  · cases h
  rename_i rule hrule
  refine ⟨Decidable.not_not.mp hkind, rule, hrule, ?_⟩
  split at h
  · exact Or.inl (Option.some.inj (Except.ok.inj h)).symm
  split at h
  · cases h
  obtain ⟨plain, _, h⟩ := map_eq_ok_iff.mp h
  split at h
  · exact Or.inl (Option.some.inj h).symm
  split at h
  · rename_i hisText
    split at h
    · rename_i before after hsplit
      obtain ⟨text, hfound, hcut⟩ := Option.map_eq_some_iff.mp hsplit
      exact Or.inr ⟨text, before, after, hisText, hfound, hcut, (Option.some.inj h).symm⟩
    · cases h
  · cases h

/-- A parameter took its portion of a text, or a segment of its kind as a whole. -/
theorem tryParameter_cases {name dataType : String} {shared : Bool}
    (h : tryParameter setting name dataType shared s blob = .ok (some i)) :
    (∃ text v, s.text? = some text ∧
      i = ((portion shared blob text.toList).intake s).named name v) ∨
    s.kind = dataType ∧ ∃ v, i = (Intake.whole s).named name v := by
  unfold tryParameter at h
  split at h
  · left
    unfold tryTextParameter at h
    split at h
    · cases h
    rename_i text htext
    obtain ⟨read, _, h⟩ := bind_eq_ok_iff.mp h
    cases read with
    | none => cases h
    | some v => exact ⟨text, v, htext, (Option.some.inj (Except.ok.inj h)).symm⟩
  · right
    unfold tryKindParameter at h
    split at h
    · cases h
    rename_i hkind
    exact ⟨Decidable.not_not.mp hkind, _, (Option.some.inj (Except.ok.inj h)).symm⟩

/-- A parameter has the value that its data type reads off a text, or the one that the rule
for its kind finds in the segment. -/
theorem value_of_tryParameter {name dataType : String} {shared : Bool}
    (h : tryParameter setting name dataType shared s blob = .ok (some i)) :
    ∃ v, i.param = some (name, v) ∧
      ((∃ text, readAs setting.registry dataType text = .ok (some v)) ∨
        v = (setting.rules.get? dataType).elim .null (·.extract s)) := by
  unfold tryParameter at h
  split at h
  · unfold tryTextParameter at h
    split at h
    · cases h
    obtain ⟨read, hread, h⟩ := bind_eq_ok_iff.mp h
    cases read with
    | none => cases h
    | some v =>
        cases h
        exact ⟨v, rfl, Or.inl ⟨_, hread⟩⟩
  · unfold tryKindParameter at h
    split at h
    · cases h
    · cases h
      exact ⟨_, rfl, Or.inr rfl⟩

/-- The portion of a text is all of it, or a first piece that leaves the others. -/
theorem portion_cases (shared blob : Bool) (text : List Char) :
    (portion shared blob text).taken = none ∧ (portion shared blob text).left = [] ∨
    ∃ raw, (portion shared blob text).taken = some raw ∧
      raw ++ (portion shared blob text).left = text := by
  unfold portion
  split
  rename_i word tail hsplit
  split
  · have hjoin := Text.splitFirst_join text
    rw [hsplit] at hjoin
    exact Or.inr ⟨word.raw, rfl, hjoin⟩
  · split <;> exact Or.inl ⟨rfl, rfl⟩

/-- A portion that leaves something is the first word. -/
theorem portion_of_left {shared blob : Bool} {text : List Char}
    (h : (portion shared blob text).left ≠ []) :
    portion shared blob text =
      ⟨(Text.splitFirst text).1.value, some (Text.splitFirst text).1.raw,
        (Text.splitFirst text).2⟩ := by
  cases shared with
  | true => rfl
  | false =>
      -- A text that is not shared goes to the parameter as a whole.
      exfalso
      apply h
      unfold portion
      simp only [Bool.false_eq_true, if_false]
      split <;> rfl

end MessagePattern
