import MessagePattern.Proofs.Match.Intake
import MessagePattern.Proofs.Match.Reach

/-!
# Results that count

A run over a message is a match only if it took a segment or set a parameter. Every token
that it passes does one or the other, save for an optional literal that is skipped, so the
check at the end turns down only what optional literals alone have found nothing for.
-/

namespace MessagePattern

variable {setting : Setting} {token : Token} {rest : List Token}

theorem taken_ne_nil_of_intake {s : Segment} {blob : Bool} {i : Intake}
    (h : intake? setting token rest s blob = .ok (some i)) : i.taken ≠ [] := by
  cases token with
  | literal text optional =>
      obtain ⟨_, _, rfl⟩ := tryLiteral_cases (Except.ok.inj h)
      exact List.cons_ne_nil _ _
  | typedLiteral kind value =>
      obtain ⟨_, _, _, rfl | ⟨_, before, _, _, _, _, rfl⟩⟩ :=
        tryTypedLiteral_cases h
      · exact List.cons_ne_nil _ _
      · exact List.append_ne_nil_of_right_ne_nil (pieceOf before) (List.cons_ne_nil _ _)
  | parameter name dataType optional default =>
      rcases tryParameter_cases h with ⟨_, _, _, rfl⟩ | ⟨_, _, rfl⟩
      · exact List.cons_ne_nil _ _
      · exact List.cons_ne_nil _ _
  | rest name dataType => cases h

/-! ## What makes a result count -/

namespace MatchResult

variable {r r' : MatchResult}

theorem isValid_of_matched (h : r.matched ≠ []) : r.isValid = true := by
  have hmatched : r.matched.isEmpty = false := List.isEmpty_eq_false_iff.mpr h
  simp [isValid, hmatched]

theorem isValid_setParam (r : MatchResult) (name : String) (v : Value) :
    (r.setParam name v).isValid = true := by
  have hset : (Table.set r.params name v).isEmpty = false :=
    List.isEmpty_eq_false_iff.mpr (Table.set_ne_nil r.params name v)
  simp [isValid, setParam, hset]

theorem isValid_note {i : Intake} (h : i.taken ≠ []) : (r.note i).isValid = true := by
  cases hparam : i.param with
  | none =>
      rw [note, hparam]
      exact isValid_of_matched (List.append_ne_nil_of_right_ne_nil r.matched h)
  | some entry =>
      rw [note, hparam]
      exact isValid_setParam _ _ _

/-- All tokens that can be skipped set a parameter, save for optional literals. -/
theorem isValid_skip (h : r.isValid = true ∨ ∀ text, token ≠ .literal text true)
    (hskip : r.skip token = some r') : r'.isValid = true := by
  unfold skip at hskip
  split at hskip <;> cases hskip
  · exact isValid_setParam _ _ _
  · exact isValid_setParam _ _ _
  · exact h.resolve_right fun hno => hno _ rfl

end MatchResult

/-- A result counts, or among the tokens to come there is one that will make it count. -/
def WillCount (r : MatchResult) (tokens : List Token) : Prop :=
  r.isValid = true ∨ ∃ token ∈ tokens, ∀ text, token ≠ .literal text true

theorem WillCount.isValid {r : MatchResult} (h : WillCount r []) : r.isValid = true := by
  rcases h with hvalid | ⟨token, hmem, _⟩
  · exact hvalid
  · cases hmem

theorem WillCount.skip {r r' : MatchResult} (h : WillCount r (token :: rest))
    (hskip : r.skip token = some r') : WillCount r' rest := by
  rcases h with hvalid | ⟨token', hmem, hno⟩
  · exact Or.inl (MatchResult.isValid_skip (Or.inl hvalid) hskip)
  · rcases List.mem_cons.mp hmem with rfl | hmem
    · exact Or.inl (MatchResult.isValid_skip (Or.inr hno) hskip)
    · exact Or.inr ⟨token', hmem, hno⟩

/-- The result of a run counts once a token was passed that is no optional literal. -/
theorem Outlook.isValid_of_steps {tokens : List Token} {o o' : Outlook}
    (h : WillCount o.result tokens) (hsteps : o.steps setting tokens = .ok (some o')) :
    o'.result.isValid = true := by
  induction tokens generalizing o with
  | nil =>
      cases hsteps
      exact h.isValid
  | cons token rest ih =>
      obtain ⟨stepped, hstep, hsteps⟩ := bind_eq_ok_iff.mp hsteps
      cases stepped with
      | none => cases hsteps
      | some o₁ =>
          refine ih ?_ hsteps
          cases step_cases hstep with
          | took hahead hintake =>
              exact Or.inl (MatchResult.isValid_note (taken_ne_nil_of_intake hintake))
          | collected htoken => exact Or.inl (MatchResult.isValid_setParam _ _ _)
          | skipped hskip => exact h.skip hskip

theorem isValid_of_skipAll {tokens : List Token} {r r' : MatchResult} (h : WillCount r tokens)
    (hskip : skipAll tokens r = some r') : r'.isValid = true := by
  induction tokens generalizing r with
  | nil =>
      cases hskip
      exact h.isValid
  | cons token rest ih =>
      obtain ⟨r₁, hfirst, hrest⟩ := Option.bind_eq_some_iff.mp hskip
      exact ih (h.skip hfirst) hrest

theorem exists_other_or_all_optionalLiterals (tokens : List Token) :
    (∃ token ∈ tokens, ∀ text, token ≠ .literal text true) ∨
      ∀ token ∈ tokens, ∃ text, token = .literal text true := by
  by_cases hother : ∃ token ∈ tokens, ∀ text, token ≠ .literal text true
  · exact Or.inl hother
  · right
    intro token hmem
    by_cases hliteral : ∃ text, token = .literal text true
    · exact hliteral
    · have hno : ∀ text, token ≠ .literal text true := fun text htoken => hliteral ⟨text, htoken⟩
      exact absurd ⟨token, hmem, hno⟩ hother

/-! ## The end of a run -/

theorem remaining_of_steps {tokens : List Token} {message : List Segment} {o : Outlook}
    (h : Outlook.steps setting tokens { ahead := message } = .ok (some o)) :
    o.result.remaining = [] := by
  rw [← MatchState.outlook_start, ← outlook_steps (Cursor.tidy_start message)] at h
  obtain ⟨ended, hsteps, hended⟩ := map_eq_ok_iff.mp h
  obtain ⟨st, rfl, rfl⟩ := Option.map_eq_some_iff.mp hended
  exact (reaches_of_steps hsteps).remaining_eq

/-- Whatever is matched, be it without a run, is what a run over the tokens ends in. -/
theorem exists_steps_of_matchTokens {tokens : List Token} {segments : List Segment}
    {r : MatchResult} (h : matchTokens setting tokens segments = .ok (some r)) :
    ∃ ended, steps setting tokens { cursor := .start segments } = .ok (some ended) ∧
      r = ended.result.leave ended.ahead := by
  rw [matchTokens_eq_outlook, ← MatchState.outlook_start,
    ← outlook_steps (Cursor.tidy_start segments)] at h
  rcases hsteps : steps setting tokens { cursor := .start segments } with e | _ | ended
  · rw [hsteps] at h
    cases h
  · rw [hsteps] at h
    cases h
  · rw [hsteps] at h
    have hanswer : ended.outlook.answer (tokens.isEmpty || segments.isEmpty) = some r :=
      Except.ok.inj h
    exact ⟨ended, rfl, (Outlook.answer_eq_some_iff.mp hanswer).1⟩

/-! ## Empty messages -/

/-- Optional literals that are skipped leave no trace. -/
theorem skipAll_of_optionalLiterals {tokens : List Token}
    (h : ∀ token ∈ tokens, ∃ text, token = .literal text true) (r : MatchResult) :
    skipAll tokens r = some r := by
  induction tokens with
  | nil => rfl
  | cons token rest ih =>
      obtain ⟨text, rfl⟩ := h token List.mem_cons_self
      apply ih
      intro token hmem
      exact h token (List.mem_cons_of_mem _ hmem)

/-- A run over no segments skips its tokens, and then asks whether the result counts. -/
theorem runTokens_nil (setting : Setting) (tokens : List Token) :
    runTokens setting tokens [] =
      .ok ((skipAll tokens {}).bind fun r => if r.isValid then some r else none) := by
  rw [runTokens_eq_outlook, Outlook.steps_of_ahead_nil rfl]
  cases hskip : skipAll tokens {} with
  | none => rfl
  | some r =>
      obtain ⟨_, hremaining⟩ := skipAll_keeps hskip
      have hleave : r.leave [] = r := by
        rw [MatchResult.leave, List.append_nil]
      show Except.ok (if (r.leave []).isValid = true then some (r.leave []) else none) = _
      rw [hleave]
      rfl

/-- An empty message is answered without a run, and the answer is that of a run over no
segments. Only where all tokens are optional literals the two differ: then an empty message
is matched, with nothing found, and the run finds no match. -/
theorem matchMessage_empty {source : PatternSource} {message : Value} {raw : Option RawRules}
    {tokens : List Token} {rules : Rules} (registry : Registry)
    (hsource : source.resolve = .ok tokens) (hmessage : message.items? = some [])
    (hrules : Rules.resolve raw = .ok rules) :
    ∃ answer, runTokens ⟨rules, registry⟩ tokens [] = .ok answer ∧
      (matchMessage source message raw registry = .ok answer ↔
        ∃ token ∈ tokens, ∀ text, token ≠ .literal text true) ∧
      ((∀ token ∈ tokens, ∃ text, token = .literal text true) →
        matchMessage source message raw registry = .ok (some {}) ∧ answer = none) := by
  have hsegments : readMessage [] = .ok [] := rfl
  have hmatch : matchMessage source message raw registry = .ok (skipAll tokens {}) := by
    rw [matchMessage_of_read registry hsource hmessage hsegments hrules, matchTokens_nil]
    rfl
  have hrun := runTokens_nil ⟨rules, registry⟩ tokens
  rw [hmatch]
  rcases exists_other_or_all_optionalLiterals tokens with hother | hall
  · have hsame : skipAll tokens {} =
        (skipAll tokens {}).bind fun r => if r.isValid then some r else none := by
      cases hskip : skipAll tokens {} with
      | none => rfl
      | some r =>
          have hvalid : r.isValid = true := isValid_of_skipAll (Or.inr hother) hskip
          simp [hvalid]
    refine ⟨skipAll tokens {}, hsame ▸ hrun, ⟨fun _ => hother, fun _ => rfl⟩, ?_⟩
    intro hall
    obtain ⟨token, hmem, hno⟩ := hother
    obtain ⟨text, htoken⟩ := hall token hmem
    exact absurd htoken (hno text)
  · rw [skipAll_of_optionalLiterals hall] at hrun ⊢
    refine ⟨none, hrun, ⟨?_, ?_⟩, fun _ => ⟨rfl, rfl⟩⟩
    · intro hsame
      cases hsame
    · rintro ⟨token, hmem, hno⟩
      obtain ⟨text, htoken⟩ := hall token hmem
      exact absurd htoken (hno text)

/-- An optional number falls back and a rest parameter collects nothing; a space that may be
missing is enough for an empty message, but not for a run. -/
theorem matchMessage_empty_fallback :
    (runTokens ⟨.defaults, .builtin⟩
          [.literal " " true, .parameter "n" "integer" true (some (.int 3)), .rest "more" none] [] =
        .ok (some { params := [("n", .int 3), ("more", .list [])] }) ∧
      matchMessage (.tokens
          [.literal " " true, .parameter "n" "integer" true (some (.int 3)), .rest "more" none])
        (.list []) none .builtin =
        .ok (some { params := [("n", .int 3), ("more", .list [])] })) ∧
    (runTokens ⟨.defaults, .builtin⟩ [.literal " " true] [] = .ok none ∧
      matchMessage (.tokens [.literal " " true]) (.list []) none .builtin = .ok (some {})) := by
  have hmessage : (Value.list []).items? = some [] := rfl
  have hrules : Rules.resolve none = .ok .defaults := rfl
  constructor
  · have hsource : (PatternSource.tokens [.literal " " true,
        .parameter "n" "integer" true (some (.int 3)), .rest "more" none]).resolve =
          .ok [.literal " " true, .parameter "n" "integer" true (some (.int 3)),
            .rest "more" none] := rfl
    obtain ⟨answer, hrun, hagree, _⟩ := matchMessage_empty .builtin hsource hmessage hrules
    have hanswer : answer = some { params := [("n", .int 3), ("more", .list [])] } :=
      (Except.ok.inj hrun).symm
    rw [hanswer] at hrun hagree
    refine ⟨hrun, hagree.mpr ⟨.rest "more" none, by simp, ?_⟩⟩
    intro text htoken
    cases htoken
  · have hsource : (PatternSource.tokens [.literal " " true]).resolve =
        .ok [.literal " " true] := rfl
    obtain ⟨answer, hrun, _, hnone⟩ := matchMessage_empty .builtin hsource hmessage hrules
    have hall : ∀ token ∈ [Token.literal " " true], ∃ text, token = .literal text true := by
      intro token hmem
      exact ⟨" ", List.mem_singleton.mp hmem⟩
    obtain ⟨hmatch, hanswer⟩ := hnone hall
    rw [hanswer] at hrun
    exact ⟨hrun, hmatch⟩

end MessagePattern
