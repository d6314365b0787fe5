import MessagePattern.Proofs.Answer
import MessagePattern.Proofs.Json.Reading
import MessagePattern.Proofs.Pattern.Scan

/-!
# Where compiled tokens come from

Every token of a compiled pattern is one of a literal run or stands for a group
(`origin_of_mem`). What holds of the tokens of all runs and of all groups therefore
holds of all compiled tokens: a literal is never empty (`literal_ne_empty`), and a
default was read as one (`exists_read_of_default`), so that it is a value of JSON
(`defaultIsJson_of_compile`).
-/

namespace MessagePattern

variable {pattern text name dataType : String} {tokens : List Token} {token : Token}
  {optional : Bool} {v : Value}

theorem origin_of_scan {cs : List Char} (h : scan cs = .ok tokens) :
    ∀ token ∈ tokens, (∃ run, run ≠ [] ∧ Plain run ∧ token ∈ literalTokens run) ∨
      ∃ b body, groupToken b body = .ok token := by
  induction h using scan_ok_induction with
  | nil =>
      intro token hmem
      cases hmem
  | group b body after first others hbalanced htoken hafter ih =>
      intro token hmem
      rcases List.mem_cons.mp hmem with rfl | hmem
      · exact Or.inr ⟨b, body, htoken⟩
      · exact ih token hmem
  | run run after others hne hplain hafter hothers ih =>
      intro token hmem
      rcases List.mem_append.mp hmem with hmem | hmem
      · exact Or.inl ⟨run, hne, hplain, hmem⟩
      · exact ih token hmem

theorem origin_of_mem (h : compile pattern = .ok tokens) (hmem : token ∈ tokens) :
    (∃ run, run ≠ [] ∧ Plain run ∧ token ∈ literalTokens run) ∨
      ∃ b body, groupToken b body = .ok token :=
  origin_of_scan (compile_eq_ok_iff.mp h) token hmem

/-! ## Literals -/

theorem ofList_ne_empty {cs : List Char} (h : cs ≠ []) : String.ofList cs ≠ "" := by
  intro hempty
  apply h
  rw [← String.toList_ofList (l := cs), hempty]
  rfl

/-- The tokens of a literal run are literals, and none of them is empty. -/
theorem literal_of_mem_literalTokens {run : List Char} (hne : run ≠ [])
    (h : token ∈ literalTokens run) :
    ∃ text optional, token = .literal text optional ∧ text ≠ "" := by
  unfold literalTokens at h
  split at h
  · exact ⟨_, _, List.mem_singleton.mp h, ofList_ne_empty hne⟩
  · exact ⟨_, _, List.mem_singleton.mp h, by decide⟩
  · rename_i before _ hbefore _
    rcases List.mem_cons.mp h with hfirst | hlast
    · -- Something stands before the space, or the run were that space alone.
      exact ⟨_, _, hfirst,
        ofList_ne_empty fun hnil => hbefore (List.reverse_eq_nil_iff.mp hnil)⟩
    · exact ⟨_, _, List.mem_singleton.mp hlast, by decide⟩
  · exact ⟨_, _, List.mem_singleton.mp h, ofList_ne_empty hne⟩

/-! ## Groups -/

/-- What a group may stand for. The default of an optional parameter was read off its
text. -/
inductive IsGroupToken : Token → Prop
  | typedLiteral (kind value : String) : IsGroupToken (.typedLiteral kind value)
  | required (name dataType : String) : IsGroupToken (.parameter name dataType false none)
  | rest (name : String) (dataType : Option String) : IsGroupToken (.rest name dataType)
  | optional (name dataType : String) : IsGroupToken (.parameter name dataType true none)
  | withDefault {name dataType : String} {default : List Char} {v : Value}
      (hread : Default.read default = .ok v) :
      IsGroupToken (.parameter name dataType true (some v))

theorem isGroupToken_optionalParameter {body : List Char}
    (h : optionalParameter body = .ok token) : IsGroupToken token := by
  unfold optionalParameter at h
  obtain ⟨⟨name, dataType⟩, _, h⟩ := bind_eq_ok_iff.mp h
  simp only at h
  split at h
  · cases h
    exact .optional _ _
  · split at h
    · cases h
    · rename_i hread
      cases h
      exact .withDefault hread

theorem isGroupToken_groupToken {b : Bracket} {body : List Char}
    (h : groupToken b body = .ok token) : IsGroupToken token := by
  unfold groupToken at h
  split at h
  · unfold typedLiteral at h
    simp only at h
    split at h
    · cases h
    · cases h
      exact .typedLiteral _ _
  · obtain ⟨head, _, h⟩ := bind_eq_ok_iff.mp h
    cases h
    exact .required _ _
  · obtain ⟨head, _, h⟩ := bind_eq_ok_iff.mp h
    cases h
    exact .rest _ _
  · exact isGroupToken_optionalParameter h

/-! ## Compiled patterns -/

/-- The literals of a compiled pattern are not empty. -/
theorem literal_ne_empty (h : compile pattern = .ok tokens)
    (hmem : .literal text optional ∈ tokens) : text ≠ "" := by
  rcases origin_of_mem h hmem with ⟨run, hne, _, hliteral⟩ | ⟨b, body, hgroup⟩
  · obtain ⟨_, _, htoken, htext⟩ := literal_of_mem_literalTokens hne hliteral
    cases htoken
    exact htext
  · cases isGroupToken_groupToken hgroup

/-- The defaults of a compiled pattern were read off texts. -/
theorem exists_read_of_default (h : compile pattern = .ok tokens)
    (hmem : .parameter name dataType optional (some v) ∈ tokens) :
    ∃ default, Default.read default = .ok v := by
  rcases origin_of_mem h hmem with ⟨run, hne, _, hliteral⟩ | ⟨b, body, hgroup⟩
  · obtain ⟨_, _, htoken, _⟩ := literal_of_mem_literalTokens hne hliteral
    cases htoken
  · cases isGroupToken_groupToken hgroup with
    | withDefault hread => exact ⟨_, hread⟩

/-! ## Defaults as values -/

/-- The default of a token, if it has one, is a value of JSON. -/
def Token.DefaultIsJson (t : Token) : Prop :=
  ∀ name dataType optional v, t = .parameter name dataType optional (some v) → v.IsJson

theorem defaultIsJson_of_compile (h : compile pattern = .ok tokens) :
    ∀ t ∈ tokens, t.DefaultIsJson := by
  rintro t hmem name dataType optional v rfl
  obtain ⟨default, hread⟩ := exists_read_of_default h hmem
  exact isJson_of_defaultRead hread

theorem Token.isJson_toRecord {t : Token} (h : t.DefaultIsJson) : t.toRecord.IsJson := by
  cases t with
  | literal text optional =>
      exact .dict (by simp [Table.keys]) (by simp [Value.IsJson.text, Value.IsJson.bool])
  | typedLiteral kind value => exact .dict (by simp [Table.keys]) (by simp [Value.IsJson.text])
  | rest name dataType =>
      refine .dict (by simp [Table.keys]) ?_
      cases dataType <;> simp [Value.IsJson.text, Value.IsJson.null]
  | parameter name dataType optional default =>
      cases default with
      | none => exact .dict (by simp [Table.keys]) (by simp [Value.IsJson.text, Value.IsJson.bool])
      | some v =>
          have hv : v.IsJson := h name dataType optional v rfl
          exact .dict (by simp [Table.keys]) (by simp [Value.IsJson.text, Value.IsJson.bool, hv])

end MessagePattern
