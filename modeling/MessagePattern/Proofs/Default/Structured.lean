import MessagePattern.Explain
import MessagePattern.Proofs.Default.Simple
import MessagePattern.Proofs.Json.Reading
import MessagePattern.Proofs.Json.RoundTrip

/-!
# Structured defaults

A default that is a list or a dictionary is written as JSON, in a pattern as in the description of
one. The text is read as the same value, keys in their order, whatever low characters stand around
it (`read_written`): it is a whole JSON text between brackets or braces, so it is read at the first
attempt, and neither are its keys looked at for missing quotes nor does it stand for itself.
-/

namespace MessagePattern

namespace Default

open Json (print Style)

/-- Brackets and braces are no low characters. -/
theorem trim_of_isStructured {cs : List Char} (h : isStructured cs = true) : Text.trim cs = cs := by
  simp only [isStructured, Bool.or_eq_true, Bool.and_eq_true, beq_iff_eq] at h
  rcases h with ⟨hfirst, hlast⟩ | ⟨hfirst, hlast⟩
  · exact Text.trim_eq_self_of_ends hfirst hlast rfl rfl
  · exact Text.trim_eq_self_of_ends hfirst hlast rfl rfl

theorem isStructured_bracketed {opening closing : Char}
    (h : opening = '[' ∧ closing = ']' ∨ opening = '\x7b' ∧ closing = '\x7d') (style : Style)
    (level : Nat) (texts : List (List Char)) :
    isStructured (Json.bracketed style level opening closing texts) = true := by
  have hfirst : (Json.bracketed style level opening closing texts).head? = some opening := by
    cases texts <;> rfl
  have hlast : (Json.bracketed style level opening closing texts).getLast? = some closing := by
    obtain ⟨cs, hcs⟩ := Json.exists_last_bracketed style level opening closing texts
    rw [hcs, List.getLast?_concat]
  rw [isStructured, hfirst, hlast]
  rcases h with ⟨rfl, rfl⟩ | ⟨rfl, rfl⟩ <;> rfl

theorem isStructured_print {v : Value} (h : v.IsStructured) (style : Style) (level : Nat) :
    isStructured (print style level v) = true := by
  cases v with
  | list items =>
      rw [Json.print_list]
      exact isStructured_bracketed (Or.inl ⟨rfl, rfl⟩) style level _
  | dict entries =>
      rw [Json.print_dict]
      exact isStructured_bracketed (Or.inr ⟨rfl, rfl⟩) style level _
  | _ => cases h

/-- A text that is a list or a dictionary in JSON is read as such at the first attempt. -/
theorem read_of_parse {cs front back : List Char} {v : Value} (hstructured : isStructured cs = true)
    (hparse : Json.parse cs = .ok v) (hfront : ∀ c ∈ front, Text.isLow c = true)
    (hback : ∀ c ∈ back, Text.isLow c = true) : read (front ++ cs ++ back) = .ok v := by
  have htrim : Text.trim (front ++ cs ++ back) = cs := by
    rw [Text.trim_append_low hback, Text.trim_append_of_low hfront,
      trim_of_isStructured hstructured]
  have hread : readJson cs = .ok (some v) := by
    rw [readJson, hparse]
  unfold read
  simp only [htrim, hstructured, if_true]
  rw [readStructured, hread]
  rfl

/-- A list or a dictionary without floats is read from its JSON text, with low characters around
it. A description shows that text as the default. -/
theorem read_written {v : Value} (h : v.IsFloatFree) (hstructured : v.IsStructured)
    {front back : List Char} (hfront : ∀ c ∈ front, Text.isLow c = true)
    (hback : ∀ c ∈ back, Text.isLow c = true) (name dataType : String) (optional : Bool) :
    ∃ text phrase, Json.write .line true v = .ok text ∧
      read (front ++ text.toList ++ back) = .ok v ∧
      (Token.parameter name dataType optional none).describe = .ok phrase ∧
      (Token.parameter name dataType optional (some v)).describe =
        .ok (phrase ++ " (default " ++ text ++ ")") := by
  have hwrite := Json.write_of_isData (Json.isData_of_isJson h.isJson) .line
  have hparse : Json.parse (print .line 0 v) = .ok v := by
    have hparse := Json.parse_print h .line (List.forall_mem_nil _)
    rwa [List.append_nil] at hparse
  refine ⟨_, _, hwrite, ?_, rfl, ?_⟩
  · rw [String.toList_ofList]
    exact read_of_parse (isStructured_print hstructured .line 0) hparse hfront hback
  · rw [Token.describe, hwrite]
    rfl

/-- A dictionary whose keys are not in alphabetical order and whose text looks like a bare key. -/
theorem read_written_bare_key :
    let v : Value := .dict [("b", .list [.null, .int (-12)]), ("a", .text "\x7bk:1")]
    let text := "\x7b\"b\": [null, -12], \"a\": \"\x7bk:1\"\x7d"
    v.IsFloatFree ∧ v.IsStructured ∧ Json.write .line true v = .ok text ∧
      read ('\n' :: ' ' :: text.toList ++ ['\t']) = .ok v ∧
      (Token.parameter "n" "json" true (some v)).describe =
        .ok ("optional json parameter 'n' (default " ++ text ++ ")") := by
  intro v text
  have hv : v.IsFloatFree := by
    refine .dict (by decide) (List.forall_mem_cons.mpr ⟨.list ?_, List.forall_mem_singleton.mpr
      (.text _)⟩)
    exact List.forall_mem_cons.mpr ⟨.null, List.forall_mem_singleton.mpr (.int (by decide +kernel))⟩
  have hwritten : Json.write .line true v = .ok text := by
    decide +kernel
  have hfront : ∀ c ∈ ['\n', ' '], Text.isLow c = true := by simp [Text.isLow]
  have hback : ∀ c ∈ ['\t'], Text.isLow c = true := by simp [Text.isLow]
  obtain ⟨text', phrase, hwrite, hread, hphrase, hdescribe⟩ :=
    read_written hv trivial hfront hback "n" "json" true
  obtain rfl : text = text' := Except.ok.inj (hwritten.symm.trans hwrite)
  obtain rfl : "optional json parameter 'n'" = phrase := Except.ok.inj hphrase
  exact ⟨hv, trivial, hwritten, hread, hdescribe⟩

end Default

end MessagePattern
