import MessagePattern.Default
import MessagePattern.Proofs.Answer
import MessagePattern.Proofs.Decimal.Numeral
import MessagePattern.Proofs.Text.Trimming
import MessagePattern.Value.Display

/-!
# Simple defaults

A default that is a text, an integer or a truth value was read in one of four
ways (`read_simple_cases`): a text between brackets or braces is a list or a dictionary,
or else stands for itself. Its plain form is read as the same value
(`read_plain`).
-/

namespace MessagePattern

/-- A text, an integer or a truth value. -/
def Value.IsSimple : Value → Prop
  | .text _ => True
  | .int _ => True
  | .bool _ => True
  | _ => False

/-- A list or a dictionary. -/
def Value.IsStructured : Value → Prop
  | .list _ => True
  | .dict _ => True
  | _ => False

theorem Value.IsStructured.not_isSimple {v : Value} (h : v.IsStructured) : ¬ v.IsSimple := by
  cases v with
  | list items => exact id
  | dict entries => exact id
  | _ => cases h

/-! ## Texts between brackets -/

namespace Json

/-- A text that opens a list or a dictionary is read as such. -/
theorem isStructured_of_readValue {fuel : Nat} {c : Char} {cs rest : List Char} {v : Value}
    (hc : c = '\x7b' ∨ c = '[') (h : readValue fuel (c :: cs) = .ok (v, rest)) :
    v.IsStructured := by
  cases fuel with
  | zero =>
      rw [readValue] at h
      cases h
  | succ fuel =>
      rcases hc with rfl | rfl
      · rw [readValue] at h
        split at h
        · cases h
          exact trivial
        · obtain ⟨⟨entries, rest'⟩, _, h⟩ := bind_eq_ok_iff.mp h
          cases h
          exact trivial
      · rw [readValue] at h
        split at h
        · cases h
          exact trivial
        · obtain ⟨⟨items, rest'⟩, _, h⟩ := bind_eq_ok_iff.mp h
          cases h
          exact trivial

theorem isStructured_of_parse {c : Char} {cs : List Char} {v : Value}
    (hc : c = '\x7b' ∨ c = '[') (h : parse (c :: cs) = .ok v) : v.IsStructured := by
  have h := mapError_eq_ok_iff.mp h
  have hstart : skipSpace (c :: cs) = c :: cs := by
    rcases hc with rfl | rfl <;> rfl
  unfold readDocument at h
  split at h
  · cases h
  · obtain ⟨⟨found, rest⟩, hread, h⟩ := bind_eq_ok_iff.mp h
    rw [hstart] at hread
    have hv : v = found := by
      simp only at h
      split at h
      · exact (Except.ok.inj h).symm
      · cases h
    rw [hv]
    exact isStructured_of_readValue hc hread

end Json

namespace Default

theorem isStructured_cases {cs : List Char} (h : isStructured cs = true) :
    ∃ c rest, (c = '\x7b' ∨ c = '[') ∧ cs = c :: rest := by
  cases cs with
  | nil => cases h
  | cons c rest =>
      refine ⟨c, rest, ?_, rfl⟩
      simp only [isStructured, List.head?_cons, Bool.or_eq_true, Bool.and_eq_true, beq_iff_eq,
        Option.some.injEq] at h
      rcases h with ⟨hc, _⟩ | ⟨hc, _⟩
      · exact Or.inl hc
      · exact Or.inr hc

/-- Quotes around the bare keys leave the first character in its place. -/
theorem exists_quoteBareKeys_cons (c : Char) (cs : List Char) :
    ∃ rest, quoteBareKeys (c :: cs) = c :: rest := by
  rw [quoteBareKeys]
  split
  · split <;> exact ⟨_, rfl⟩
  · exact ⟨_, rfl⟩

theorem readJson_eq_some {cs : List Char} {v : Value} (h : readJson cs = .ok (some v)) :
    Json.parse cs = .ok v := by
  unfold readJson at h
  split at h
  · rename_i hparse
    cases h
    exact hparse
  · cases h
  · cases h

/-- A text between brackets is a list or a dictionary, or stands for itself. -/
theorem readStructured_cases {cs : List Char} {v : Value} (hcs : isStructured cs = true)
    (h : readStructured cs = .ok v) : v.IsStructured ∨ v = .text (String.ofList cs) := by
  obtain ⟨c, rest, hc, rfl⟩ := isStructured_cases hcs
  obtain ⟨first?, hfirst, h⟩ := bind_eq_ok_iff.mp h
  cases first? with
  | some found =>
      cases h
      exact Or.inl (Json.isStructured_of_parse hc (readJson_eq_some hfirst))
  | none =>
      obtain ⟨second?, hsecond, h⟩ := bind_eq_ok_iff.mp h
      cases second? with
      | some found =>
          cases h
          obtain ⟨quoted, hquoted⟩ := exists_quoteBareKeys_cons c rest
          rw [hquoted] at hsecond
          exact Or.inl (Json.isStructured_of_parse hc (readJson_eq_some hsecond))
      | none =>
          cases h
          exact Or.inr rfl

/-! ## Reading simple values -/

theorem readPlain_simple_cases {cs : List Char} {v : Value} (hsimple : v.IsSimple)
    (h : readPlain cs = .ok v) :
    v = .text (String.ofList cs) ∨
    (∃ n i, Decimal.Numeral.scan? cs = some n ∧ n.number = .ok (.int i) ∧ v = .int i) ∨
    (cs = ['t', 'r', 'u', 'e'] ∧ v = .bool true) ∨
    (cs = ['f', 'a', 'l', 's', 'e'] ∧ v = .bool false) := by
  unfold readPlain at h
  split at h
  · rename_i n hscan
    split at h
    · cases h
      exact Or.inl rfl
    · obtain ⟨number, hnumber, rfl⟩ := map_eq_ok_iff.mp h
      cases number with
      | int i => exact Or.inr (Or.inl ⟨n, i, hscan, hnumber, rfl⟩)
      | float x => exact absurd hsimple id
  · split at h
    · rename_i hcs
      cases h
      exact Or.inr (Or.inr (Or.inl ⟨hcs, rfl⟩))
    · split at h
      · rename_i hcs
        cases h
        exact Or.inr (Or.inr (Or.inr ⟨hcs, rfl⟩))
      · cases h
        exact Or.inl rfl

/-- A simple default is the trimmed text, the integer of a numeral or a truth value. -/
theorem read_simple_cases {cs : List Char} {v : Value} (hsimple : v.IsSimple)
    (h : read cs = .ok v) :
    v = .text (String.ofList (Text.trim cs)) ∨
    (∃ n i, Decimal.Numeral.scan? (Text.trim cs) = some n ∧ n.number = .ok (.int i) ∧
      v = .int i) ∨
    (Text.trim cs = ['t', 'r', 'u', 'e'] ∧ v = .bool true) ∨
    (Text.trim cs = ['f', 'a', 'l', 's', 'e'] ∧ v = .bool false) := by
  unfold read at h
  simp only at h
  split at h
  · rename_i hstructured
    have hcases := readStructured_cases hstructured h
    exact Or.inl (hcases.resolve_left fun hstructured => hstructured.not_isSimple hsimple)
  · exact readPlain_simple_cases hsimple h

theorem read_trim (cs : List Char) : read (Text.trim cs) = read cs := by
  unfold read
  rw [Text.trim_trim]

theorem mem_numeral_of_intChars {i : Int} {c : Char} (h : c ∈ Decimal.intChars i) :
    c.isDigit = true ∨ c = '-' ∨ c = '+' ∨ c = '.' := by
  rw [← Decimal.Numeral.chars_ofInt] at h
  exact Decimal.Numeral.mem_chars (Decimal.Numeral.wellFormed_ofInt i) h

/-- A text of digits, signs and points is neither padded nor between brackets. -/
theorem read_eq_readPlain {cs : List Char}
    (h : ∀ c ∈ cs, c.isDigit = true ∨ c = '-' ∨ c = '+' ∨ c = '.') : read cs = readPlain cs := by
  have htrim : Text.trim cs = cs := by
    refine Text.trim_eq_self fun c hc => ?_
    rcases h c hc with hdigit | rfl | rfl | rfl
    · have hlow := (Char.isDigit_iff_toNat.mp hdigit).1
      have hzero : '0'.toNat = 48 := rfl
      rw [Text.isLow, decide_eq_false_iff_not]
      omega
    · rfl
    · rfl
    · rfl
  have hstructured : isStructured cs = false := by
    rw [Bool.eq_false_iff]
    intro hstructured
    obtain ⟨c, rest, hc, rfl⟩ := isStructured_cases hstructured
    rcases hc with rfl | rfl
    · have hbrace := h '\x7b' List.mem_cons_self
      revert hbrace
      decide
    · have hsquare := h '[' List.mem_cons_self
      revert hsquare
      decide
  unfold read
  simp only [htrim, hstructured, Bool.false_eq_true, if_false]

/-- An integer within the digit limit is read from its decimal form. -/
theorem read_intChars {i : Int} (h : (Decimal.digits i.natAbs).length ≤ Decimal.maxDigits) :
    read (Decimal.intChars i) = .ok (.int i) := by
  rw [read_eq_readPlain fun c hc => mem_numeral_of_intChars hc]
  have hsign : (Decimal.Numeral.ofInt i).sign ≠ some '+' := by
    by_cases hi : i < 0 <;> simp [Decimal.Numeral.ofInt, hi]
  unfold readPlain
  rw [Decimal.Numeral.scan?_intChars]
  simp only [if_neg hsign, Decimal.Numeral.number_ofInt h]
  rfl

/-- A simple default is read again from its plain form. -/
theorem read_plain {cs : List Char} {v : Value} (hsimple : v.IsSimple) (h : read cs = .ok v) :
    read v.plain.toList = .ok v := by
  rcases read_simple_cases hsimple h with rfl | ⟨n, i, hscan, hnumber, rfl⟩ | ⟨_, rfl⟩ | ⟨_, rfl⟩
  · show read (String.ofList (Text.trim cs)).toList = _
    rw [String.toList_ofList, read_trim, h]
  · have hn := (Decimal.Numeral.scan?_eq_some_iff.mp hscan).1
    show read (String.ofList (Decimal.intChars i)).toList = _
    rw [String.toList_ofList, read_intChars (hn.length_digits_le hnumber)]
  · rfl
  · rfl

end Default

end MessagePattern
