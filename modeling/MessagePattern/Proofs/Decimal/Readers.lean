import Mathlib.Computability.RegularExpressions
import MessagePattern.Proofs.Default.Simple
import MessagePattern.Registry.Matcher

/-!
# The readers of numerals

Three matchers and the reader of defaults take numerals, each of them those of one regular
expression. The expressions differ in the signs and the fractions that they let through, and it is
these differences that make the readers agree: a numeral has a fraction or has none, so that the
matcher of numbers takes what exactly one of the other two takes, for the same value, and a default
is a number if it is one for that matcher and does not start with a plus sign
(`numeralsReadAlike`).
-/

namespace MessagePattern

/-! ## Forms of numerals -/

namespace Decimal

open RegularExpression

variable {cs : List Char}

/-- Any one of some characters. -/
def anyOf : List Char → RegularExpression Char
  | [] => 0
  | c :: cs => char c + anyOf cs

def digitForm : RegularExpression Char :=
  anyOf ['0', '1', '2', '3', '4', '5', '6', '7', '8', '9']

/-- One or more digits. -/
def digitsForm : RegularExpression Char :=
  digitForm * star digitForm

/-- A point with digits behind it. -/
def pointForm : RegularExpression Char :=
  char '.' * digitsForm

/-- A sign or none, digits, and what may stand behind them. -/
def numeralForm (signs : List Char) (fraction : RegularExpression Char) : RegularExpression Char :=
  (1 + anyOf signs) * (digitsForm * fraction)

def numberForm : RegularExpression Char :=
  numeralForm ['-', '+'] (1 + pointForm)

def integerForm : RegularExpression Char :=
  numeralForm ['-', '+'] 1

def floatForm : RegularExpression Char :=
  numeralForm ['-', '+'] pointForm

/-- The form of a number that is a default: it has no plus sign. -/
def defaultForm : RegularExpression Char :=
  numeralForm ['-'] (1 + pointForm)

theorem mem_anyOf_iff {chars : List Char} :
    cs ∈ (anyOf chars).matches' ↔ ∃ c ∈ chars, cs = [c] := by
  induction chars with
  | nil =>
      rw [anyOf, matches'_zero]
      simp [Language.notMem_zero]
  | cons c chars ih =>
      have hchar : cs ∈ (char c).matches' ↔ cs = [c] := by
        rw [matches'_char]
        rfl
      rw [anyOf, matches'_add, Language.mem_add, hchar, ih]
      simp

theorem mem_digitForm_iff : cs ∈ digitForm.matches' ↔ ∃ c, c.isDigit = true ∧ cs = [c] := by
  have hdigits : ∀ c : Char, c ∈ ['0', '1', '2', '3', '4', '5', '6', '7', '8', '9'] ↔
      c.isDigit = true := by
    intro c
    constructor
    · intro hc
      have hall : ['0', '1', '2', '3', '4', '5', '6', '7', '8', '9'].all Char.isDigit = true := rfl
      exact List.all_eq_true.mp hall c hc
    · intro hc
      obtain ⟨hlow, hhigh⟩ := Char.isDigit_iff_toNat.mp hc
      have hchar : c = Char.ofNat c.toNat := (Char.ofNat_toNat c).symm
      rw [hchar]
      have hall : ∀ n, '0'.toNat ≤ n → n ≤ '9'.toNat →
          Char.ofNat n ∈ ['0', '1', '2', '3', '4', '5', '6', '7', '8', '9'] := by
        decide
      exact hall c.toNat hlow hhigh
  rw [digitForm, mem_anyOf_iff]
  simp only [hdigits]

theorem mem_digitsForm_iff : cs ∈ digitsForm.matches' ↔ isDigits cs = true := by
  rw [digitsForm, matches'_mul, matches'_star, Language.mem_mul, isDigits_iff]
  constructor
  · rintro ⟨first, hfirst, others, hothers, rfl⟩
    obtain ⟨c, hc, rfl⟩ := mem_digitForm_iff.mp hfirst
    obtain ⟨pieces, rfl, hpieces⟩ := Language.mem_kstar.mp hothers
    refine ⟨List.cons_ne_nil _ _, List.forall_mem_cons.mpr ⟨hc, ?_⟩⟩
    intro d hd
    obtain ⟨piece, hpiece, hd⟩ := List.mem_flatten.mp hd
    obtain ⟨e, he, rfl⟩ := mem_digitForm_iff.mp (hpieces piece hpiece)
    rwa [List.mem_singleton.mp hd]
  · rintro ⟨hne, hdigits⟩
    obtain ⟨c, rest, rfl⟩ := List.exists_cons_of_ne_nil hne
    obtain ⟨hc, hrest⟩ := List.forall_mem_cons.mp hdigits
    refine ⟨[c], mem_digitForm_iff.mpr ⟨c, hc, rfl⟩, rest, Language.mem_kstar.mpr ?_, rfl⟩
    refine ⟨rest.map fun d => [d], ?_, fun piece hpiece => ?_⟩
    · rw [← List.flatMap_def, List.flatMap_singleton']
    · obtain ⟨d, hd, rfl⟩ := List.mem_map.mp hpiece
      exact mem_digitForm_iff.mpr ⟨d, hrest d hd, rfl⟩

/-- The characters of a fraction, if there is one. -/
def fractionChars (fraction : Option (List Char)) : List Char :=
  fraction.elim [] ('.' :: ·)

/-- An expression for the fractions that satisfy a condition. -/
def FormOf (fractionForm : RegularExpression Char) (welcome : Option (List Char) → Prop) : Prop :=
  ∀ cs, cs ∈ fractionForm.matches' ↔ ∃ fraction, welcome fraction ∧
    (∀ ds, fraction = some ds → isDigits ds = true) ∧ cs = fractionChars fraction

theorem formOf_one : FormOf 1 (· = none) := by
  intro cs
  rw [matches'_epsilon, Language.mem_one]
  constructor
  · rintro rfl
    refine ⟨none, rfl, ?_, rfl⟩
    intro ds hds
    cases hds
  · rintro ⟨fraction, rfl, _, hcs⟩
    exact hcs

theorem formOf_pointForm : FormOf pointForm (·.isSome = true) := by
  intro cs
  rw [pointForm, matches'_mul, matches'_char, Language.mem_mul]
  constructor
  · rintro ⟨point, hpoint, ds, hds, rfl⟩
    rw [Set.mem_singleton_iff.mp hpoint]
    refine ⟨some ds, rfl, ?_, rfl⟩
    intro ds' hds'
    cases hds'
    exact mem_digitsForm_iff.mp hds
  · rintro ⟨fraction, hsome, hdigits, rfl⟩
    obtain ⟨ds, rfl⟩ := Option.isSome_iff_exists.mp hsome
    exact ⟨['.'], rfl, ds, mem_digitsForm_iff.mpr (hdigits ds rfl), rfl⟩

theorem formOf_optional_pointForm : FormOf (1 + pointForm) fun _ => True := by
  intro cs
  rw [matches'_add, Language.mem_add, formOf_one cs, formOf_pointForm cs]
  constructor
  · rintro (⟨fraction, _, h⟩ | ⟨fraction, _, h⟩)
    · exact ⟨fraction, trivial, h⟩
    · exact ⟨fraction, trivial, h⟩
  · rintro ⟨fraction, _, h⟩
    cases fraction with
    | none => exact Or.inl ⟨none, rfl, h⟩
    | some ds => exact Or.inr ⟨some ds, rfl, h⟩

theorem mem_sign_iff {signs : List Char} : cs ∈ (1 + anyOf signs).matches' ↔
    ∃ sign : Option Char, (∀ c, sign = some c → c ∈ signs) ∧ cs = sign.toList := by
  rw [matches'_add, matches'_epsilon, Language.mem_add, Language.mem_one, mem_anyOf_iff]
  constructor
  · rintro (rfl | ⟨c, hc, rfl⟩)
    · refine ⟨none, ?_, rfl⟩
      intro c hc
      cases hc
    · exact ⟨some c, fun d hd => Option.some.inj hd ▸ hc, rfl⟩
  · rintro ⟨sign, hsign, rfl⟩
    cases sign with
    | none => exact Or.inl rfl
    | some c => exact Or.inr ⟨c, hsign c rfl, rfl⟩

theorem Numeral.chars_eq (n : Numeral) :
    n.chars = n.sign.toList ++ (n.whole ++ fractionChars n.fraction) := by
  obtain ⟨sign, whole, _ | fraction⟩ := n <;> simp [chars, fractionChars]

/-- What is of a form is a numeral with one of its signs and one of its fractions. -/
theorem mem_numeralForm_iff {signs : List Char} {fractionForm : RegularExpression Char}
    {welcome : Option (List Char) → Prop} (hsigns : ∀ c ∈ signs, c = '-' ∨ c = '+')
    (hform : FormOf fractionForm welcome) :
    cs ∈ (numeralForm signs fractionForm).matches' ↔
      ∃ n, Numeral.scan? cs = some n ∧ (∀ c, n.sign = some c → c ∈ signs) ∧ welcome n.fraction := by
  rw [numeralForm, matches'_mul, matches'_mul, Language.mem_mul]
  constructor
  · rintro ⟨front, hfront, body, hbody, rfl⟩
    obtain ⟨sign, hsign, rfl⟩ := mem_sign_iff.mp hfront
    obtain ⟨whole, hwhole, behind, hbehind, rfl⟩ := Language.mem_mul.mp hbody
    obtain ⟨fraction, hwelcome, hdigits, rfl⟩ := (hform behind).mp hbehind
    refine ⟨⟨sign, whole, fraction⟩, Numeral.scan?_eq_some_iff.mpr ⟨⟨?_, ?_, hdigits⟩, ?_⟩, hsign,
      hwelcome⟩
    · exact fun c hc => hsigns c (hsign c hc)
    · exact mem_digitsForm_iff.mp hwhole
    · exact Numeral.chars_eq _
  · rintro ⟨n, hscan, hsign, hwelcome⟩
    obtain ⟨hn, rfl⟩ := Numeral.scan?_eq_some_iff.mp hscan
    rw [Numeral.chars_eq]
    refine ⟨_, mem_sign_iff.mpr ⟨n.sign, hsign, rfl⟩, _, Language.mem_mul.mpr ?_, rfl⟩
    refine ⟨n.whole, mem_digitsForm_iff.mpr hn.whole, _, ?_, rfl⟩
    exact (hform _).mpr ⟨n.fraction, hwelcome, hn.fraction, rfl⟩

/-! ## Numbers of numerals -/

/-- A numeral with few digits is a number. -/
theorem Numeral.WellFormed.exists_number {n : Numeral} (h : n.WellFormed)
    (hdigits : n.chars.countP Char.isDigit ≤ maxDigits) : ∃ number, n.number = .ok number := by
  have hlength := Nat.not_lt.mpr (Nat.le_trans h.length_whole_le hdigits)
  unfold Numeral.number
  cases n.fraction with
  | none =>
      rw [toInt, readInt, if_neg hlength]
      exact ⟨_, rfl⟩
  | some fraction => exact ⟨_, rfl⟩

/-- A numeral starts with its sign or with a digit. -/
theorem Numeral.WellFormed.head?_eq_plus_iff {n : Numeral} (h : n.WellFormed) :
    n.chars.head? = some '+' ↔ n.sign = some '+' := by
  obtain ⟨hne, hdigits⟩ := isDigits_iff.mp h.whole
  obtain ⟨d, ds, hwhole⟩ := List.exists_cons_of_ne_nil hne
  have hd : d ≠ '+' := by
    rintro rfl
    cases hdigits '+' (hwhole ▸ List.mem_cons_self)
  rw [chars_eq, hwhole]
  cases n.sign with
  | none => simp [hd]
  | some c => simp

end Decimal

open Decimal (Numeral numberForm integerForm floatForm defaultForm)

/-! ## Matchers -/

namespace Matcher

variable {text : String} {v : Value}

/-- The matcher takes a text, for a value. -/
def Takes (m : Matcher) (text : String) (v : Value) : Prop :=
  m (.text text) = .ok (.accepted v)

/-- The matcher has an answer for a text, and takes it exactly if the text is of a form. -/
structure Recognizes (m : Matcher) (form : RegularExpression Char) (text : String) : Prop where
  takes : text.toList ∈ form.matches' → ∃ v, m.Takes text v
  refuses : text.toList ∉ form.matches' → m (.text text) = .ok .refused

theorem numeral_takes_iff {welcome : Numeral → Bool} :
    (numeral welcome (·.number)).Takes text v ↔ ∃ n number, Numeral.scan? text.toList = some n ∧
      welcome n = true ∧ n.number = .ok number ∧ v = .ofNumber number := by
  unfold Takes numeral onText
  simp only
  cases hscan : Numeral.scan? text.toList with
  | none => simp
  | some n =>
      by_cases hwelcome : welcome n = true
      · simp only [if_pos hwelcome, map_eq_ok_iff, mapError_eq_ok_iff, Option.some.injEq]
        constructor
        · rintro ⟨number, hnumber, haccepted⟩
          cases haccepted
          exact ⟨n, number, rfl, hwelcome, hnumber, rfl⟩
        · rintro ⟨_, number, rfl, _, hnumber, rfl⟩
          exact ⟨number, hnumber, rfl⟩
      · simp only [if_neg hwelcome]
        constructor
        · intro hrefused
          cases hrefused
        · rintro ⟨_, _, hsome, hwelcome', _⟩
          cases hsome
          exact absurd hwelcome' hwelcome

/-- A matcher of numerals recognizes a form if that is the form of the numerals it welcomes. -/
theorem recognizes_numeral {welcome : Numeral → Bool} {form : RegularExpression Char}
    (hform : text.toList ∈ form.matches' ↔
      ∃ n, Numeral.scan? text.toList = some n ∧ welcome n = true)
    (hdigits : text.toList.countP Char.isDigit ≤ Decimal.maxDigits) :
    (numeral welcome (·.number)).Recognizes form text := by
  constructor
  · intro hmem
    obtain ⟨n, hscan, hwelcome⟩ := hform.mp hmem
    obtain ⟨hn, hchars⟩ := Numeral.scan?_eq_some_iff.mp hscan
    obtain ⟨number, hnumber⟩ := hn.exists_number (hchars ▸ hdigits)
    exact ⟨_, numeral_takes_iff.mpr ⟨n, number, hscan, hwelcome, hnumber, rfl⟩⟩
  · intro hnotMem
    unfold numeral onText
    simp only
    cases hscan : Numeral.scan? text.toList with
    | none => rfl
    | some n =>
        have hwelcome : ¬ welcome n = true := fun h => hnotMem (hform.mpr ⟨n, hscan, h⟩)
        simp only [if_neg hwelcome]

theorem mem_signs_of_scan? {cs : List Char} {n : Numeral} (h : Numeral.scan? cs = some n) :
    ∀ c, n.sign = some c → c ∈ ['-', '+'] := by
  intro c hc
  have hsign := (Numeral.wellFormed_of_scan? h).sign c hc
  simpa using hsign

/-- The matchers take all signs, so that it is for the fraction to decide. -/
theorem mem_signed_iff {cs : List Char} {fractionForm : RegularExpression Char}
    {welcome : Option (List Char) → Prop} (hform : Decimal.FormOf fractionForm welcome) :
    cs ∈ (Decimal.numeralForm ['-', '+'] fractionForm).matches' ↔
      ∃ n, Numeral.scan? cs = some n ∧ welcome n.fraction := by
  rw [Decimal.mem_numeralForm_iff (by simp) hform]
  constructor
  · rintro ⟨n, hscan, _, hwelcome⟩
    exact ⟨n, hscan, hwelcome⟩
  · rintro ⟨n, hscan, hwelcome⟩
    exact ⟨n, hscan, mem_signs_of_scan? hscan, hwelcome⟩

section

variable (hdigits : text.toList.countP Char.isDigit ≤ Decimal.maxDigits)
include hdigits

theorem recognizes_number : number.Recognizes numberForm text := by
  refine recognizes_numeral ?_ hdigits
  rw [numberForm, mem_signed_iff Decimal.formOf_optional_pointForm]
  simp only [and_true]

theorem recognizes_integer : integer.Recognizes integerForm text := by
  rw [integer_eq]
  refine recognizes_numeral ?_ hdigits
  rw [integerForm, mem_signed_iff Decimal.formOf_one]
  simp only [Option.isNone_iff_eq_none]

theorem recognizes_float : float.Recognizes floatForm text := by
  rw [float_eq]
  refine recognizes_numeral ?_ hdigits
  rw [floatForm, mem_signed_iff Decimal.formOf_pointForm]

end

/-- A numeral has a fraction or has none. -/
theorem number_takes_iff : number.Takes text v ↔ integer.Takes text v ∨ float.Takes text v := by
  rw [number, integer_eq, float_eq, numeral_takes_iff, numeral_takes_iff, numeral_takes_iff]
  constructor
  · rintro ⟨n, number, hscan, _, hnumber⟩
    cases hfraction : n.fraction with
    | none => exact Or.inl ⟨n, number, hscan, by rw [hfraction]; rfl, hnumber⟩
    | some ds => exact Or.inr ⟨n, number, hscan, by rw [hfraction]; rfl, hnumber⟩
  · rintro (⟨n, number, hscan, _, hnumber⟩ | ⟨n, number, hscan, _, hnumber⟩)
    · exact ⟨n, number, hscan, rfl, hnumber⟩
    · exact ⟨n, number, hscan, rfl, hnumber⟩

theorem exists_number_of_takes (h : number.Takes text v) : ∃ number, v = .ofNumber number := by
  obtain ⟨_, number, _, _, _, hv⟩ := numeral_takes_iff.mp h
  exact ⟨number, hv⟩

theorem not_integer_and_float (text : String) :
    ¬ ((∃ v, integer.Takes text v) ∧ ∃ v, float.Takes text v) := by
  rintro ⟨⟨v, hinteger⟩, w, hfloat⟩
  rw [integer_eq, numeral_takes_iff] at hinteger
  rw [float_eq, numeral_takes_iff] at hfloat
  obtain ⟨n, _, hscan, hnone, _⟩ := hinteger
  obtain ⟨m, _, hscan', hsome, _⟩ := hfloat
  rw [hscan] at hscan'
  cases hscan'
  rw [Option.isNone_iff_eq_none.mp hnone] at hsome
  cases hsome

theorem exists_number_takes_iff : (∃ v, number.Takes text v) ↔
    Xor (∃ v, integer.Takes text v) (∃ v, float.Takes text v) := by
  have hboth := not_integer_and_float text
  simp only [number_takes_iff, exists_or]
  unfold Xor
  tauto

end Matcher

/-! ## Defaults -/

namespace Default

variable {cs : List Char} {number : Decimal.Number}

theorem ofNumber_injective {m n : Decimal.Number} (h : Value.ofNumber m = Value.ofNumber n) :
    m = n := by
  cases m <;> cases n <;> cases h <;> rfl

theorem readPlain_eq_number_iff :
    readPlain cs = .ok (.ofNumber number) ↔
      ∃ n, Numeral.scan? cs = some n ∧ n.sign ≠ some '+' ∧ n.number = .ok number := by
  have htext : ∀ s, Value.text s ≠ .ofNumber number := by
    intro s hs
    cases number <;> cases hs
  have hbool : ∀ b, Value.bool b ≠ .ofNumber number := by
    intro b hb
    cases number <;> cases hb
  unfold readPlain
  cases hscan : Numeral.scan? cs with
  | none =>
      constructor
      · intro h
        split_ifs at h
        · exact absurd (Except.ok.inj h) (hbool true)
        · exact absurd (Except.ok.inj h) (hbool false)
        · exact absurd (Except.ok.inj h) (htext _)
      · rintro ⟨n, hn, _⟩
        cases hn
  | some n =>
      by_cases hsign : n.sign = some '+'
      · simp only [if_pos hsign]
        constructor
        · intro h
          exact absurd (Except.ok.inj h) (htext _)
        · rintro ⟨n', hn', hsign', _⟩
          cases hn'
          exact absurd hsign hsign'
      · simp only [if_neg hsign, map_eq_ok_iff]
        constructor
        · rintro ⟨number', hnumber, heq⟩
          rw [ofNumber_injective heq] at hnumber
          exact ⟨n, rfl, hsign, hnumber⟩
        · rintro ⟨n', hn', _, hnumber⟩
          cases hn'
          exact ⟨number, hnumber, rfl⟩

/-- A text between brackets is no number. -/
theorem readStructured_ne_number (hcs : isStructured cs = true) :
    readStructured cs ≠ .ok (.ofNumber number) := by
  intro h
  rcases readStructured_cases hcs h with hstructured | htext
  · cases number <;> cases hstructured
  · cases number <;> cases htext

theorem scan?_of_isStructured (hcs : isStructured cs = true) : Numeral.scan? cs = none := by
  cases hscan : Numeral.scan? cs with
  | none => rfl
  | some n =>
      obtain ⟨hn, hchars⟩ := Numeral.scan?_eq_some_iff.mp hscan
      obtain ⟨c, rest, hc, rfl⟩ := isStructured_cases hcs
      have hnot : ¬ (c.isDigit = true ∨ c = '-' ∨ c = '+' ∨ c = '.') := by
        rcases hc with rfl | rfl <;> decide
      exact absurd (Numeral.mem_chars hn (hchars ▸ List.mem_cons_self)) hnot

/-- A default is a number if it is a numeral without a plus sign. -/
theorem read_eq_number_iff :
    read cs = .ok (.ofNumber number) ↔ ∃ n, Numeral.scan? (Text.trim cs) = some n ∧
      n.sign ≠ some '+' ∧ n.number = .ok number := by
  unfold read
  by_cases hstructured : isStructured (Text.trim cs) = true
  · simp only [if_pos hstructured]
    constructor
    · intro h
      exact absurd h (readStructured_ne_number hstructured)
    · rintro ⟨n, hscan, _⟩
      rw [scan?_of_isStructured hstructured] at hscan
      cases hscan
  · simp only [if_neg hstructured]
    exact readPlain_eq_number_iff

theorem read_eq_number_iff_takes :
    read cs = .ok (.ofNumber number) ↔
      Matcher.number.Takes (String.ofList (Text.trim cs)) (.ofNumber number) ∧
        (Text.trim cs).head? ≠ some '+' := by
  rw [read_eq_number_iff, Matcher.number, Matcher.numeral_takes_iff, String.toList_ofList]
  constructor
  · rintro ⟨n, hscan, hsign, hnumber⟩
    obtain ⟨hn, hchars⟩ := Numeral.scan?_eq_some_iff.mp hscan
    refine ⟨⟨n, number, hscan, rfl, hnumber, rfl⟩, fun hplus => hsign ?_⟩
    exact hn.head?_eq_plus_iff.mp (hchars ▸ hplus)
  · rintro ⟨⟨n, number', hscan, _, hnumber, heq⟩, hplus⟩
    obtain ⟨hn, hchars⟩ := Numeral.scan?_eq_some_iff.mp hscan
    refine ⟨n, hscan, fun hsign => hplus ?_, ofNumber_injective heq ▸ hnumber⟩
    exact hchars ▸ hn.head?_eq_plus_iff.mpr hsign

theorem mem_defaultForm_iff : cs ∈ defaultForm.matches' ↔
    ∃ n, Numeral.scan? cs = some n ∧ n.sign ≠ some '+' := by
  rw [defaultForm, Decimal.mem_numeralForm_iff (by simp) Decimal.formOf_optional_pointForm]
  constructor
  · rintro ⟨n, hscan, hsign, _⟩
    refine ⟨n, hscan, fun hplus => ?_⟩
    have hmem := hsign '+' hplus
    revert hmem
    decide
  · rintro ⟨n, hscan, hsign⟩
    refine ⟨n, hscan, fun c hc => ?_, trivial⟩
    rcases (Numeral.wellFormed_of_scan? hscan).sign c hc with rfl | rfl
    · exact List.mem_singleton_self _
    · exact absurd hc hsign

theorem exists_read_eq_number_iff
    (hdigits : (Text.trim cs).countP Char.isDigit ≤ Decimal.maxDigits) :
    (∃ number, read cs = .ok (.ofNumber number)) ↔ Text.trim cs ∈ defaultForm.matches' := by
  simp only [read_eq_number_iff, mem_defaultForm_iff]
  constructor
  · rintro ⟨number, n, hscan, hsign, _⟩
    exact ⟨n, hscan, hsign⟩
  · rintro ⟨n, hscan, hsign⟩
    obtain ⟨hn, hchars⟩ := Numeral.scan?_eq_some_iff.mp hscan
    obtain ⟨number, hnumber⟩ := hn.exists_number (hchars ▸ hdigits)
    exact ⟨number, n, hscan, hsign, hnumber⟩

end Default

/-! ## Agreement -/

/-- How the readers of numerals agree on a text. Each matcher has an answer and a form of its own,
the matcher of numbers takes what exactly one of the other two takes, and a default is a number
if the trimmed text is one for that matcher, without a plus sign in front. -/
structure NumeralsReadAlike (text trimmed : String) : Prop where
  number_form : Matcher.number.Recognizes numberForm text
  integer_form : Matcher.integer.Recognizes integerForm text
  float_form : Matcher.float.Recognizes floatForm text
  takes_iff_xor : (∃ v, Matcher.number.Takes text v) ↔
    Xor (∃ v, Matcher.integer.Takes text v) (∃ v, Matcher.float.Takes text v)
  never_both : ¬ ((∃ v, Matcher.integer.Takes text v) ∧ ∃ v, Matcher.float.Takes text v)
  same_value : ∀ v, Matcher.number.Takes text v ↔
    Matcher.integer.Takes text v ∨ Matcher.float.Takes text v
  default_form : (∃ number, Default.read text.toList = .ok (.ofNumber number)) ↔
    trimmed.toList ∈ defaultForm.matches'
  default_iff : (∃ number, Default.read text.toList = .ok (.ofNumber number)) ↔
    (∃ v, Matcher.number.Takes trimmed v) ∧ trimmed.toList.head? ≠ some '+'
  default_value : ∀ v, Matcher.number.Takes trimmed v → trimmed.toList.head? ≠ some '+' →
    Default.read text.toList = .ok v

/-- On every text with few enough digits the readers of numerals agree. -/
theorem numeralsReadAlike (text : String)
    (hdigits : text.toList.countP Char.isDigit ≤ Decimal.maxDigits) :
    NumeralsReadAlike text (String.ofList (Text.trim text.toList)) := by
  have htrimmed : (Text.trim text.toList).countP Char.isDigit ≤ Decimal.maxDigits :=
    Nat.le_trans (Text.trim_sublist text.toList).countP_le hdigits
  refine
    { number_form := Matcher.recognizes_number hdigits
      integer_form := Matcher.recognizes_integer hdigits
      float_form := Matcher.recognizes_float hdigits
      takes_iff_xor := Matcher.exists_number_takes_iff
      never_both := Matcher.not_integer_and_float text
      same_value := fun v => Matcher.number_takes_iff
      default_form := ?_
      default_iff := ?_
      default_value := ?_ }
  · rw [String.toList_ofList]
    exact Default.exists_read_eq_number_iff htrimmed
  · rw [String.toList_ofList]
    constructor
    · rintro ⟨number, hread⟩
      obtain ⟨htakes, hplus⟩ := Default.read_eq_number_iff_takes.mp hread
      exact ⟨⟨_, htakes⟩, hplus⟩
    · rintro ⟨⟨v, htakes⟩, hplus⟩
      obtain ⟨number, rfl⟩ := Matcher.exists_number_of_takes htakes
      exact ⟨number, Default.read_eq_number_iff_takes.mpr ⟨htakes, hplus⟩⟩
  · rw [String.toList_ofList]
    intro v htakes hplus
    obtain ⟨number, rfl⟩ := Matcher.exists_number_of_takes htakes
    exact Default.read_eq_number_iff_takes.mpr ⟨htakes, hplus⟩

/-- A line break behind the text is trimmed off for a default only, and zeros in front count for
none of them. -/
theorem numeralsReadAlike_line_break :
    "-007.50\n".toList.countP Char.isDigit ≤ Decimal.maxDigits ∧
      NumeralsReadAlike "-007.50\n" "-007.50" := by
  have hdigits : "-007.50\n".toList.countP Char.isDigit ≤ Decimal.maxDigits := by decide
  exact ⟨hdigits, numeralsReadAlike "-007.50\n" hdigits⟩

end MessagePattern
