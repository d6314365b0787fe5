import Mathlib.Algebra.Group.Nat.Defs
import MessagePattern.Decimal.Numeral
import MessagePattern.Proofs.Answer

/-!
# Numerals and integers

A text is a numeral exactly if it consists of the characters of a well-formed
one (`scan?_eq_some_iff`). The decimal form of an integer is a numeral of it, and
no numeral of the integer has fewer digits, so an integer that was read within the
digit limit is read back from its decimal form.
-/

namespace MessagePattern.Decimal

/-! ## Runs of digits -/

theorem isDigits_iff {cs : List Char} :
    isDigits cs = true ↔ cs ≠ [] ∧ ∀ c ∈ cs, c.isDigit = true := by
  rw [isDigits, Bool.and_eq_true, List.all_eq_true, Bool.not_eq_true', List.isEmpty_eq_false_iff]

theorem isDigits_digits (n : Nat) : isDigits (digits n) = true :=
  isDigits_iff.mpr
    ⟨Nat.toDigits_ne_nil, fun _ hc => Nat.isDigit_of_mem_toDigits (by decide) (by decide) hc⟩

theorem isDigit_of_mem_digits {n : Nat} {c : Char} (h : c ∈ digits n) : c.isDigit = true :=
  (isDigits_iff.mp (isDigits_digits n)).2 c h

/-- The digits in front of something else are all taken, and nothing more. -/
theorem span_isDigit {ds : List Char} (hds : ∀ c ∈ ds, c.isDigit = true) (rest : List Char)
    (hrest : ∀ c, rest.head? = some c → c.isDigit = false) :
    (ds ++ rest).takeWhile Char.isDigit = ds ∧ (ds ++ rest).dropWhile Char.isDigit = rest := by
  rw [List.takeWhile_append_of_pos hds, List.dropWhile_append_of_pos hds]
  cases rest with
  | nil => simp
  | cons c rest => simp [hrest c rfl]

theorem ofDigits_lt {ds : List Char} (hds : ∀ c ∈ ds, c.isDigit = true) :
    ofDigits ds < 10 ^ ds.length := by
  induction ds with
  | nil => simp [ofDigits, Nat.ofDigitChars_nil]
  | cons d ds ih =>
      have hlt := ih fun c hc => hds c (List.mem_cons_of_mem _ hc)
      have hd := Char.isDigit_iff_toNat.mp (hds d List.mem_cons_self)
      have hten : d.toNat - '0'.toNat + 1 ≤ 10 := by
        have hnine : '9'.toNat = '0'.toNat + 9 := by decide
        omega
      have hscale := Nat.mul_le_mul_left (10 ^ ds.length) hten
      unfold ofDigits at hlt ⊢
      rw [Nat.ofDigitChars_cons, Nat.ofDigitChars_eq_ofDigitChars_zero, Nat.mul_zero, Nat.zero_add,
        List.length_cons, Nat.pow_succ]
      rw [Nat.mul_add, Nat.mul_one] at hscale
      omega

/-- No other run of digits for a number is shorter than its decimal form. -/
theorem length_digits_ofDigits_le {ds : List Char} (h : isDigits ds = true) :
    (digits (ofDigits ds)).length ≤ ds.length := by
  obtain ⟨hne, hds⟩ := isDigits_iff.mp h
  exact (Nat.length_toDigits_le_iff (by decide) (List.length_pos_iff.mpr hne)).mpr (ofDigits_lt hds)

/-! ## Numerals -/

/-- The sign is a sign, and there are digits where digits should be. -/
structure Numeral.WellFormed (n : Numeral) : Prop where
  sign : ∀ c, n.sign = some c → c = '-' ∨ c = '+'
  whole : isDigits n.whole = true
  fraction : ∀ ds, n.fraction = some ds → isDigits ds = true

theorem sign_of_splitSign {cs : List Char} {c : Char} (h : (splitSign cs).1 = some c) :
    c = '-' ∨ c = '+' := by
  cases cs with
  | nil => cases h
  | cons d rest =>
      by_cases hd : d = '-' ∨ d = '+'
      · simp only [splitSign, if_pos hd, Option.some.injEq] at h
        rwa [← h]
      · simp [splitSign, hd] at h

theorem Numeral.wellFormed_of_scan? {cs : List Char} {n : Numeral} (h : scan? cs = some n) :
    n.WellFormed := by
  unfold scan? at h
  simp only at h
  split at h
  · split at h
    · rename_i hwhole
      cases h
      exact ⟨fun c hc => sign_of_splitSign hc, hwhole, fun ds hds => by cases hds⟩
    · cases h
  · split at h
    · rename_i hok
      simp only [Bool.and_eq_true] at hok
      cases h
      exact ⟨fun c hc => sign_of_splitSign hc, hok.1.2, fun ds hds => by cases hds; exact hok.2⟩
    · cases h

/-- A sign is told from the digits behind it. -/
theorem splitSign_append {sign : Option Char} {ds : List Char}
    (hsign : ∀ c, sign = some c → c = '-' ∨ c = '+') (hds : isDigits ds = true)
    (rest : List Char) : splitSign (sign.toList ++ (ds ++ rest)) = (sign, ds ++ rest) := by
  obtain ⟨hne, hdigits⟩ := isDigits_iff.mp hds
  obtain ⟨d, ds, rfl⟩ := List.exists_cons_of_ne_nil hne
  have hunsigned : ¬ (d = '-' ∨ d = '+') := by
    have hd := hdigits d List.mem_cons_self
    rintro (rfl | rfl) <;> cases hd
  cases sign with
  | none => simp [splitSign, hunsigned]
  | some c => simp [splitSign, hsign c rfl]

theorem Numeral.scan?_chars {n : Numeral} (h : n.WellFormed) : scan? n.chars = some n := by
  obtain ⟨sign, whole, fraction⟩ := n
  have hdigits := (isDigits_iff.mp h.whole).2
  have hwhole : isDigits whole = true := h.whole
  rw [chars, List.append_assoc]
  unfold scan?
  rw [splitSign_append h.sign h.whole]
  cases fraction with
  | none =>
      obtain ⟨htake, hdrop⟩ := span_isDigit hdigits [] (by simp)
      simp only [htake, hdrop, hwhole, if_true]
  | some fraction =>
      have hfraction : isDigits fraction = true := h.fraction fraction rfl
      obtain ⟨htake, hdrop⟩ := span_isDigit hdigits ('.' :: fraction) (by simp)
      simp only [htake, hdrop, hwhole, hfraction, decide_true, Bool.and_self, if_true]

/-- The numerals are the characters of the well-formed ones. -/
theorem Numeral.scan?_eq_some_iff {cs : List Char} {n : Numeral} :
    scan? cs = some n ↔ n.WellFormed ∧ n.chars = cs := by
  constructor
  · intro h
    exact ⟨wellFormed_of_scan? h, chars_of_scan? h⟩
  · rintro ⟨h, rfl⟩
    exact scan?_chars h

/-- Two numerals of the same characters are one. -/
theorem Numeral.chars_inj {m n : Numeral} (hm : m.WellFormed) (hn : n.WellFormed)
    (h : m.chars = n.chars) : m = n := by
  have hscan := scan?_chars hm
  rw [h, scan?_chars hn] at hscan
  exact (Option.some.inj hscan).symm

/-- A numeral holds digits, signs and points only. -/
theorem Numeral.mem_chars {n : Numeral} (h : n.WellFormed) {c : Char} (hc : c ∈ n.chars) :
    c.isDigit = true ∨ c = '-' ∨ c = '+' ∨ c = '.' := by
  rw [chars, List.append_assoc, List.mem_append, List.mem_append, Option.mem_toList] at hc
  rcases hc with hsign | hwhole | hfraction
  · rcases h.sign c hsign with hc | hc
    · exact Or.inr (Or.inl hc)
    · exact Or.inr (Or.inr (Or.inl hc))
  · exact Or.inl ((isDigits_iff.mp h.whole).2 c hwhole)
  · cases hds : n.fraction with
    | none =>
        rw [hds] at hfraction
        cases hfraction
    | some ds =>
        rw [hds] at hfraction
        rcases List.mem_cons.mp hfraction with hc | hmem
        · exact Or.inr (Or.inr (Or.inr hc))
        · exact Or.inl ((isDigits_iff.mp (h.fraction ds hds)).2 c hmem)

/-! ## Integers -/

/-- The decimal form of an integer. -/
def Numeral.ofInt (i : Int) : Numeral :=
  ⟨if i < 0 then some '-' else none, digits i.natAbs, none⟩

theorem Numeral.chars_ofInt (i : Int) : (ofInt i).chars = intChars i := by
  by_cases h : i < 0 <;> simp [ofInt, chars, intChars, h]

theorem Numeral.wellFormed_ofInt (i : Int) : (ofInt i).WellFormed where
  sign := by
    intro c hc
    by_cases h : i < 0
    · simp only [ofInt, if_pos h, Option.some.injEq] at hc
      exact Or.inl hc.symm
    · simp [ofInt, h] at hc
  whole := isDigits_digits _
  fraction := by
    intro ds hds
    cases hds

theorem Numeral.scan?_intChars (i : Int) : scan? (intChars i) = some (ofInt i) :=
  scan?_eq_some_iff.mpr ⟨wellFormed_ofInt i, chars_ofInt i⟩

/-- An integer that was read within the limit has a decimal form within the limit. -/
theorem length_digits_le_of_readInt {negative : Bool} {ds : List Char} {i : Int}
    (hds : isDigits ds = true) (h : readInt negative ds = .ok i) :
    (digits i.natAbs).length ≤ maxDigits := by
  unfold readInt at h
  split at h
  · cases h
  · rename_i hlimit
    have habs : i.natAbs = ofDigits ds := by
      cases negative <;> cases h <;> simp
    rw [habs]
    exact Nat.le_trans (length_digits_ofDigits_le hds) (Nat.le_of_not_lt hlimit)

theorem Numeral.WellFormed.length_whole_le {n : Numeral} (h : n.WellFormed) :
    n.whole.length ≤ n.chars.countP Char.isDigit := by
  have hwhole : n.whole.countP Char.isDigit = n.whole.length :=
    List.countP_eq_length.mpr (isDigits_iff.mp h.whole).2
  rw [chars, List.countP_append, List.countP_append, hwhole]
  omega

theorem Numeral.WellFormed.length_digits_le {n : Numeral} {i : Int} (hn : n.WellFormed)
    (h : n.number = .ok (.int i)) : (digits i.natAbs).length ≤ maxDigits := by
  unfold Numeral.number at h
  split at h
  · obtain ⟨j, hread, hj⟩ := map_eq_ok_iff.mp h
    cases hj
    exact length_digits_le_of_readInt hn.whole hread
  · cases h

/-- The decimal form of an integer within the limit stands for the integer. -/
theorem Numeral.number_ofInt {i : Int} (h : (digits i.natAbs).length ≤ maxDigits) :
    (ofInt i).number = .ok (.int i) := by
  have hread : readInt (ofInt i).negative (digits i.natAbs) = .ok i := by
    rw [readInt, if_neg (Nat.not_lt.mpr h), ofDigits_digits]
    by_cases hi : i < 0
    · simp only [negative, ofInt, if_pos hi, beq_self_eq_true, if_true]
      congr 1
      omega
    · simp only [negative, ofInt, if_neg hi]
      congr 1
      simp
      omega
  show (readInt (ofInt i).negative (digits i.natAbs)).map Number.int = _
  rw [hread]
  rfl

end MessagePattern.Decimal
