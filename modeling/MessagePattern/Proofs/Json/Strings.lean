import MessagePattern.Json.Parser
import MessagePattern.Json.Printer
import MessagePattern.Proofs.Answer

/-!
# Strings in JSON

A character is written by its UTF-16 units, each of them a character or an escape, and the
reader takes the same units back (`readUnits_escapeChar`). Their characters are those that
were written (`charsOfUnits_append`), so a string is read as it was written, whatever follows
(`readString_string`).
-/

namespace MessagePattern

/-! ## Hexadecimal digits -/

namespace Text

theorem hexValue?_hexDigit {d : Nat} (h : d < 16) : hexValue? (hexDigit d) = some d := by
  have hall : ∀ d, d < 16 → hexValue? (hexDigit d) = some d := by decide
  exact hall d h

/-- A number that fits in four digits is read off them. -/
theorem hexNumber?_hexPadded {n : Nat} (h : n < 0x10000) :
    hexNumber? 0 (hexPadded 4 n) = some n := by
  have hdigits : hexPadded 4 n = [hexDigit (n / 16 / 16 / 16 % 16), hexDigit (n / 16 / 16 % 16),
      hexDigit (n / 16 % 16), hexDigit (n % 16)] := rfl
  simp only [hdigits, hexNumber?, hexValue?_hexDigit (Nat.mod_lt _ (Nat.zero_lt_succ 15)),
    Option.bind_some]
  congr 1
  omega

end Text

namespace Json

/-! ## Units -/

/-- The UTF-16 units of a character. -/
def unitsOf (c : Char) : List Nat :=
  if c.toNat < 0x10000 then [c.toNat]
  else [0xD800 + (c.toNat - 0x10000) / 0x400, 0xDC00 + (c.toNat - 0x10000) % 0x400]

theorem toNat_valid (c : Char) : c.toNat < 0xD800 ∨ 0xDFFF < c.toNat ∧ c.toNat < 0x110000 :=
  c.valid

/-- The units of a character are taken as the character, whatever follows. -/
theorem charsOfUnits_append (c : Char) (units : List Nat) :
    charsOfUnits (unitsOf c ++ units) = c :: charsOfUnits units := by
  have hvalid := toNat_valid c
  unfold unitsOf
  split
  · have hhigh : isHighSurrogate c.toNat = false := by
      simp [isHighSurrogate]
      omega
    have hlow : isLowSurrogate c.toNat = false := by
      simp [isLowSurrogate]
      omega
    have hchar : unitChar c.toNat = c := by
      simp [unitChar, hhigh, hlow]
    cases units with
    | nil => simp [charsOfUnits, hchar]
    | cons m rest => simp [charsOfUnits, hhigh, hchar]
  · have hhigh : isHighSurrogate (0xD800 + (c.toNat - 0x10000) / 0x400) = true := by
      simp [isHighSurrogate]
      omega
    have hlow : isLowSurrogate (0xDC00 + (c.toNat - 0x10000) % 0x400) = true := by
      simp [isLowSurrogate]
      omega
    have hjoin : joinSurrogates (0xD800 + (c.toNat - 0x10000) / 0x400)
        (0xDC00 + (c.toNat - 0x10000) % 0x400) = c.toNat := by
      unfold joinSurrogates
      omega
    simp [charsOfUnits, hhigh, hlow, hjoin]

/-! ## Escapes -/

/-- Units in front of those that are read. -/
def prependUnits (units : List Nat) (read : Except Stop (List Nat × List Char)) :
    Except Stop (List Nat × List Char) :=
  read.map fun (more, rest) => (units ++ more, rest)

theorem consUnit_eq (n : Nat) (read : Except Stop (List Nat × List Char)) :
    consUnit n read = prependUnits [n] read := rfl

/-- The escape of a unit is read as the unit, if something follows; the closing quote always
does. -/
theorem readUnits_unitEscape {n : Nat} (h : n < 0x10000) (start : List Char) (d : Char)
    (more : List Char) :
    readUnits start (unitEscape n ++ d :: more) =
      prependUnits [n] (readUnits start (d :: more)) := by
  have hdigits := Text.hexNumber?_hexPadded h
  have hlength := Text.length_hexPadded 4 n
  unfold unitEscape
  match hpadded : Text.hexPadded 4 n, hlength with
  | [a, b, c, e], _ =>
      rw [hpadded] at hdigits
      simp only [List.cons_append, List.nil_append, readUnits, hdigits]
      rfl

theorem readUnits_plain {c : Char} (hquote : c ≠ '"') (hbackslash : c ≠ '\\')
    (hcontrol : 0x20 ≤ c.toNat) (start more : List Char) :
    readUnits start (c :: more) = prependUnits [c.toNat] (readUnits start more) := by
  rw [readUnits]
  · rw [if_neg (Nat.not_lt.mpr hcontrol), consUnit_eq]
  · exact fun h => hquote h
  · exact fun h _ => hbackslash h
  · exact fun _ _ _ _ _ _ h _ => hbackslash h
  · exact fun _ h _ => hbackslash h
  · exact fun _ _ h _ => hbackslash h

theorem prependUnits_prependUnits (units units' : List Nat)
    (read : Except Stop (List Nat × List Char)) :
    prependUnits units (prependUnits units' read) = prependUnits (units ++ units') read := by
  cases read with
  | error stop => rfl
  | ok found => simp [prependUnits, Except.map]

/-- The ways in which a character is written. -/
inductive EscapedAs (c : Char) : List Char → Prop
  | short {letter : Char} (hletter : shortEscape? letter = some c) : EscapedAs c ['\\', letter]
  | plain (hquote : c ≠ '"') (hbackslash : c ≠ '\\') (hlow : 0x20 ≤ c.toNat)
      (hhigh : c.toNat ≤ 0x7E) : EscapedAs c [c]
  | unit (hunit : c.toNat < 0x10000) : EscapedAs c (unitEscape c.toNat)
  | pair (hpair : 0x10000 ≤ c.toNat) :
      EscapedAs c (unitEscape (0xD800 + (c.toNat - 0x10000) / 0x400) ++
        unitEscape (0xDC00 + (c.toNat - 0x10000) % 0x400))

theorem escapedAs_escapeChar (c : Char) : EscapedAs c (escapeChar c) := by
  unfold escapeChar
  split
  · rename_i h
    rcases h with rfl | rfl
    · exact .short rfl
    · exact .short rfl
  rename_i hplain
  obtain ⟨hquote, hbackslash⟩ := not_or.mp hplain
  split
  · rename_i h
    exact .short (h ▸ rfl)
  split
  · rename_i h
    exact .short (h ▸ rfl)
  split
  · rename_i h
    exact .short (h ▸ rfl)
  split
  · rename_i h
    exact .short (h ▸ rfl)
  split
  · rename_i h
    exact .short (h ▸ rfl)
  split
  · rename_i hrange
    exact .plain hquote hbackslash hrange.1 hrange.2
  split
  · rename_i hunit
    exact .unit hunit
  · rename_i hpair
    exact .pair (Nat.le_of_not_lt hpair)

/-- The characters that escapes are made of. -/
def escapeParts : List Char :=
  ['\\', '"', '/', 'b', 'f', 'n', 'r', 't', 'u', '0', '1', '2', '3', '4', '5', '6', '7', '8', '9',
    'a', 'c', 'd', 'e']

theorem mem_unitEscape {n : Nat} {c : Char} (h : c ∈ unitEscape n) : c ∈ escapeParts := by
  have hdigit : ∀ d < 16, Text.hexDigit d ∈ escapeParts := by decide
  have hpadded : ∀ width n, ∀ c ∈ Text.hexPadded width n, c ∈ escapeParts := by
    intro width
    induction width with
    | zero => exact fun _ => List.forall_mem_nil _
    | succ width ih =>
        intro n
        exact List.forall_mem_append.mpr
          ⟨ih (n / 16), List.forall_mem_singleton.mpr (hdigit _ (Nat.mod_lt n (by decide)))⟩
  rcases List.mem_cons.mp h with rfl | h
  · decide
  rcases List.mem_cons.mp h with rfl | h
  · decide
  · exact hpadded 4 n c h

/-- A character is written as itself, or by an escape. -/
theorem mem_escapeChar {c d : Char} (h : d ∈ escapeChar c) :
    d ∈ escapeParts ∨ d = c ∧ 0x20 ≤ c.toNat ∧ c.toNat ≤ 0x7E := by
  have hescaped := escapedAs_escapeChar c
  generalize escapeChar c = escape at h hescaped
  cases hescaped with
  | @short letter hletter =>
      left
      rcases List.mem_cons.mp h with rfl | h
      · decide
      · obtain rfl := List.mem_singleton.mp h
        unfold shortEscape? at hletter
        split at hletter <;> first | decide | cases hletter
  | plain _ _ hlow hhigh => exact Or.inr ⟨List.mem_singleton.mp h, hlow, hhigh⟩
  | unit _ => exact Or.inl (mem_unitEscape h)
  | pair _ => exact Or.inl ((List.mem_append.mp h).elim mem_unitEscape mem_unitEscape)

theorem unitsOf_of_lt {c : Char} (h : c.toNat < 0x10000) : unitsOf c = [c.toNat] :=
  if_pos h

/-- A letter behind a backslash stands for one unit. -/
theorem readUnits_short {letter c : Char} (h : shortEscape? letter = some c)
    (start more : List Char) :
    readUnits start ('\\' :: letter :: more) = prependUnits (unitsOf c) (readUnits start more) := by
  unfold shortEscape? at h
  split at h <;> cases h <;> rfl

/-- What is written for a character is read as its units. -/
theorem readUnits_escapeChar (c : Char) (start : List Char) (d : Char) (more : List Char) :
    readUnits start (escapeChar c ++ d :: more) =
      prependUnits (unitsOf c) (readUnits start (d :: more)) := by
  have hvalid := toNat_valid c
  have hescaped := escapedAs_escapeChar c
  generalize escapeChar c = escape at hescaped
  cases hescaped with
  | short hletter => exact readUnits_short hletter start (d :: more)
  | plain hquote hbackslash hlow hhigh =>
      rw [unitsOf_of_lt (by omega)]
      exact readUnits_plain hquote hbackslash hlow start (d :: more)
  | unit hunit =>
      rw [unitsOf_of_lt hunit]
      exact readUnits_unitEscape hunit start d more
  | pair hpair =>
      have hunits : unitsOf c = [0xD800 + (c.toNat - 0x10000) / 0x400] ++
          [0xDC00 + (c.toNat - 0x10000) % 0x400] := if_neg (Nat.not_lt.mpr hpair)
      -- The second escape follows the first, and the closing quote the second.
      obtain ⟨e, escape, hescape⟩ : ∃ e escape,
          unitEscape (0xDC00 + (c.toNat - 0x10000) % 0x400) = e :: escape := ⟨_, _, rfl⟩
      rw [List.append_assoc, hunits, ← prependUnits_prependUnits, hescape, List.cons_append,
        readUnits_unitEscape (by omega), ← List.cons_append, ← hescape,
        readUnits_unitEscape (by omega)]

/-! ## Strings -/

theorem stringChars_append (cs rest : List Char) :
    stringChars cs ++ rest = '"' :: (cs.flatMap escapeChar ++ '"' :: rest) := by
  simp [stringChars]

theorem readUnits_string (start cs rest : List Char) :
    readUnits start (cs.flatMap escapeChar ++ '"' :: rest) = .ok (cs.flatMap unitsOf, rest) := by
  induction cs with
  | nil => rfl
  | cons c cs ih =>
      rw [List.flatMap_cons, List.append_assoc]
      -- Whatever the string goes on with, at least its closing quote follows.
      obtain ⟨d, more, hmore⟩ : ∃ d more, cs.flatMap escapeChar ++ '"' :: rest = d :: more :=
        List.exists_cons_of_ne_nil (List.append_ne_nil_of_right_ne_nil _ (List.cons_ne_nil _ _))
      rw [hmore, readUnits_escapeChar, ← hmore, ih]
      rfl

theorem charsOfUnits_flatMap (cs : List Char) : charsOfUnits (cs.flatMap unitsOf) = cs := by
  induction cs with
  | nil => rfl
  | cons c cs ih => rw [List.flatMap_cons, charsOfUnits_append, ih]

/-- A string is read behind its opening quote as it was written. -/
theorem readString_string (start cs rest : List Char) :
    readString start (cs.flatMap escapeChar ++ '"' :: rest) = .ok (cs, rest) := by
  rw [readString, readUnits_string]
  show Except.ok (charsOfUnits (cs.flatMap unitsOf), rest) = _
  rw [charsOfUnits_flatMap]

end Json

end MessagePattern
