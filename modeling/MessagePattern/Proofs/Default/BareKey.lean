import Mathlib.Data.List.TakeWhile
import MessagePattern.Default
import MessagePattern.Proofs.Json.Strings

/-!
# Quotes around bare keys

The repair of a malformed default puts quotes around what looks like a bare key. A bare key is
found exactly where blanks, a name, blanks and a colon stand (`BareKey.find?_eq_some_iff`). The
repair works on either side of a quote apart (`quoteBareKeys_append_quote`), so what it does to a
string is a matter of the string alone: nothing, unless the string itself holds a bare key behind
a brace or a comma (`quoteBareKeys_escaped`).
-/

namespace MessagePattern.Default

open Json (escapeChar escapeParts escapedAs_escapeChar mem_escapeChar stringChars)

/-! ## Characters -/

/-- A brace or a comma, behind which bare keys are looked for. -/
def isOpener (c : Char) : Bool :=
  c = '\x7b' || c = ','

theorem toNat_of_isKeyStart {c : Char} (h : isKeyStart c = true) :
    65 ≤ c.toNat ∧ c.toNat ≤ 90 ∨ c.toNat = 95 ∨ 97 ≤ c.toNat ∧ c.toNat ≤ 122 := by
  rcases Bool.or_eq_true_iff.mp h with hletter | hunderscore
  · rcases Bool.or_eq_true_iff.mp hletter with hupper | hlower
    · obtain ⟨hlow, hhigh⟩ : 'A'.val ≤ c.val ∧ c.val ≤ 'Z'.val := of_decide_eq_true hupper
      exact Or.inl ⟨UInt32.le_iff_toNat_le.mp hlow, UInt32.le_iff_toNat_le.mp hhigh⟩
    · obtain ⟨hlow, hhigh⟩ := Bool.and_eq_true_iff.mp hlower
      have hlow : 'a'.val ≤ c.val := of_decide_eq_true hlow
      have hhigh : c.val ≤ 'z'.val := of_decide_eq_true hhigh
      exact Or.inr (Or.inr ⟨UInt32.le_iff_toNat_le.mp hlow, UInt32.le_iff_toNat_le.mp hhigh⟩)
  · rw [of_decide_eq_true hunderscore]
    exact Or.inr (Or.inl rfl)

/-- A name starts with a letter or an underscore, and goes on with digits too. -/
theorem isKeyPart_iff {c : Char} :
    isKeyPart c = true ↔ isKeyStart c = true ∨ c.isDigit = true := by
  rw [isKeyPart, Char.isAlphanum, isKeyStart, Bool.or_right_comm, Bool.or_eq_true_iff]

theorem toNat_of_isKeyPart {c : Char} (h : isKeyPart c = true) :
    48 ≤ c.toNat ∧ c.toNat ≤ 57 ∨ 65 ≤ c.toNat ∧ c.toNat ≤ 90 ∨ c.toNat = 95 ∨
      97 ≤ c.toNat ∧ c.toNat ≤ 122 := by
  rcases isKeyPart_iff.mp h with hstart | hdigit
  · exact Or.inr (toNat_of_isKeyStart hstart)
  · exact Or.inl (Char.isDigit_iff_toNat.mp hdigit)

/-- The characters of a name are no blanks. -/
theorem isBlank_of_isKeyPart {c : Char} (h : isKeyPart c = true) : Text.isBlank c = false := by
  have hc := toNat_of_isKeyPart h
  exact Text.isBlank_of_visible (by omega) (by omega)

/-! ## Finding a bare key -/

/-- Whether a text is a name, which a key may be written as without quotes. -/
def isBareKey : List Char → Bool
  | [] => false
  | c :: cs => isKeyStart c && cs.all isKeyPart

theorem isKeyPart_of_isBareKey {key : List Char} (h : isBareKey key = true) :
    ∀ c ∈ key, isKeyPart c = true := by
  cases key with
  | nil => cases h
  | cons c cs =>
      simp only [isBareKey, Bool.and_eq_true, List.all_eq_true] at h
      exact List.forall_mem_cons.mpr ⟨isKeyPart_iff.mpr (Or.inl h.1), h.2⟩

/-- A bare key stands at the start of a text, with its parts as they are recorded. -/
structure BareKey.At (b : BareKey) (cs : List Char) : Prop where
  text : cs = b.lead ++ (b.key ++ (b.gap ++ ':' :: b.rest))
  lead : ∀ c ∈ b.lead, Text.isBlank c = true
  key : isBareKey b.key = true
  gap : ∀ c ∈ b.gap, Text.isBlank c = true

theorem span_append_cons {p : Char → Bool} {cs : List Char} (h : ∀ c ∈ cs, p c = true) {d : Char}
    (hd : p d = false) (rest : List Char) :
    (cs ++ d :: rest).takeWhile p = cs ∧ (cs ++ d :: rest).dropWhile p = d :: rest := by
  have hd := Bool.eq_false_iff.mp hd
  rw [List.takeWhile_append_of_pos h, List.dropWhile_append_of_pos h,
    List.takeWhile_cons_of_neg hd, List.dropWhile_cons_of_neg hd, List.append_nil]
  exact ⟨rfl, rfl⟩

/-- The name ends where the blanks behind it or the colon start. -/
theorem span_isKeyPart {key gap : List Char} (hkey : isBareKey key = true)
    (hgap : ∀ c ∈ gap, Text.isBlank c = true) (rest : List Char) :
    (key ++ (gap ++ ':' :: rest)).takeWhile isKeyPart = key ∧
      (key ++ (gap ++ ':' :: rest)).dropWhile isKeyPart = gap ++ ':' :: rest := by
  have hkey := isKeyPart_of_isBareKey hkey
  cases gap with
  | nil => exact span_append_cons hkey rfl rest
  | cons d gap =>
      refine span_append_cons hkey ?_ (gap ++ ':' :: rest)
      rw [Bool.eq_false_iff]
      intro hd
      have hblank := hgap d List.mem_cons_self
      rw [isBlank_of_isKeyPart hd] at hblank
      cases hblank

theorem BareKey.find?_eq_some_iff {cs : List Char} {b : BareKey} :
    find? cs = some b ↔ b.At cs := by
  constructor
  · intro h
    unfold find? at h
    simp only at h
    split at h
    · rename_i c key rest hkey hrest
      split at h
      · rename_i hstart
        cases h
        refine ⟨?_, fun _ => List.mem_takeWhile_imp, ?_, fun _ => List.mem_takeWhile_imp⟩
        · simp only
          rw [← hrest, List.takeWhile_append_dropWhile, List.takeWhile_append_dropWhile,
            List.takeWhile_append_dropWhile]
        · simp only [hkey, isBareKey, hstart, Bool.true_and, List.all_eq_true]
          intro d hd
          refine List.mem_takeWhile_imp (l := cs.dropWhile Text.isBlank) ?_
          rw [hkey]
          exact List.mem_cons_of_mem c hd
      · cases h
    · cases h
  · rintro ⟨htext, hlead, hkey, hgap⟩
    obtain ⟨lead, key, gap, rest⟩ := b
    simp only at htext hlead hkey hgap
    subst htext
    cases key with
    | nil => cases hkey
    | cons c key =>
        have hc := isKeyPart_of_isBareKey hkey c List.mem_cons_self
        obtain ⟨hlead, hbody⟩ := span_append_cons hlead (isBlank_of_isKeyPart hc)
          (key ++ (gap ++ ':' :: rest))
        obtain ⟨hname, hbehind⟩ := span_isKeyPart hkey hgap rest
        obtain ⟨hgap, hrest⟩ := span_append_cons hgap (d := ':') rfl rest
        have hstart : isKeyStart c = true := (Bool.and_eq_true_iff.mp hkey).1
        rw [List.cons_append] at hname hbehind ⊢
        simp only [find?, hlead, hbody, hname, hbehind, hgap, hrest, hstart, if_true]

/-- Nothing is found where neither a blank nor a name starts behind the blanks. -/
theorem BareKey.find?_eq_none {gap : List Char} (hgap : ∀ c ∈ gap, Text.isBlank c = true) {c : Char}
    (hblank : Text.isBlank c = false) (hstart : isKeyStart c = false) (cs : List Char) :
    find? (gap ++ c :: cs) = none := by
  obtain ⟨_, hbody⟩ := span_append_cons hgap hblank cs
  unfold find?
  simp only [hbody]
  split
  · rename_i d key rest hname _
    rw [List.takeWhile_cons] at hname
    split at hname
    · obtain ⟨rfl, _⟩ := List.cons.inj hname
      rw [hstart]
      rfl
    · cases hname
  · rfl

/-! ## Where quotes are put -/

theorem quoteBareKeys_cons {c : Char} {cs : List Char}
    (h : isOpener c = true → BareKey.find? cs = none) :
    quoteBareKeys (c :: cs) = c :: quoteBareKeys cs := by
  rw [quoteBareKeys]
  split
  · rename_i hc
    split
    · rename_i b hfind
      rw [h hc] at hfind
      cases hfind
    · rfl
  · rfl

theorem quoteBareKeys_skip {c : Char} (h : isOpener c = false) (cs : List Char) :
    quoteBareKeys (c :: cs) = c :: quoteBareKeys cs :=
  quoteBareKeys_cons fun hc => absurd (h.symm.trans hc) Bool.false_ne_true

theorem quoteBareKeys_at {c : Char} {cs : List Char} {b : BareKey} (hc : isOpener c = true)
    (h : b.At cs) : quoteBareKeys (c :: cs) =
      c :: (b.lead ++ '"' :: (b.key ++ '"' :: (b.gap ++ ':' :: quoteBareKeys b.rest))) := by
  have hfind := BareKey.find?_eq_some_iff.mpr h
  rw [quoteBareKeys]
  split
  · split
    · rename_i b' hfind'
      obtain rfl := Option.some.inj (hfind.symm.trans hfind')
      rfl
    · rename_i hnone
      rw [hfind] at hnone
      cases hnone
  · rename_i hopener
    exact absurd hc hopener

/-- Quotes are put only behind braces and commas. -/
theorem quoteBareKeys_append {cs : List Char} (h : ∀ c ∈ cs, isOpener c = false)
    (rest : List Char) : quoteBareKeys (cs ++ rest) = cs ++ quoteBareKeys rest := by
  induction cs with
  | nil => rfl
  | cons c cs ih =>
      obtain ⟨hc, hcs⟩ := List.forall_mem_cons.mp h
      rw [List.cons_append, quoteBareKeys_skip hc, ih hcs, List.cons_append]

theorem BareKey.At.append {b : BareKey} {cs : List Char} (h : b.At cs) (rest : List Char) :
    BareKey.At { b with rest := b.rest ++ rest } (cs ++ rest) where
  text := by
    rw [h.text]
    simp
  lead := h.lead
  key := h.key
  gap := h.gap

/-- A bare key in front of a quote ends in front of it, as no part of it is a quote. -/
theorem BareKey.At.of_append_quote {b : BareKey} {cs rest : List Char}
    (h : b.At (cs ++ '"' :: rest)) : ∃ b' : BareKey, b'.At cs := by
  have hquote : '"' ∉ b.lead ++ (b.key ++ (b.gap ++ [':'])) := by
    simp only [List.mem_append, List.mem_singleton]
    rintro (hc | hc | hc | hc)
    · cases h.lead _ hc
    · cases isKeyPart_of_isBareKey h.key _ hc
    · cases h.gap _ hc
    · cases hc
  have htext : cs ++ '"' :: rest = (b.lead ++ (b.key ++ (b.gap ++ [':']))) ++ b.rest := by
    rw [h.text]
    simp
  rcases List.append_eq_append_iff.mp htext with ⟨front, hfront, hrest⟩ | ⟨behind, hcs, _⟩
  · cases front with
    | nil =>
        rw [List.append_nil] at hfront
        refine ⟨{ b with rest := [] }, ?_, h.lead, h.key, h.gap⟩
        exact hfront.symm
    | cons c front =>
        obtain ⟨rfl, _⟩ := List.cons.inj hrest
        refine absurd ?_ hquote
        rw [hfront]
        exact List.mem_append_right cs List.mem_cons_self
  · refine ⟨{ b with rest := behind }, ?_, h.lead, h.key, h.gap⟩
    rw [hcs]
    simp

/-- What stands in front of a quote and what stands behind it have nothing to do with each other. -/
theorem quoteBareKeys_append_quote (cs rest : List Char) :
    quoteBareKeys (cs ++ '"' :: rest) = quoteBareKeys cs ++ '"' :: quoteBareKeys rest := by
  have hlast : quoteBareKeys ('"' :: rest) = '"' :: quoteBareKeys rest :=
    quoteBareKeys_skip rfl rest
  induction cs using quoteBareKeys.induct with
  | case1 => rw [quoteBareKeys, List.nil_append, List.nil_append, hlast]
  | case2 c cs hc b hfind _ ih =>
      have hb := BareKey.find?_eq_some_iff.mp hfind
      rw [List.cons_append, quoteBareKeys_at hc (hb.append _), quoteBareKeys_at hc hb]
      simp [ih]
  | case3 c cs hc hfind ih =>
      -- What would be found across the quote would be found in front of it.
      have hnone : BareKey.find? (cs ++ '"' :: rest) = none := by
        rw [Option.eq_none_iff_forall_ne_some]
        intro b hb
        obtain ⟨b', hb'⟩ := (BareKey.find?_eq_some_iff.mp hb).of_append_quote
        rw [BareKey.find?_eq_some_iff.mpr hb'] at hfind
        cases hfind
      rw [List.cons_append, quoteBareKeys_cons fun _ => hnone, quoteBareKeys_cons fun _ => hfind, ih,
        List.cons_append]
  | case4 c cs hc ih =>
      have hc := Bool.eq_false_iff.mpr hc
      rw [List.cons_append, quoteBareKeys_skip hc, quoteBareKeys_skip hc, ih, List.cons_append]

/-! ## Escaped strings -/

/-- A character that is written as it is does not start an escape. -/
theorem exists_of_flatMap_escapeChar {front s rest : List Char}
    (hfront : ∀ c ∈ front, escapeChar c = [c]) (h : s.flatMap escapeChar = front ++ rest) :
    ∃ back, s = front ++ back ∧ back.flatMap escapeChar = rest := by
  induction front generalizing s with
  | nil => exact ⟨s, rfl, h⟩
  | cons c front ih =>
      obtain ⟨hc, hbehind⟩ := List.forall_mem_cons.mp hfront
      cases s with
      | nil => cases h
      | cons d s =>
          rw [List.flatMap_cons, List.cons_append] at h
          have hbackslash : '\\' ≠ c := by
            rintro rfl
            revert hc
            decide
          obtain rfl : d = c := by
            have hescaped := escapedAs_escapeChar d
            generalize escapeChar d = escape at h hescaped
            cases hescaped with
            | plain _ _ _ _ => exact (List.cons.inj h).1
            | short _ => exact absurd (List.cons.inj h).1 hbackslash
            | unit _ => exact absurd (List.cons.inj h).1 hbackslash
            | pair _ => exact absurd (List.cons.inj h).1 hbackslash
          rw [hc] at h
          obtain ⟨back, rfl, hback⟩ := ih hbehind (List.cons.inj h).2
          exact ⟨back, rfl, hback⟩

/-- All blanks but spaces are escaped. -/
theorem eq_space_of_isBlank {s : List Char} {c : Char} (hc : c ∈ s.flatMap escapeChar)
    (h : Text.isBlank c = true) : c = ' ' := by
  have hrange : 0x20 ≤ c.toNat ∧ c.toNat ≤ 0x7E := by
    obtain ⟨d, _, hd⟩ := List.mem_flatMap.mp hc
    rcases mem_escapeChar hd with hpart | ⟨rfl, hrange⟩
    · have hall : escapeParts.all (fun c => 0x20 ≤ c.toNat && c.toNat ≤ 0x7E) = true := rfl
      simpa using List.all_eq_true.mp hall c hpart
    · exact hrange
  have hspace : c.toNat ≤ 0x20 := by
    apply Nat.le_of_not_lt
    intro hlow
    rw [Text.isBlank_of_visible hlow hrange.2] at h
    cases h
  exact Char.toNat_inj.mp (Nat.le_antisymm hspace hrange.1)

/-- An escape opens no key. -/
theorem eq_of_isOpener {c d : Char} (hc : isOpener c = true) (h : c ∈ escapeChar d) : c = d := by
  rcases mem_escapeChar h with hpart | ⟨rfl, _⟩
  · have hall : escapeParts.any isOpener = false := rfl
    exact absurd hc (List.any_eq_false.mp hall c hpart)
  · rfl

theorem escapeChar_of_isKeyPart {c : Char} (h : isKeyPart c = true) : escapeChar c = [c] := by
  have hrange : 0x20 ≤ c.toNat ∧ c.toNat ≤ 0x7E := by
    have hc := toNat_of_isKeyPart h
    omega
  have hne : ∀ d, isKeyPart d = false → c ≠ d := by
    rintro d hd rfl
    rw [h] at hd
    cases hd
  simp [escapeChar, hrange, hne '"' rfl, hne '\\' rfl, hne '\n' rfl, hne '\r' rfl, hne '\t' rfl,
    hne '\x0c' rfl, hne '\x08' rfl]

theorem flatMap_escapeChar_eq_self {cs : List Char} (h : ∀ c ∈ cs, escapeChar c = [c]) :
    cs.flatMap escapeChar = cs := by
  induction cs with
  | nil => rfl
  | cons c cs ih =>
      obtain ⟨hc, hcs⟩ := List.forall_mem_cons.mp h
      rw [List.flatMap_cons, hc, ih hcs]
      rfl

/-! ## Bare keys in strings -/

/-- A text starts with a name and a colon, with spaces in front of each. -/
inductive OpensBareKey : List Char → Prop
  | mk (n m : Nat) {key : List Char} (hkey : isBareKey key = true) (rest : List Char) :
      OpensBareKey (List.replicate n ' ' ++ (key ++ (List.replicate m ' ' ++ ':' :: rest)))

/-- Somewhere in a text a name and a colon follow a brace or a comma, as where a key without quotes
stands. -/
inductive HoldsBareKey : List Char → Prop
  | here {c : Char} {cs : List Char} (hc : isOpener c = true) (h : OpensBareKey cs) :
      HoldsBareKey (c :: cs)
  | later (c : Char) {cs : List Char} (h : HoldsBareKey cs) : HoldsBareKey (c :: cs)

theorem holdsBareKey_cons {c : Char} {cs : List Char} :
    HoldsBareKey (c :: cs) ↔ isOpener c = true ∧ OpensBareKey cs ∨ HoldsBareKey cs := by
  constructor
  · intro h
    cases h with
    | here hc h => exact Or.inl ⟨hc, h⟩
    | later _ h => exact Or.inr h
  · rintro (⟨hc, h⟩ | h)
    · exact .here hc h
    · exact .later c h

theorem escapeChar_of_mem_spaces {n : Nat} {c : Char} (h : c ∈ List.replicate n ' ') :
    escapeChar c = [c] := by
  rw [List.eq_of_mem_replicate h]
  rfl

theorem HoldsBareKey.colon_mem {cs : List Char} (h : HoldsBareKey cs) : ':' ∈ cs := by
  induction h with
  | here _ hopens =>
      obtain ⟨n, m, _, rest⟩ := hopens
      simp
  | later c _ ih => exact List.mem_cons_of_mem c ih

/-- What a string opens with, its escaped form opens with too. -/
theorem at_escaped (n m : Nat) {key : List Char} (hkey : isBareKey key = true) (rest : List Char) :
    BareKey.At ⟨List.replicate n ' ', key, List.replicate m ' ', rest.flatMap escapeChar⟩
      ((List.replicate n ' ' ++ (key ++ (List.replicate m ' ' ++ ':' :: rest))).flatMap
        escapeChar) where
  text := by
    have hname := flatMap_escapeChar_eq_self fun c hc =>
      escapeChar_of_isKeyPart (isKeyPart_of_isBareKey hkey c hc)
    simp only [List.flatMap_append, List.flatMap_cons, hname,
      flatMap_escapeChar_eq_self fun _ => escapeChar_of_mem_spaces]
    rfl
  lead := by
    intro c hc
    rw [List.eq_of_mem_replicate hc]
    rfl
  key := hkey
  gap := by
    intro c hc
    rw [List.eq_of_mem_replicate hc]
    rfl

/-- No other bare key is found in an escaped string: all blanks but spaces are escaped. -/
theorem opensBareKey_of_at {s : List Char} {b : BareKey} (h : b.At (s.flatMap escapeChar)) :
    OpensBareKey s := by
  obtain ⟨htext, hlead, hkey, hgap⟩ := h
  have hspace : ∀ c ∈ b.lead ++ (b.key ++ (b.gap ++ ':' :: b.rest)), Text.isBlank c = true →
      c = ' ' := by
    rw [← htext]
    exact fun c => eq_space_of_isBlank
  obtain ⟨hleading, hspace⟩ := List.forall_mem_append.mp hspace
  obtain ⟨hpadding, _⟩ := List.forall_mem_append.mp (List.forall_mem_append.mp hspace).2
  have hlead := List.eq_replicate_of_mem fun c hc => hleading c hc (hlead c hc)
  have hgap := List.eq_replicate_of_mem fun c hc => hpadding c hc (hgap c hc)
  have hfront : ∀ c ∈ b.lead ++ (b.key ++ (b.gap ++ [':'])), escapeChar c = [c] := by
    rw [hlead, hgap]
    simp only [List.forall_mem_append]
    refine ⟨fun _ => escapeChar_of_mem_spaces, fun c hc => ?_, fun _ => escapeChar_of_mem_spaces,
      List.forall_mem_singleton.mpr rfl⟩
    exact escapeChar_of_isKeyPart (isKeyPart_of_isBareKey hkey c hc)
  have htext : s.flatMap escapeChar = (b.lead ++ (b.key ++ (b.gap ++ [':']))) ++ b.rest := by
    rw [htext]
    simp
  obtain ⟨back, rfl, _⟩ := exists_of_flatMap_escapeChar hfront htext
  rw [hlead, hgap]
  simpa using OpensBareKey.mk b.lead.length b.gap.length hkey back

theorem escapeChar_of_isOpener {c : Char} (h : isOpener c = true) : escapeChar c = [c] := by
  simp only [isOpener, Bool.or_eq_true, decide_eq_true_eq] at h
  rcases h with rfl | rfl <;> rfl

theorem quoteBareKeys_escapeChar {d : Char} {s : List Char}
    (h : ¬ (isOpener d = true ∧ OpensBareKey s)) :
    quoteBareKeys (escapeChar d ++ s.flatMap escapeChar) =
      escapeChar d ++ quoteBareKeys (s.flatMap escapeChar) := by
  by_cases hd : isOpener d = true
  · have hnone : BareKey.find? (s.flatMap escapeChar) = none := by
      rw [Option.eq_none_iff_forall_ne_some]
      exact fun b hb => h ⟨hd, opensBareKey_of_at (BareKey.find?_eq_some_iff.mp hb)⟩
    rw [escapeChar_of_isOpener hd, List.singleton_append, quoteBareKeys_cons fun _ => hnone,
      List.singleton_append]
  · refine quoteBareKeys_append (fun c hc => Bool.eq_false_iff.mpr fun hopener => hd ?_) _
    rwa [← eq_of_isOpener hopener hc]

/-- A string is left as it is, unless it holds a bare key. Then a quote that is not escaped stands
in front of the first one. -/
theorem quoteBareKeys_escaped (s : List Char) :
    ¬ HoldsBareKey s ∧ quoteBareKeys (s.flatMap escapeChar) = s.flatMap escapeChar ∨
    HoldsBareKey s ∧ ∃ (cs : List Char) (c : Char) (more : List Char), isKeyStart c = true ∧
      quoteBareKeys (s.flatMap escapeChar) = cs.flatMap escapeChar ++ '"' :: c :: more := by
  induction s with
  | nil =>
      refine Or.inl ⟨nofun, ?_⟩
      rw [List.flatMap_nil, quoteBareKeys]
  | cons d s ih =>
      rw [List.flatMap_cons, holdsBareKey_cons]
      by_cases hhere : isOpener d = true ∧ OpensBareKey s
      · refine Or.inr ⟨Or.inl hhere, ?_⟩
        obtain ⟨hd, @⟨n, m, key, hkey, rest⟩⟩ := hhere
        cases key with
        | nil => cases hkey
        | cons c key =>
            have hstart : isKeyStart c = true := (Bool.and_eq_true_iff.mp hkey).1
            refine ⟨d :: List.replicate n ' ', c, key ++ '"' :: (List.replicate m ' ' ++
              ':' :: quoteBareKeys (rest.flatMap escapeChar)), hstart, ?_⟩
            rw [escapeChar_of_isOpener hd, List.singleton_append,
              quoteBareKeys_at hd (at_escaped n m hkey rest), List.flatMap_cons,
              escapeChar_of_isOpener hd, flatMap_escapeChar_eq_self fun _ => escapeChar_of_mem_spaces]
            rfl
      · rw [quoteBareKeys_escapeChar hhere]
        rcases ih with ⟨hnot, hsame⟩ | ⟨hholds, cs, c, more, hc, hcut⟩
        · exact Or.inl ⟨not_or.mpr ⟨hhere, hnot⟩, by rw [hsame]⟩
        · refine Or.inr ⟨Or.inr hholds, d :: cs, c, more, hc, ?_⟩
          rw [hcut, List.flatMap_cons, List.append_assoc]

/-- A string as the repair leaves it. -/
def requoted (cs : List Char) : List Char :=
  '"' :: (quoteBareKeys (cs.flatMap escapeChar) ++ ['"'])

theorem quoteBareKeys_stringChars (cs rest : List Char) :
    quoteBareKeys (stringChars cs ++ rest) = requoted cs ++ quoteBareKeys rest := by
  have hfirst : ∀ text, quoteBareKeys ('"' :: text) = '"' :: quoteBareKeys text :=
    fun text => quoteBareKeys_skip rfl text
  rw [Json.stringChars_append, hfirst, quoteBareKeys_append_quote, requoted]
  simp

theorem requoted_of_isBareKey {key : List Char} (h : isBareKey key = true) :
    requoted key = '"' :: (key ++ ['"']) := by
  have hparts := isKeyPart_of_isBareKey h
  have hopener : ∀ c ∈ key, isOpener c = false := by
    intro c hc
    rw [Bool.eq_false_iff]
    intro hopener
    simp only [isOpener, Bool.or_eq_true, decide_eq_true_eq] at hopener
    rcases hopener with rfl | rfl <;> cases hparts _ hc
  have hkeep := quoteBareKeys_append hopener []
  rw [List.append_nil, quoteBareKeys, List.append_nil] at hkeep
  rw [requoted, flatMap_escapeChar_eq_self fun c hc => escapeChar_of_isKeyPart (hparts c hc), hkeep]

end MessagePattern.Default
