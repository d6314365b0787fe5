import MessagePattern.Proofs.Decimal.Numeral
import MessagePattern.Proofs.Json.KeyOrder
import MessagePattern.Proofs.Json.Strings

/-!
# What is written is read again

The text of a value without floats is read as that value, whatever follows it, on one line
or spread over several (`readsBack`); where keys are written in order, the value that is
read has them in that order. The lemmas go from the leaves to the lists of items and
entries, each of which is read if all in it are, and from there by induction on the value.
-/

namespace MessagePattern.Json

/-! ## Spaces -/

theorem skipSpace_append {gap : List Char} (h : ∀ c ∈ gap, isSpace c = true) (cs : List Char) :
    skipSpace (gap ++ cs) = skipSpace cs :=
  List.dropWhile_append_of_pos h

theorem skipSpace_cons {c : Char} (h : isSpace c = false) (cs : List Char) :
    skipSpace (c :: cs) = c :: cs := by
  rw [skipSpace, List.dropWhile_cons_of_neg]
  simp [h]

theorem skipSpace_append_cons {gap : List Char} (h : ∀ c ∈ gap, isSpace c = true) {c : Char}
    (hc : isSpace c = false) (cs : List Char) : skipSpace (gap ++ c :: cs) = c :: cs := by
  rw [skipSpace_append h, skipSpace_cons hc]

theorem isSpace_lead (style : Style) (level : Nat) :
    ∀ c ∈ style.lead level, isSpace c = true := by
  unfold Style.lead
  split
  · exact List.forall_mem_nil _
  · intro c hc
    rcases List.mem_cons.mp hc with rfl | hc
    · rfl
    · rw [(List.mem_replicate.mp hc).2]
      rfl

/-- What stands between two items is a comma and some spaces. -/
theorem exists_between (style : Style) (level : Nat) :
    ∃ gap, style.between level = ',' :: gap ∧ ∀ c ∈ gap, isSpace c = true := by
  unfold Style.between
  split
  · exact ⟨[' '], rfl, by simp [isSpace]⟩
  · exact ⟨_, rfl, isSpace_lead style level⟩

/-! ## Numbers -/

/-- Nothing that a number could go on with stands at the front. -/
def EndsNumber (cs : List Char) : Prop :=
  ∀ c, cs.head? = some c → c.isDigit = false ∧ c ≠ '.' ∧ c ≠ 'e' ∧ c ≠ 'E'

theorem endsNumber_nil : EndsNumber [] := by
  intro c hc
  cases hc

theorem endsNumber_cons {c : Char} (h : c.isDigit = false ∧ c ≠ '.' ∧ c ≠ 'e' ∧ c ≠ 'E')
    (cs : List Char) : EndsNumber (c :: cs) := by
  intro d hd
  cases hd
  exact h

theorem endsNumber_space {c : Char} (h : isSpace c = true) (cs : List Char) :
    EndsNumber (c :: cs) := by
  simp only [isSpace, Bool.or_eq_true, decide_eq_true_eq] at h
  rcases h with ((rfl | rfl) | rfl) | rfl <;> exact endsNumber_cons (by decide) cs

theorem exists_digits (n : Nat) : ∃ d ds, Decimal.digits n = d :: ds ∧ d.isDigit = true := by
  obtain ⟨hne, hdigits⟩ := Decimal.isDigits_iff.mp (Decimal.isDigits_digits n)
  obtain ⟨d, ds, hds⟩ := List.exists_cons_of_ne_nil hne
  exact ⟨d, ds, hds, hdigits d (hds ▸ List.mem_cons_self)⟩

/-- Only zero starts with a zero. -/
theorem digits_eq_of_zero {n : Nat} {ds : List Char} (h : Decimal.digits n = '0' :: ds) :
    ds = [] := by
  cases ds with
  | nil => rfl
  | cons d ds =>
      -- The other digits would be a shorter form of the number.
      have hdigits := Decimal.isDigits_iff.mp (Decimal.isDigits_digits n)
      rw [h] at hdigits
      have hrest : Decimal.isDigits (d :: ds) = true :=
        Decimal.isDigits_iff.mpr ⟨List.cons_ne_nil d ds,
          fun c hc => hdigits.2 c (List.mem_cons_of_mem _ hc)⟩
      have hn : Decimal.ofDigits (d :: ds) = n := by
        rw [← Decimal.ofDigits_digits n, h, Decimal.ofDigits, Decimal.ofDigits,
          Nat.ofDigitChars_cons]
        rfl
      have hshorter := Decimal.length_digits_ofDigits_le hrest
      rw [hn, h, List.length_cons] at hshorter
      omega

theorem whole?_digits (n : Nat) {rest : List Char} (h : EndsNumber rest) :
    whole? (Decimal.digits n ++ rest) = some (Decimal.digits n, rest) := by
  have hdigits : ∀ c ∈ Decimal.digits n, c.isDigit = true :=
    fun _ => Decimal.isDigit_of_mem_digits
  obtain ⟨d, ds, hds, hd⟩ := exists_digits n
  by_cases hzero : d = '0'
  · subst hzero
    rw [hds, digits_eq_of_zero hds]
    rfl
  · obtain ⟨htake, hdrop⟩ := Decimal.span_isDigit hdigits rest fun c hc => (h c hc).1
    rw [hds, List.cons_append] at htake hdrop ⊢
    rw [whole?]
    · rw [if_pos hd, spanDigits, htake, hdrop]
    · exact fun hfirst => hzero hfirst

theorem fraction?_of_endsNumber {rest : List Char} (h : EndsNumber rest) :
    fraction? rest = none := by
  cases rest with
  | nil => rfl
  | cons c rest =>
      rw [fraction?]
      exact fun _ hc => (h c rfl).2.1 (List.cons.inj hc).1

theorem exponent?_of_endsNumber {rest : List Char} (h : EndsNumber rest) :
    exponent? rest = none := by
  cases rest with
  | nil => rfl
  | cons c rest =>
      obtain ⟨_, _, hlower, hupper⟩ := h c rfl
      unfold exponent?
      exact if_neg (not_or.mpr ⟨hlower, hupper⟩)

theorem readMagnitude_digits {negative : Bool} {n : Nat} {start rest : List Char}
    (hwritable : (Decimal.digits n).length ≤ Decimal.maxDigits) (h : EndsNumber rest) :
    readMagnitude negative start (Decimal.digits n ++ rest) =
      .ok (.int (if negative then -(n : Int) else n), rest) := by
  have hread : Decimal.readInt negative (Decimal.digits n) =
      .ok (if negative then -(n : Int) else n) := by
    rw [Decimal.readInt, if_neg (Nat.not_lt.mpr hwritable), Decimal.ofDigits_digits]
  rw [readMagnitude, whole?_digits n h]
  simp only [fraction?_of_endsNumber h, Option.getD_none, exponent?_of_endsNumber h, hread]
  rfl

theorem readNumber_intChars {i : Int} {rest : List Char} (hwritable : Decimal.isWritable i = true)
    (h : EndsNumber rest) : readNumber (Decimal.intChars i ++ rest) = .ok (.int i, rest) := by
  have hlength := of_decide_eq_true hwritable
  by_cases hi : i < 0
  · have habs : -(i.natAbs : Int) = i := by omega
    rw [Decimal.intChars, if_pos hi, List.cons_append, readNumber, readMagnitude_digits hlength h,
      if_pos rfl, habs]
  · have habs : (i.natAbs : Int) = i := by omega
    rw [Decimal.intChars, if_neg hi, readNumber]
    · rw [readMagnitude_digits hlength h, if_neg (by simp), habs]
    · -- A number without a sign starts with a digit.
      intro rest' hminus
      obtain ⟨d, ds, hds, hd⟩ := exists_digits i.natAbs
      rw [hds] at hminus
      cases hminus
      cases hd

/-! ## Values by their first character -/

/-- The characters that the texts of values start with. -/
def isValueStart (c : Char) : Bool :=
  c.isDigit || ['n', 't', 'f', '"', '[', '\x7b', '-'].contains c

theorem isSpace_of_isValueStart {c : Char} (h : isValueStart c = true) : isSpace c = false := by
  rw [Bool.eq_false_iff]
  intro hspace
  simp only [isSpace, Bool.or_eq_true, decide_eq_true_eq] at hspace
  rcases hspace with ((rfl | rfl) | rfl) | rfl <;> cases h

/-- An integer starts with a sign or a digit. -/
theorem exists_intChars (i : Int) :
    ∃ c cs, Decimal.intChars i = c :: cs ∧ (c = '-' ∨ c.isDigit = true) := by
  unfold Decimal.intChars
  split
  · exact ⟨_, _, rfl, Or.inl rfl⟩
  · obtain ⟨d, ds, hds, hd⟩ := exists_digits i.natAbs
    exact ⟨d, ds, hds, Or.inr hd⟩

/-- No word starts with a digit, and none with a sign and a digit. -/
theorem word?_intChars (i : Int) (rest : List Char) :
    word? (Decimal.intChars i ++ rest) = none := by
  obtain ⟨d, ds, hds, hd⟩ := exists_digits i.natAbs
  have hletter : ∀ c : Char, c.isDigit = false → c ≠ d := by
    rintro c hc rfl
    rw [hd] at hc
    cases hc
  unfold Decimal.intChars
  split
  · simp [word?, wordValues, hds, hletter 'I' rfl]
  · simp [word?, wordValues, hds, hletter 'n' rfl, hletter 't' rfl, hletter 'f' rfl,
      hletter 'N' rfl, hletter 'I' rfl, hletter '-' rfl]

/-! ## What a style keeps -/

/-- Entries in the order in which a style writes them. -/
def Style.arrange {α : Type} (style : Style) (entries : Table String α) : Table String α :=
  if style.sortKeys then Table.sortByKey entries else entries

/-- What a style keeps of a value: all of it, but for the order of keys if it has its own. -/
def Style.kept (style : Style) (v : Value) : Value :=
  if style.sortKeys then v.sorted else v

theorem arrange_perm {α : Type} (style : Style) (entries : Table String α) :
    (style.arrange entries).Perm entries := by
  unfold Style.arrange
  split
  · exact Table.sortByKey_perm entries
  · exact List.Perm.refl entries

theorem kept_eq_self {style : Style} {v : Value} (h : v.sorted = v) : style.kept v = v := by
  rw [Style.kept, h, ite_self]

theorem kept_list (style : Style) (items : List Value) :
    style.kept (.list items) = .list (items.map style.kept) := by
  unfold Style.kept
  cases style.sortKeys with
  | true => exact Value.sorted_list items
  | false => simp

theorem kept_dict (style : Style) (entries : Fields) :
    style.kept (.dict entries) = .dict (Table.mapValues style.kept (style.arrange entries)) := by
  unfold Style.kept Style.arrange
  cases style.sortKeys with
  | true =>
      show (Value.dict entries).sorted = _
      rw [Value.sorted_dict, sortedFields, Table.sortByKey_mapValues]
      rfl
  | false => simp [Table.mapValues]

theorem print_list (style : Style) (level : Nat) (items : List Value) :
    print style level (.list items) =
      bracketed style level '[' ']' (items.map (print style (level + 1))) := by
  have hitems : printItems style (level + 1) items = items.map (print style (level + 1)) := by
    induction items with
    | nil => rfl
    | cons v rest ih => rw [printItems, ih, List.map_cons]
  rw [print, hitems]

/-- The text of an entry. -/
def printEntry (style : Style) (level : Nat) (e : String × Value) : List Char :=
  entryChars (e.1, print style level e.2)

theorem print_dict (style : Style) (level : Nat) (entries : Fields) :
    print style level (.dict entries) =
      bracketed style level '\x7b' '\x7d'
        ((style.arrange entries).map (printEntry style (level + 1))) := by
  have hentries : printEntries style (level + 1) entries =
      Table.mapValues (print style (level + 1)) entries := by
    induction entries with
    | nil => rfl
    | cons e rest ih =>
        rw [printEntries, ih]
        rfl
  have harrange : style.arrange (Table.mapValues (print style (level + 1)) entries) =
      Table.mapValues (print style (level + 1)) (style.arrange entries) := by
    unfold Style.arrange
    split
    · exact Table.sortByKey_mapValues _ entries
    · rfl
  rw [print, hentries, braced]
  show bracketed style level _ _ ((style.arrange _).map entryChars) = _
  rw [harrange, Table.mapValues, List.map_map]
  rfl

/-! ## Values -/

/-- The text of a value is read as what the style keeps of it, whatever follows. -/
structure ReadsBack (style : Style) (v : Value) : Prop where
  start : ∀ level, ∃ c cs, print style level v = c :: cs ∧ isValueStart c = true
  read : ∀ level fuel rest, (print style level v).length ≤ fuel → EndsNumber rest →
    readValue fuel (print style level v ++ rest) = .ok (style.kept v, rest)

/-- As a text is not empty, neither is the fuel for it. -/
theorem ReadsBack.of_succ {style : Style} {v : Value}
    (start : ∀ level, ∃ c cs, print style level v = c :: cs ∧ isValueStart c = true)
    (read : ∀ level fuel rest, (print style level v).length ≤ fuel + 1 → EndsNumber rest →
      readValue (fuel + 1) (print style level v ++ rest) = .ok (style.kept v, rest)) :
    ReadsBack style v := by
  refine ⟨start, fun level fuel rest hfuel hrest => ?_⟩
  obtain ⟨c, cs, hprint, _⟩ := start level
  cases fuel with
  | zero =>
      rw [hprint, List.length_cons] at hfuel
      cases hfuel
  | succ fuel => exact read level fuel rest hfuel hrest

theorem ReadsBack.read_skipSpace {style : Style} {v : Value} (h : ReadsBack style v)
    {level fuel : Nat} {rest : List Char} (hfuel : (print style level v).length ≤ fuel)
    (hrest : EndsNumber rest) :
    readValue fuel (skipSpace (print style level v ++ rest)) = .ok (style.kept v, rest) := by
  have hstart : skipSpace (print style level v ++ rest) = print style level v ++ rest := by
    obtain ⟨c, cs, hprint, hc⟩ := h.start level
    rw [hprint, List.cons_append, skipSpace_cons (isSpace_of_isValueStart hc)]
  rw [hstart, h.read level fuel rest hfuel hrest]

/-- Neither a comma nor what stands in front of a closing bracket goes on with a number. -/
theorem endsNumber_append {gap : List Char} (hgap : ∀ c ∈ gap, isSpace c = true) {rest : List Char}
    (h : EndsNumber rest) : EndsNumber (gap ++ rest) := by
  cases gap with
  | nil => exact h
  | cons c gap => exact endsNumber_space (hgap c List.mem_cons_self) (gap ++ rest)

/-! ## Rows -/

/-- Texts with commas between them, and what closes them. -/
def row (style : Style) (level : Nat) (texts : List (List Char)) (close : List Char) : List Char :=
  List.intercalate (style.between level) texts ++ close

theorem row_singleton (style : Style) (level : Nat) (text close : List Char) :
    row style level [text] close = text ++ close := by
  rw [row, List.intercalate_singleton]

theorem exists_row_cons_cons (style : Style) (level : Nat) (text text' : List Char)
    (texts : List (List Char)) : ∃ gap, (∀ c ∈ gap, isSpace c = true) ∧ ∀ close,
      row style level (text :: text' :: texts) close =
        text ++ ',' :: (gap ++ row style level (text' :: texts) close) := by
  obtain ⟨gap, hbetween, hgap⟩ := exists_between style level
  refine ⟨gap, hgap, fun close => ?_⟩
  rw [row, List.intercalate_cons_cons, hbetween, row, hbetween]
  simp only [List.append_assoc, List.cons_append]

/-- A row starts as its first text does. -/
theorem exists_row_cons {text : List Char} (h : ∃ c cs, text = c :: cs ∧ isValueStart c = true)
    (style : Style) (level : Nat) (texts : List (List Char)) (close : List Char) :
    ∃ c more, row style level (text :: texts) close = c :: more ∧ isValueStart c = true := by
  obtain ⟨c, cs, rfl, hc⟩ := h
  cases texts with
  | nil => exact ⟨c, cs ++ close, row_singleton style level (c :: cs) close, hc⟩
  | cons text' texts =>
      obtain ⟨gap, _, hrow⟩ := exists_row_cons_cons style level (c :: cs) text' texts
      exact ⟨c, _, hrow close, hc⟩

theorem skipSpace_row {text : List Char} (h : ∃ c cs, text = c :: cs ∧ isValueStart c = true)
    (style : Style) (level : Nat) (texts : List (List Char)) (close : List Char) :
    skipSpace (row style level (text :: texts) close) = row style level (text :: texts) close := by
  obtain ⟨c, more, hrow, hc⟩ := exists_row_cons h style level texts close
  rw [hrow, skipSpace_cons (isSpace_of_isValueStart hc)]

/-! ## Items -/

section

variable {fuel : Nat} {cs behind more rest : List Char} {v : Value}

theorem readItems_last (hvalue : readValue fuel cs = .ok (v, behind))
    (hbehind : skipSpace behind = ']' :: rest) : readItems (fuel + 1) cs = .ok ([v], rest) := by
  rw [readItems, hvalue]
  simp only [bind, Except.bind, hbehind]

theorem readItems_more (hvalue : readValue fuel cs = .ok (v, behind))
    (hbehind : skipSpace behind = ',' :: more) {vs : List Value}
    (hmore : readItems fuel (skipSpace more) = .ok (vs, rest)) :
    readItems (fuel + 1) cs = .ok (v :: vs, rest) := by
  rw [readItems, hvalue]
  simp only [bind, Except.bind, hbehind, hmore]

end

theorem readItems_row {style : Style} {level : Nat} {v : Value} {items : List Value}
    (h : ∀ w ∈ v :: items, ReadsBack style w) {gap : List Char}
    (hgap : ∀ c ∈ gap, isSpace c = true) {fuel : Nat} (rest : List Char)
    (hfuel : (row style level ((v :: items).map (print style level)) []).length < fuel) :
    readItems fuel (row style level ((v :: items).map (print style level)) (gap ++ ']' :: rest)) =
      .ok ((v :: items).map style.kept, rest) := by
  induction items generalizing v fuel with
  | nil =>
      obtain ⟨fuel, rfl⟩ : ∃ n, fuel = n + 1 := ⟨fuel - 1, by omega⟩
      have hclose : EndsNumber (gap ++ ']' :: rest) :=
        endsNumber_append hgap (endsNumber_cons (by decide) rest)
      rw [List.map_singleton, row_singleton] at hfuel ⊢
      rw [List.append_nil] at hfuel
      exact readItems_last ((h v List.mem_cons_self).read level fuel _ (by omega) hclose)
        (skipSpace_append_cons hgap rfl rest)
  | cons w items ih =>
      obtain ⟨fuel, rfl⟩ : ∃ n, fuel = n + 1 := ⟨fuel - 1, by omega⟩
      obtain ⟨hv, hitems⟩ := List.forall_mem_cons.mp h
      obtain ⟨space, hspace, hrow⟩ := exists_row_cons_cons style level (print style level v)
        (print style level w) (items.map (print style level))
      simp only [List.map_cons, hrow, List.length_append, List.length_cons] at hfuel ⊢
      refine readItems_more (hv.read level fuel _ (by omega) (endsNumber_cons (by decide) _))
        (skipSpace_cons rfl _) ?_
      rw [skipSpace_append hspace, skipSpace_row ((hitems w List.mem_cons_self).start level),
        ← List.map_cons]
      exact ih hitems (by rw [List.map_cons]; omega)

/-! ## Entries -/

section

variable {fuel : Nat} {key behind more rest : List Char} {text : List Char} {v : Value}

theorem readEntries_last (hvalue : readValue fuel (skipSpace text) = .ok (v, behind))
    (hbehind : skipSpace behind = '\x7d' :: rest) :
    readEntries (fuel + 1) (stringChars key ++ ':' :: ' ' :: text) =
      .ok ([(String.ofList key, v)], rest) := by
  have hcolon : skipSpace (':' :: ' ' :: text) = ':' :: ' ' :: text := skipSpace_cons rfl _
  have hspace : skipSpace (' ' :: text) = skipSpace text := rfl
  rw [stringChars_append, readEntries, readString_string]
  simp only [bind, Except.bind, hcolon, hspace, hvalue, hbehind]

theorem readEntries_more (hvalue : readValue fuel (skipSpace text) = .ok (v, behind))
    (hbehind : skipSpace behind = ',' :: more) {entries : List (String × Value)}
    (hmore : readEntries fuel (skipSpace more) = .ok (entries, rest)) :
    readEntries (fuel + 1) (stringChars key ++ ':' :: ' ' :: text) =
      .ok ((String.ofList key, v) :: entries, rest) := by
  have hcolon : skipSpace (':' :: ' ' :: text) = ':' :: ' ' :: text := skipSpace_cons rfl _
  have hspace : skipSpace (' ' :: text) = skipSpace text := rfl
  rw [stringChars_append, readEntries, readString_string]
  simp only [bind, Except.bind, hcolon, hspace, hvalue, hbehind, hmore]

end

theorem printEntry_append (style : Style) (level : Nat) (k : String) (v : Value)
    (rest : List Char) : printEntry style level (k, v) ++ rest =
      stringChars k.toList ++ ':' :: ' ' :: (print style level v ++ rest) := by
  simp [printEntry, entryChars]

theorem exists_printEntry (style : Style) (level : Nat) (e : String × Value) :
    ∃ c cs, printEntry style level e = c :: cs ∧ isValueStart c = true :=
  ⟨'"', _, rfl, rfl⟩

theorem readEntries_row {style : Style} {level : Nat} {e : String × Value} {entries : Fields}
    (h : ∀ f ∈ e :: entries, ReadsBack style f.2) {gap : List Char}
    (hgap : ∀ c ∈ gap, isSpace c = true) {fuel : Nat} (rest : List Char)
    (hfuel : (row style level ((e :: entries).map (printEntry style level)) []).length < fuel) :
    readEntries fuel
        (row style level ((e :: entries).map (printEntry style level)) (gap ++ '\x7d' :: rest)) =
      .ok (Table.mapValues style.kept (e :: entries), rest) := by
  have hlength : ∀ f : String × Value,
      (print style level f.2).length < (printEntry style level f).length := by
    intro f
    simp [printEntry, entryChars]
    omega
  induction entries generalizing e fuel with
  | nil =>
      obtain ⟨fuel, rfl⟩ : ∃ n, fuel = n + 1 := ⟨fuel - 1, by omega⟩
      have he := h e List.mem_cons_self
      have hclose : EndsNumber (gap ++ '\x7d' :: rest) :=
        endsNumber_append hgap (endsNumber_cons (by decide) rest)
      rw [List.map_singleton, row_singleton] at hfuel ⊢
      rw [List.append_nil] at hfuel
      have hvalue := he.read_skipSpace (Nat.le_of_lt_succ (Nat.lt_trans (hlength e) hfuel)) hclose
      rw [printEntry_append, readEntries_last hvalue (skipSpace_append_cons hgap rfl rest),
        String.ofList_toList]
      rfl
  | cons f entries ih =>
      obtain ⟨fuel, rfl⟩ : ∃ n, fuel = n + 1 := ⟨fuel - 1, by omega⟩
      obtain ⟨he, hentries⟩ := List.forall_mem_cons.mp h
      obtain ⟨space, hspace, hrow⟩ := exists_row_cons_cons style level (printEntry style level e)
        (printEntry style level f) (entries.map (printEntry style level))
      simp only [List.map_cons, hrow, List.length_append, List.length_cons] at hfuel ⊢
      have hvalue : (print style level e.2).length ≤ fuel := by
        have := hlength e
        omega
      have hf := exists_printEntry style level f
      have hfuel' : (row style level ((f :: entries).map (printEntry style level)) []).length <
          fuel := by
        rw [List.map_cons]
        omega
      have hmore := ih hentries hfuel'
      rw [List.map_cons, ← skipSpace_row hf, ← skipSpace_append hspace] at hmore
      rw [printEntry_append, readEntries_more (he.read_skipSpace hvalue
        (endsNumber_cons (by decide) _)) (skipSpace_cons rfl _) hmore, String.ofList_toList]
      rfl

/-! ## Brackets -/

theorem bracketed_cons_append (style : Style) (level : Nat) (opening closing : Char)
    (text : List Char) (texts : List (List Char)) (rest : List Char) :
    bracketed style level opening closing (text :: texts) ++ rest =
      opening :: (style.lead (level + 1) ++
        row style (level + 1) (text :: texts) (style.lead level ++ closing :: rest)) := by
  simp [bracketed, row]

theorem exists_last_bracketed (style : Style) (level : Nat) (opening closing : Char)
    (texts : List (List Char)) :
    ∃ cs, bracketed style level opening closing texts = cs ++ [closing] := by
  cases texts with
  | nil => exact ⟨[opening], rfl⟩
  | cons text texts => exact ⟨_, (List.cons_append).symm⟩

/-- The fuel for what brackets enclose suffices for the row between them. -/
theorem length_row_lt {style : Style} {level fuel : Nat} {opening closing : Char}
    {text : List Char} {texts : List (List Char)}
    (h : (bracketed style level opening closing (text :: texts)).length ≤ fuel + 1) :
    (row style (level + 1) (text :: texts) []).length < fuel := by
  simp only [bracketed, row, List.length_cons, List.length_append, List.length_nil] at h ⊢
  omega

theorem readValue_brackets {fuel : Nat} {cs row rest : List Char} {vs : List Value}
    (hrow : skipSpace cs = row) (hstart : ∃ c more, row = c :: more ∧ isValueStart c = true)
    (hitems : readItems fuel row = .ok (vs, rest)) :
    readValue (fuel + 1) ('[' :: cs) = .ok (.list vs, rest) := by
  obtain ⟨c, more, rfl, hc⟩ := hstart
  rw [readValue, hrow]
  split
  · rename_i h
    cases h
    cases hc
  · rw [hitems]
    rfl

theorem readValue_braces {fuel : Nat} {cs row rest : List Char} {entries : Fields}
    (hrow : skipSpace cs = row) (hstart : ∃ c more, row = c :: more ∧ isValueStart c = true)
    (hentries : readEntries fuel row = .ok (entries, rest)) :
    readValue (fuel + 1) ('\x7b' :: cs) = .ok (.dict (Table.ofEntries entries), rest) := by
  obtain ⟨c, more, rfl, hc⟩ := hstart
  rw [readValue, hrow]
  split
  · rename_i h
    cases h
    cases hc
  · rw [hentries]
    rfl

theorem readsBack_list {style : Style} {items : List Value}
    (h : ∀ v ∈ items, ReadsBack style v) : ReadsBack style (.list items) := by
  refine .of_succ (fun level => ?_) fun level fuel rest hfuel _ => ?_
  · rw [print_list]
    cases items <;> exact ⟨'[', _, rfl, rfl⟩
  · rw [print_list] at hfuel ⊢
    rw [kept_list]
    cases items with
    | nil => rfl
    | cons v items =>
        have hv := (h v List.mem_cons_self).start (level + 1)
        have hstart := exists_row_cons hv style (level + 1)
          (items.map (print style (level + 1))) (style.lead level ++ ']' :: rest)
        rw [List.map_cons, bracketed_cons_append]
        refine readValue_brackets ?_ hstart (readItems_row h (isSpace_lead style level) rest ?_)
        · rw [skipSpace_append (isSpace_lead style (level + 1)), skipSpace_row hv]
        · exact length_row_lt hfuel

theorem readsBack_dict {style : Style} {entries : Fields} (hkeys : (Table.keys entries).Nodup)
    (h : ∀ e ∈ entries, ReadsBack style e.2) : ReadsBack style (.dict entries) := by
  refine .of_succ (fun level => ?_) fun level fuel rest hfuel _ => ?_
  · rw [print_dict]
    cases style.arrange entries <;> exact ⟨'\x7b', _, rfl, rfl⟩
  · have harranged : ∀ e ∈ style.arrange entries, ReadsBack style e.2 :=
      fun e he => h e ((arrange_perm style entries).mem_iff.mp he)
    have htable : Table.ofEntries (Table.mapValues style.kept (style.arrange entries)) =
        Table.mapValues style.kept (style.arrange entries) := by
      apply Table.ofEntries_of_nodup
      rw [Table.keys_mapValues]
      exact ((arrange_perm style entries).map Prod.fst).nodup_iff.mpr hkeys
    rw [print_dict] at hfuel ⊢
    rw [kept_dict]
    generalize style.arrange entries = arranged at *
    cases arranged with
    | nil => rfl
    | cons e arranged =>
        have he := exists_printEntry style (level + 1) e
        have hstart := exists_row_cons he style (level + 1)
          (arranged.map (printEntry style (level + 1))) (style.lead level ++ '\x7d' :: rest)
        rw [List.map_cons, bracketed_cons_append, ← htable]
        refine readValue_braces ?_ hstart
          (readEntries_row harranged (isSpace_lead style level) rest ?_)
        · rw [skipSpace_append (isSpace_lead style (level + 1)), skipSpace_row he]
        · exact length_row_lt hfuel

/-! ## All values -/

theorem readsBack_int {i : Int} (hwritable : Decimal.isWritable i = true) (style : Style) :
    ReadsBack style (.int i) := by
  obtain ⟨c, cs, hcs, hc⟩ := exists_intChars i
  refine .of_succ (fun _ => ⟨c, cs, hcs, ?_⟩) fun level fuel rest _ hrest => ?_
  · rcases hc with rfl | hc
    · rfl
    · rw [isValueStart, hc]
      rfl
  · have hread := readNumber_intChars hwritable hrest
    have hword := word?_intChars i rest
    show readValue (fuel + 1) (Decimal.intChars i ++ rest) = _
    rw [hcs, List.cons_append] at hread hword ⊢
    rw [readValue, hword, kept_eq_self rfl]
    · exact hread
    all_goals
      rintro _ hfirst
      cases hfirst
      rcases hc with hc | hc <;> cases hc

theorem readsBack {v : Value} (h : v.IsFloatFree) (style : Style) : ReadsBack style v := by
  induction h with
  | null =>
      refine .of_succ (fun _ => ⟨_, _, rfl, rfl⟩) fun level fuel rest _ _ => ?_
      rw [kept_eq_self rfl]
      rfl
  | bool b =>
      cases b with
      | false =>
        refine .of_succ (fun _ => ⟨_, _, rfl, rfl⟩) fun level fuel rest _ _ => ?_
        rw [kept_eq_self rfl]
        rfl
      | true =>
        refine .of_succ (fun _ => ⟨_, _, rfl, rfl⟩) fun level fuel rest _ _ => ?_
        rw [kept_eq_self rfl]
        rfl
  | int hwritable => exact readsBack_int hwritable style
  | text s =>
      refine .of_succ (fun _ => ⟨_, _, rfl, rfl⟩) fun level fuel rest _ _ => ?_
      rw [kept_eq_self rfl]
      show readValue (fuel + 1) (stringChars s.toList ++ rest) = _
      rw [stringChars_append, readValue, readString_string]
      show Except.ok (Value.text (String.ofList s.toList), rest) = _
      rw [String.ofList_toList]
  | list hitems ih => exact readsBack_list ih
  | dict hkeys hentries ih => exact readsBack_dict hkeys ih

/-- The text of a value is a whole text, with or without spaces behind it. -/
theorem parse_print {v : Value} (h : v.IsFloatFree) (style : Style) {gap : List Char}
    (hgap : ∀ c ∈ gap, isSpace c = true) :
    parse (print style 0 v ++ gap) = .ok (style.kept v) := by
  have hv := readsBack h style
  obtain ⟨c, cs, hcs, hc⟩ := hv.start 0
  have hstart : skipSpace (print style 0 v ++ gap) = print style 0 v ++ gap := by
    rw [hcs, List.cons_append, skipSpace_cons (isSpace_of_isValueStart hc)]
  have hend : skipSpace gap = [] := by
    rw [← List.append_nil gap, skipSpace_append hgap]
    rfl
  have hread := hv.read 0 ((print style 0 v ++ gap).length + 1) gap
    (by rw [List.length_append]; omega)
    (by rw [← List.append_nil gap]; exact endsNumber_append hgap endsNumber_nil)
  have hdocument : readDocument (print style 0 v ++ gap) = .ok (style.kept v) := by
    unfold readDocument
    split
    · rename_i hmark
      rw [hcs] at hmark
      cases hmark
      cases hc
    · simp only [hstart, hread, bind, Except.bind, hend]
  rw [parse, hdocument]
  rfl

end MessagePattern.Json
