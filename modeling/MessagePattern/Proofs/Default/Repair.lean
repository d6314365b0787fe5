import MessagePattern.Proofs.Default.BareKey
import MessagePattern.Proofs.Default.Structured
import MessagePattern.Proofs.Json.Spelling

/-!
# Defaults with bare keys

A list or a dictionary may be written with some of its keys without quotes. The repair puts the
quotes back, wherever the keys stand (`quoteBareKeys_printBare`), and as far as they are concerned
the value is read. But the repair does not tell strings from what stands around them: it breaks
every string that holds a bare key itself. So the value is read exactly if no string of it does,
and else the text stands for itself (`read_printBare`).
-/

namespace MessagePattern

namespace Default

open Json (Role Spelling joined print printSpelt printSpeltEntry stringChars)

/-! ## Keys without quotes -/

/-- The keys at chosen places lose their quotes, if they are names; all other strings are spelt as
JSON has them. -/
def bareSpelling (bare : List Nat → Bool) : Spelling := fun place role s =>
  if role = .key ∧ bare place = true ∧ isBareKey s.toList = true then s.toList
  else stringChars s.toList

/-- The JSON text of a value on one line, in which the keys at chosen places have no quotes. -/
def printBare (bare : List Nat → Bool) (v : Value) : List Char :=
  printSpelt (bareSpelling bare) v

/-- Some key of a value is written without quotes. -/
def LosesQuotes (bare : List Nat → Bool) (v : Value) : Prop :=
  ∃ place key, v.HasString place .key key ∧ bare place = true ∧ isBareKey key.toList = true

/-- Some string of a value, a key or a text, holds what looks like a bare key. -/
def StringHoldsBareKey (v : Value) : Prop :=
  ∃ place role s, v.HasString place role s ∧ HoldsBareKey s.toList

/-- The strings as the repair leaves them. -/
def requotedSpelling : Spelling := fun _ _ s => requoted s.toList

theorem stray_of_isKeyStart {c : Char} (h : isKeyStart c = true) : Json.Stray c := by
  constructor
  · rw [Bool.eq_false_iff]
    intro hspace
    simp only [Json.isSpace, Bool.or_eq_true, decide_eq_true_eq] at hspace
    rcases hspace with ((rfl | rfl) | rfl) | rfl <;> cases h
  · intro hmark
    simp only [List.mem_cons, List.not_mem_nil, or_false] at hmark
    rcases hmark with rfl | rfl | rfl | rfl | rfl <;> cases h

theorem exactOrFaulty_bareSpelling (bare : List Nat → Bool) :
    (bareSpelling bare).ExactOrFaulty := by
  intro place role s
  unfold bareSpelling
  split
  · rename_i hchosen
    obtain ⟨rfl, _, hkey⟩ := hchosen
    right
    generalize s.toList = key at hkey
    cases key with
    | nil => cases hkey
    | cons c key => exact .bare (stray_of_isKeyStart (Bool.and_eq_true_iff.mp hkey).1) key
  · exact Or.inl rfl

theorem misspells_bareSpelling_iff {bare : List Nat → Bool} {v : Value} :
    (bareSpelling bare).Misspells v ↔ LosesQuotes bare v := by
  constructor
  · rintro ⟨place, role, s, hstring, hne⟩
    rw [bareSpelling] at hne
    split at hne
    · rename_i hchosen
      obtain ⟨rfl, hbare, hkey⟩ := hchosen
      exact ⟨place, s, hstring, hbare, hkey⟩
    · exact absurd rfl hne
  · rintro ⟨place, key, hstring, hbare, hkey⟩
    refine ⟨place, .key, key, hstring, fun heq => ?_⟩
    rw [bareSpelling, if_pos ⟨rfl, hbare, hkey⟩] at heq
    have hquote : '"' ∈ key.toList := by
      rw [heq]
      exact List.mem_cons_self
    cases isKeyPart_of_isBareKey hkey _ hquote

/-- Where no key loses its quotes, the text is that of the value. -/
theorem printBare_of_keeps {v : Value} (h : v.IsFloatFree) {bare : List Nat → Bool}
    (hkeeps : ¬ LosesQuotes bare v) : printBare bare v = print .line 0 v :=
  Json.printSpelt_of_exact h (mt misspells_bareSpelling_iff.mp hkeeps) 0

/-- A string that the repair does not leave alone is cut short. -/
theorem requoted_cases (role : Role) (cs : List Char) :
    ¬ HoldsBareKey cs ∧ requoted cs = stringChars cs ∨
    HoldsBareKey cs ∧ Json.Faulty role (requoted cs) := by
  unfold requoted
  rcases quoteBareKeys_escaped cs with ⟨hnot, hsame⟩ | ⟨hholds, front, c, more, hc, hcut⟩
  · rw [hsame]
    exact Or.inl ⟨hnot, rfl⟩
  · rw [hcut, List.append_assoc]
    exact Or.inr ⟨hholds, .cutShort (stray_of_isKeyStart hc) role front (more ++ ['"'])⟩

theorem exactOrFaulty_requotedSpelling : requotedSpelling.ExactOrFaulty :=
  fun _ role s => (requoted_cases role s.toList).imp And.right And.right

theorem misspells_requotedSpelling_iff {v : Value} :
    requotedSpelling.Misspells v ↔ StringHoldsBareKey v := by
  constructor
  · rintro ⟨place, role, s, hstring, hne⟩
    refine ⟨place, role, s, hstring, ?_⟩
    rcases requoted_cases role s.toList with ⟨_, hsame⟩ | ⟨hholds, _⟩
    · exact absurd hsame hne
    · exact hholds
  · rintro ⟨place, role, s, hstring, hholds⟩
    refine ⟨place, role, s, hstring, ?_⟩
    rcases requoted_cases role s.toList with ⟨hnot, _⟩ | ⟨_, hfaulty⟩
    · exact absurd hholds hnot
    · exact hfaulty.ne_stringChars s.toList

/-! ## The repair of a row -/

/-- What may stand behind an item or an entry. -/
def Closes (rest : List Char) : Prop :=
  ∀ c, rest.head? = some c → c = ',' ∨ c = ']' ∨ c = '\x7d'

theorem closes_nil : Closes [] := by
  rintro c ⟨⟩

theorem closes_cons {c : Char} (h : c = ',' ∨ c = ']' ∨ c = '\x7d') (rest : List Char) :
    Closes (c :: rest) := by
  rintro d ⟨⟩
  exact h

/-- Behind what stands in front of it, the repair makes one text of another, whatever follows. -/
def Repairs (front text fixed : List Char) : Prop :=
  ∀ rest, Closes rest →
    quoteBareKeys (front ++ (text ++ rest)) = front ++ (fixed ++ quoteBareKeys rest)

theorem repairs_of_no_opener {text : List Char} (h : ∀ c ∈ text, isOpener c = false) :
    Repairs [] text text :=
  fun rest _ => quoteBareKeys_append h rest

/-- Behind a comma an item is left alone, if it does not look like a key. -/
theorem Repairs.item {text fixed : List Char} (h : Repairs [] text fixed)
    (hnone : ∀ rest, Closes rest → BareKey.find? (' ' :: (text ++ rest)) = none) :
    Repairs [',', ' '] text fixed := by
  intro rest hrest
  have hspace : quoteBareKeys (' ' :: (text ++ rest)) = ' ' :: quoteBareKeys (text ++ rest) :=
    quoteBareKeys_skip rfl _
  show quoteBareKeys (',' :: ' ' :: (text ++ rest)) = ',' :: ' ' :: (fixed ++ quoteBareKeys rest)
  rw [quoteBareKeys_cons fun _ => hnone rest hrest, hspace]
  exact congrArg (fun cs => ',' :: ' ' :: cs) (h rest hrest)

theorem repairs_joined {front text fixed : List Char} {texts fixeds : List (List Char)}
    (hfirst : Repairs front text fixed) (hothers : List.Forall₂ (Repairs [',', ' ']) texts fixeds) :
    Repairs front (joined (text :: texts)) (joined (fixed :: fixeds)) := by
  induction hothers generalizing front text fixed with
  | nil => simpa [joined] using hfirst
  | @cons text' fixed' texts fixeds hnext hothers ih =>
      intro rest hrest
      -- The comma in front of the next text closes the first one.
      have hrow : quoteBareKeys (',' :: ' ' :: (joined (text' :: texts) ++ rest)) =
          ',' :: ' ' :: (joined (fixed' :: fixeds) ++ quoteBareKeys rest) := ih hnext rest hrest
      have hcomma := hfirst (',' :: ' ' :: (joined (text' :: texts) ++ rest))
        (closes_cons (Or.inl rfl) _)
      rw [hrow] at hcomma
      rw [Json.joined_cons_cons, Json.joined_cons_cons]
      simpa using hcomma

theorem forall₂_mapIdx {α β : Type} {R : β → β → Prop} {l : List α} {f g : Nat → α → β}
    (h : ∀ i, ∀ a ∈ l, R (f i a) (g i a)) : List.Forall₂ R (l.mapIdx f) (l.mapIdx g) := by
  induction l generalizing f g with
  | nil => exact .nil
  | cons a l ih =>
      rw [List.mapIdx_cons, List.mapIdx_cons]
      exact .cons (h 0 a List.mem_cons_self)
        (ih fun i b hb => h (i + 1) b (List.mem_cons_of_mem a hb))

theorem repairs_list {items : List Value} {f g : Nat → Value → List Char}
    (h : ∀ i, ∀ v ∈ items, Repairs [] (f i v) (g i v))
    (hnone : ∀ i, ∀ v ∈ items, ∀ rest, Closes rest →
      BareKey.find? (' ' :: (f i v ++ rest)) = none) :
    Repairs [] (Json.bracketed .line 0 '[' ']' (items.mapIdx f))
      (Json.bracketed .line 0 '[' ']' (items.mapIdx g)) := by
  cases items with
  | nil => exact @repairs_of_no_opener ['[', ']'] (by simp [isOpener])
  | cons v items =>
      have hothers : List.Forall₂ (Repairs [',', ' ']) (items.mapIdx fun i => f (i + 1))
          (items.mapIdx fun i => g (i + 1)) := by
        refine forall₂_mapIdx fun i w hw => ?_
        have hmem := List.mem_cons_of_mem v hw
        exact (h (i + 1) w hmem).item (hnone (i + 1) w hmem)
      have hrow := repairs_joined (h 0 v List.mem_cons_self) hothers
      intro rest hrest
      have hclose := hrow (']' :: rest) (closes_cons (Or.inr (Or.inl rfl)) rest)
      have hend : quoteBareKeys (']' :: rest) = ']' :: quoteBareKeys rest :=
        quoteBareKeys_skip rfl _
      have hstart : ∀ cs, quoteBareKeys ('[' :: cs) = '[' :: quoteBareKeys cs :=
        fun cs => quoteBareKeys_skip rfl cs
      rw [List.mapIdx_cons, List.mapIdx_cons, Json.bracketed_line, Json.bracketed_line]
      simpa [hstart, hend] using hclose

theorem repairs_dict {entries : Fields} {f g : Nat → String × Value → List Char}
    (hfirst : ∀ i, ∀ e ∈ entries, Repairs ['\x7b'] (f i e) (g i e))
    (hothers : ∀ i, ∀ e ∈ entries, Repairs [',', ' '] (f i e) (g i e)) :
    Repairs [] (Json.bracketed .line 0 '\x7b' '\x7d' (entries.mapIdx f))
      (Json.bracketed .line 0 '\x7b' '\x7d' (entries.mapIdx g)) := by
  have hend : ∀ rest, quoteBareKeys ('\x7d' :: rest) = '\x7d' :: quoteBareKeys rest :=
    fun rest => quoteBareKeys_skip rfl rest
  cases entries with
  | nil =>
      intro rest hrest
      have hnone : BareKey.find? ('\x7d' :: rest) = none :=
        BareKey.find?_eq_none (List.forall_mem_nil _) rfl rfl rest
      show quoteBareKeys ('\x7b' :: '\x7d' :: rest) = _
      rw [quoteBareKeys_cons fun _ => hnone, hend]
      rfl
  | cons e entries =>
      have hrow := repairs_joined (hfirst 0 e List.mem_cons_self)
        (forall₂_mapIdx fun i e' he' => hothers (i + 1) e' (List.mem_cons_of_mem e he'))
      intro rest hrest
      have hclose := hrow ('\x7d' :: rest) (closes_cons (Or.inr (Or.inr rfl)) rest)
      rw [List.mapIdx_cons, List.mapIdx_cons, Json.bracketed_line, Json.bracketed_line]
      simpa [hend] using hclose

/-! ## The repair of a value -/

theorem isOpener_of_isDigit {c : Char} (h : c.isDigit = true) : isOpener c = false := by
  rw [Bool.eq_false_iff]
  intro hopener
  simp only [isOpener, Bool.or_eq_true, decide_eq_true_eq] at hopener
  rcases hopener with rfl | rfl <;> cases h

/-- A name starts with no digit. -/
theorem isKeyStart_of_isDigit {c : Char} (h : c.isDigit = true) : isKeyStart c = false := by
  obtain ⟨hlow, hhigh⟩ : 48 ≤ c.toNat ∧ c.toNat ≤ 57 := Char.isDigit_iff_toNat.mp h
  rw [Bool.eq_false_iff]
  intro hstart
  have hletter := toNat_of_isKeyStart hstart
  omega

/-- A value in a list does not look like a key: no colon stands behind it. -/
theorem find?_printBare {v : Value} (h : v.IsFloatFree) (bare : List Nat → Bool) {rest : List Char}
    (hrest : Closes rest) : BareKey.find? (' ' :: (printBare bare v ++ rest)) = none := by
  -- A word is a name, but what stands behind it is no colon.
  have hword : BareKey.find? (' ' :: 'n' :: 'u' :: 'l' :: 'l' :: rest) = none ∧
      BareKey.find? (' ' :: 't' :: 'r' :: 'u' :: 'e' :: rest) = none ∧
      BareKey.find? (' ' :: 'f' :: 'a' :: 'l' :: 's' :: 'e' :: rest) = none := by
    cases rest with
    | nil => exact ⟨rfl, rfl, rfl⟩
    | cons c rest => rcases hrest c rfl with rfl | rfl | rfl <;> exact ⟨rfl, rfl, rfl⟩
  have hstart : ∀ c cs, Text.isBlank c = false → isKeyStart c = false →
      BareKey.find? (' ' :: c :: cs) = none :=
    fun c cs hblank hletter =>
      @BareKey.find?_eq_none [' '] (List.forall_mem_singleton.mpr rfl) c hblank hletter cs
  cases h with
  | null => exact hword.1
  | bool b =>
      cases b with
      | false => exact hword.2.2
      | true => exact hword.2.1
  | int hwritable =>
      rename_i i
      obtain ⟨c, cs, hcs, hc⟩ := Json.exists_intChars i
      show BareKey.find? (' ' :: (Decimal.intChars i ++ rest)) = none
      rw [hcs]
      rcases hc with rfl | hdigit
      · exact hstart '-' _ rfl rfl
      · have hpart : isKeyPart c = true := isKeyPart_iff.mpr (Or.inr hdigit)
        exact hstart c _ (isBlank_of_isKeyPart hpart) (isKeyStart_of_isDigit hdigit)
  | text s => exact hstart '"' _ rfl rfl
  | list hitems =>
      rw [printBare, Json.printSpelt_list, Json.bracketed_line]
      exact hstart '[' _ rfl rfl
  | dict hkeys hentries =>
      rw [printBare, Json.printSpelt_dict, Json.bracketed_line]
      exact hstart '\x7b' _ rfl rfl

theorem quoteBareKeys_colon (cs : List Char) :
    quoteBareKeys (':' :: ' ' :: cs) = ':' :: ' ' :: quoteBareKeys cs :=
  (quoteBareKeys_skip rfl _).trans (congrArg _ (quoteBareKeys_skip rfl cs))

section

variable {c : Char} {gap value fixed : List Char} (hgap : ∀ d ∈ gap, d = ' ')
  (hvalue : Repairs [] value fixed)

include hgap hvalue

/-- Behind a brace or a comma a bare key is put in quotes. -/
theorem repairs_bareKey (hc : isOpener c = true) {key : List Char} (hkey : isBareKey key = true) :
    Repairs (c :: gap) (key ++ ':' :: ' ' :: value) (requoted key ++ ':' :: ' ' :: fixed) := by
  intro rest hrest
  have hvalue : quoteBareKeys (value ++ rest) = fixed ++ quoteBareKeys rest := hvalue rest hrest
  have hspace : quoteBareKeys (' ' :: (value ++ rest)) = ' ' :: quoteBareKeys (value ++ rest) :=
    quoteBareKeys_skip rfl _
  have hat : BareKey.At ⟨gap, key, [], ' ' :: (value ++ rest)⟩
      (gap ++ (key ++ ':' :: ' ' :: (value ++ rest))) :=
    ⟨rfl, fun d hd => hgap d hd ▸ rfl, hkey, List.forall_mem_nil _⟩
  have hquotes := quoteBareKeys_at hc hat
  rw [hspace, hvalue] at hquotes
  rw [requoted_of_isBareKey hkey]
  simpa using hquotes

/-- A key in quotes keeps them. -/
theorem repairs_quotedKey (key : List Char) :
    Repairs (c :: gap) (stringChars key ++ ':' :: ' ' :: value)
      (requoted key ++ ':' :: ' ' :: fixed) := by
  intro rest hrest
  have hvalue : quoteBareKeys (value ++ rest) = fixed ++ quoteBareKeys rest := hvalue rest hrest
  have hnone : BareKey.find? (gap ++ (stringChars key ++ ':' :: ' ' :: (value ++ rest))) = none :=
    BareKey.find?_eq_none (fun d hd => hgap d hd ▸ rfl) rfl rfl _
  have hgap : ∀ cs, quoteBareKeys (gap ++ cs) = gap ++ quoteBareKeys cs :=
    quoteBareKeys_append fun d hd => hgap d hd ▸ rfl
  have htext : c :: gap ++ (stringChars key ++ ':' :: ' ' :: value ++ rest) =
      c :: (gap ++ (stringChars key ++ ':' :: ' ' :: (value ++ rest))) := by
    simp
  rw [htext, quoteBareKeys_cons fun _ => hnone, hgap, quoteBareKeys_stringChars,
    quoteBareKeys_colon, hvalue]
  simp

end

theorem repairs_entry {bare : List Nat → Bool} {i : Nat} {e : String × Value}
    (hvalue : Repairs [] (printBare (fun place => bare (i :: place)) e.2)
      (printSpelt requotedSpelling e.2))
    {c : Char} (hc : isOpener c = true) {gap : List Char} (hgap : ∀ d ∈ gap, d = ' ') :
    Repairs (c :: gap) (printSpeltEntry (bareSpelling bare) i e)
      (printSpeltEntry requotedSpelling i e) := by
  unfold printSpeltEntry
  by_cases hchosen : Role.key = .key ∧ bare [i] = true ∧ isBareKey e.1.toList = true
  · rw [bareSpelling, if_pos hchosen]
    exact repairs_bareKey hgap hvalue hc hchosen.2.2
  · rw [bareSpelling, if_neg hchosen]
    exact repairs_quotedKey hgap hvalue e.1.toList

/-- The repair of a value repairs its strings, and puts each key in quotes. -/
theorem repairs_printBare {v : Value} (h : v.IsFloatFree) (bare : List Nat → Bool) :
    Repairs [] (printBare bare v) (printSpelt requotedSpelling v) := by
  induction h generalizing bare with
  | null => exact @repairs_of_no_opener ['n', 'u', 'l', 'l'] (by simp [isOpener])
  | bool b =>
      cases b with
      | false => exact @repairs_of_no_opener ['f', 'a', 'l', 's', 'e'] (by simp [isOpener])
      | true => exact @repairs_of_no_opener ['t', 'r', 'u', 'e'] (by simp [isOpener])
  | int hwritable =>
      refine repairs_of_no_opener fun c hc => ?_
      rcases mem_numeral_of_intChars hc with hdigit | rfl | rfl | rfl
      · exact isOpener_of_isDigit hdigit
      · rfl
      · rfl
      · rfl
  | text s => exact fun rest _ => quoteBareKeys_stringChars s.toList rest
  | list hitems ih =>
      rw [printBare, Json.printSpelt_list, Json.printSpelt_list]
      refine repairs_list (fun i v hv => ih v hv fun place => bare (i :: place)) ?_
      exact fun i v hv rest => find?_printBare (hitems v hv) fun place => bare (i :: place)
  | dict hkeys hentries ih =>
      rw [printBare, Json.printSpelt_dict, Json.printSpelt_dict]
      have hvalue := fun i e he => ih e he fun place => bare (i :: place)
      refine repairs_dict (fun i e he => repairs_entry (hvalue i e he) rfl (List.forall_mem_nil _))
        fun i e he => repairs_entry (hvalue i e he) rfl (List.forall_mem_singleton.mpr rfl)

/-- The repair gives every key its quotes again, and leaves of each string what it makes of it. -/
theorem quoteBareKeys_printBare {v : Value} (h : v.IsFloatFree) (bare : List Nat → Bool) :
    quoteBareKeys (printBare bare v) = printSpelt requotedSpelling v := by
  have hrepair := repairs_printBare h bare [] closes_nil
  rwa [List.nil_append, List.nil_append, List.append_nil, quoteBareKeys, List.append_nil] at hrepair

/-! ## Reading a default with bare keys -/

theorem isStructured_printSpelt {v : Value} (h : v.IsStructured) (spelling : Spelling) :
    isStructured (printSpelt spelling v) = true := by
  cases v with
  | list items =>
      rw [Json.printSpelt_list]
      exact isStructured_bracketed (Or.inl ⟨rfl, rfl⟩) .line 0 _
  | dict entries =>
      rw [Json.printSpelt_dict]
      exact isStructured_bracketed (Or.inr ⟨rfl, rfl⟩) .line 0 _
  | _ => cases h

theorem readJson_of_misspells {v : Value} (h : v.IsFloatFree) {spelling : Spelling}
    (hspelling : spelling.ExactOrFaulty) (hmisspells : spelling.Misspells v) :
    readJson (printSpelt spelling v) = .ok none := by
  obtain ⟨fault, line, column, position, hparse⟩ :=
    Json.malformed_parse_printSpelt h hspelling hmisspells
  rw [readJson, hparse]

theorem readJson_of_exact {v : Value} (h : v.IsFloatFree) {spelling : Spelling}
    (hexact : ¬ spelling.Misspells v) : readJson (printSpelt spelling v) = .ok (some v) := by
  have hparse := Json.parse_print h .line (List.forall_mem_nil _)
  rw [List.append_nil] at hparse
  rw [Json.printSpelt_of_exact h hexact 0, readJson, hparse]
  rfl

/-- A text between brackets that is not JSON stands for what its repaired form does, or else for
itself. -/
theorem read_of_repair {cs : List Char} {second : Option Value} (hstructured : isStructured cs = true)
    (hfirst : readJson cs = .ok none) (hsecond : readJson (quoteBareKeys cs) = .ok second) :
    read cs = .ok (second.getD (.text (String.ofList cs))) := by
  unfold read
  simp only [trim_of_isStructured hstructured, hstructured, if_true]
  cases second with
  | none => simp only [readStructured, hfirst, hsecond, bind, Except.bind, Option.getD_none]
  | some v => simp only [readStructured, hfirst, hsecond, bind, Except.bind, Option.getD_some]

/-! ### A colon in a text

A dictionary of one text, whose key has no quotes: where the text has a comma and a word in it, it
depends on the colon behind that word what the default is. -/

theorem isFloatFree_entry (k s : String) : (Value.dict [(k, .text s)]).IsFloatFree :=
  .dict (by simp [Table.keys]) (List.forall_mem_singleton.mpr (.text s))

theorem losesQuotes_entry {k : String} (hk : isBareKey k.toList = true) (s : String) :
    LosesQuotes (fun _ => true) (.dict [(k, .text s)]) :=
  ⟨[0], k, .key (i := 0) (e := (k, .text s)) rfl, rfl, hk⟩

theorem stringHoldsBareKey_entry_iff {k s : String} :
    StringHoldsBareKey (.dict [(k, .text s)]) ↔ HoldsBareKey k.toList ∨ HoldsBareKey s.toList := by
  constructor
  · rintro ⟨place, role, s', hstring, hholds⟩
    cases hstring with
    | @key _ i _ hentry =>
        cases i <;> cases hentry
        exact Or.inl hholds
    | @value _ i _ _ _ _ hentry hstring =>
        cases i <;> cases hentry
        cases hstring
        exact Or.inr hholds
  · rintro (hk | hs)
    · exact ⟨[0], .key, k, .key (i := 0) (e := (k, .text s)) rfl, hk⟩
    · exact ⟨[0], .text, s, .value (i := 0) (e := (k, .text s)) rfl (.text s), hs⟩

theorem holdsBareKey_comma_colon : HoldsBareKey "x, b: c".toList :=
  .later 'x' (.here (c := ',') rfl (@OpensBareKey.mk 1 0 ['b'] rfl [' ', 'c']))

/-! ### All values and all choices of keys -/

section

variable {v : Value} (h : v.IsFloatFree) (hstructured : v.IsStructured) {bare : List Nat → Bool}

include h hstructured

theorem read_printBare_of_keeps (hkeeps : ¬ LosesQuotes bare v) :
    read (printBare bare v) = .ok v := by
  have hparse := Json.parse_print h .line (List.forall_mem_nil _)
  rw [List.append_nil] at hparse
  have hread := read_of_parse (isStructured_print hstructured .line 0) hparse
    (List.forall_mem_nil _) (List.forall_mem_nil _)
  rw [printBare_of_keeps h hkeeps]
  rwa [List.append_nil] at hread

theorem read_printBare_of_loses (hloses : LosesQuotes bare v) (hstrings : ¬ StringHoldsBareKey v) :
    read (printBare bare v) = .ok v := by
  have hfirst := readJson_of_misspells h (exactOrFaulty_bareSpelling bare)
    (misspells_bareSpelling_iff.mpr hloses)
  have hexact : ¬ requotedSpelling.Misspells v := mt misspells_requotedSpelling_iff.mp hstrings
  have hsecond := readJson_of_exact h hexact
  rw [← quoteBareKeys_printBare h bare] at hsecond
  exact read_of_repair (isStructured_printSpelt hstructured _) hfirst hsecond

theorem read_printBare_of_holds (hloses : LosesQuotes bare v) (hholds : StringHoldsBareKey v) :
    read (printBare bare v) = .ok (.text (String.ofList (printBare bare v))) := by
  have hfirst := readJson_of_misspells h (exactOrFaulty_bareSpelling bare)
    (misspells_bareSpelling_iff.mpr hloses)
  have hsecond := readJson_of_misspells h exactOrFaulty_requotedSpelling
    (misspells_requotedSpelling_iff.mpr hholds)
  rw [← quoteBareKeys_printBare h bare] at hsecond
  exact read_of_repair (isStructured_printSpelt hstructured _) hfirst hsecond

/-- A list or a dictionary without floats is read from its JSON text with any choice of keys written
without quotes, unless a string of it holds what looks like a bare key: then the text stands for
itself, as soon as one key has no quotes. -/
theorem read_printBare (bare : List Nat → Bool) :
    (read (printBare bare v) = .ok v ↔ ¬ (LosesQuotes bare v ∧ StringHoldsBareKey v)) ∧
    (LosesQuotes bare v ∧ StringHoldsBareKey v →
      read (printBare bare v) = .ok (.text (String.ofList (printBare bare v)))) := by
  refine ⟨⟨?_, fun hnot => ?_⟩, fun hboth => ?_⟩
  · rintro hread ⟨hloses, hholds⟩
    rw [read_printBare_of_holds h hstructured hloses hholds] at hread
    rw [← Except.ok.inj hread] at hstructured
    exact hstructured
  · by_cases hloses : LosesQuotes bare v
    · exact read_printBare_of_loses h hstructured hloses fun hholds => hnot ⟨hloses, hholds⟩
    · exact read_printBare_of_keeps h hstructured hloses
  · exact read_printBare_of_holds h hstructured hboth.1 hboth.2

end

theorem read_printBare_colon :
    let v : Value := .dict [("a", .text "x, b")]
    let w : Value := .dict [("a", .text "x, b: c")]
    (v.IsFloatFree ∧ v.IsStructured ∧ LosesQuotes (fun _ => true) v ∧
      read "\x7ba: \"x, b\"\x7d".toList = .ok v) ∧
    (w.IsFloatFree ∧ w.IsStructured ∧ LosesQuotes (fun _ => true) w ∧
      read "\x7ba: \"x, b: c\"\x7d".toList = .ok (.text "\x7ba: \"x, b: c\"\x7d")) := by
  intro v w
  have hfree := isFloatFree_entry "a"
  have hloses := @losesQuotes_entry "a" rfl
  have hv : printBare (fun _ => true) v = "\x7ba: \"x, b\"\x7d".toList := by decide +kernel
  have hw : printBare (fun _ => true) w = "\x7ba: \"x, b: c\"\x7d".toList := by decide +kernel
  have hkeeps : ¬ StringHoldsBareKey v := by
    rw [stringHoldsBareKey_entry_iff, not_or]
    exact ⟨fun hk => absurd hk.colon_mem (by decide), fun hs => absurd hs.colon_mem (by decide)⟩
  have hholds : StringHoldsBareKey w :=
    stringHoldsBareKey_entry_iff.mpr (Or.inr holdsBareKey_comma_colon)
  have hread := (read_printBare (hfree "x, b") trivial fun _ => true).1.mpr
    fun hboth => hkeeps hboth.2
  have hstands := (read_printBare (hfree "x, b: c") trivial fun _ => true).2
    ⟨hloses "x, b: c", hholds⟩
  rw [hv] at hread
  rw [hw, String.ofList_toList] at hstands
  exact ⟨⟨hfree _, trivial, hloses _, hread⟩, hfree _, trivial, hloses _, hstands⟩

theorem not_forall_read_printBare :
    ¬ ∀ (v : Value) (bare : List Nat → Bool), v.IsFloatFree → v.IsStructured →
      LosesQuotes bare v → read (printBare bare v) = .ok v := by
  intro hall
  have hfree := isFloatFree_entry "a" "x, b: c"
  have hloses := losesQuotes_entry (k := "a") rfl "x, b: c"
  have hholds := stringHoldsBareKey_entry_iff (k := "a").mpr (Or.inr holdsBareKey_comma_colon)
  have hread := read_printBare_of_holds hfree trivial hloses hholds
  rw [hall _ _ hfree trivial hloses] at hread
  cases hread

end Default

end MessagePattern
