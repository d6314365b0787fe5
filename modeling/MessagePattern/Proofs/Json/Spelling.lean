import MessagePattern.Proofs.Json.RoundTrip

/-!
# Values with misspelt strings

A value is written on one line with each of its strings spelt as its place asks for. Where all
are spelt as JSON has it, that is the text of the value (`printSpelt_of_exact`). A string can be
misspelt in two ways: a key has no quotes, or a quote in the middle of it is not escaped. The
reader then stops behind that string at the latest (`Halts`), however the other strings are spelt,
so that no text with a misspelt string is read as anything (`malformed_parse_printSpelt`).
-/

namespace MessagePattern

/-- What a string is for: it names an entry of a dictionary, or it is a value. -/
inductive Json.Role where
  | key
  | text
  deriving DecidableEq, Repr

open Json (Role)

/-- The strings of a value. The place of a string is the way to it: the numbers, from zero, of the
items and entries that hold it, the outermost first. -/
inductive Value.HasString : Value → List Nat → Role → String → Prop
  | text (s : String) : HasString (.text s) [] .text s
  | item {items : List Value} {i : Nat} {v : Value} {place : List Nat} {role : Role} {s : String}
      (hitem : items[i]? = some v) (hstring : HasString v place role s) :
      HasString (.list items) (i :: place) role s
  | key {entries : Fields} {i : Nat} {e : String × Value} (hentry : entries[i]? = some e) :
      HasString (.dict entries) [i] .key e.1
  | value {entries : Fields} {i : Nat} {e : String × Value} {place : List Nat} {role : Role}
      {s : String} (hentry : entries[i]? = some e) (hstring : HasString e.2 place role s) :
      HasString (.dict entries) (i :: place) role s

namespace Json

/-! ## Spellings -/

/-- How the string at a place is written. -/
def Spelling : Type := List Nat → Role → String → List Char

/-- The spelling of the strings in the item or the entry of a number. -/
def Spelling.within (spelling : Spelling) (i : Nat) : Spelling :=
  fun place => spelling (i :: place)

mutual

/-- The text of a value on one line, in a spelling of its strings. -/
def printSpelt (spelling : Spelling) : Value → List Char
  | .text s => spelling [] .text s
  | .list items => bracketed .line 0 '[' ']' (printSpeltItems spelling 0 items)
  | .dict entries => bracketed .line 0 '\x7b' '\x7d' (printSpeltEntries spelling 0 entries)
  | v => print .line 0 v

/-- The texts of items, of which the first has the number `i`. -/
def printSpeltItems (spelling : Spelling) (i : Nat) : List Value → List (List Char)
  | [] => []
  | v :: rest => printSpelt (spelling.within i) v :: printSpeltItems spelling (i + 1) rest

/-- The texts of entries, of which the first has the number `i`. -/
def printSpeltEntries (spelling : Spelling) (i : Nat) : List (String × Value) → List (List Char)
  | [] => []
  | (k, v) :: rest =>
    (spelling [i] .key k ++ ':' :: ' ' :: printSpelt (spelling.within i) v) ::
      printSpeltEntries spelling (i + 1) rest

end

/-- The text of the entry of a number. -/
def printSpeltEntry (spelling : Spelling) (i : Nat) (e : String × Value) : List Char :=
  spelling [i] .key e.1 ++ ':' :: ' ' :: printSpelt (spelling.within i) e.2

theorem printSpelt_list (spelling : Spelling) (items : List Value) :
    printSpelt spelling (.list items) =
      bracketed .line 0 '[' ']' (items.mapIdx fun i => printSpelt (spelling.within i)) := by
  have hitems : ∀ i, printSpeltItems spelling i items =
      items.mapIdx fun j => printSpelt (spelling.within (i + j)) := by
    induction items with
    | nil => exact fun _ => rfl
    | cons v items ih =>
        intro i
        simp only [printSpeltItems, ih, List.mapIdx_cons, Nat.add_zero, Nat.add_assoc,
          Nat.add_comm 1]
  rw [printSpelt, hitems]
  simp only [Nat.zero_add]

theorem printSpelt_dict (spelling : Spelling) (entries : Fields) :
    printSpelt spelling (.dict entries) =
      bracketed .line 0 '\x7b' '\x7d' (entries.mapIdx (printSpeltEntry spelling)) := by
  have hentries : ∀ i, printSpeltEntries spelling i entries =
      entries.mapIdx fun j => printSpeltEntry spelling (i + j) := by
    induction entries with
    | nil => exact fun _ => rfl
    | cons e entries ih =>
        intro i
        simp only [printSpeltEntries, ih, List.mapIdx_cons, Nat.add_zero, Nat.add_assoc,
          Nat.add_comm 1]
        rfl
  rw [printSpelt, hentries]
  simp only [Nat.zero_add]

/-- Texts on one line, with a comma and a space between them. -/
def joined (texts : List (List Char)) : List Char :=
  List.intercalate [',', ' '] texts

theorem joined_cons_cons (text text' : List Char) (texts : List (List Char)) :
    joined (text :: text' :: texts) = text ++ ',' :: ' ' :: joined (text' :: texts) := by
  rw [joined, List.intercalate_cons_cons, joined, List.append_assoc]
  rfl

theorem exists_joined_cons (text : List Char) (texts : List (List Char)) :
    ∃ more, joined (text :: texts) = text ++ more := by
  cases texts with
  | nil => exact ⟨[], by rw [joined, List.intercalate_singleton, List.append_nil]⟩
  | cons text' texts => exact ⟨_, joined_cons_cons text text' texts⟩

/-- On one line nothing depends on the level. -/
theorem bracketed_line (level : Nat) (opening closing : Char) (texts : List (List Char)) :
    bracketed .line level opening closing texts = opening :: (joined texts ++ [closing]) := by
  cases texts with
  | nil => rfl
  | cons text texts => simp [bracketed, joined, Style.lead, Style.between, Style.line]

/-! ## Misspelt strings -/

/-- Some string of a value is not spelt as JSON has it. -/
def Spelling.Misspells (spelling : Spelling) (v : Value) : Prop :=
  ∃ place role s, v.HasString place role s ∧ spelling place role s ≠ stringChars s.toList

section

variable {spelling : Spelling}

theorem misspells_text {s : String} :
    spelling.Misspells (.text s) ↔ spelling [] .text s ≠ stringChars s.toList := by
  constructor
  · rintro ⟨_, _, _, ⟨⟩, hne⟩
    exact hne
  · exact fun hne => ⟨[], .text, s, .text s, hne⟩

theorem misspells_list {items : List Value} : spelling.Misspells (.list items) ↔
    ∃ i v, items[i]? = some v ∧ (spelling.within i).Misspells v := by
  constructor
  · rintro ⟨_, role, s, hstring, hne⟩
    cases hstring with
    | item hitem hstring => exact ⟨_, _, hitem, _, role, s, hstring, hne⟩
  · rintro ⟨i, v, hitem, place, role, s, hstring, hne⟩
    exact ⟨i :: place, role, s, .item hitem hstring, hne⟩

theorem misspells_dict {entries : Fields} : spelling.Misspells (.dict entries) ↔
    ∃ i e, entries[i]? = some e ∧ (spelling [i] .key e.1 ≠ stringChars e.1.toList ∨
      (spelling.within i).Misspells e.2) := by
  constructor
  · rintro ⟨_, role, s, hstring, hne⟩
    cases hstring with
    | key hentry => exact ⟨_, _, hentry, Or.inl hne⟩
    | value hentry hstring => exact ⟨_, _, hentry, Or.inr ⟨_, role, s, hstring, hne⟩⟩
  · rintro ⟨i, e, hentry, hne | ⟨place, role, s, hstring, hne⟩⟩
    · exact ⟨[i], .key, e.1, .key hentry, hne⟩
    · exact ⟨i :: place, role, s, .value hentry hstring, hne⟩

end

/-- Spelt as JSON has them, the strings of a value make its text. -/
theorem printSpelt_of_exact {v : Value} (h : v.IsFloatFree) {spelling : Spelling}
    (hexact : ¬ spelling.Misspells v) (level : Nat) :
    printSpelt spelling v = print .line level v := by
  induction h generalizing spelling level with
  | null => rfl
  | bool b => cases b <;> rfl
  | int hwritable => rfl
  | text s => exact Decidable.byContradiction fun hne => hexact (misspells_text.mpr hne)
  | list hitems ih =>
      rw [printSpelt_list, print_list, bracketed_line, bracketed_line]
      congr 3
      refine List.ext_getElem? fun i => ?_
      rw [List.getElem?_mapIdx, List.getElem?_map]
      refine Option.map_congr fun v hv => ?_
      exact ih v (List.mem_of_getElem? hv)
        (fun hmisspells => hexact (misspells_list.mpr ⟨i, v, hv, hmisspells⟩)) (level + 1)
  | dict hkeys hentries ih =>
      rw [printSpelt_dict, print_dict, bracketed_line, bracketed_line]
      congr 3
      refine List.ext_getElem? fun i => ?_
      rw [List.getElem?_mapIdx, Style.arrange, if_neg (by decide), List.getElem?_map]
      refine Option.map_congr fun e he => ?_
      have hvalue := ih e (List.mem_of_getElem? he)
        (fun hmisspells => hexact (misspells_dict.mpr ⟨i, e, he, Or.inr hmisspells⟩)) (level + 1)
      have hkey : spelling [i] .key e.1 = stringChars e.1.toList :=
        Decidable.byContradiction fun hne => hexact (misspells_dict.mpr ⟨i, e, he, Or.inl hne⟩)
      rw [printSpeltEntry, hkey, hvalue]
      rfl

/-! ## Texts that stop the reader -/

/-- Reading stopped at a malformed place. -/
def Malformed {α : Type} (read : Except Stop α) : Prop :=
  ∃ fault left, read = .error (.malformed fault left)

theorem malformed_stopAt {α : Type} (fault : Fault) (rest : List Char) :
    Malformed (stopAt fault rest : Except Stop α) :=
  ⟨fault, rest.length, rfl⟩

theorem Malformed.bind {α β : Type} {read : Except Stop α} (h : Malformed read)
    (next : α → Except Stop β) : Malformed (read >>= next) := by
  obtain ⟨fault, left, rfl⟩ := h
  exact ⟨fault, left, rfl⟩

/-- A character that may stand behind no string, list or dictionary, nor open an entry. -/
def Stray (c : Char) : Prop :=
  isSpace c = false ∧ c ∉ ['"', ',', ':', ']', '\x7d']

theorem Stray.cons_ne {c d : Char} (h : Stray c) (hd : d ∈ ['"', ',', ':', ']', '\x7d'])
    (cs ds : List Char) : c :: cs ≠ d :: ds :=
  fun heq => h.2 ((List.cons.inj heq).1 ▸ hd)

/-- The misspelt strings: a key without quotes, and a string with a quote inside. -/
inductive Faulty : Role → List Char → Prop
  | bare {c : Char} (hc : Stray c) (more : List Char) : Faulty .key (c :: more)
  | cutShort {c : Char} (hc : Stray c) (role : Role) (cs more : List Char) :
      Faulty role ('"' :: (cs.flatMap escapeChar ++ '"' :: c :: more))

theorem Faulty.ne_stringChars {role : Role} {text : List Char} (h : Faulty role text)
    (cs : List Char) : text ≠ stringChars cs := by
  cases h with
  | bare hc more => exact hc.cons_ne (by decide) more _
  | @cutShort c _ _ ds more =>
      intro heq
      -- Behind one of the two strings there is something left to read.
      have hds := readString_string [] ds (c :: more)
      rw [(List.cons.inj heq).2, readString_string [] cs []] at hds
      cases hds

/-- A spelling in which a string is either spelt as JSON has it or faulty. -/
def Spelling.ExactOrFaulty (spelling : Spelling) : Prop :=
  ∀ place role s, spelling place role s = stringChars s.toList ∨
    Faulty role (spelling place role s)

/-- A text starts neither with a space nor with a closing bracket. -/
def Opens (text : List Char) : Prop :=
  ∃ c cs, text = c :: cs ∧ isSpace c = false ∧ c ≠ ']' ∧ c ≠ '\x7d'

theorem opens_of_isValueStart {text : List Char}
    (h : ∃ c cs, text = c :: cs ∧ isValueStart c = true) : Opens text := by
  obtain ⟨c, cs, rfl, hc⟩ := h
  refine ⟨c, cs, rfl, isSpace_of_isValueStart hc, ?_, ?_⟩
  all_goals
    rintro rfl
    cases hc

theorem Opens.append {text : List Char} (h : Opens text) (rest : List Char) :
    Opens (text ++ rest) := by
  obtain ⟨c, cs, rfl, hc⟩ := h
  exact ⟨c, cs ++ rest, rfl, hc⟩

theorem Opens.skipSpace_eq {text : List Char} (h : Opens text) : skipSpace text = text := by
  obtain ⟨c, cs, rfl, hspace, _⟩ := h
  exact skipSpace_cons hspace cs

theorem Opens.joined {text : List Char} (h : Opens text) (texts : List (List Char)) :
    Opens (joined (text :: texts)) := by
  obtain ⟨more, hmore⟩ := exists_joined_cons text texts
  rw [hmore]
  exact h.append more

/-- A text is read to its end, whatever follows. -/
structure Passes (text : List Char) : Prop where
  opens : Opens text
  read : ∃ v, ∀ fuel rest, text.length ≤ fuel → EndsNumber rest →
    readValue fuel (text ++ rest) = .ok (v, rest)

/-- A text is not read to its end, whatever follows: reading it is a failure, or it ends in front
of a character that nothing goes on with. -/
structure Halts (text : List Char) : Prop where
  opens : Opens text
  read : ∀ fuel rest, text.length ≤ fuel → Malformed (readValue fuel (text ++ rest)) ∨
    ∃ v c more, readValue fuel (text ++ rest) = .ok (v, c :: more) ∧ Stray c

theorem passes_print {v : Value} (h : v.IsFloatFree) (style : Style) (level : Nat) :
    Passes (print style level v) where
  opens := opens_of_isValueStart ((readsBack h style).start level)
  read := ⟨style.kept v, (readsBack h style).read level⟩

/-! ## Rows that stop the reader -/

theorem opens_joined {passes halts : List Char → Prop}
    (hopens : ∀ text, passes text ∨ halts text → Opens text) {texts : List (List Char)}
    (h : ∀ text ∈ texts, passes text ∨ halts text) (hhalts : ∃ text ∈ texts, halts text) :
    Opens (joined texts) := by
  cases texts with
  | nil =>
      obtain ⟨text, hmem, _⟩ := hhalts
      cases hmem
  | cons text texts => exact (hopens text (h text List.mem_cons_self)).joined texts

/-- A row stops what reads it if it stops at one of its texts and passes the others. -/
theorem stops_joined {stops : Nat → List Char → Prop} {passes halts : List Char → Prop}
    (hopens : ∀ text, passes text ∨ halts text → Opens text)
    (hhere : ∀ text rest fuel, halts text → text.length ≤ fuel → stops (fuel + 1) (text ++ rest))
    (hlater : ∀ text rest fuel, passes text → text.length ≤ fuel → Opens rest →
      stops fuel rest → stops (fuel + 1) (text ++ ',' :: ' ' :: rest))
    {texts : List (List Char)} (h : ∀ text ∈ texts, passes text ∨ halts text)
    (hhalts : ∃ text ∈ texts, halts text) {fuel : Nat} (rest : List Char)
    (hfuel : (joined texts).length < fuel) : stops fuel (joined texts ++ rest) := by
  induction texts generalizing fuel with
  | nil =>
      obtain ⟨text, hmem, _⟩ := hhalts
      cases hmem
  | cons text texts ih =>
      obtain ⟨fuel, rfl⟩ : ∃ n, fuel = n + 1 := ⟨fuel - 1, by omega⟩
      -- It is the first text that halts where reading stops; what follows it does not matter.
      by_cases hhalt : halts text
      · obtain ⟨more, hmore⟩ := exists_joined_cons text texts
        rw [hmore, List.length_append] at hfuel
        rw [hmore, List.append_assoc]
        exact hhere text (more ++ rest) fuel hhalt (by omega)
      · obtain ⟨htext, htexts⟩ := List.forall_mem_cons.mp h
        have hhalts : ∃ text ∈ texts, halts text := by
          obtain ⟨text', hmem, hhalt'⟩ := hhalts
          rcases List.mem_cons.mp hmem with rfl | hmem
          · exact absurd hhalt' hhalt
          · exact ⟨text', hmem, hhalt'⟩
        have hrow := opens_joined hopens htexts hhalts
        cases texts with
        | nil =>
            obtain ⟨text', hmem, _⟩ := hhalts
            cases hmem
        | cons text' texts =>
            rw [joined_cons_cons, List.length_append, List.length_cons, List.length_cons] at hfuel
            rw [joined_cons_cons, List.append_assoc, List.cons_append, List.cons_append]
            exact hlater text _ fuel (htext.resolve_right hhalt) (by omega) (hrow.append rest)
              (ih htexts hhalts (by omega))

/-- Behind an item nothing but a comma or the closing bracket may stand. -/
theorem malformed_readItems_halts {text : List Char} (rest : List Char) {fuel : Nat}
    (h : Halts text) (hfuel : text.length ≤ fuel) :
    Malformed (readItems (fuel + 1) (text ++ rest)) := by
  rw [readItems]
  rcases h.read fuel rest hfuel with hmalformed | ⟨v, c, more, hread, hc⟩
  · exact hmalformed.bind _
  · simp only [hread, bind, Except.bind, skipSpace_cons hc.1]
    split
    · rename_i hclose
      exact absurd hclose (hc.cons_ne (by decide) _ _)
    · rename_i hcomma
      exact absurd hcomma (hc.cons_ne (by decide) _ _)
    · exact malformed_stopAt _ _

theorem malformed_readItems_passes {text rest : List Char} {fuel : Nat} (h : Passes text)
    (hfuel : text.length ≤ fuel) (hrest : Opens rest) (hstop : Malformed (readItems fuel rest)) :
    Malformed (readItems (fuel + 1) (text ++ ',' :: ' ' :: rest)) := by
  obtain ⟨v, hread⟩ := h.read
  have hread := hread fuel (',' :: ' ' :: rest) hfuel (endsNumber_cons (by decide) _)
  have hcomma : skipSpace (',' :: ' ' :: rest) = ',' :: ' ' :: rest := skipSpace_cons rfl _
  have hspace : skipSpace (' ' :: rest) = rest := hrest.skipSpace_eq
  rw [readItems, hread]
  simp only [bind, Except.bind, hcomma, hspace]
  exact hstop.bind _

theorem malformed_readValue_list {row : List Char} {fuel : Nat} (h : Opens row)
    (hstop : Malformed (readItems fuel row)) : Malformed (readValue (fuel + 1) ('[' :: row)) := by
  obtain ⟨c, more, rfl, hspace, hclose, _⟩ := h
  rw [readValue, skipSpace_cons hspace]
  split
  · rename_i hempty
    exact absurd (List.cons.inj hempty).1 hclose
  · exact hstop.bind _

/-- A list stops the reader where one of its items does. -/
theorem halts_list {texts : List (List Char)} (h : ∀ text ∈ texts, Passes text ∨ Halts text)
    (hhalts : ∃ text ∈ texts, Halts text) : Halts (bracketed .line 0 '[' ']' texts) := by
  have hopens : ∀ text, Passes text ∨ Halts text → Opens text :=
    fun text htext => htext.elim Passes.opens Halts.opens
  rw [bracketed_line]
  refine ⟨⟨'[', _, rfl, by decide⟩, fun fuel rest hfuel => Or.inl ?_⟩
  rw [List.length_cons, List.length_append] at hfuel
  obtain ⟨fuel, rfl⟩ : ∃ n, fuel = n + 1 := ⟨fuel - 1, by omega⟩
  rw [List.cons_append, List.append_assoc]
  refine malformed_readValue_list ((opens_joined hopens h hhalts).append _) ?_
  exact stops_joined hopens (fun _ rest _ => malformed_readItems_halts rest)
    (fun _ _ _ => malformed_readItems_passes) h hhalts _ (by simp at hfuel; omega)

/-! ### Entries -/

/-- An entry is read to its end. -/
inductive EntryPasses : List Char → Prop
  | mk (key : List Char) {text : List Char} (h : Passes text) :
      EntryPasses (stringChars key ++ ':' :: ' ' :: text)

/-- An entry stops the reader in its key or in its value. -/
inductive EntryHalts : List Char → Prop
  | key {key : List Char} (h : Faulty .key key) (text : List Char) :
      EntryHalts (key ++ ':' :: ' ' :: text)
  | value (key : List Char) {text : List Char} (h : Halts text) :
      EntryHalts (stringChars key ++ ':' :: ' ' :: text)

theorem Faulty.opens {role : Role} {text : List Char} (h : Faulty role text) : Opens text := by
  cases h with
  | bare hc more =>
      obtain ⟨hspace, hmark⟩ := hc
      refine ⟨_, more, rfl, hspace, ?_, ?_⟩
      all_goals
        rintro rfl
        exact hmark (by decide)
  | cutShort hc role cs more => exact ⟨'"', _, rfl, by decide⟩

theorem opens_entry {text : List Char} (h : EntryPasses text ∨ EntryHalts text) : Opens text := by
  have hstring : ∀ key text, Opens (stringChars key ++ text) :=
    fun key text => ⟨'"', _, rfl, by decide⟩
  rcases h with ⟨key, _⟩ | hhalts
  · exact hstring key _
  · cases hhalts with
    | key h text => exact h.opens.append _
    | value key h => exact hstring key _

/-- Behind a key and its colon the value is read, and behind the value the other entries. It stops
the reader if one of these does. -/
theorem malformed_readEntries_value {fuel : Nat} {text : List Char} (key : List Char)
    (h : Opens text)
    (hstop : Malformed (readValue fuel text) ∨
      (∃ v c more, readValue fuel text = .ok (v, c :: more) ∧ Stray c) ∨
      ∃ v more, readValue fuel text = .ok (v, ',' :: ' ' :: more) ∧ Opens more ∧
        Malformed (readEntries fuel more)) :
    Malformed (readEntries (fuel + 1) (stringChars key ++ ':' :: ' ' :: text)) := by
  have hcolon : skipSpace (':' :: ' ' :: text) = ':' :: ' ' :: text := skipSpace_cons rfl _
  have hspace : skipSpace (' ' :: text) = text := h.skipSpace_eq
  rw [stringChars_append, readEntries, readString_string]
  simp only [bind, Except.bind, hcolon, hspace]
  rcases hstop with hvalue | ⟨v, c, more, hread, hc⟩ | ⟨v, more, hread, hmore, hentries⟩
  · exact hvalue.bind _
  · simp only [hread, skipSpace_cons hc.1]
    split
    · rename_i hclose
      exact absurd hclose (hc.cons_ne (by decide) _ _)
    · rename_i hcomma
      exact absurd hcomma (hc.cons_ne (by decide) _ _)
    · exact malformed_stopAt _ _
  · have hcomma : skipSpace (',' :: ' ' :: more) = ',' :: ' ' :: more := skipSpace_cons rfl _
    have hnext : skipSpace (' ' :: more) = more := hmore.skipSpace_eq
    simp only [hread, hcomma, hnext]
    exact hentries.bind _

theorem malformed_readEntries_key {key : List Char} (h : Faulty .key key) (rest : List Char)
    (fuel : Nat) : Malformed (readEntries (fuel + 1) (key ++ rest)) := by
  cases h with
  | bare hc more =>
      rw [List.cons_append, readEntries]
      · exact malformed_stopAt _ _
      · rintro _ ⟨rfl, _⟩
        exact hc.2 (by decide)
  | @cutShort c hc _ cs more =>
      have hkey : '"' :: (cs.flatMap escapeChar ++ '"' :: c :: more) ++ rest =
          stringChars cs ++ c :: (more ++ rest) := by
        simp [stringChars]
      rw [hkey, stringChars_append, readEntries, readString_string]
      simp only [bind, Except.bind, skipSpace_cons hc.1]
      split
      · rename_i hcolon
        exact absurd hcolon (hc.cons_ne (by decide) _ _)
      · exact malformed_stopAt _ _

theorem malformed_readEntries_halts {text : List Char} (rest : List Char) {fuel : Nat}
    (h : EntryHalts text) (hfuel : text.length ≤ fuel) :
    Malformed (readEntries (fuel + 1) (text ++ rest)) := by
  cases h with
  | key h text =>
      rw [List.append_assoc]
      exact malformed_readEntries_key h _ fuel
  | @value key text h =>
      rw [List.length_append, List.length_cons, List.length_cons] at hfuel
      rw [List.append_assoc, List.cons_append, List.cons_append]
      exact malformed_readEntries_value key (h.opens.append rest)
        ((h.read fuel rest (by omega)).imp_right Or.inl)

theorem malformed_readEntries_passes {text rest : List Char} {fuel : Nat} (h : EntryPasses text)
    (hfuel : text.length ≤ fuel) (hrest : Opens rest) (hstop : Malformed (readEntries fuel rest)) :
    Malformed (readEntries (fuel + 1) (text ++ ',' :: ' ' :: rest)) := by
  obtain @⟨key, text, h⟩ := h
  obtain ⟨v, hread⟩ := h.read
  rw [List.length_append, List.length_cons, List.length_cons] at hfuel
  have hread := hread fuel (',' :: ' ' :: rest) (by omega) (endsNumber_cons (by decide) _)
  rw [List.append_assoc, List.cons_append, List.cons_append]
  exact malformed_readEntries_value key (h.opens.append _)
    (Or.inr (Or.inr ⟨v, rest, hread, hrest, hstop⟩))

theorem malformed_readValue_dict {row : List Char} {fuel : Nat} (h : Opens row)
    (hstop : Malformed (readEntries fuel row)) :
    Malformed (readValue (fuel + 1) ('\x7b' :: row)) := by
  obtain ⟨c, more, rfl, hspace, _, hclose⟩ := h
  rw [readValue, skipSpace_cons hspace]
  split
  · rename_i hempty
    exact absurd (List.cons.inj hempty).1 hclose
  · exact hstop.bind _

/-- A dictionary stops the reader where one of its entries does. -/
theorem halts_dict {texts : List (List Char)}
    (h : ∀ text ∈ texts, EntryPasses text ∨ EntryHalts text)
    (hhalts : ∃ text ∈ texts, EntryHalts text) :
    Halts (bracketed .line 0 '\x7b' '\x7d' texts) := by
  have hopens : ∀ text, EntryPasses text ∨ EntryHalts text → Opens text := fun _ => opens_entry
  rw [bracketed_line]
  refine ⟨⟨'\x7b', _, rfl, by decide⟩, fun fuel rest hfuel => Or.inl ?_⟩
  rw [List.length_cons, List.length_append] at hfuel
  obtain ⟨fuel, rfl⟩ : ∃ n, fuel = n + 1 := ⟨fuel - 1, by omega⟩
  rw [List.cons_append, List.append_assoc]
  refine malformed_readValue_dict ((opens_joined hopens h hhalts).append _) ?_
  exact stops_joined hopens (fun _ rest _ => malformed_readEntries_halts rest)
    (fun _ _ _ => malformed_readEntries_passes) h hhalts _ (by simp at hfuel; omega)

/-! ## Values that stop the reader -/

theorem halts_text {text : List Char} (h : Faulty .text text) : Halts text := by
  refine ⟨h.opens, fun fuel rest hfuel => Or.inr ?_⟩
  cases h with
  | @cutShort c hc _ cs more =>
      rw [List.length_cons] at hfuel
      obtain ⟨fuel, rfl⟩ : ∃ n, fuel = n + 1 := ⟨fuel - 1, by omega⟩
      refine ⟨.text (String.ofList cs), c, more ++ rest, ?_, hc⟩
      rw [List.cons_append, List.append_assoc, List.cons_append, List.cons_append, readValue,
        readString_string]
      rfl

theorem Spelling.ExactOrFaulty.within {spelling : Spelling} (h : spelling.ExactOrFaulty) (i : Nat) :
    (spelling.within i).ExactOrFaulty :=
  fun place => h (i :: place)

/-- Whatever is well spelt is read to its end, so the reader stops at a string that is not. -/
theorem halts_printSpelt {v : Value} (h : v.IsFloatFree) {spelling : Spelling}
    (hspelling : spelling.ExactOrFaulty) (hmisspells : spelling.Misspells v) :
    Halts (printSpelt spelling v) := by
  induction h generalizing spelling with
  | null =>
      obtain ⟨_, _, _, ⟨⟩, _⟩ := hmisspells
  | bool b =>
      obtain ⟨_, _, _, ⟨⟩, _⟩ := hmisspells
  | int hwritable =>
      obtain ⟨_, _, _, ⟨⟩, _⟩ := hmisspells
  | text s => exact halts_text ((hspelling [] .text s).resolve_left (misspells_text.mp hmisspells))
  | @list items hitems ih =>
      rw [printSpelt_list]
      apply halts_list
      · intro text hmem
        obtain ⟨i, hi, rfl⟩ := List.mem_mapIdx.mp hmem
        have hv := List.getElem_mem hi
        by_cases hwithin : (spelling.within i).Misspells items[i]
        · exact Or.inr (ih _ hv (hspelling.within i) hwithin)
        · rw [printSpelt_of_exact (hitems _ hv) hwithin 0]
          exact Or.inl (passes_print (hitems _ hv) .line 0)
      · obtain ⟨i, v, hv, hwithin⟩ := misspells_list.mp hmisspells
        obtain ⟨hi, rfl⟩ := List.getElem?_eq_some_iff.mp hv
        exact ⟨_, List.mem_mapIdx.mpr ⟨i, hi, rfl⟩,
          ih _ (List.getElem_mem hi) (hspelling.within i) hwithin⟩
  | @dict entries hkeys hentries ih =>
      have hhalts : ∀ i e, e ∈ entries → (spelling [i] .key e.1 ≠ stringChars e.1.toList ∨
          (spelling.within i).Misspells e.2) → EntryHalts (printSpeltEntry spelling i e) := by
        intro i e he hentry
        -- The key is read first, so the value counts only where the key is well spelt.
        by_cases hkey : spelling [i] .key e.1 = stringChars e.1.toList
        · rw [printSpeltEntry, hkey]
          exact .value _ (ih e he (hspelling.within i) (hentry.resolve_left (not_not_intro hkey)))
        · exact .key ((hspelling [i] .key e.1).resolve_left hkey) _
      rw [printSpelt_dict]
      apply halts_dict
      · intro text hmem
        obtain ⟨i, hi, rfl⟩ := List.mem_mapIdx.mp hmem
        have he := List.getElem_mem hi
        by_cases hentry : spelling [i] .key entries[i].1 ≠ stringChars entries[i].1.toList ∨
          (spelling.within i).Misspells entries[i].2
        · exact Or.inr (hhalts i _ he hentry)
        · obtain ⟨hkey, hvalue⟩ := not_or.mp hentry
          rw [printSpeltEntry, Decidable.not_not.mp hkey,
            printSpelt_of_exact (hentries _ he) hvalue 0]
          exact Or.inl (.mk _ (passes_print (hentries _ he) .line 0))
      · obtain ⟨i, e, he, hentry⟩ := misspells_dict.mp hmisspells
        obtain ⟨hi, rfl⟩ := List.getElem?_eq_some_iff.mp he
        exact ⟨_, List.mem_mapIdx.mpr ⟨i, hi, rfl⟩, hhalts i _ (List.getElem_mem hi) hentry⟩

theorem Halts.readDocument {text : List Char} (h : Halts text) : Malformed (readDocument text) := by
  unfold Json.readDocument
  split
  · exact malformed_stopAt _ _
  · have hread := h.read (text.length + 1) [] (Nat.le_succ _)
    rw [List.append_nil] at hread
    simp only [h.opens.skipSpace_eq]
    rcases hread with hmalformed | ⟨v, c, more, hread, hspace, _⟩
    · exact hmalformed.bind _
    · simp only [hread, bind, Except.bind, skipSpace_cons hspace]
      exact malformed_stopAt _ _

/-- No text with a misspelt string is read as anything. -/
theorem malformed_parse_printSpelt {v : Value} (h : v.IsFloatFree) {spelling : Spelling}
    (hspelling : spelling.ExactOrFaulty) (hmisspells : spelling.Misspells v) :
    ∃ fault line column position, parse (printSpelt spelling v) =
      .error (.malformed fault line column position) := by
  obtain ⟨fault, left, hread⟩ := (halts_printSpelt h hspelling hmisspells).readDocument
  rw [parse, hread]
  exact ⟨fault, _, _, _, rfl⟩

end Json

end MessagePattern
