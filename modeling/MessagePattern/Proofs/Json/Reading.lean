import MessagePattern.Default
import MessagePattern.Json.Printer
import MessagePattern.Proofs.Decimal.Numeral
import MessagePattern.Proofs.Json.KeyOrder

/-!
# Values that were read

What is read from a JSON text, and so also the default of a parameter, is a value of JSON
(`isJson_of_parse`, `isJson_of_defaultRead`): it holds data only, its keys are not repeated, and
no integer in it is longer than the digit limit, because an integer is never read from fewer
digits than it is written with. So it can be written again (`isData_of_isJson`).
-/

namespace MessagePattern

namespace Json

/-- Nothing keeps a value from being written as data. -/
def IsData (v : Value) : Prop :=
  writeFault? true v = none

/-! ## Data by its parts -/

theorem writeFaultItems?_eq_none_iff {dataOnly : Bool} {items : List Value} :
    writeFaultItems? dataOnly items = none ↔ ∀ v ∈ items, writeFault? dataOnly v = none := by
  induction items with
  | nil => simp [writeFaultItems?]
  | cons v rest ih => simp [writeFaultItems?, ih]

theorem writeFaultEntries?_eq_none_iff {dataOnly : Bool} {entries : Fields} :
    writeFaultEntries? dataOnly entries = none ↔
      ∀ e ∈ entries, writeFault? dataOnly e.2 = none := by
  induction entries with
  | nil => simp [writeFaultEntries?]
  | cons e rest ih => simp [writeFaultEntries?, ih]

theorem isData_list_iff {items : List Value} : IsData (.list items) ↔ ∀ v ∈ items, IsData v :=
  writeFaultItems?_eq_none_iff

theorem isData_dict_iff {entries : Fields} : IsData (.dict entries) ↔ ∀ e ∈ entries, IsData e.2 :=
  writeFaultEntries?_eq_none_iff

theorem isData_int_iff {i : Int} : IsData (.int i) ↔ Decimal.isWritable i = true := by
  unfold IsData writeFault?
  cases Decimal.isWritable i <;> simp

theorem areWritable_iff {items : List Value} :
    Value.areWritable items = true ↔ ∀ v ∈ items, v.isWritable = true := by
  induction items with
  | nil => simp [Value.areWritable]
  | cons v rest ih => simp [Value.areWritable, ih]

theorem areEntriesWritable_iff {entries : Fields} :
    Value.areEntriesWritable entries = true ↔ ∀ e ∈ entries, e.2.isWritable = true := by
  induction entries with
  | nil => simp [Value.areEntriesWritable]
  | cons e rest ih => simp [Value.areEntriesWritable, ih]

/-! Data is written also where other things than data would be. -/

mutual

theorem isWritable_of_isData : ∀ v : Value, IsData v → v.isWritable = true
  | .int _, h => isData_int_iff.mp h
  | .list items, h => areWritable_of_isData items h
  | .tuple items, h => areWritable_of_isData items h
  | .dict entries, h => areEntriesWritable_of_isData entries h
  | .null, _ => rfl
  | .bool _, _ => rfl
  | .float _, _ => rfl
  | .text _, _ => rfl
  | .extractor _ _, _ => rfl

theorem areWritable_of_isData : ∀ items : List Value,
    writeFaultItems? true items = none → Value.areWritable items = true
  | [], _ => rfl
  | v :: rest, h => by
    obtain ⟨hv, hrest⟩ := Option.or_eq_none_iff.mp h
    rw [Value.areWritable, isWritable_of_isData v hv, areWritable_of_isData rest hrest]
    rfl

theorem areEntriesWritable_of_isData : ∀ entries : List (String × Value),
    writeFaultEntries? true entries = none → Value.areEntriesWritable entries = true
  | [], _ => rfl
  | (_, v) :: rest, h => by
    obtain ⟨hv, hrest⟩ := Option.or_eq_none_iff.mp h
    rw [Value.areEntriesWritable, isWritable_of_isData v hv,
      areEntriesWritable_of_isData rest hrest]
    rfl

end

theorem isData_of_isJson {v : Value} (h : v.IsJson) : IsData v := by
  induction h with
  | null => rfl
  | bool b => rfl
  | int hwritable => exact isData_int_iff.mpr hwritable
  | float x => rfl
  | text s => rfl
  | list _ ih => exact isData_list_iff.mpr ih
  | dict _ _ ih => exact isData_dict_iff.mpr ih

theorem isWritable_of_isJson {v : Value} (h : v.IsJson) : v.isWritable = true :=
  isWritable_of_isData v (isData_of_isJson h)

theorem write_of_isData {v : Value} (h : IsData v) (style : Style) :
    write style true v = .ok (String.ofList (print style 0 v)) := by
  rw [write, show writeFault? true v = none from h]

theorem write_of_isWritable {v : Value} (h : v.isWritable = true) (style : Style) :
    write style false v = .ok (String.ofList (print style 0 v)) := by
  rw [write, writeFault?_false, if_pos h]

/-! ## Numbers and words -/

theorem isDigits_of_whole? {cs whole rest : List Char} (h : whole? cs = some (whole, rest)) :
    Decimal.isDigits whole = true := by
  unfold whole? at h
  split at h
  · cases h
    rfl
  · rename_i c more _
    split at h
    · rename_i hc
      cases h
      refine Decimal.isDigits_iff.mpr ⟨by simp [hc], ?_⟩
      exact List.all_eq_true.mp List.all_takeWhile
    · cases h
  · cases h

theorem isJson_of_readMagnitude {negative : Bool} {start body rest : List Char} {v : Value}
    (h : readMagnitude negative start body = .ok (v, rest)) : v.IsJson := by
  unfold readMagnitude at h
  split at h
  · cases h
  · rename_i whole behind hwhole
    simp only at h
    split at h
    · split at h
      · rename_i i hread
        cases h
        have hlength := Decimal.length_digits_le_of_readInt (isDigits_of_whole? hwhole) hread
        exact .int (decide_eq_true hlength)
      · cases h
    · cases h
      exact .float _

theorem isJson_of_readNumber {cs rest : List Char} {v : Value}
    (h : readNumber cs = .ok (v, rest)) : v.IsJson := by
  unfold readNumber at h
  split at h <;> exact isJson_of_readMagnitude h

theorem isJson_of_word? {cs rest : List Char} {v : Value} (h : word? cs = some (v, rest)) :
    v.IsJson := by
  obtain ⟨⟨word, found⟩, hmem, h⟩ := List.exists_of_findSome?_eq_some h
  obtain ⟨_, h⟩ := Option.ite_none_right_eq_some.mp h
  cases h
  have hall : ∀ entry ∈ wordValues, entry.2.IsJson := by
    simp only [wordValues, List.forall_mem_cons]
    exact ⟨.null, .bool true, .bool false, .float _, .float _, .float _,
      fun _ h => absurd h List.not_mem_nil⟩
  exact hall _ hmem

/-! ## Values -/

/-- What is read with some fuel is of JSON. -/
structure ReadsJson (fuel : Nat) : Prop where
  value : ∀ {cs rest v}, readValue fuel cs = .ok (v, rest) → v.IsJson
  items : ∀ {cs rest vs}, readItems fuel cs = .ok (vs, rest) → ∀ v ∈ vs, v.IsJson
  entries : ∀ {cs rest entries}, readEntries fuel cs = .ok (entries, rest) →
    ∀ e ∈ entries, e.2.IsJson

namespace ReadsJson

variable {fuel : Nat} {cs rest : List Char}

theorem isJson_readValue (h : ReadsJson fuel) {v : Value}
    (hread : readValue (fuel + 1) cs = .ok (v, rest)) : v.IsJson := by
  unfold readValue at hread
  split at hread
  · obtain ⟨found, _, hread⟩ := bind_eq_ok_iff.mp hread
    cases hread
    exact .text _
  · split at hread
    · cases hread
      exact .list (List.forall_mem_nil _)
    · obtain ⟨found, hitems, hread⟩ := bind_eq_ok_iff.mp hread
      cases hread
      exact .list (h.items hitems)
  · split at hread
    · cases hread
      exact .dict List.nodup_nil (List.forall_mem_nil _)
    · obtain ⟨found, hentries, hread⟩ := bind_eq_ok_iff.mp hread
      cases hread
      exact .dict (Table.nodup_keys_ofEntries found.1)
        (Table.forall_setAll (List.forall_mem_nil _) (h.entries hentries))
  · split at hread
    · rename_i hword
      cases hread
      exact isJson_of_word? hword
    · exact isJson_of_readNumber hread

theorem isJson_readItems (h : ReadsJson fuel) {vs : List Value}
    (hread : readItems (fuel + 1) cs = .ok (vs, rest)) : ∀ v ∈ vs, v.IsJson := by
  unfold readItems at hread
  obtain ⟨⟨v, behind⟩, hvalue, hread⟩ := bind_eq_ok_iff.mp hread
  simp only at hread
  split at hread
  · cases hread
    exact List.forall_mem_singleton.mpr (h.value hvalue)
  · obtain ⟨⟨more, behind'⟩, hitems, hread⟩ := bind_eq_ok_iff.mp hread
    cases hread
    exact List.forall_mem_cons.mpr ⟨h.value hvalue, h.items hitems⟩
  · cases hread

theorem isJson_readEntries (h : ReadsJson fuel) {entries : List (String × Value)}
    (hread : readEntries (fuel + 1) cs = .ok (entries, rest)) : ∀ e ∈ entries, e.2.IsJson := by
  unfold readEntries at hread
  split at hread
  · obtain ⟨⟨key, behind⟩, _, hread⟩ := bind_eq_ok_iff.mp hread
    simp only at hread
    split at hread
    · obtain ⟨⟨v, behind'⟩, hvalue, hread⟩ := bind_eq_ok_iff.mp hread
      simp only at hread
      split at hread
      · cases hread
        exact List.forall_mem_singleton.mpr (h.value hvalue)
      · obtain ⟨⟨more, behind''⟩, hentries, hread⟩ := bind_eq_ok_iff.mp hread
        cases hread
        exact List.forall_mem_cons.mpr ⟨h.value hvalue, h.entries hentries⟩
      · cases hread
    · cases hread
  · cases hread

end ReadsJson

/-- By induction on the fuel, which every call has less of. -/
theorem readsJson (fuel : Nat) : ReadsJson fuel := by
  induction fuel with
  | zero =>
      constructor
      · intro cs rest v h
        rw [readValue] at h
        cases h
      · intro cs rest vs h
        rw [readItems] at h
        cases h
      · intro cs rest entries h
        rw [readEntries] at h
        cases h
  | succ fuel ih => exact ⟨ih.isJson_readValue, ih.isJson_readItems, ih.isJson_readEntries⟩

theorem isJson_of_parse {text : List Char} {v : Value} (h : parse text = .ok v) : v.IsJson := by
  have h := mapError_eq_ok_iff.mp h
  unfold readDocument at h
  split at h
  · cases h
  · obtain ⟨⟨v', rest⟩, hread, h⟩ := bind_eq_ok_iff.mp h
    simp only at h
    split at h
    · cases h
      exact (readsJson _).value hread
    · cases h

end Json

/-! ## Defaults -/

open Json

variable {cs : List Char} {v : Value}

theorem isJson_ofNumber {n : Decimal.Numeral} {number : Decimal.Number} (hn : n.WellFormed)
    (h : n.number = .ok number) : (Value.ofNumber number).IsJson := by
  cases number with
  | int i => exact .int (decide_eq_true (hn.length_digits_le h))
  | float x => exact .float x

theorem isJson_of_readJson (h : Default.readJson cs = .ok (some v)) : v.IsJson := by
  unfold Default.readJson at h
  split at h
  · rename_i hparse
    cases h
    exact isJson_of_parse hparse
  · cases h
  · cases h

theorem isJson_of_readStructured (h : Default.readStructured cs = .ok v) : v.IsJson := by
  obtain ⟨first, hfirst, h⟩ := bind_eq_ok_iff.mp h
  cases first with
  | some v' =>
      cases h
      exact isJson_of_readJson hfirst
  | none =>
      obtain ⟨second, hsecond, h⟩ := bind_eq_ok_iff.mp h
      cases second with
      | some v' =>
          cases h
          exact isJson_of_readJson hsecond
      | none =>
          cases h
          exact .text _

theorem isJson_of_readPlain (h : Default.readPlain cs = .ok v) : v.IsJson := by
  unfold Default.readPlain at h
  split at h
  · rename_i n hscan
    split at h
    · cases h
      exact .text _
    · obtain ⟨number, hnumber, rfl⟩ := map_eq_ok_iff.mp h
      exact isJson_ofNumber (Decimal.Numeral.wellFormed_of_scan? hscan) hnumber
  · split at h
    · cases h
      exact .bool true
    · split at h
      · cases h
        exact .bool false
      · cases h
        exact .text _

theorem isJson_of_defaultRead (h : Default.read cs = .ok v) : v.IsJson := by
  unfold Default.read at h
  simp only at h
  split at h
  · exact isJson_of_readStructured h
  · exact isJson_of_readPlain h

end MessagePattern
