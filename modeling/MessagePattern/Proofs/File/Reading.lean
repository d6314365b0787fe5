import MessagePattern.File.Records
import MessagePattern.Proofs.Json.Reading
import MessagePattern.Proofs.Match.Writable

/-!
# What is read from files

Segments and field rules are read from JSON, so they hold data only, and no integer in them
is too long to be written again.
-/

namespace MessagePattern.File

open Json

variable {sources : Sources} {path : String}

theorem isData_of_parseText {text : List Char} {v : Value} (h : parseText text = .ok v) :
    IsData v :=
  isData_of_isJson (isJson_of_parse (mapError_eq_ok_iff.mp h))

/-! ## Segments -/

theorem isData_of_recordsOf {v : Value} {records : List Value} (hv : IsData v)
    (h : recordsOf v = .ok records) : ∀ record ∈ records, IsData record := by
  have hheld : IsData ((v.entries?.bind (Table.get? · "segments")).getD v) := by
    cases hfound : v.entries?.bind (Table.get? · "segments") with
    | none => exact hv
    | some held =>
        obtain ⟨entries, hentries, hfound⟩ := Option.bind_eq_some_iff.mp hfound
        cases v with
        | dict entries' =>
            cases hentries
            exact isData_dict_iff.mp hv _ (Table.mem_of_get? hfound)
        | _ => cases hentries
  unfold recordsOf at h
  simp only at h
  split at h
  · cases h
    exact List.forall_mem_singleton.mpr hheld
  · rename_i items hitems
    cases h
    rw [hitems] at hheld
    exact isData_list_iff.mp hheld
  · cases h

theorem isData_of_textRecords {text : List Char} {records : List Value}
    (h : textRecords text = .ok records) : ∀ record ∈ records, IsData record := by
  obtain ⟨v, hv, h⟩ := bind_eq_ok_iff.mp h
  exact isData_of_recordsOf (isData_of_parseText hv) h

theorem isData_of_lineRecords {lines : List (List Char)} {records : List Value}
    (h : lineRecords lines = .ok records) : ∀ record ∈ records, IsData record := by
  induction lines generalizing records with
  | nil =>
      cases h
      exact List.forall_mem_nil _
  | cons line rest ih =>
      unfold lineRecords at h
      split at h
      · exact ih h
      · obtain ⟨v, hv, h⟩ := bind_eq_ok_iff.mp h
        obtain ⟨more, hmore, h⟩ := bind_eq_ok_iff.mp h
        cases h
        exact List.forall_mem_cons.mpr ⟨isData_of_parseText hv, ih hmore⟩

theorem isData_of_records {records : List Value} (h : sources.records path = .ok records) :
    ∀ record ∈ records, IsData record := by
  unfold Sources.records at h
  split at h
  · exact isData_of_textRecords h
  · obtain ⟨bytes, _, h⟩ := bind_eq_ok_iff.mp h
    split at h
    · obtain ⟨records', hrecords, h⟩ := bind_eq_ok_iff.mp h
      split at h
      · cases h
      · cases h
        exact isData_of_lineRecords hrecords
    · obtain ⟨text, _, h⟩ := bind_eq_ok_iff.mp h
      exact isData_of_textRecords h

theorem isWritable_of_ofRecord {record : Value} {s : Segment} (hrecord : IsData record)
    (h : Segment.ofRecord record = .ok s) : s.IsWritable := by
  cases record with
  | dict entries =>
      obtain ⟨kind, _, h⟩ := bind_eq_ok_iff.mp h
      obtain ⟨fields, hfields, h⟩ := bind_eq_ok_iff.mp h
      cases h
      have hget : ∀ name, IsData ((Table.get? entries name).getD (.dict [])) := by
        intro name
        cases hfound : Table.get? entries name with
        | none => rfl
        | some v => exact isData_dict_iff.mp hrecord _ (Table.mem_of_get? hfound)
      have hstated : IsData (Segment.stated entries).2 := by
        unfold Segment.stated
        split
        · exact hget "fields"
        · exact hget "data"
      unfold Segment.readFields at hfields
      split at hfields
      · cases hfields
        exact List.forall_mem_nil _
      · rename_i entries' hentries
        cases hfields
        rw [hentries] at hstated
        intro e he
        exact isWritable_of_isData _ (isData_dict_iff.mp hstated e he)
      · cases hfields
  | _ => cases h

/-- No integer in the segments of a file is too long to be written. -/
theorem isWritable_of_segments {segments : List Segment}
    (h : sources.segments path = .ok segments) : ∀ s ∈ segments, s.IsWritable := by
  obtain ⟨records, hrecords, h⟩ := bind_eq_ok_iff.mp h
  intro s hs
  obtain ⟨record, hmem, hrecord⟩ := exists_mem_of_mem_mapM (mapError_eq_ok_iff.mp h) hs
  exact isWritable_of_ofRecord (isData_of_records hrecords record hmem) hrecord

/-! ## Field rules -/

theorem isData_of_rules {entries : Fields} (h : sources.rules path = .ok entries) :
    ∀ e ∈ entries, IsData e.2 := by
  obtain ⟨bytes, _, h⟩ := bind_eq_ok_iff.mp h
  obtain ⟨text, _, h⟩ := bind_eq_ok_iff.mp h
  obtain ⟨v, hv, h⟩ := bind_eq_ok_iff.mp h
  have hdata := isData_of_parseText hv
  cases v with
  | dict entries' =>
      cases h
      exact isData_dict_iff.mp hdata
  | _ => cases h

/-- The field rules of a file bring up nothing too long to be written. -/
theorem keepsWritable_of_ofRaw {entries : Fields} {extractors : Extractors} {rules : Rules}
    (hentries : ∀ e ∈ entries, IsData e.2)
    (h : Rules.ofRaw (.table (entries.map fun (k, v) => (.text k, v)) extractors) = .ok rules) :
    ∀ e ∈ rules, e.2.KeepsWritable := by
  intro e he
  obtain ⟨entry, hmem, hentry⟩ := exists_mem_of_mem_mapM h he
  obtain ⟨⟨k, v⟩, hsource, rfl⟩ := List.mem_map.mp hmem
  unfold Rules.checkEntry at hentry
  simp only at hentry
  split at hentry
  · rename_i rule hrule
    cases hentry
    exact Rule.keepsWritable_of_isData (hentries _ hsource) hrule
  · cases hentry

end MessagePattern.File
