import MessagePattern.Proofs.File.Lines
import MessagePattern.Proofs.File.Stored
import MessagePattern.Proofs.Json.Reading

/-!
# The layouts of segment files

Segments are read from a list of records, from an object that holds such a list, and from a
file with one record per line. For records without floats the three layouts are read alike
(`layouts_read_alike`): what the records come to (`Settles`) does not hang on the layout. The
first two are written with their keys in order, which no equality of dictionaries heeds.
-/

namespace MessagePattern

/-! ## What records come to -/

/-- What a list of records comes to: a segment for each of them, in order, or the refusal of the
first one that is none. -/
inductive Settles (records : List Value) : Except Invalid (List Segment) → Prop
  | segments {segs : List Segment} (hlength : segs.length = records.length)
      (h : ∀ (i : Nat) (r : Value) (s : Segment), records[i]? = some r → segs[i]? = some s →
        Segment.ofRecord r = .ok s) :
      Settles records (.ok segs)
  | refusal {before after : List Value} {r : Value} {reason : Invalid}
      (hsplit : records = before ++ r :: after)
      (hbefore : ∀ r' ∈ before, ∃ s, Segment.ofRecord r' = .ok s)
      (hr : Segment.ofRecord r = .error reason) : Settles records (.error reason)

theorem settles_mapM (records : List Value) :
    Settles records (records.mapM Segment.ofRecord) := by
  induction records with
  | nil => exact .segments rfl (by simp)
  | cons r rest ih =>
      rw [List.mapM_cons]
      cases hr : Segment.ofRecord r with
      | error reason => exact .refusal (List.nil_append _).symm (List.forall_mem_nil _) hr
      | ok s =>
          cases hrest : rest.mapM Segment.ofRecord with
          | error reason =>
              rw [hrest] at ih
              cases ih with
              | @refusal before after r' _ hsplit hbefore hr' =>
                  rw [hsplit, ← List.cons_append]
                  exact .refusal rfl (List.forall_mem_cons.mpr ⟨⟨s, hr⟩, hbefore⟩) hr'
          | ok segs =>
              rw [hrest] at ih
              cases ih with
              | segments hlength h =>
                  refine .segments (by simp [hlength]) fun i r' s' hr' hs' => ?_
                  cases i with
                  | zero =>
                      cases hr'
                      cases hs'
                      exact hr
                  | succ i => exact h i r' s' hr' hs'

/-- The records of segments are read as the segments. -/
theorem mapM_ofRecord_toRecord (segs : List Segment) :
    (segs.map Segment.toRecord).mapM Segment.ofRecord = .ok segs := by
  induction segs with
  | nil => rfl
  | cons s rest ih =>
      rw [List.map_cons, List.mapM_cons, Segment.ofRecord_toRecord, ih]
      rfl

theorem Value.IsFloatFree.isWritable {v : Value} (h : v.IsFloatFree) : v.isWritable = true :=
  Json.isWritable_of_isJson h.isJson

namespace File

open Json (print)

/-! ## Files that are written and read -/

section

variable {σ : Type} [Storage σ]

/-- A path of a file that keeps what is written to it, with one record per line or not. -/
structure TakesFile (files : σ) (path : String) (byLine : Bool) : Prop where
  notStandard : path ≠ standard
  keeps : Keeps files path
  isLineFile : isLineFile path = byLine

/-- The files after a value was written as JSON to the one that a path names. -/
def Stores (files : σ) (v : Value) (path : String) (files' : σ) : Prop :=
  ∃ delivery, deliverJson v path = .ok delivery ∧ delivery.store files = .ok files'

/-- What the segments of a file are read as, whatever else could be read. -/
def ReadsAs (files : σ) (path : String) (outcome : Except Invalid (List Segment)) : Prop :=
  ∀ input, (Sources.of files input).segments path = outcome.mapError .invalid

end

section

variable {σ : Type} [Storage σ] {files : σ} {path : String} {byLine : Bool}

/-- A value that can be written is written with its keys in order and a line feed behind it. -/
theorem exists_stored (h : TakesFile files path byLine) {v : Value} (hv : v.isWritable = true) :
    ∃ files', Stores files v path files' ∧ Storage.read files' path =
      .ok (Utf8.encode (String.ofList (print .pretty 0 v) ++ "\n")) := by
  let text := String.ofList (print .pretty 0 v) ++ "\n"
  obtain ⟨store, hwrite, hread⟩ := h.keeps
  refine ⟨store (Utf8.encode text), ⟨{ saved := some (path, text) }, ?_, ?_⟩, hread _⟩
  · rw [deliverJson, Json.write_of_isWritable hv]
    show Except.ok (deliverText _ path) = _
    rw [deliverText, if_neg h.notStandard]
  · exact bind_eq_ok_iff.mpr ⟨store, mapError_eq_ok_iff.mpr hwrite, rfl⟩

/-- What was written of a value is read as the value with its keys in order. -/
theorem parseText_written {v : Value} (h : v.IsFloatFree) :
    readText (Utf8.encode (String.ofList (print .pretty 0 v) ++ "\n")) =
        .ok (print .pretty 0 v ++ ['\n']) ∧
      parseText (print .pretty 0 v ++ ['\n']) = .ok v.sorted := by
  constructor
  · rw [readText_encode, String.toList_append, String.toList_ofList,
      unifyLineEnds_append (Json.return_notMem_print h.isJson .pretty 0)]
    rfl
  · rw [parseText, Json.parse_print h .pretty (List.forall_mem_singleton.mpr rfl)]
    rfl

theorem segments_of_records {records : List Value} {input : String}
    (hrecords : (Sources.of files input).records path = .ok records) :
    (Sources.of files input).segments path =
      (records.mapM Segment.ofRecord).mapError .invalid := by
  rw [Sources.segments, hrecords]
  rfl

/-- A file that holds its records in one value is read as the records with their keys in
order. -/
theorem exists_readsAs {v : Value} {records : List Value} (h : TakesFile files path false)
    (hv : v.IsFloatFree) (hrecords : ∀ r ∈ records, r.IsFloatFree)
    (hheld : recordsOf v.sorted = .ok (records.map Value.sorted)) :
    ∃ files', Stores files v path files' ∧
      ReadsAs files' path (inKeyOrder (records.mapM Segment.ofRecord)) := by
  obtain ⟨files', hstored, hread⟩ := exists_stored h hv.isWritable
  refine ⟨files', hstored, fun input => ?_⟩
  obtain ⟨htext, hparse⟩ := parseText_written hv
  rw [← mapM_ofRecord_sorted hrecords]
  apply segments_of_records
  have hbytes : (Sources.of files' input).bytes path =
      .ok (Utf8.encode (String.ofList (print .pretty 0 v) ++ "\n")) :=
    mapError_eq_ok_iff.mpr hread
  rw [Sources.records, if_neg h.notStandard, hbytes]
  simp only [bind, Except.bind, h.isLineFile, mapError_eq_ok_iff.mpr htext, textRecords, hparse,
    hheld]
  rfl

/-- A file with one record per line is read as the records. -/
theorem exists_readsAs_lines {records : List Value} (h : TakesFile files path true)
    (hrecords : ∀ r ∈ records, r.IsFloatFree) {text : String}
    (htext : LineFile records text.toList) :
    ∃ store, Storage.write files path = .ok store ∧
      ReadsAs (store (Utf8.encode text)) path (records.mapM Segment.ofRecord) := by
  obtain ⟨store, hwrite, hread⟩ := h.keeps
  refine ⟨store, hwrite, fun input => ?_⟩
  apply segments_of_records
  have hbytes : (Sources.of (store (Utf8.encode text)) input).bytes path = .ok (Utf8.encode text) :=
    mapError_eq_ok_iff.mpr (hread _)
  rw [Sources.records, if_neg h.notStandard, hbytes]
  simp only [bind, Except.bind, h.isLineFile, readLineRecords, readLines_encode,
    lineRecords_lineFile hrecords htext]
  rfl

end

/-! ## All layouts -/

/-- A list of records, an object that holds it and the same records on lines are read alike from any
storage: as what the records come to, but for the order of keys. The records of segments come back
as segments whose records are equal. -/
theorem layouts_read_alike {σ : Type} [Storage σ] {records : List Value} (hrecords : ∀ r ∈ records, r.IsFloatFree)
    {files : σ} {listed wrapped lined text : String} (hlisted : TakesFile files listed false)
    (hwrapped : TakesFile files wrapped false) (hlined : TakesFile files lined true)
    (htext : LineFile records text.toList) :
    ∃ read readLines, Settles records readLines ∧ SameOutcome read readLines ∧
      (∃ files', Stores files (.list records) listed files' ∧ ReadsAs files' listed read) ∧
      (∃ files', Stores files (.dict [("segments", .list records)]) wrapped files' ∧
        ReadsAs files' wrapped read) ∧
      (∃ store, Storage.write files lined = .ok store ∧
        ReadsAs (store (Utf8.encode text)) lined readLines) ∧
      ∀ segs : List Segment, records = segs.map Segment.toRecord → readLines = .ok segs ∧
        ∃ back, read = .ok back ∧
          back.map (fun s => s.toRecord.sorted) = segs.map fun s => s.toRecord.sorted := by
  refine ⟨inKeyOrder (records.mapM Segment.ofRecord), records.mapM Segment.ofRecord,
    settles_mapM records, sameOutcome_inKeyOrder _, ?_, ?_,
    exists_readsAs_lines hlined hrecords htext, ?_⟩
  · refine exists_readsAs hlisted (.list hrecords) hrecords ?_
    rw [Value.sorted_list]
    rfl
  · have hwrappers : (Value.dict [("segments", .list records)]).IsFloatFree :=
      .dict (List.nodup_cons.mpr ⟨List.not_mem_nil, List.nodup_nil⟩)
        (List.forall_mem_singleton.mpr (.list hrecords))
    refine exists_readsAs hwrapped hwrappers hrecords ?_
    rw [Value.sorted_dict, sortedFields, Table.mapValues, List.map_singleton, Value.sorted_list,
      Table.sortByKey, List.mergeSort_singleton]
    rfl
  · rintro segs rfl
    rw [mapM_ofRecord_toRecord]
    refine ⟨rfl, segs.map Segment.sorted, rfl, ?_⟩
    rw [List.map_map]
    exact List.map_congr_left fun s _ => s.toRecord_sorted

/-- A face with an escaped letter and a negative number, with blank lines around its line, and files
in the folder that is above home, in home and in one beside it. -/
theorem layouts_read_alike_face :
    let face : Segment := ⟨"face", [("id", .int (-12)), ("alt", .text "é")]⟩
    let line := "\n\x7b\"type\": \"face\", \"data\": \x7b\"id\": -12, \"alt\": \"\\u00e9\"\x7d" ++
      "\x7d\r\n \t"
    let files : Tree := ⟨["home", "me"], [["home"], ["home", "me"], ["home", "faces"]], []⟩
    ∃ back files₁ files₂ store,
      Stores files (.list [face.toRecord]) "/home/faces.json" files₁ ∧
      Stores files (.dict [("segments", .list [face.toRecord])]) "wrapped.json" files₂ ∧
      Storage.write files "../faces/all.JSONL" = .ok store ∧
      ReadsAs files₁ "/home/faces.json" (.ok back) ∧ ReadsAs files₂ "wrapped.json" (.ok back) ∧
      ReadsAs (store (Utf8.encode line)) "../faces/all.JSONL" (.ok [face]) ∧
      back.map (fun s => s.toRecord.sorted) = [face.toRecord.sorted] := by
  intro face line files
  have hface : face.toRecord.IsFloatFree := by
    refine .dict (by decide) (List.forall_mem_cons.mpr ⟨.text _, List.forall_mem_singleton.mpr ?_⟩)
    exact .dict (by decide) (List.forall_mem_cons.mpr
      ⟨.int (by decide +kernel), List.forall_mem_singleton.mpr (.text _)⟩)
  have hline : LineFile [face.toRecord] line.toList := by
    have hsplit : line.toList =
        '\n' :: (print .line 0 face.toRecord ++ ['\r', '\n', ' ', '\t']) := by
      decide +kernel
    rw [hsplit]
    refine .blank rfl (.record _ (.blank rfl (.blank rfl (.blank rfl (.blank rfl .nil)))) ?_)
    rintro c ⟨⟩
    exact Or.inr rfl
  have hlisted : TakesFile files "/home/faces.json" false :=
    ⟨by decide, Tree.keeps_of_write rfl, by decide⟩
  have hwrapped : TakesFile files "wrapped.json" false :=
    ⟨by decide, Tree.keeps_of_write rfl, by decide⟩
  have hlined : TakesFile files "../faces/all.JSONL" true :=
    ⟨by decide, Tree.keeps_of_write rfl, by decide⟩
  obtain ⟨read, readLines, _, _, ⟨files₁, hstored₁, hread₁⟩, ⟨files₂, hstored₂, hread₂⟩,
    ⟨store, hstored₃, hread₃⟩, hsegs⟩ :=
    layouts_read_alike (List.forall_mem_singleton.mpr hface) hlisted hwrapped hlined hline
  obtain ⟨rfl, back, rfl, hback⟩ := hsegs [face] rfl
  exact ⟨back, files₁, files₂, store, hstored₁, hstored₂, hstored₃, hread₁, hread₂, hread₃, hback⟩

end File

end MessagePattern
