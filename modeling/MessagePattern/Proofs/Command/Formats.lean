import MessagePattern.Proofs.Command.Outcome

/-!
# The formats of a compiled pattern

A compiled pattern is written as a line of JSON for each token or as one JSON list over several
lines. The lines have the keys of a record as they are and the list has them in order, so what is
read from one is what is read from the other but for the order of keys
(`compile_formats_agree`).
-/

namespace MessagePattern

open File (Storage Keeps Tree)

/-! ## Records -/

/-- A float stands in the default of a token. -/
def Token.HoldsFloat (t : Token) : Prop :=
  ∃ name dataType optional v, t = .parameter name dataType optional (some v) ∧ v.HoldsFloat

theorem Value.holdsFloat_dict_iff {entries : Fields} :
    (Value.dict entries).HoldsFloat ↔ ∃ e ∈ entries, e.2.HoldsFloat := by
  constructor
  · rintro (_ | _ | ⟨hmem, he⟩)
    exact ⟨_, hmem, he⟩
  · rintro ⟨e, hmem, he⟩
    exact .dict hmem he

/-- The only floats in a record are those of the default. -/
theorem Token.holdsFloat_of_toRecord {t : Token} (h : t.toRecord.HoldsFloat) : t.HoldsFloat := by
  have htext : ∀ s : String, ¬ (Value.text s).HoldsFloat := fun s hs => nomatch hs
  have hbool : ∀ b : Bool, ¬ (Value.bool b).HoldsFloat := fun b hb => nomatch hb
  have hnull : ¬ Value.null.HoldsFloat := fun hn => nomatch hn
  unfold toRecord at h
  rw [Value.holdsFloat_dict_iff] at h
  cases t with
  | literal text optional => simp [htext, hbool] at h
  | typedLiteral kind value => simp [htext] at h
  | rest name dataType => cases dataType <;> simp [htext, hnull] at h
  | parameter name dataType optional default =>
      cases default with
      | none => simp [htext, hbool] at h
      | some v =>
          have hv : v.HoldsFloat := by simpa [htext, hbool] using h
          exact ⟨name, dataType, optional, v, rfl, hv⟩

theorem Token.isFloatFree_toRecord {t : Token} (hjson : t.DefaultIsJson)
    (hfloat : ¬ t.HoldsFloat) : t.toRecord.IsFloatFree :=
  (Token.isJson_toRecord hjson).isFloatFree fun h => hfloat (Token.holdsFloat_of_toRecord h)

/-! ## Lines -/

section

variable {α : Type} {a : α} {parts : List (List α)}

theorem intercalate_concat (hne : parts ≠ []) :
    [a].intercalate parts ++ [a] = parts.flatMap (· ++ [a]) := by
  induction parts with
  | nil => exact absurd rfl hne
  | cons part rest ih =>
      cases rest with
      | nil => simp
      | cons part' rest =>
          rw [List.flatMap_cons, ← ih (List.cons_ne_nil _ _), List.intercalate_cons_cons,
            List.append_assoc]

/-- What is put between separators ends as its last part does. -/
theorem exists_last_intercalate {P : α → Prop} (hne : parts ≠ [])
    (h : ∀ part ∈ parts, ∃ front b, part = front ++ [b] ∧ P b) :
    ∃ front b, [a].intercalate parts = front ++ [b] ∧ P b := by
  induction parts with
  | nil => exact absurd rfl hne
  | cons part rest ih =>
      obtain ⟨hpart, hrest⟩ := List.forall_mem_cons.mp h
      cases rest with
      | nil => rwa [List.intercalate_singleton]
      | cons part' rest =>
          obtain ⟨front, b, hlast, hb⟩ := ih (List.cons_ne_nil _ _) hrest
          refine ⟨part ++ [a] ++ front, b, ?_, hb⟩
          rw [List.intercalate_cons_cons, hlast, List.append_assoc (part ++ [a])]

end

/-- Lines that are joined and completed end in a line feed each. -/
theorem toList_completeLine_joinLines {lines : List (List Char)} (hne : lines ≠ [])
    (h : ∀ line ∈ lines, ∃ front c, line = front ++ [c] ∧ c ≠ '\n') :
    (File.completeLine (joinLines (lines.map String.ofList))).toList =
      lines.flatMap (· ++ ['\n']) := by
  have hjoined : (joinLines (lines.map String.ofList)).toList = ['\n'].intercalate lines := by
    simp [joinLines, String.toList_intercalate]
  obtain ⟨front, c, hlast, hc⟩ := exists_last_intercalate (a := '\n') hne h
  have hopen : (joinLines (lines.map String.ofList)).toList.getLast? ≠ some '\n' := by
    rw [hjoined, hlast, List.getLast?_concat]
    exact fun hsome => hc (Option.some.inj hsome)
  rw [File.completeLine, if_neg hopen, String.toList_append, hjoined]
  exact intercalate_concat hne

/-! ## Runs -/

namespace Command

theorem completeLine_compiledText (tokens : List Token) (format : OutputFormat) :
    File.completeLine (compiledText tokens format) = compiledText tokens format := by
  cases format with
  | text => exact File.completeLine_completeLine _
  | json =>
      have hlast : (compiledText tokens .json).toList.getLast? = some '\n' := by
        simp [compiledText, String.toList_append]
      rw [File.completeLine, if_pos hlast]

/-- A command line did its work and wrote a text, to the standard output or under a path. -/
structure Wrote {σ : Type} [Storage σ] (args : List String) (files : σ) (input out text : String) :
    Prop where
  code : (outcomeOfLine args files input).code = 0
  errors : (outcomeOfLine args files input).errors = ""
  shown : out = File.standard → (outcomeOfLine args files input).output = text ∧
    (outcomeOfLine args files input).files = files
  saved : out ≠ File.standard → (outcomeOfLine args files input).output = "" ∧
    Storage.read (outcomeOfLine args files input).files out = .ok (Utf8.encode text)

/-- A pattern that compiles is written, in either format and wherever what is written is kept. -/
theorem wrote_compiledText {σ : Type} [Storage σ] {pattern out : String} {tokens : List Token}
    {args : List String} {format : OutputFormat} {files : σ} (input : String)
    (hcompile : MessagePattern.compile pattern = .ok tokens)
    (hline : ofLine args = .ok (.compile pattern format out))
    (hout : out = File.standard ∨ Keeps files out) :
    Wrote args files input out (compiledText tokens format) := by
  have hrun : (compile pattern format out).run (.of files input) =
      .ok (0, File.deliverText (compiledText tokens format) out) := by
    rw [run, runCompile_eq hcompile]
    rfl
  have houtcome := outcomeOfLine_eq hline files input
  by_cases hstandard : out = File.standard
  · rw [File.deliverText, if_pos hstandard, completeLine_compiledText] at hrun
    rw [outcome, runIn_of_stored hrun rfl] at houtcome
    constructor <;> simp [houtcome, hstandard]
  · obtain ⟨store, hwrite, hread⟩ := hout.resolve_left hstandard
    rw [File.deliverText, if_neg hstandard] at hrun
    rw [outcome, runIn_of_stored hrun
      (bind_eq_ok_iff.mpr ⟨store, mapError_eq_ok_iff.mpr hwrite, rfl⟩)] at houtcome
    constructor <;> simp [houtcome, hstandard, hread]

end Command

/-! ## The formats compared -/

variable {tokens : List Token}

theorem toList_compiledText_text (hne : tokens ≠ [])
    (h : ∀ t ∈ tokens, t.toRecord.IsFloatFree) :
    (Command.compiledText tokens .text).toList =
      (tokens.map fun t => Json.print .line 0 t.toRecord).flatMap (· ++ ['\n']) := by
  have hmap : tokens.map (fun t => String.ofList (Json.print .line 0 t.toRecord)) =
      (tokens.map fun t => Json.print .line 0 t.toRecord).map String.ofList :=
    by rw [List.map_map, Function.comp_def]
  rw [Command.compiledText, hmap]
  refine toList_completeLine_joinLines (by simpa using hne) ?_
  intro line hline
  obtain ⟨t, ht, rfl⟩ := List.mem_map.mp hline
  obtain ⟨front, c, hlast, hc⟩ := Json.exists_last_print (h t ht) .line 0
  refine ⟨front, c, hlast, ?_⟩
  rintro rfl
  cases hc

theorem parse_compiledText_json (h : ∀ t ∈ tokens, t.toRecord.IsFloatFree) :
    Json.parse (Command.compiledText tokens .json).toList =
      .ok (.list (tokens.map fun t => t.toRecord.sorted)) := by
  have hlist : (Value.list (tokens.map Token.toRecord)).IsFloatFree := by
    refine .list fun v hv => ?_
    obtain ⟨t, ht, rfl⟩ := List.mem_map.mp hv
    exact h t ht
  have hkept : Json.Style.pretty.kept (.list (tokens.map Token.toRecord)) =
      .list (tokens.map fun t => t.toRecord.sorted) := by
    show (Value.list (tokens.map Token.toRecord)).sorted = _
    rw [Value.sorted_list, List.map_map]
    rfl
  have hgap : ∀ c ∈ ['\n'], Json.isSpace c = true := List.forall_mem_singleton.mpr rfl
  rw [Command.compiledText, String.toList_append, String.toList_ofList, ← hkept]
  exact Json.parse_print hlist .pretty hgap

/-- Both formats of a compiled pattern hold the records of its tokens. In the one, every token has
a line that ends in a line feed, and the line is read as the record; in the other, all of it is
read as a list, and in the place of the token there is the record with its keys in order. This is
so for whatever way to ask for a format, and for either way of delivery. -/
theorem compile_formats_agree {σ : Type} [Storage σ] {pattern out out' : String}
    {args args' : List String} {files : σ} (input : String) (hcompile : compile pattern = .ok tokens)
    (hne : tokens ≠ []) (hfloat : ∀ t ∈ tokens, ¬ t.HoldsFloat)
    (hline : Command.ofLine args = .ok (.compile pattern .text out))
    (hline' : Command.ofLine args' = .ok (.compile pattern .json out'))
    (hout : out = File.standard ∨ Keeps files out)
    (hout' : out' = File.standard ∨ Keeps files out') :
    ∃ (lines : List (List Char)) (json : String) (items : List Value),
      Command.Wrote args files input out (String.ofList (lines.flatMap (· ++ ['\n']))) ∧
      (∀ line ∈ lines, '\n' ∉ line) ∧
      Command.Wrote args' files input out' json ∧ Json.parse json.toList = .ok (.list items) ∧
      lines.length = tokens.length ∧ items.length = tokens.length ∧
      ∀ (i : Nat) t line item, tokens[i]? = some t → lines[i]? = some line → items[i]? = some item →
        Json.parse line = .ok t.toRecord ∧ item.Same t.toRecord := by
  have hdefaults := defaultIsJson_of_compile hcompile
  have hrecords : ∀ t ∈ tokens, t.toRecord.IsFloatFree := fun t ht =>
    Token.isFloatFree_toRecord (hdefaults t ht) (hfloat t ht)
  refine ⟨tokens.map fun t => Json.print .line 0 t.toRecord, Command.compiledText tokens .json,
    tokens.map fun t => t.toRecord.sorted, ?_, ?_, ?_, parse_compiledText_json hrecords,
    List.length_map _, List.length_map _, ?_⟩
  · rw [← toList_compiledText_text hne hrecords, String.ofList_toList]
    exact Command.wrote_compiledText input hcompile hline hout
  · intro line hmem
    obtain ⟨t, ht, rfl⟩ := List.mem_map.mp hmem
    exact Json.newline_notMem_print (hrecords t ht).isJson 0
  · exact Command.wrote_compiledText input hcompile hline' hout'
  · intro i t line item ht hlineAt hitemAt
    rw [List.getElem?_map, ht] at hlineAt hitemAt
    cases hlineAt
    cases hitemAt
    refine ⟨?_, Value.sorted_sorted _⟩
    have hparse : Json.parse (Json.print .line 0 t.toRecord ++ []) = .ok t.toRecord :=
      Json.parse_print (hrecords t (List.mem_of_getElem? ht)) .line (List.forall_mem_nil _)
    rwa [List.append_nil] at hparse

/-- One command line that writes out and one that writes to a file in a folder, for tokens with line
feeds. -/
theorem compile_formats_agree_broken_texts :
    let files : Tree := ⟨[], [["out"]], []⟩
    let tokens : List Token :=
      [.typedLiteral "at" "1\n2", .parameter "n" "text" true (some (.text "x\ny"))]
    compile "\x7bat:1\n2\x7d[n=x\ny]" = .ok tokens ∧
      ∃ (lines : List (List Char)) (json : String) (items : List Value),
        Command.Wrote ["compile", "\x7bat:1\n2\x7d[n=x\ny]"] files "" "-"
          (String.ofList (lines.flatMap (· ++ ['\n']))) ∧
        (∀ line ∈ lines, '\n' ∉ line) ∧
        Command.Wrote
          ["compile", "--format=json", "\x7bat:1\n2\x7d[n=x\ny]", "--out", "out/tokens"] files ""
          "out/tokens" json ∧
        Json.parse json.toList = .ok (.list items) ∧
        lines.length = tokens.length ∧ items.length = tokens.length ∧
        ∀ (i : Nat) t line item, tokens[i]? = some t → lines[i]? = some line →
          items[i]? = some item → Json.parse line = .ok t.toRecord ∧ item.Same t.toRecord := by
  intro files tokens
  have hcompile : compile "\x7bat:1\n2\x7d[n=x\ny]" = .ok tokens := by
    with_unfolding_all rfl
  have hne : tokens ≠ [] := List.cons_ne_nil _ _
  have hfloat : ∀ t ∈ tokens, ¬ t.HoldsFloat := by
    rintro t ht ⟨name, dataType, optional, v, rfl, hv⟩
    obtain ⟨_, _, _, rfl⟩ : _ ∧ _ ∧ _ ∧ v = .text "x\ny" := by simpa [tokens] using ht
    cases hv
  have hline : Command.ofLine ["compile", "\x7bat:1\n2\x7d[n=x\ny]"] =
      .ok (.compile "\x7bat:1\n2\x7d[n=x\ny]" .text "-") :=
    eq_ok_of_toOption (by decide +kernel)
  have hline' : Command.ofLine
      ["compile", "--format=json", "\x7bat:1\n2\x7d[n=x\ny]", "--out", "out/tokens"] =
      .ok (.compile "\x7bat:1\n2\x7d[n=x\ny]" .json "out/tokens") :=
    eq_ok_of_toOption (by decide +kernel)
  have hkeeps : Keeps files "out/tokens" := Tree.keeps_of_write rfl
  exact ⟨hcompile, compile_formats_agree "" hcompile hne hfloat hline hline' (Or.inl rfl)
    (Or.inr hkeeps)⟩

end MessagePattern
