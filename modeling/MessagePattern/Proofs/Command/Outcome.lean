import MessagePattern.Command.Run
import MessagePattern.Proofs.Explain
import MessagePattern.Proofs.File.Reading
import MessagePattern.Proofs.File.Stored
import MessagePattern.Proofs.Match.Failure
import MessagePattern.Proofs.Match.Sequence
import MessagePattern.Proofs.Pattern.Origin

/-!
# How commands end

What a command delivers was read from a pattern and from files, and all of it can be written
(`runCompile_eq`, `exists_deliverMatch`, `exists_runExplain`). So once a command has come to
its delivery, only the place that it is for can be refused (`ended`). A command that ends with an
error has written nothing, and every other has stored what it delivers (`outcome_of_line`).
-/

namespace MessagePattern

open File (Sources Delivery Storage Takes)

/-! ## Tokens in writing -/

theorem tokenLines_eq {tokens : List Token} (h : ∀ t ∈ tokens, t.DefaultIsJson) :
    Command.tokenLines tokens =
      .ok (joinLines (tokens.map fun t => String.ofList (Json.print .line 0 t.toRecord))) := by
  have hlines : tokens.mapM (fun t => Json.write .line false t.toRecord) =
      .ok (tokens.map fun t => String.ofList (Json.print .line 0 t.toRecord)) := by
    induction tokens with
    | nil => rfl
    | cons t rest ih =>
        obtain ⟨ht, hrest⟩ := List.forall_mem_cons.mp h
        have hwritable := Json.isWritable_of_isJson (Token.isJson_toRecord ht)
        rw [List.mapM_cons, Json.write_of_isWritable hwritable, ih hrest]
        rfl
  rw [Command.tokenLines, hlines]
  rfl

theorem deliverJson_toRecord {tokens : List Token} (h : ∀ t ∈ tokens, t.DefaultIsJson)
    (out : String) : File.deliverJson (.list (tokens.map Token.toRecord)) out =
      .ok (File.deliverText
        (String.ofList (Json.print .pretty 0 (.list (tokens.map Token.toRecord))) ++ "\n") out) := by
  have hjson : (Value.list (tokens.map Token.toRecord)).IsJson := by
    refine .list fun v hv => ?_
    obtain ⟨t, ht, rfl⟩ := List.mem_map.mp hv
    exact Token.isJson_toRecord (h t ht)
  rw [File.deliverJson, Json.write_of_isWritable (Json.isWritable_of_isJson hjson)]
  rfl

/-! ## Results in writing -/

mutual

/-- Records in the place of segments hold the same values. -/
theorem Value.isWritable_recorded : ∀ v : Value, v.isWritable = true → v.recorded.isWritable = true
  | .segment _ _, h => by
    rw [Value.isWritable] at h
    simp [Value.recorded, Segment.toRecord, Value.isWritable, Value.areEntriesWritable, h]
  | .dict entries, h => Value.areEntriesWritable_recorded entries h
  | .list items, h => Value.areWritable_recorded items h
  | .tuple items, h => Value.areWritable_recorded items h
  | .int _, h => h
  | .null, _ => rfl
  | .bool _, _ => rfl
  | .float _, _ => rfl
  | .text _, _ => rfl
  | .extractor _ _, _ => rfl

theorem Value.areWritable_recorded : ∀ items : List Value,
    Value.areWritable items = true → Value.areWritable (Value.recordedItems items) = true
  | [], _ => rfl
  | v :: rest, h => by
    obtain ⟨hv, hrest⟩ := Bool.and_eq_true_iff.mp h
    rw [Value.recordedItems, Value.areWritable, Value.isWritable_recorded v hv,
      Value.areWritable_recorded rest hrest]
    rfl

theorem Value.areEntriesWritable_recorded : ∀ entries : List (String × Value),
    Value.areEntriesWritable entries = true →
      Value.areEntriesWritable (Value.recordedEntries entries) = true
  | [], _ => rfl
  | (_, v) :: rest, h => by
    obtain ⟨hv, hrest⟩ := Bool.and_eq_true_iff.mp h
    rw [Value.recordedEntries, Value.areEntriesWritable, Value.isWritable_recorded v hv,
      Value.areEntriesWritable_recorded rest hrest]
    rfl

end

section Results

variable {result : Option MatchResult}

theorem Segment.IsWritable.isWritable_toRecord {s : Segment} (h : s.IsWritable) :
    s.toRecord.isWritable = true := by
  have hfields := Json.areEntriesWritable_iff.mpr h
  simp [Segment.toRecord, Value.isWritable, Value.areEntriesWritable, hfields]

theorem isWritable_matchRecord (h : ∀ r, result = some r → r.IsWritable) :
    (Command.matchRecord result).isWritable = true := by
  cases result with
  | none => rfl
  | some r =>
      have hr := h r rfl
      have hrecords : ∀ {segments : List Segment}, (∀ s ∈ segments, s.IsWritable) →
          Value.areWritable (segments.map Segment.toRecord) = true := by
        intro segments hsegments
        apply Json.areWritable_iff.mpr
        intro v hv
        obtain ⟨s, hs, rfl⟩ := List.mem_map.mp hv
        exact (hsegments s hs).isWritable_toRecord
      have hparams := Value.areEntriesWritable_recorded r.params
        (Json.areEntriesWritable_iff.mpr hr.params)
      simp [Command.matchRecord, MatchResult.toRecord, Value.entries?, Value.isWritable,
        Value.areEntriesWritable, hparams, hrecords hr.matched, hrecords hr.remaining]

theorem exists_segmentLine {segments : List Segment} (label : String)
    (h : ∀ s ∈ segments, s.IsWritable) : ∃ lines, segmentLine label segments = .ok lines := by
  unfold segmentLine
  split
  · exact ⟨[], rfl⟩
  · have hparts : ∃ parts, segments.mapM Segment.inLine = .ok parts := by
      apply exists_mapM_eq_ok
      intro s hs
      unfold Segment.inLine
      cases s.text? with
      | some text => exact ⟨_, rfl⟩
      | none =>
          have hfields : (Value.dict s.fields).isWritable = true :=
            Json.areEntriesWritable_iff.mpr (h s hs)
          simp only [Json.write_of_isWritable hfields]
          exact ⟨_, rfl⟩
    obtain ⟨parts, hparts⟩ := hparts
    rw [hparts]
    exact ⟨_, rfl⟩

theorem exists_explainResult (h : ∀ r, result = some r → r.IsWritable) :
    ∃ text, explainResult result = .ok text := by
  cases result with
  | none => exact ⟨_, rfl⟩
  | some r =>
      have hr := h r rfl
      have hparams : ∃ lines, (Value.recordedEntries r.params).mapM paramLine = .ok lines := by
        apply exists_mapM_eq_ok
        intro e he
        have hall := Value.areEntriesWritable_recorded r.params
          (Json.areEntriesWritable_iff.mpr hr.params)
        rw [paramLine, Json.write_of_isWritable (Json.areEntriesWritable_iff.mp hall e he)]
        exact ⟨_, rfl⟩
      obtain ⟨params, hparams⟩ := hparams
      obtain ⟨matched, hmatched⟩ := exists_segmentLine "matched" hr.matched
      obtain ⟨remaining, hremaining⟩ := exists_segmentLine "remaining" hr.remaining
      rw [explainResult, hparams, hmatched, hremaining]
      exact ⟨_, rfl⟩

end Results

/-- The faults that a command makes no provision for: a value without a JSON text, which would be
found out when the output has begun, and a matcher that fails by a fault of its own. -/
inductive CommandFault.Unforeseen : CommandFault → Prop
  | value (fault : Json.WriteFault) : Unforeseen (.value fault)
  | matcher (text : String) : Unforeseen (.matching (.broken (.failed text)))

/-! ## Deliveries -/

namespace Command

theorem exists_deliverJson {v : Value} (h : v.isWritable = true) (out : String) :
    ∃ text, File.deliverJson v out = .ok (File.deliverText text out) := by
  rw [File.deliverJson, Json.write_of_isWritable h]
  exact ⟨_, rfl⟩

/-- What was found is delivered, in either format. -/
theorem exists_deliverMatch {result : Option MatchResult}
    (h : ∀ r, result = some r → r.IsWritable) (format : OutputFormat) (out : String) :
    ∃ text, deliverMatch result format out = .ok (File.deliverText text out) := by
  cases format with
  | json => exact exists_deliverJson (isWritable_matchRecord h) out
  | text =>
      obtain ⟨text, htext⟩ := exists_explainResult h
      rw [deliverMatch, htext]
      exact ⟨_, rfl⟩

/-- What is delivered for a pattern that compiles: the records of its tokens on a line each, or
their list. -/
def compiledText (tokens : List Token) : OutputFormat → String
  | .text => File.completeLine
      (joinLines (tokens.map fun t => String.ofList (Json.print .line 0 t.toRecord)))
  | .json => String.ofList (Json.print .pretty 0 (.list (tokens.map Token.toRecord))) ++ "\n"

theorem runCompile_eq {pattern : String} {tokens : List Token}
    (h : MessagePattern.compile pattern = .ok tokens) (format : OutputFormat) (out : String) :
    runCompile pattern format out = .ok (File.deliverText (compiledText tokens format) out) := by
  have hdefaults := defaultIsJson_of_compile h
  rw [runCompile, tokensOf, h]
  cases format with
  | json =>
      show worded (File.deliverJson _ out) = _
      rw [deliverJson_toRecord hdefaults]
      rfl
  | text =>
      show (do return deliverLines (← worded (tokenLines tokens)) out) = _
      rw [tokenLines_eq hdefaults]
      rfl

theorem exists_runExplain {pattern : String} {tokens : List Token}
    (h : MessagePattern.compile pattern = .ok tokens) :
    ∃ text, runExplain pattern = .ok (File.deliverText text File.standard) := by
  obtain ⟨text, htext⟩ := exists_explainTokens (defaultIsJson_of_compile h)
  rw [runExplain, tokensOf, h]
  refine ⟨"PATTERN: " ++ pattern ++ "\n" ++ text ++ "\n", ?_⟩
  show (do
    let lines ← worded (explainTokens tokens)
    return File.deliverText ("PATTERN: " ++ pattern ++ "\n" ++ lines ++ "\n") File.standard) = _
  rw [htext]
  rfl

/-! ## Runs -/

variable {sources : Sources} {pattern segments : String} {rules : Option String}

/-- The rules that were asked for bring up nothing too long to be written. -/
theorem keepsWritable_of_rulesOf {raw : Option RawRules} {resolved : Rules}
    (hraw : rulesOf sources rules = .ok raw) (h : Rules.resolve raw = .ok resolved) :
    ∀ e ∈ resolved, e.2.KeepsWritable := by
  unfold rulesOf at hraw
  split at hraw
  · cases hraw
    cases h
    exact Rules.keepsWritable_defaults
  · cases hraw
    cases h
    exact Rules.keepsWritable_defaults
  · obtain ⟨entries, hentries, hraw⟩ := bind_eq_ok_iff.mp hraw
    cases hraw
    obtain ⟨own, hown, rfl⟩ := map_eq_ok_iff.mp h
    exact Table.forall_setAll Rules.keepsWritable_defaults
      (File.keepsWritable_of_ofRaw (File.isData_of_rules hentries) hown)

/-- A match is looked for once the segments and the rules are read. -/
theorem findMatch_eq_ok_iff {result : Option MatchResult} :
    findMatch sources pattern segments rules = .ok result ↔
      ∃ read raw, sources.segments segments = .ok read ∧ rulesOf sources rules = .ok raw ∧
        matchMessage (.pattern pattern) (.list (read.map Segment.toValue)) raw .builtin =
          .ok result := by
  constructor
  · intro h
    obtain ⟨read, hread, h⟩ := bind_eq_ok_iff.mp h
    obtain ⟨raw, hraw, h⟩ := bind_eq_ok_iff.mp h
    exact ⟨read, raw, mapError_eq_ok_iff.mp hread, mapError_eq_ok_iff.mp hraw,
      mapError_eq_ok_iff.mp h⟩
  · rintro ⟨read, raw, hread, hraw, hmatch⟩
    unfold findMatch
    rw [hread, hraw]
    exact mapError_eq_ok_iff.mpr hmatch

theorem isWritable_of_findMatch {r : MatchResult}
    (h : findMatch sources pattern segments rules = .ok (some r)) : r.IsWritable := by
  obtain ⟨read, raw, hread, hraw, h⟩ := findMatch_eq_ok_iff.mp h
  obtain ⟨tokens, items, resolved, message, htokens, hitems, hresolved, hmessage, hmatch⟩ :=
    matchMessage_cases h
  cases hitems
  rw [readMessage_toValue] at hmessage
  cases hmessage
  have hcompile : MessagePattern.compile pattern = .ok tokens := mapError_eq_ok_iff.mp htokens
  refine isWritable_of_matchTokens ?_ ?_ ?_ hmatch
  · exact Setting.keepsWritable_builtin
      (keepsWritable_of_rulesOf hraw hresolved)
  · intro name dataType optional v hmem
    exact Json.isWritable_of_isJson
      (defaultIsJson_of_compile hcompile _ hmem name dataType optional v rfl)
  · exact File.isWritable_of_segments hread

/-- What keeps a match from being found is in what was read, or in the pattern. -/
theorem not_unforeseen_of_findMatch {fault : CommandFault}
    (h : findMatch sources pattern segments rules = .error fault) : ¬ fault.Unforeseen := by
  intro hunforeseen
  have hother : ∀ {ε α : Type} {f : ε → CommandFault} {x : Except ε α},
      (∀ e, ¬ (f e).Unforeseen) → x.mapError f ≠ .error fault := by
    intro ε α f x hf hx
    obtain ⟨e, _, rfl⟩ := mapError_eq_error_iff.mp hx
    exact hf e hunforeseen
  have hreading : ∀ e, ¬ (CommandFault.reading e).Unforeseen := fun e he => nomatch he
  obtain hread | ⟨read, _, h⟩ := bind_eq_error_iff.mp h
  · exact hother hreading hread
  obtain hraw | ⟨raw, _, h⟩ := bind_eq_error_iff.mp h
  · exact hother hreading hraw
  obtain ⟨refusal, hrefusal, rfl⟩ := mapError_eq_error_iff.mp h
  cases hunforeseen with
  | matcher text => exact matchMessage_builtin_ne_failed _ _ _ text hrefusal

/-- Once a match was looked for, the answer is delivered. -/
theorem exists_run_matching {result : Option MatchResult} (format : OutputFormat) (out : String)
    (hfound : findMatch sources pattern segments rules = .ok result) :
    ∃ text, deliverMatch result format out = .ok (File.deliverText text out) ∧
      (matching pattern segments rules format out).run sources =
        .ok (if result.isSome then 0 else 1, File.deliverText text out) := by
  have hwritable : ∀ r, result = some r → r.IsWritable := by
    rintro r rfl
    exact isWritable_of_findMatch hfound
  obtain ⟨text, htext⟩ := exists_deliverMatch hwritable format out
  refine ⟨text, htext, ?_⟩
  rw [run, hfound]
  show (do return (_, ← worded (deliverMatch result format out))) = _
  rw [htext]
  rfl

/-- The path that a command delivers to. -/
def destination : Command → String
  | compile _ _ out => out
  | matching _ _ _ _ out => out
  | explain _ => File.standard

/-- How the run of a command ends, before its delivery is stored. -/
inductive Ran (sources : Sources) (command : Command) : Except CommandFault (Nat × Delivery) → Prop
  /-- Something was refused. -/
  | refused {fault : CommandFault} (hfault : ¬ fault.Unforeseen) :
      Ran sources command (.error fault)
  | found {pattern segments : String} {rules : Option String} {format : OutputFormat}
      {out : String} (hcommand : command = .matching pattern segments rules format out)
      {result : Option MatchResult} {text : String}
      (hfound : findMatch sources pattern segments rules = .ok result)
      (hdeliver : deliverMatch result format out = .ok (File.deliverText text out)) :
      Ran sources command (.ok (if result.isSome then 0 else 1, File.deliverText text out))
  /-- Its work is done; a command that looks for a match is another case. -/
  | worked (hcommand : ∀ pattern segments rules format out,
        command ≠ .matching pattern segments rules format out) {text : String} :
      Ran sources command (.ok (0, File.deliverText text command.destination))

theorem ran (sources : Sources) (command : Command) :
    Ran sources command (command.run sources) := by
  cases command with
  | compile pattern format out =>
      cases hcompile : MessagePattern.compile pattern with
      | error e =>
          have hrun : (compile pattern format out).run sources = .error (.pattern e) := by
            rw [run, runCompile, tokensOf, hcompile]
            rfl
          rw [hrun]
          exact .refused nofun
      | ok tokens =>
          have htext := runCompile_eq hcompile format out
          rw [run, htext]
          exact .worked (by simp)
  | explain pattern =>
      cases hcompile : MessagePattern.compile pattern with
      | error e =>
          have hrun : (explain pattern).run sources = .error (.pattern e) := by
            rw [run, runExplain, tokensOf, hcompile]
            rfl
          rw [hrun]
          exact .refused nofun
      | ok tokens =>
          obtain ⟨text, htext⟩ := exists_runExplain hcompile
          rw [run, htext]
          exact .worked (by simp)
  | matching pattern segments rules format out =>
      cases hfound : findMatch sources pattern segments rules with
      | error fault =>
          rw [run, hfound]
          exact .refused (not_unforeseen_of_findMatch hfound)
      | ok result =>
          obtain ⟨text, htext, hrun⟩ := exists_run_matching format out hfound
          rw [hrun]
          exact .found rfl hfound htext

/-- A run that gets to its delivery did its work, or looked for a match that there is not. -/
theorem code_cases {command : Command} {code : Nat} {delivery : Delivery}
    (h : command.run sources = .ok (code, delivery)) :
    code = 0 ∨ code = 1 ∧ ∃ pattern segments rules format out,
      command = .matching pattern segments rules format out ∧
      findMatch sources pattern segments rules = .ok none ∧
      deliverMatch none format out = .ok delivery := by
  have hran := ran sources command
  rw [h] at hran
  cases hran with
  | worked hcommand => exact Or.inl rfl
  | @found pattern segments rules format out hcommand result text hfound hdeliver =>
      cases result with
      | some r => exact Or.inl rfl
      | none =>
          exact Or.inr ⟨rfl, pattern, segments, rules, format, out, hcommand, hfound, hdeliver⟩

/-! ## Ends -/

variable {σ : Type} [Storage σ] {command : Command} {files files' : σ} {input : String}
  {code : Nat} {delivery : Delivery}

theorem runIn_of_run (hrun : command.run (.of files input) = .ok (code, delivery)) :
    command.runIn files input = (do
      let files ← (delivery.store files).mapError fun (path, fault) => .saving path fault
      return { code, output := delivery.output, files }) := by
  rw [runIn, hrun]
  rfl

theorem runIn_of_stored (hrun : command.run (.of files input) = .ok (code, delivery))
    (hstore : delivery.store files = .ok files') :
    command.runIn files input = .ok { code, output := delivery.output, files := files' } := by
  rw [runIn_of_run hrun, hstore]
  rfl

/-- A command looks for a match in what it can read, there is none, and the answer that says so can
be stored. -/
inductive FindsNone (files : σ) (input : String) : Command → Delivery → σ → Prop
  | intro {pattern path : String} {rules : Option String} {format : OutputFormat} {out : String}
      {segments : List Segment} {raw : Option RawRules} {delivery : Delivery} {files' : σ}
      (hsegments : (Sources.of files input).segments path = .ok segments)
      (hrules : rulesOf (.of files input) rules = .ok raw)
      (hmatch : matchMessage (.pattern pattern) (.list (segments.map Segment.toValue)) raw
        .builtin = .ok none)
      (hdeliver : deliverMatch none format out = .ok delivery)
      (hstore : delivery.store files = .ok files') :
      FindsNone files input (.matching pattern path rules format out) delivery files'

/-- How a command ends. -/
inductive Ended (command : Command) (files : σ) (input : String) :
    Except CommandFault (Outcome σ) → Prop
  /-- Something was refused. -/
  | refused {fault : CommandFault} (hfault : ¬ fault.Unforeseen) :
      Ended command files input (.error fault)
  /-- What it delivers was stored. It did its work, or there is no match. -/
  | stored {code : Nat} {delivery : Delivery} {files' : σ}
      (hrun : command.run (.of files input) = .ok (code, delivery))
      (hstore : delivery.store files = .ok files')
      (hcode : code = 0 ∨ code = 1 ∧ FindsNone files input command delivery files') :
      Ended command files input (.ok { code, output := delivery.output, files := files' })

theorem ended (command : Command) (files : σ) (input : String) :
    Ended command files input (command.runIn files input) := by
  have hran := ran (.of files input) command
  cases hrun : command.run (.of files input) with
  | error fault =>
      have hrunIn : command.runIn files input = .error fault := by
        rw [runIn, hrun]
        rfl
      rw [hrun] at hran
      rw [hrunIn]
      cases hran with
      | refused hfault => exact .refused hfault
  | ok answer =>
      obtain ⟨code, delivery⟩ := answer
      cases hstore : delivery.store files with
      | ok files' =>
          rw [runIn_of_stored hrun hstore]
          refine .stored hrun hstore ?_
          obtain rfl | ⟨rfl, pattern, segments, rules, format, out, rfl, hfound, hdeliver⟩ :=
            code_cases hrun
          · exact Or.inl rfl
          · obtain ⟨read, raw, hread, hraw, hmatch⟩ := findMatch_eq_ok_iff.mp hfound
            exact Or.inr ⟨rfl, .intro hread hraw hmatch hdeliver hstore⟩
      | error reason =>
          rw [runIn_of_run hrun, hstore]
          exact .refused nofun

/-- A command that got as far as its delivery ends with its code if the delivery can be stored, and
else with that of an error. -/
theorem code_of_run {text out : String}
    (hrun : command.run (.of files input) = .ok (code, File.deliverText text out)) :
    (Takes files out → (command.outcome files input).code = code) ∧
      (¬ Takes files out → (command.outcome files input).code = 2) := by
  constructor
  · intro htakes
    obtain ⟨files', hstore⟩ := File.exists_store_iff.mpr htakes
    rw [outcome, runIn_of_stored hrun hstore]
  · intro htakes
    cases hstore : (File.deliverText text out).store files with
    | ok files' => exact absurd (File.exists_store_iff.mp ⟨_, hstore⟩) htakes
    | error reason =>
        rw [outcome, runIn_of_run hrun, hstore]
        rfl

/-- A command that finds no match has stored the answer that says so. -/
theorem outcome_of_findsNone (h : FindsNone files input command delivery files') :
    command.outcome files input = { code := 1, output := delivery.output, files := files' } := by
  cases h with
  | intro hsegments hrules hmatch hdeliver hstore =>
      have hfound := findMatch_eq_ok_iff.mpr ⟨_, _, hsegments, hrules, hmatch⟩
      obtain ⟨text, htext, hrun⟩ := exists_run_matching _ _ hfound
      rw [htext] at hdeliver
      cases hdeliver
      rw [outcome, runIn_of_stored hrun hstore]
      rfl

/-- A command is refused, or it has stored what it delivers: then it did its work, or there is no
match. -/
theorem outcome_cases (command : Command) (files : σ) (input : String) :
    (∃ fault, command.runIn files input = .error fault ∧
      command.outcome files input = refusal fault files) ∨
    ∃ code delivery files', command.run (.of files input) = .ok (code, delivery) ∧
      delivery.store files = .ok files' ∧
      command.outcome files input = { code, output := delivery.output, files := files' } ∧
      (code = 0 ∨ code = 1 ∧ FindsNone files input command delivery files') := by
  have hended := ended command files input
  unfold outcome
  cases hrunIn : command.runIn files input with
  | error fault => exact Or.inl ⟨fault, rfl, rfl⟩
  | ok o =>
      rw [hrunIn] at hended
      cases hended with
      | stored hrun hstore hcode => exact Or.inr ⟨_, _, _, hrun, hstore, rfl, hcode⟩

/-- Whether a match is found does not hang on the format of the answer, and neither does whether
the answer can be stored. -/
theorem code_matching_congr (pattern segments : String) (rules : Option String)
    (format format' : OutputFormat) (out : String) :
    ((matching pattern segments rules format out).outcome files input).code =
      ((matching pattern segments rules format' out).outcome files input).code := by
  cases hfound : findMatch (.of files input) pattern segments rules with
  | error fault =>
      have hcode : ∀ format,
          ((matching pattern segments rules format out).outcome files input).code = 2 := by
        intro format
        have hrunIn : (matching pattern segments rules format out).runIn files input =
            .error fault := by
          rw [runIn, run, hfound]
          rfl
        rw [outcome, hrunIn]
        rfl
      rw [hcode, hcode]
  | ok result =>
      obtain ⟨text, _, hrun⟩ := exists_run_matching format out hfound
      obtain ⟨text', _, hrun'⟩ := exists_run_matching format' out hfound
      by_cases htakes : Takes files out
      · rw [(code_of_run hrun).1 htakes, (code_of_run hrun').1 htakes]
      · rw [(code_of_run hrun).2 htakes, (code_of_run hrun').2 htakes]

end Command

/-! ## Command lines -/

section

variable {σ : Type} [Storage σ]

/-- How a command line ends. -/
def outcomeOfLine (args : List String) (files : σ) (input : String) : Outcome σ :=
  match Command.ofLine args with
  | .ok command => command.outcome files input
  | .error stop => stop.outcome files

theorem outcomeOfLine_eq {args : List String} {command : Command}
    (hline : Command.ofLine args = .ok command) (files : σ) (input : String) :
    outcomeOfLine args files input = command.outcome files input := by
  rw [outcomeOfLine, hline]

/-- No command fails for a fault that it makes no provision for. It ends with 0, 1 or 2. With 2 it
has written nothing, neither out nor to a file, and says what was refused; otherwise all that it
delivers was written. With 1 it has looked for a match and has read all that it needs, and what it
has written says that there is none. Whether there is one does not hang on the format of the
answer. -/
theorem outcome_of_line {args : List String} {command : Command} (files : σ) (input : String)
    (hline : Command.ofLine args = .ok command) :
    (∀ fault, command.runIn files input = .error fault → ¬ fault.Unforeseen) ∧
    (outcomeOfLine args files input).code ∈ [0, 1, 2] ∧
    ((outcomeOfLine args files input).code = 2 →
      (outcomeOfLine args files input).output = "" ∧
      (outcomeOfLine args files input).files = files ∧
      ∃ fault, command.runIn files input = .error fault ∧
        (outcomeOfLine args files input).errors = "error: " ++ fault.message ++ "\n") ∧
    ((outcomeOfLine args files input).code ≠ 2 →
      (outcomeOfLine args files input).errors = "" ∧
      ∃ delivery, command.run (.of files input) =
          .ok ((outcomeOfLine args files input).code, delivery) ∧
        (outcomeOfLine args files input).output = delivery.output ∧
        delivery.store files = .ok (outcomeOfLine args files input).files) ∧
    ((outcomeOfLine args files input).code = 1 ↔
      ∃ delivery files', Command.FindsNone files input command delivery files') ∧
    (∀ delivery files', Command.FindsNone files input command delivery files' →
      (outcomeOfLine args files input).output = delivery.output ∧
      (outcomeOfLine args files input).files = files') ∧
    ∀ args' pattern path rules format format' out,
      command = .matching pattern path rules format out →
      Command.ofLine args' = .ok (.matching pattern path rules format' out) →
      (outcomeOfLine args' files input).code = (outcomeOfLine args files input).code := by
  rw [outcomeOfLine_eq hline]
  have hcases := Command.outcome_cases command files input
  refine ⟨fun fault hfault => ?_, ?_, ?_, ?_, ⟨?_, ?_⟩, fun delivery files' hnone => ?_, ?_⟩
  · have hended := Command.ended command files input
    rw [hfault] at hended
    cases hended with
    | refused hforeseen => exact hforeseen
  · obtain ⟨fault, _, houtcome⟩ | ⟨code, delivery, files', _, _, houtcome, rfl | ⟨rfl, _⟩⟩ := hcases
      <;> simp [houtcome, Command.refusal]
  · intro herror
    obtain ⟨fault, hrunIn, houtcome⟩ | ⟨code, delivery, files', _, _, houtcome, hcode⟩ := hcases
    · rw [houtcome]
      exact ⟨rfl, rfl, fault, hrunIn, rfl⟩
    · rw [houtcome] at herror
      change code = 2 at herror
      omega
  · intro hdone
    obtain ⟨fault, _, houtcome⟩ | ⟨code, delivery, files', hrun, hstore, houtcome, _⟩ := hcases
    · rw [houtcome] at hdone
      exact absurd rfl hdone
    · rw [houtcome]
      exact ⟨rfl, delivery, hrun, rfl, hstore⟩
  · intro hnone
    obtain ⟨fault, _, houtcome⟩ | ⟨code, delivery, files', _, _, houtcome, hcode⟩ := hcases
    · rw [houtcome] at hnone
      cases hnone
    · rw [houtcome] at hnone
      change code = 1 at hnone
      obtain rfl | ⟨_, hfinds⟩ := hcode
      · cases hnone
      · exact ⟨delivery, files', hfinds⟩
  · rintro ⟨delivery, files', hnone⟩
    rw [Command.outcome_of_findsNone hnone]
  · rw [Command.outcome_of_findsNone hnone]
    exact ⟨rfl, rfl⟩
  · rintro args' pattern path rules format format' out rfl hline'
    rw [outcomeOfLine_eq hline']
    exact Command.code_matching_congr pattern path rules format' format out

end

/-- An answer that there is no match, with the format asked for in two ways; it goes to a file in
another folder. -/
theorem outcome_of_line_no_match :
    let files : File.Tree := ⟨["home"], [["home"], ["answers"]], []⟩
    let json := ["match", "<n:integer>", "--segments", "-", "--out=/answers/a", "--format", "json"]
    let text := ["match", "<n:integer>", "--segments=-", "--out", "/answers/a"]
    (outcomeOfLine json files "[]").code = 1 ∧ (outcomeOfLine json files "[]").output = "" ∧
      (outcomeOfLine json files "[]").files.files =
        [(["answers", "a"], Utf8.encode "\x7b\n  \"match\": false\n\x7d\n")] ∧
      (outcomeOfLine text files "[]").code = 1 := by
  intro files json text
  let written := "\x7b\n  \"match\": false\n\x7d\n"
  let answer : Delivery := { saved := some ("/answers/a", written) }
  have hjson : Command.ofLine json = .ok (.matching "<n:integer>" "-" none .json "/answers/a") :=
    eq_ok_of_toOption (by decide +kernel)
  have htext : Command.ofLine text = .ok (.matching "<n:integer>" "-" none .text "/answers/a") :=
    eq_ok_of_toOption (by decide +kernel)
  have hmatch : matchMessage (.pattern "<n:integer>") (.list []) none .builtin = .ok none := by
    have hsource : (PatternSource.pattern "<n:integer>").resolve =
        .ok [.parameter "n" "integer" false none] := by
      rw [PatternSource.resolve, compile_sole_integer]
      rfl
    rw [matchMessage_of_read .builtin hsource rfl rfl rfl]
    rfl
  have hsegments : (Sources.of files "[]").segments "-" = .ok [] := by
    have hrecords : File.textRecords "[]".toList = .ok [] := rfl
    rw [Sources.segments, Sources.records, if_pos (show "-" = File.standard from rfl)]
    show (do
      let records ← File.textRecords "[]".toList
      (records.mapM Segment.ofRecord).mapError File.ReadFault.invalid) = _
    rw [hrecords]
    rfl
  have hdeliver : Command.deliverMatch none .json "/answers/a" = .ok answer :=
    eq_ok_of_toOption (by decide +kernel)
  have hnone : Command.FindsNone files "[]" (.matching "<n:integer>" "-" none .json "/answers/a")
      answer { files with files := [(["answers", "a"], Utf8.encode written)] } :=
    .intro hsegments rfl hmatch hdeliver rfl
  obtain ⟨_, _, _, _, hcode, hwritten, hformat⟩ := outcome_of_line files "[]" hjson
  obtain ⟨houtput, hfiles⟩ := hwritten _ _ hnone
  have hone := hcode.mpr ⟨_, _, hnone⟩
  exact ⟨hone, houtput, congrArg File.Tree.files hfiles,
    (hformat _ _ _ _ _ _ _ rfl htext).trans hone⟩

end MessagePattern
