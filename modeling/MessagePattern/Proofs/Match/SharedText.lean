import MessagePattern.Proofs.Match.Validity
import MessagePattern.Proofs.Pattern.Part
import MessagePattern.Proofs.Text.Words

/-!
# Optional parameters that share a text

Optional parameters of plain text with single spaces between them read one text word by
word: each but the last takes the first word of what the others left, and the space in
the pattern takes the one that this begins with (`exists_steps_shared`). The last one
takes all that is left, or its word if that is the only one (`share`). So they read what
the word splitter reads (`matchMessage_optionals`).
-/

namespace MessagePattern

open MessagePattern.Bracket

/-! ## The pattern -/

/-- A name that stands for itself between square brackets: a trimmed part with neither
brackets nor delimiters, and no dots in front. -/
structure IsPlainName (name : String) : Prop where
  isPart : IsPart name.toList
  plain : Plain name.toList
  colon_notMem : ':' ∉ name.toList
  equals_notMem : '=' ∉ name.toList
  not_dots : ¬ ['.', '.', '.'] <+: name.toList

/-- The pattern of optional parameters with single spaces between them. -/
def optionalsPattern (names : List String) : String :=
  String.intercalate " " (names.map fun name => "[" ++ name ++ "]")

/-- The tokens of optional parameters with single spaces between them. -/
def optionalTokens : List String → List Token
  | [] => []
  | [name] => [.parameter name textKind true none]
  | name :: next :: names =>
      .parameter name textKind true none :: .literal " " true :: optionalTokens (next :: names)

theorem balanced_of_plain {b : Bracket} {cs : List Char} (h : Plain cs) : b.Balanced cs := by
  have hnil : b.Balanced [] := balancedFrom_zero_iff.mp (balancedFrom_nil_iff.mpr rfl)
  exact hnil.of_only_eq (only_eq_nil fun c hc => h c hc b)

theorem groupToken_plainName {name : String} (h : IsPlainName name) :
    groupToken .square name.toList = .ok (.parameter name textKind true none) := by
  rw [groupToken_square_of_not_dots h.not_dots, optionalParameter,
    Text.splitOnce_of_notMem h.equals_notMem]
  simp only [parameterHead_name h.isPart h.colon_notMem]
  rfl

theorem toList_bracketed (name : String) :
    ("[" ++ name ++ "]").toList = square.opener :: (name.toList ++ [square.closer]) := by
  rw [String.toList_append, String.toList_append]
  rfl

theorem optionalsPattern_singleton (name : String) :
    (optionalsPattern [name]).toList = square.opener :: (name.toList ++ square.closer :: []) := by
  rw [← toList_bracketed]
  rfl

theorem optionalsPattern_cons (name next : String) (names : List String) :
    (optionalsPattern (name :: next :: names)).toList =
      square.opener :: (name.toList ++ square.closer ::
        ([' '] ++ (optionalsPattern (next :: names)).toList)) := by
  simp only [optionalsPattern, String.toList_intercalate, List.map_cons,
    List.intercalate_cons_cons, toList_bracketed]
  simp

theorem compile_optionalsPattern {names : List String} (h : ∀ name ∈ names, IsPlainName name) :
    compile (optionalsPattern names) = .ok (optionalTokens names) := by
  rw [compile_eq_ok_iff]
  induction names with
  | nil => exact scan_nil
  | cons name names ih =>
      have hname := h name List.mem_cons_self
      have hbalanced : square.Balanced name.toList := balanced_of_plain hname.plain
      have htoken := groupToken_plainName hname
      cases names with
      | nil =>
          rw [optionalsPattern_singleton]
          exact scan_group_ok hbalanced htoken scan_nil
      | cons next names =>
          have hothers := ih fun name hmem => h name (List.mem_cons_of_mem _ hmem)
          have hat : AtBracket (optionalsPattern (next :: names)).toList := by
            cases names with
            | nil =>
                rw [optionalsPattern_singleton]
                exact atBracket_opener square _
            | cons =>
                rw [optionalsPattern_cons]
                exact atBracket_opener square _
          have hspace : Plain [' '] := plain_of_all (by decide)
          rw [optionalsPattern_cons]
          exact scan_group_ok hbalanced htoken
            (scan_run_ok (List.cons_ne_nil _ _) hspace hat hothers)

theorem optionalsSharing_optionalTokens (registry : Registry) (names : List String) :
    optionalsSharing registry (optionalTokens names) = names.length := by
  induction names with
  | nil => rfl
  | cons name names ih =>
      cases names with
      | nil => rfl
      | cons next names =>
          show 1 + optionalsSharing registry (optionalTokens (next :: names)) = _
          rw [ih, Nat.add_comm]
          rfl

/-! ## What is left for the parameters -/

/-- The part of a text that the last of some parameters with single spaces between them
takes, and the word that any other takes. The parameters are counted from zero. -/
def share (text : List Char) (count n : Nat) : List Char :=
  if n + 1 < count ∨ (Text.behindWords text (n + 1)).all (· == Text.separator) = true then
    Text.wordAt text n
  else (Text.behindWords text n).tail

theorem share_succ (text : List Char) (count n : Nat) :
    share text (count + 1) (n + 1) = share (Text.splitFirst text).2 count n := by
  unfold share
  rw [Text.wordAt_succ, Text.behindWords_succ text (n + 1), Text.behindWords_succ text n]
  simp only [Nat.add_lt_add_iff_right]

/-- A text is all that lies ahead of a run, in one segment unless it is empty. -/
structure Outlook.Holds (o : Outlook) (text : List Char) : Prop where
  ahead_cases : o.ahead = [] ∧ text = [] ∨
    ∃ s, o.ahead = [s] ∧ s.text? = some (String.ofList text)

/-- A text that was left by a parameter is all that lies ahead of a run. -/
structure Outlook.HoldsLeft (o : Outlook) (text : List Char) : Prop where
  ahead_eq : o.ahead = pieceOf text
  blob_eq : text ≠ [] → o.blob = true

variable {setting : Setting} {o : Outlook} {text : List Char} {name : String}
  {rest : List Token}

namespace Outlook

theorem HoldsLeft.ahead_nil (h : o.HoldsLeft []) : o.ahead = [] :=
  h.ahead_eq

theorem HoldsLeft.ahead_cons {c : Char} {cs : List Char} (h : o.HoldsLeft (c :: cs)) :
    o.ahead = [.ofText (String.ofList (c :: cs))] :=
  h.ahead_eq

theorem HoldsLeft.holds (h : o.HoldsLeft text) : o.Holds text := by
  cases text with
  | nil => exact ⟨Or.inl ⟨h.ahead_nil, rfl⟩⟩
  | cons c cs => exact ⟨Or.inr ⟨_, h.ahead_cons, Segment.text?_ofText _⟩⟩

/-- A token that takes the one segment ahead leaves what it leaves of it. -/
theorem step_of_intake {token : Token} {s : Segment} {i : Intake} (hahead : o.ahead = [s])
    (hrest : ∀ name dataType, token ≠ .rest name dataType)
    (hintake : intake? setting token rest s o.blob = .ok (some i)) :
    o.step setting token rest = .ok (some (o.absorb i)) := by
  have htry : o.tryHere setting token rest = .ok (some (o.absorb i)) := by
    rw [tryHere, hahead]
    show o.tryToken setting token rest s = _
    rw [tryToken, hintake]
    · rfl
    · exact hrest
  rw [step, htry]
  rfl

/-- What a plain text parameter takes of the one text ahead. -/
theorem step_textParameter {s : Segment} {shared : Bool} (hahead : o.ahead = [s])
    (htext : s.text? = some (String.ofList text))
    (hshared : decide (1 < optionalsSharing setting.registry
      (.parameter name textKind true none :: rest)) = shared) :
    o.step setting (.parameter name textKind true none) rest =
      .ok (some (o.absorb (((portion shared o.blob text).intake s).named name
        (.text (String.ofList (portion shared o.blob text).reads))))) := by
  refine step_of_intake hahead (by simp) ?_
  simp only [intake?, tryParameter, tryTextParameter, htext, String.toList_ofList, readAs, hshared]
  rfl

/-- A parameter that shares the text with others takes its first word. -/
theorem exists_step_shared (h : o.Holds text)
    (hshared : 1 < optionalsSharing setting.registry
      (.parameter name textKind true none :: rest)) :
    ∃ o', o.step setting (.parameter name textKind true none) rest = .ok (some o') ∧
      o'.HoldsLeft (Text.splitFirst text).2 ∧
      o'.result.params =
        Table.set o.result.params name (.text (String.ofList (Text.splitFirst text).1.value)) := by
  rcases h.ahead_cases with ⟨hahead, rfl⟩ | ⟨s, hahead, htext⟩
  · exact ⟨_, step_of_ahead_nil hahead, ⟨hahead, fun hne => absurd rfl hne⟩, rfl⟩
  · refine ⟨_, step_textParameter hahead htext (decide_eq_true hshared), ⟨?_, ?_⟩, rfl⟩
    · show pieceOf _ ++ o.ahead.tail = _
      rw [hahead]
      exact List.append_nil _
    · intro hne
      show (true && !(Text.splitFirst text).2.isEmpty) = true
      simpa using hne

/-- The space in the pattern takes the one that the text begins with. -/
theorem exists_step_separator (setting : Setting) (rest : List Token) (h : o.HoldsLeft text)
    (htext : Text.AtBreak text) :
    ∃ o', o.step setting (.literal " " true) rest = .ok (some o') ∧ o'.HoldsLeft text.tail ∧
      o'.result.params = o.result.params := by
  rcases htext with rfl | ⟨behind, rfl⟩
  · exact ⟨_, step_of_ahead_nil h.ahead_nil, ⟨h.ahead_nil, fun hne => absurd rfl hne⟩, rfl⟩
  · have hintake : intake? setting (.literal " " true) rest
        (.ofText (String.ofList (Text.separator :: behind))) o.blob =
          .ok (some { taken := [.ofText " "], left := behind, blob := o.blob }) := by
      simp only [intake?, tryLiteral, Segment.text?_ofText, String.toList_ofList]
      rfl
    refine ⟨_, step_of_intake h.ahead_cons (by simp) hintake, ⟨?_, ?_⟩, rfl⟩
    · show pieceOf behind ++ o.ahead.tail = _
      rw [h.ahead_cons]
      exact List.append_nil _
    · intro hne
      show (o.blob && !behind.isEmpty) = true
      rw [h.blob_eq (List.cons_ne_nil _ _)]
      simpa using hne

theorem portion_blob (text : List Char) :
    portion false true text =
      ⟨if (Text.splitFirst text).2.all (· == Text.separator) = true then
        (Text.splitFirst text).1.value else text, none, []⟩ := by
  unfold portion
  simp only [Bool.false_eq_true, if_false, Bool.true_and]
  split <;> rfl

/-- The last parameter takes all that the others left, without quotes if it is one word. -/
theorem exists_step_last (h : o.HoldsLeft text)
    (hlast : optionalsSharing setting.registry
      (.parameter name textKind true none :: rest) ≤ 1) :
    ∃ o', o.step setting (.parameter name textKind true none) rest = .ok (some o') ∧
      o'.ahead = [] ∧
      o'.result.params = Table.set o.result.params name (.text (String.ofList
        (if (Text.splitFirst text).2.all (· == Text.separator) = true then
          (Text.splitFirst text).1.value else text))) := by
  cases text with
  | nil => exact ⟨_, step_of_ahead_nil h.ahead_nil, h.ahead_nil, rfl⟩
  | cons c cs =>
      have hshared := decide_eq_false (Nat.not_lt.mpr hlast)
      have hstep := step_textParameter h.ahead_cons (Segment.text?_ofText _) hshared
      rw [h.blob_eq (List.cons_ne_nil _ _), portion_blob] at hstep
      refine ⟨_, hstep, ?_, rfl⟩
      show [] ++ o.ahead.tail = _
      rw [h.ahead_cons]
      rfl

/-! ## Runs -/

/-- A parameter that shares the text, and the space behind it. -/
theorem exists_steps_shared (setting : Setting) (name next : String) (names : List String)
    (h : o.Holds text) :
    ∃ o' : Outlook, o.steps setting (optionalTokens (name :: next :: names)) =
        o'.steps setting (optionalTokens (next :: names)) ∧
      o'.HoldsLeft (Text.splitFirst text).2.tail ∧
      o'.result.params =
        Table.set o.result.params name (.text (String.ofList (Text.splitFirst text).1.value)) := by
  have hshared : 1 < optionalsSharing setting.registry
      (optionalTokens (name :: next :: names)) := by
    rw [optionalsSharing_optionalTokens]
    simp
  obtain ⟨o₁, hfirst, hleft, hparams⟩ := exists_step_shared h hshared
  obtain ⟨o₂, hsecond, hleft, hparams'⟩ :=
    exists_step_separator setting (optionalTokens (next :: names)) hleft
      (Text.atBreak_splitFirst text)
  refine ⟨o₂, ?_, hleft, hparams'.trans hparams⟩
  rw [optionalTokens, steps, hfirst]
  show o₁.steps setting _ = _
  rw [steps, hsecond]
  rfl

theorem get?_set_of_ne {params : Fields} {name other : String} {v : Value} (h : name ≠ other) :
    Table.get? (Table.set params name v) other = Table.get? params other := by
  rw [Table.get?_set, if_neg h]

/-- Where the first parameter takes a word and the others share what it left, all of them
share the text. -/
theorem get?_share_cons {next : String} {names : List String} {params before after : Fields}
    (hname : name ∉ next :: names)
    (hbefore : before =
      Table.set params name (.text (String.ofList (Text.splitFirst text).1.value)))
    (hother : ∀ other, other ∉ next :: names → Table.get? after other = Table.get? before other)
    (hshare : ∀ n (hn : n < (next :: names).length), Table.get? after (next :: names)[n] =
      some (.text (String.ofList (share (Text.splitFirst text).2 (next :: names).length n))))
    (n : Nat) (hn : n < (name :: next :: names).length) :
    Table.get? after (name :: next :: names)[n] =
      some (.text (String.ofList (share text (name :: next :: names).length n))) := by
  cases n with
  | zero =>
      rw [List.getElem_cons_zero, hother name hname, hbefore, Table.get?_set, if_pos rfl]
      simp [share, Text.wordAt, Text.behindWords]
  | succ n =>
      rw [List.getElem_cons_succ, hshare n (Nat.lt_of_succ_lt_succ hn)]
      exact congrArg (some ∘ Value.text ∘ String.ofList) (share_succ text _ n).symm

/-- The parameters behind the first share what it left. -/
theorem exists_steps_optionalTokens {names : List String} (hne : names ≠ []) (hnodup : names.Nodup)
    (htext : Text.AtBreak text) (h : o.HoldsLeft text.tail) :
    ∃ o', o.steps setting (optionalTokens names) = .ok (some o') ∧ o'.ahead = [] ∧
      (∀ name, name ∉ names →
        Table.get? o'.result.params name = Table.get? o.result.params name) ∧
      ∀ n (hn : n < names.length), Table.get? o'.result.params names[n] =
        some (.text (String.ofList (share text names.length n))) := by
  induction names generalizing o text with
  | nil => exact absurd rfl hne
  | cons name names ih =>
      -- The space in front belongs to the raw text of the first word.
      have hsplit : (Text.splitFirst text.tail).1.value = (Text.splitFirst text).1.value ∧
          (Text.splitFirst text.tail).2 = (Text.splitFirst text).2 := by
        rcases htext with rfl | ⟨behind, rfl⟩
        · exact ⟨rfl, rfl⟩
        · rw [Text.splitFirst_separator_cons]
          exact ⟨rfl, rfl⟩
      cases names with
      | nil =>
          have hlast : optionalsSharing setting.registry (optionalTokens [name]) ≤ 1 := by
            rw [optionalsSharing_optionalTokens]
            exact Nat.le_refl 1
          obtain ⟨o', hstep, hahead, hparams⟩ := exists_step_last h hlast
          rw [hsplit.1, hsplit.2] at hparams
          refine ⟨o', ?_, hahead, ?_, ?_⟩
          · rw [optionalTokens, steps, hstep]
            rfl
          · intro other hother
            rw [hparams]
            exact get?_set_of_ne fun heq => hother (heq ▸ List.mem_cons_self)
          · intro n hn
            obtain rfl : n = 0 := by
              simp only [List.length_cons, List.length_nil] at hn
              omega
            rw [List.getElem_cons_zero, hparams, Table.get?_set, if_pos rfl]
            simp [share, Text.wordAt, Text.behindWords]
      | cons next names =>
          obtain ⟨hname, hnodup⟩ := List.nodup_cons.mp hnodup
          obtain ⟨o₁, hsteps, hleft, hparams⟩ :=
            exists_steps_shared setting name next names h.holds
          rw [hsplit.2] at hleft
          rw [hsplit.1] at hparams
          obtain ⟨o', hrest, hahead, hother, hshare⟩ :=
            ih (List.cons_ne_nil _ _) hnodup (Text.atBreak_splitFirst text) hleft
          refine ⟨o', hsteps.trans hrest, hahead, ?_,
            get?_share_cons hname hparams hother hshare⟩
          intro other hnotMem
          have hne : name ≠ other := fun heq => hnotMem (heq ▸ List.mem_cons_self)
          rw [hother other fun hmem => hnotMem (List.mem_cons_of_mem _ hmem), hparams,
            get?_set_of_ne hne]

/-- Two or more parameters share the one text of a message. -/
theorem exists_steps_message (setting : Setting) {names : List String} {s : Segment}
    (htwo : 2 ≤ names.length) (hnodup : names.Nodup)
    (htext : s.text? = some (String.ofList text)) :
    ∃ o', Outlook.steps setting (optionalTokens names) { ahead := [s] } = .ok (some o') ∧
      o'.ahead = [] ∧
      ∀ n (hn : n < names.length), Table.get? o'.result.params names[n] =
        some (.text (String.ofList (share text names.length n))) := by
  obtain ⟨name, next, names, rfl⟩ : ∃ name next more, names = name :: next :: more := by
    match names, htwo with
    | name :: next :: more, _ => exact ⟨name, next, more, rfl⟩
  obtain ⟨hname, hnodup⟩ := List.nodup_cons.mp hnodup
  have hstart : Holds { ahead := [s] } text := ⟨Or.inr ⟨s, rfl, htext⟩⟩
  obtain ⟨o₁, hsteps, hleft, hparams⟩ :=
    exists_steps_shared setting name next names hstart
  obtain ⟨o', hrest, hahead, hother, hshare⟩ :=
    exists_steps_optionalTokens (List.cons_ne_nil _ _) hnodup (Text.atBreak_splitFirst text)
      hleft
  exact ⟨o', hsteps.trans hrest, hahead, get?_share_cons hname hparams hother hshare⟩

end Outlook

/-! ## Matches -/

/-- Two or more optional parameters match any one text segment and leave nothing. Each but the
last has a word of the text, or nothing if there are fewer words. The last has all that is
left behind the words of the others without the space in front; if that is a single word, or
none, it has the value of the word. -/
theorem matchMessage_optionals {names : List String} {message : Value} {items : List Value}
    {s : Segment} {text : List Char} {raw : Option RawRules} {rules : Rules}
    (registry : Registry) (hnames : ∀ name ∈ names, IsPlainName name) (hnodup : names.Nodup)
    (htwo : 2 ≤ names.length) (hitems : message.items? = some items)
    (hsegments : readMessage items = .ok [s]) (htext : s.text? = some (String.ofList text))
    (hrules : Rules.resolve raw = .ok rules) :
    ∃ r, matchMessage (.pattern (optionalsPattern names)) message raw registry = .ok (some r) ∧
      r.remaining = [] ∧
      (∀ n (hn : n + 1 < names.length),
        Table.get? r.params names[n] = some (.text (String.ofList (Text.wordAt text n))) ∧
        Text.wordAt text n = (Text.splitWords text)[n]?.getD []) ∧
      ∀ n (hn : n + 1 = names.length),
        ((Text.behindWords text (n + 1)).all (· == Text.separator) = true →
          Table.get? r.params names[n] = some (.text (String.ofList (Text.wordAt text n)))) ∧
        ((Text.behindWords text (n + 1)).all (· == Text.separator) = false →
          ∃ behind, Text.behindWords text n = Text.separator :: behind ∧
            Table.get? r.params names[n] = some (.text (String.ofList behind))) := by
  obtain ⟨o, hsteps, hahead, hshare⟩ :=
    Outlook.exists_steps_message ⟨rules, registry⟩ htwo hnodup htext
  have hremaining : (o.result.leave o.ahead).remaining = [] := by
    rw [hahead]
    show o.result.remaining ++ [] = []
    rw [remaining_of_steps hsteps, List.append_nil]
  have hvalid : (o.result.leave o.ahead).isValid = true := by
    have hfirst := hshare 0 (by omega)
    have hne : o.result.params ≠ [] := by
      intro hnil
      rw [hnil] at hfirst
      cases hfirst
    show (!o.result.params.isEmpty || _) = true
    simp [hne]
  have hmatch : matchMessage (.pattern (optionalsPattern names)) message raw registry =
      .ok (some (o.result.leave o.ahead)) := by
    have hsource : (PatternSource.pattern (optionalsPattern names)).resolve =
        .ok (optionalTokens names) := by
      rw [PatternSource.resolve, compile_optionalsPattern hnames]
      rfl
    rw [matchMessage_of_read registry hsource hitems hsegments hrules, matchTokens_eq_outlook,
      hsteps]
    show Except.ok (o.answer _) = _
    rw [Outlook.answer_eq_some_iff.mpr ⟨rfl, Or.inr hvalid⟩]
  refine ⟨_, hmatch, hremaining, ?_, ?_⟩
  · intro n hn
    refine ⟨?_, (Text.splitWords_getD text n).symm⟩
    have hword : share text names.length n = Text.wordAt text n := if_pos (Or.inl hn)
    rw [← hword]
    exact hshare n (Nat.lt_of_succ_lt hn)
  · intro n hn
    have hlast : ¬ n + 1 < names.length := Nat.not_lt.mpr (Nat.le_of_eq hn.symm)
    have hshare := hshare n (by omega)
    constructor
    · intro hblank
      rw [share, if_pos (Or.inr hblank)] at hshare
      exact hshare
    · intro hmore
      have hno : ¬ (n + 1 < names.length ∨
          (Text.behindWords text (n + 1)).all (· == Text.separator) = true) := by
        rw [hmore]
        simpa using hlast
      rw [share, if_neg hno] at hshare
      -- There is a parameter in front of the last one, so this text is what a word left.
      obtain ⟨m, rfl⟩ : ∃ m, n = m + 1 := ⟨n - 1, by omega⟩
      rcases Text.atBreak_splitFirst (Text.behindWords text m) with hnil | ⟨behind, hbehind⟩
      · rw [Text.behindWords, Text.behindWords, hnil] at hmore
        cases hmore
      · refine ⟨behind, hbehind, ?_⟩
        rw [Text.behindWords, hbehind] at hshare
        exact hshare

/-- A quoted word, a word, and a remainder of two words that keeps its second space. -/
theorem matchMessage_optionals_three :
    ∃ r, matchMessage (.pattern (optionalsPattern ["a", "b", "c"]))
        (.list [(Segment.ofText "'x y' z  v w").toRecord]) none .builtin = .ok (some r) ∧
      r.remaining = [] ∧ Table.get? r.params "a" = some (.text "x y") ∧
      Table.get? r.params "b" = some (.text "z") ∧
      Table.get? r.params "c" = some (.text " v w") := by
  have hnames : ∀ name ∈ ["a", "b", "c"], IsPlainName name := by
    intro name hmem
    simp only [List.mem_cons, List.not_mem_nil, or_false] at hmem
    rcases hmem with rfl | rfl | rfl <;>
      exact ⟨⟨by decide, by decide⟩, plain_of_all (by decide), by decide, by decide, by decide⟩
  have hrules : Rules.resolve none = .ok .defaults := rfl
  have hitems : (Value.list [(Segment.ofText "'x y' z  v w").toRecord]).items? =
      some [(Segment.ofText "'x y' z  v w").toRecord] := rfl
  have hsegments : readMessage [(Segment.ofText "'x y' z  v w").toRecord] =
      .ok [.ofText "'x y' z  v w"] := rfl
  have htext : (Segment.ofText "'x y' z  v w").text? =
      some (String.ofList "'x y' z  v w".toList) := rfl
  obtain ⟨r, hmatch, hremaining, hwords, hlast⟩ :=
    matchMessage_optionals .builtin hnames (by decide) (by decide) hitems hsegments htext hrules
  refine ⟨r, hmatch, hremaining, (hwords 0 (by decide)).1, (hwords 1 (by decide)).1, ?_⟩
  obtain ⟨behind, hbehind, hvalue⟩ := (hlast 2 rfl).2 (by decide)
  have htail : " v w".toList = behind := (List.cons.inj hbehind).2
  rw [← htail] at hvalue
  exact hvalue

end MessagePattern
