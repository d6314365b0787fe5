import MessagePattern.Proofs.Default.Simple
import MessagePattern.Proofs.Pattern.Cut
import MessagePattern.Proofs.Pattern.Part

/-!
# Rendering tokens

Tokens are rendered as a pattern piece by piece, each in one fixed spelling. Names
and data types are already trimmed and hold no delimiter that would cut them
elsewhere, so every rendered group stands for its token again
(`groupToken_piece`), and compiling the rendered tokens of a pattern gives the tokens
(`compile_render`).
-/

namespace MessagePattern

open MessagePattern.Bracket

/-! ## The spelling of a token -/

namespace Token

/-- The name and the data type of an optional parameter. They stand behind a space, as
the name may start with dots. -/
def optionalHead (name dataType : String) : List Char :=
  ' ' :: (name.toList ++ ':' :: dataType.toList)

/-- The piece of a pattern that a token is written as. -/
def piece : Token → Piece
  | literal text _ => .run text.toList
  | typedLiteral kind value => .group .brace (kind.toList ++ ':' :: value.toList)
  | parameter name dataType false _ => .group .angle (name.toList ++ ':' :: dataType.toList)
  | parameter name dataType true none =>
    .group .square (optionalHead name dataType)
  | parameter name dataType true (some default) =>
    .group .square (optionalHead name dataType ++ '=' :: default.plain.toList)
  | rest name none => .group .square ('.' :: '.' :: '.' :: name.toList)
  | rest name (some dataType) =>
    .group .square ('.' :: '.' :: '.' :: (name.toList ++ ':' :: dataType.toList))

/-- The default of the token, if it has one, is a text, an integer or a truth
value. -/
def HasSimpleDefault : Token → Prop
  | parameter _ _ _ (some default) => default.IsSimple
  | _ => True

end Token

def renderChars (tokens : List Token) : List Char :=
  tokens.flatMap fun token => token.piece.text

/-- The pattern that some tokens are written as. -/
def render (tokens : List Token) : String :=
  String.ofList (renderChars tokens)

theorem renderChars_append (tokens more : List Token) :
    renderChars (tokens ++ more) = renderChars tokens ++ renderChars more :=
  List.flatMap_append

/-! ## Groups -/

/-- A token is written as a group that has the same brackets as a body and stands for
the token. -/
def WrittenAs (b : Bracket) (body : List Char) (token : Token) : Prop :=
  ∃ written, token.piece = .group b written ∧ b.only written = b.only body ∧
    groupToken b written = .ok token

theorem writtenAs_typedLiteral {body : List Char} {token : Token}
    (h : typedLiteral body = .ok token) : WrittenAs .brace body token := by
  unfold typedLiteral at h
  rcases hsplit : Text.splitOnce [':'] body with ⟨front, behind⟩
  rw [hsplit] at h
  simp only at h
  split at h
  · cases h
  rename_i kind hkind
  cases h
  have hpart := isPart_of_trimmed? hkind
  obtain ⟨rfl, _⟩ := trimmed?_eq_some_iff.mp hkind
  have hcolon : ':' ∉ Text.trim front :=
    fun hmem => notMem_fst_splitOnce hsplit (Text.mem_of_mem_trim hmem)
  refine ⟨Text.trim front ++ ':' :: Text.trim (behind.getD []), ?_, ?_, ?_⟩
  · simp only [Token.piece, String.toList_ofList]
  · rw [only_append, only_cons_of_ne (colon_ne _).1 (colon_ne _).2, only_trim, only_trim,
      only_splitOnce (colon_ne _).1 (colon_ne _).2 hsplit]
  · show typedLiteral _ = _
    unfold typedLiteral
    rw [Text.splitOnce_append hcolon]
    simp only [hpart.trimmed?_eq, Option.getD_some, Text.trim_trim]

/-- The written head of a parameter has the brackets of the one that was read. -/
theorem HeadOf.only_written {cs : List Char} {name : String} {dataType : Option String}
    (h : HeadOf cs name dataType) (b : Bracket) :
    b.only (name.toList ++ ':' :: (dataType.getD textKind).toList) = b.only cs := by
  rw [only_append, only_cons_of_ne (colon_ne b).1 (colon_ne b).2, ← only_append, ← h.only_eq b]
  cases dataType with
  | none =>
      rw [only_append, only_append]
      cases b <;> rfl
  | some t => rfl

theorem writtenAs_requiredParameter {body : List Char} {token : Token}
    (h : requiredParameter body = .ok token) : WrittenAs .angle body token := by
  obtain ⟨⟨name, dataType⟩, hparameter, h⟩ := bind_eq_ok_iff.mp h
  cases h
  have hhead := headOf_of_parameterHead hparameter
  refine ⟨_, rfl, hhead.only_written .angle, ?_⟩
  show requiredParameter _ = _
  rw [requiredParameter,
    parameterHead_written hhead.name_isPart hhead.colon_notMem hhead.isPart_getD]
  rfl

theorem writtenAs_restParameter {body : List Char} {token : Token}
    (h : restParameter body = .ok token) :
    WrittenAs .square ('.' :: '.' :: '.' :: body) token := by
  obtain ⟨⟨name, dataType⟩, hparameter, h⟩ := bind_eq_ok_iff.mp h
  cases h
  have hhead := headOf_of_parameterHead hparameter
  have hdots : ∀ cs, only .square ('.' :: '.' :: '.' :: cs) = only .square cs := fun cs => rfl
  cases dataType with
  | none =>
      refine ⟨_, rfl, ?_, ?_⟩
      · rw [hdots, hdots, ← hhead.only_eq, typeChars, Option.elim_none, List.append_nil]
      · show restParameter _ = _
        rw [restParameter, parameterHead_name hhead.name_isPart hhead.colon_notMem]
        rfl
  | some t =>
      refine ⟨_, rfl, ?_, ?_⟩
      · rw [hdots, hdots]
        exact hhead.only_written .square
      · show restParameter _ = _
        rw [restParameter, parameterHead_written hhead.name_isPart hhead.colon_notMem
          (hhead.dataType_isPart t rfl)]
        rfl

/-- The plain form of a simple default has the brackets of the text it was read from. -/
theorem only_plain {cs : List Char} {v : Value} (hsimple : v.IsSimple)
    (h : Default.read cs = .ok v) (b : Bracket) : b.only v.plain.toList = b.only cs := by
  rw [← only_trim b cs]
  rcases Default.read_simple_cases hsimple h with rfl | ⟨n, i, hscan, _, rfl⟩ | ⟨htrim, rfl⟩ |
    ⟨htrim, rfl⟩
  · show b.only (String.ofList (Text.trim cs)).toList = _
    rw [String.toList_ofList]
  · obtain ⟨hn, hchars⟩ := Decimal.Numeral.scan?_eq_some_iff.mp hscan
    show b.only (String.ofList (Decimal.intChars i)).toList = _
    rw [String.toList_ofList, only_of_numeral fun c hc => Default.mem_numeral_of_intChars hc,
      only_of_numeral fun c hc => Decimal.Numeral.mem_chars hn (hchars ▸ hc)]
  · rw [htrim]
    rfl
  · rw [htrim]
    rfl

theorem equals_notMem_optionalHead {cs : List Char} {name : String} {dataType : Option String}
    (h : HeadOf cs name dataType) (hcs : '=' ∉ cs) :
    '=' ∉ Token.optionalHead name (dataType.getD textKind) := by
  intro hmem
  rw [Token.optionalHead, List.mem_cons, List.mem_append, List.mem_cons] at hmem
  rcases hmem with heq | hname | heq | htype
  · cases heq
  · exact hcs (h.mem_of_mem _ (List.mem_append_left _ hname))
  · cases heq
  · cases dataType with
    | none =>
        revert htype
        decide
    | some t => exact hcs (h.mem_of_mem _ (List.mem_append_right _ htype))

/-- The space in front keeps a head from being taken for a rest parameter. -/
theorem groupToken_optionalHead (name dataType : String) (behind : List Char) :
    groupToken .square (Token.optionalHead name dataType ++ behind) =
      optionalParameter (Token.optionalHead name dataType ++ behind) := by
  refine groupToken_square_of_not_dots ?_
  rintro ⟨rest, hrest⟩
  cases hrest

theorem writtenAs_optionalParameter {body : List Char} {token : Token}
    (hsimple : token.HasSimpleDefault) (h : optionalParameter body = .ok token) :
    WrittenAs .square body token := by
  rcases hsplit : Text.splitOnce ['='] body with ⟨front, default?⟩
  rw [optionalParameter, hsplit] at h
  obtain ⟨⟨name, dataType⟩, hparameter, h⟩ := bind_eq_ok_iff.mp h
  have hhead := headOf_of_parameterHead hparameter
  have honly := only_splitOnce (equals_ne .square).1 (equals_ne .square).2 hsplit
  have hbrackets : only .square (Token.optionalHead name (dataType.getD textKind)) =
      only .square front := hhead.only_written .square
  have hequals := equals_notMem_optionalHead hhead (notMem_fst_splitOnce hsplit)
  have hlow : ∀ c ∈ [' '], Text.isLow c = true := by
    intro c hc
    rw [List.mem_singleton.mp hc]
    rfl
  have hread : parameterHead (Token.optionalHead name (dataType.getD textKind)) =
      .ok (name, some (dataType.getD textKind)) :=
    parameterHead_padded [' '] hlow hhead.name_isPart hhead.colon_notMem hhead.isPart_getD
  cases default? with
  | none =>
      cases h
      refine ⟨_, rfl, ?_, ?_⟩
      · rw [hbrackets, ← honly]
        exact (List.append_nil _).symm
      · have hgroup := groupToken_optionalHead name (dataType.getD textKind) []
        rw [List.append_nil] at hgroup
        rw [hgroup, optionalParameter, Text.splitOnce_of_notMem hequals]
        simp only [hread]
        rfl
  | some default =>
      cases hdefault : Default.read default with
      | error limit =>
          simp only [hdefault] at h
          cases h
      | ok v =>
          simp only [hdefault] at h
          cases h
          refine ⟨_, rfl, ?_, ?_⟩
          · rw [only_append, only_cons_of_ne (equals_ne _).1 (equals_ne _).2, hbrackets,
              only_plain hsimple hdefault, ← honly]
            rfl
          · rw [groupToken_optionalHead, optionalParameter, Text.splitOnce_append hequals]
            simp only [hread, Default.read_plain hsimple hdefault]
            rfl

/-- A group of a pattern is written as a balanced group that stands for the same
token. -/
theorem groupToken_piece {b : Bracket} {body : List Char} {token : Token}
    (hbalanced : b.Balanced body) (hsimple : token.HasSimpleDefault)
    (h : groupToken b body = .ok token) :
    ∃ written, token.piece = .group b written ∧ b.Balanced written ∧
      groupToken b written = .ok token := by
  have hwritten : WrittenAs b body token := by
    cases b with
    | brace => exact writtenAs_typedLiteral h
    | angle => exact writtenAs_requiredParameter h
    | square =>
        by_cases hdots : ['.', '.', '.'] <+: body
        · obtain ⟨inner, rfl⟩ := hdots
          exact writtenAs_restParameter h
        · rw [groupToken_square_of_not_dots hdots] at h
          exact writtenAs_optionalParameter hsimple h
  obtain ⟨written, hpiece, honly, htoken⟩ := hwritten
  exact ⟨written, hpiece, hbalanced.of_only_eq honly, htoken⟩

/-! ## Literal runs -/

/-- The tokens of a literal run are written as the run. -/
theorem renderChars_literalTokens (run : List Char) : renderChars (literalTokens run) = run := by
  have hwhole : ∀ optional, renderChars [.literal (String.ofList run) optional] = run := by
    intro optional
    simp [renderChars, Token.piece, Piece.text]
  unfold literalTokens
  split
  · exact hwhole false
  · rename_i hrun
    rw [List.reverse_eq_iff.mp hrun]
    rfl
  · rename_i before _ hrun
    rw [List.reverse_eq_iff.mp hrun, List.reverse_cons]
    simp [renderChars, Token.piece, Piece.text]
  · exact hwhole false

/-! ## Patterns -/

/-- What compiles is rendered as a pattern of the same tokens, and that starts with a
bracket if the first one did. -/
theorem scan_renderChars {cs : List Char} {tokens : List Token} (h : scan cs = .ok tokens)
    (hsimple : ∀ token ∈ tokens, token.HasSimpleDefault) :
    (AtBracket cs → AtBracket (renderChars tokens)) ∧ scan (renderChars tokens) = .ok tokens := by
  induction h using scan_ok_induction with
  | nil => exact ⟨id, scan_nil⟩
  | group b body after token others hbalanced htoken hafter ih =>
      obtain ⟨_, hothers⟩ := ih fun t ht => hsimple t (List.mem_cons_of_mem _ ht)
      obtain ⟨written, hpiece, hbalanced', htoken'⟩ :=
        groupToken_piece hbalanced (hsimple token List.mem_cons_self) htoken
      have hrender : renderChars (token :: others) =
          b.opener :: (written ++ b.closer :: renderChars others) := by
        simp [renderChars, hpiece, Piece.text]
      rw [hrender]
      exact ⟨fun _ => atBracket_opener b _, scan_group_ok hbalanced' htoken' hothers⟩
  | run run after others hne hplain hafter hothers ih =>
      obtain ⟨hat, hothers'⟩ := ih fun t ht => hsimple t (List.mem_append_right _ ht)
      rw [renderChars_append, renderChars_literalTokens]
      refine ⟨fun hrun => absurd hrun.of_append (hplain.not_atBracket hne), ?_⟩
      exact scan_run_ok hne hplain (hat hafter) hothers'

/-- Whatever spelling a pattern has: compiling, rendering the tokens and compiling again
gives the same tokens. -/
theorem compile_render {pattern : String} {tokens : List Token}
    (h : compile pattern = .ok tokens) (hsimple : ∀ token ∈ tokens, token.HasSimpleDefault) :
    compile (render tokens) = .ok tokens := by
  rw [compile_eq_ok_iff, render, String.toList_ofList]
  exact (scan_renderChars (compile_eq_ok_iff.mp h) hsimple).2

/-- A bracket of another kind, padding, a name with dots, a default with delimiters and
own brackets, and an integer with zeros in front: the second spelling differs from the
first and has the same tokens. -/
theorem compile_render_padded :
    compile "go {a<: x:y }[ ...k = x=[y]: ][m:=007]" =
      .ok [.literal "go" false, .literal " " true, .typedLiteral "a<" "x:y",
        .parameter "...k" "text" true (some (.text "x=[y]:")),
        .parameter "m" "text" true (some (.int 7))] ∧
    render [.literal "go" false, .literal " " true, .typedLiteral "a<" "x:y",
        .parameter "...k" "text" true (some (.text "x=[y]:")),
        .parameter "m" "text" true (some (.int 7))] =
      "go {a<:x:y}[ ...k:text=x=[y]:][ m:text=7]" ∧
    compile (render [.literal "go" false, .literal " " true, .typedLiteral "a<" "x:y",
        .parameter "...k" "text" true (some (.text "x=[y]:")),
        .parameter "m" "text" true (some (.int 7))]) =
      .ok [.literal "go" false, .literal " " true, .typedLiteral "a<" "x:y",
        .parameter "...k" "text" true (some (.text "x=[y]:")),
        .parameter "m" "text" true (some (.int 7))] := by
  have hcompile : compile "go {a<: x:y }[ ...k = x=[y]: ][m:=007]" =
      .ok [.literal "go" false, .literal " " true, .typedLiteral "a<" "x:y",
        .parameter "...k" "text" true (some (.text "x=[y]:")),
        .parameter "m" "text" true (some (.int 7))] := by with_unfolding_all rfl
  refine ⟨hcompile, by decide +kernel, compile_render hcompile ?_⟩
  intro token htoken
  simp only [List.mem_cons, List.not_mem_nil, or_false] at htoken
  rcases htoken with rfl | rfl | rfl | rfl | rfl <;> exact trivial

end MessagePattern
