import Mathlib.Data.List.Chain
import MessagePattern.Proofs.Pattern.Origin
import MessagePattern.Proofs.Pattern.Part

/-!
# The shape of compiled tokens

However a pattern is spelled, its tokens have one shape (`compile_shape`). What a single token
looks like is decided where it is read: a literal run keeps back one space at its end, and the
parts of a group are cut at the first equals sign and the first colon before they are trimmed.
What may stand next to it is decided by the scan: a run goes on up to a bracket, so that two
literals in a row are always the two tokens of one run.
-/

namespace MessagePattern

variable {run body : List Char} {pattern : String} {token : Token} {tokens : List Token}

/-- A trimmed text that is not empty and that no colon cuts. -/
structure IsName (cs : List Char) : Prop extends IsPart cs where
  colon_notMem : ':' ∉ cs

def EndsInSpace (cs : List Char) : Prop :=
  [' '] <:+ cs

/-- There is a space at the end, and no other in front of it. -/
def EndsInOneSpace (cs : List Char) : Prop :=
  EndsInSpace cs ∧ ¬ [' ', ' '] <:+ cs

namespace Token

def IsLiteral : Token → Prop
  | literal _ _ => True
  | _ => False

/-- The shape of a single token. Only one literal is optional, and a default belongs to an
optional parameter. -/
inductive WellShaped : Token → Prop
  | literal {text : String} (hne : text ≠ "") (hplain : Plain text.toList)
      (hspace : ¬ EndsInOneSpace text.toList) : WellShaped (.literal text false)
  | space : WellShaped (.literal " " true)
  | typedLiteral {kind value : String} (hkind : IsName kind.toList) :
      WellShaped (.typedLiteral kind value)
  | required {name dataType : String} (hname : IsName name.toList)
      (htype : IsPart dataType.toList) : WellShaped (.parameter name dataType false none)
  | optional {name dataType : String} (default : Option Value) (hname : IsName name.toList)
      (hequals : '=' ∉ name.toList) (htype : IsPart dataType.toList) :
      WellShaped (.parameter name dataType true default)
  | rest {name : String} {dataType : Option String} (hname : IsName name.toList)
      (htype : ∀ t, dataType = some t → IsPart t.toList) : WellShaped (.rest name dataType)

/-- Whether a token may stand in front of another: of two literals the first is required and
does not end in a space, and the second is the optional space. -/
def MayPrecede : Token → Token → Prop
  | literal text optional, literal next nextOptional =>
    optional = false ∧ ¬ EndsInSpace text.toList ∧ next = " " ∧ nextOptional = true
  | _, _ => True

theorem mayPrecede_of_not_isLiteral (first : Token) {next : Token} (h : ¬ next.IsLiteral) :
    first.MayPrecede next := by
  cases next with
  | literal text optional => exact absurd trivial h
  | _ => cases first <;> exact trivial

theorem mayPrecede_of_not_isLiteral_left {first : Token} (h : ¬ first.IsLiteral) (next : Token) :
    first.MayPrecede next := by
  cases first with
  | literal text optional => exact absurd trivial h
  | _ => exact trivial

/-- A literal with another in front of it has none behind it: it is the optional space. -/
theorem MayPrecede.not_three_literals {first second third : Token}
    (h : first.MayPrecede second) (h' : second.MayPrecede third) :
    ¬ (first.IsLiteral ∧ second.IsLiteral ∧ third.IsLiteral) := by
  intro hliterals
  cases first with
  | literal text optional =>
      cases second with
      | literal text' optional' =>
          cases third with
          | literal text'' optional'' =>
              obtain ⟨_, _, _, hoptional⟩ := h
              obtain ⟨hrequired, _⟩ := h'
              rw [hoptional] at hrequired
              cases hrequired
          | _ => exact hliterals.2.2
      | _ => exact hliterals.2.1
  | _ => exact hliterals.1

end Token

/-! ## Literal runs -/

/-- The tokens of a literal run, by the spaces it ends in. -/
inductive SplitsInto (run : List Char) : List Token → Prop
  | space (hrun : run = [' ']) : SplitsInto run [.literal " " true]
  | spaced {before : List Char} (hne : before ≠ []) (hbefore : ¬ EndsInSpace before)
      (hrun : run = before ++ [' ']) :
      SplitsInto run [.literal (String.ofList before) false, .literal " " true]
  | whole (hspace : ¬ EndsInOneSpace run) :
      SplitsInto run [.literal (String.ofList run) false]

theorem endsInSpace_iff {cs : List Char} :
    EndsInSpace cs ↔ ∃ before, cs.reverse = ' ' :: before := by
  rw [EndsInSpace, ← List.reverse_prefix]
  constructor
  · rintro ⟨before, hbefore⟩
    exact ⟨before, hbefore.symm⟩
  · rintro ⟨before, hbefore⟩
    exact ⟨before, hbefore.symm⟩

theorem splitsInto_literalTokens (run : List Char) : SplitsInto run (literalTokens run) := by
  unfold literalTokens
  split
  · rename_i before hrun
    refine .whole fun hspace => hspace.2 ?_
    rw [← List.reverse_prefix, hrun]
    exact ⟨before, rfl⟩
  · rename_i hrun
    exact .space (List.reverse_eq_iff.mp hrun)
  · rename_i before hnotTwo hnotAlone hrun
    refine .spaced (fun hnil => hnotAlone (List.reverse_eq_nil_iff.mp hnil)) ?_ ?_
    · intro hspace
      obtain ⟨more, hmore⟩ := endsInSpace_iff.mp hspace
      rw [List.reverse_reverse] at hmore
      exact hnotTwo more hmore
    · rw [List.reverse_eq_iff.mp hrun, List.reverse_cons]
  · rename_i hnotSpaced
    refine .whole fun hspace => ?_
    obtain ⟨before, hbefore⟩ := endsInSpace_iff.mp hspace.1
    exact hnotSpaced before hbefore

theorem wellShaped_of_mem_literalTokens (hne : run ≠ []) (hplain : Plain run)
    (h : token ∈ literalTokens run) : token.WellShaped := by
  have hsplits := splitsInto_literalTokens run
  generalize literalTokens run = tokens at hsplits h
  cases hsplits with
  | space hrun =>
      rw [List.mem_singleton.mp h]
      exact .space
  | spaced hbefore hspace hrun =>
      rcases List.mem_cons.mp h with rfl | hlast
      · refine .literal (ofList_ne_empty hbefore) ?_ ?_
        · rw [String.toList_ofList]
          intro c hc
          exact hplain c (hrun ▸ List.mem_append_left _ hc)
        · rw [String.toList_ofList]
          exact fun hone => hspace hone.1
      · rw [List.mem_singleton.mp hlast]
        exact .space
  | whole hspace =>
      rw [List.mem_singleton.mp h]
      refine .literal (ofList_ne_empty hne) ?_ ?_
      · rwa [String.toList_ofList]
      · rwa [String.toList_ofList]

theorem isChain_literalTokens (run : List Char) :
    (literalTokens run).IsChain Token.MayPrecede := by
  have hsplits := splitsInto_literalTokens run
  generalize literalTokens run = tokens at hsplits
  cases hsplits with
  | space hrun => exact .singleton _
  | spaced hbefore hspace hrun =>
      refine .cons_cons ⟨rfl, ?_, rfl, rfl⟩ (.singleton _)
      rwa [String.toList_ofList]
  | whole hspace => exact .singleton _

/-! ## Groups -/

theorem HeadOf.isName {cs : List Char} {name : String} {dataType : Option String}
    (h : HeadOf cs name dataType) : IsName name.toList :=
  ⟨h.name_isPart, h.colon_notMem⟩

theorem wellShaped_typedLiteral (h : typedLiteral body = .ok token) : token.WellShaped := by
  unfold typedLiteral at h
  rcases hsplit : Text.splitOnce [':'] body with ⟨front, behind⟩
  rw [hsplit] at h
  simp only at h
  split at h
  · cases h
  · rename_i kind hkind
    cases h
    obtain ⟨htrim, _⟩ := trimmed?_eq_some_iff.mp hkind
    refine .typedLiteral ?_
    rw [String.toList_ofList]
    refine ⟨isPart_of_trimmed? hkind, fun hcolon => ?_⟩
    rw [htrim] at hcolon
    exact notMem_fst_splitOnce hsplit (Text.mem_of_mem_trim hcolon)

theorem wellShaped_optionalParameter (h : optionalParameter body = .ok token) :
    token.WellShaped := by
  rcases hsplit : Text.splitOnce ['='] body with ⟨front, default?⟩
  rw [optionalParameter, hsplit] at h
  obtain ⟨⟨name, dataType⟩, hparameter, h⟩ := bind_eq_ok_iff.mp h
  have hhead := headOf_of_parameterHead hparameter
  -- The name is cut from what stands in front of the first equals sign.
  have hequals : '=' ∉ name.toList := fun hmem =>
    notMem_fst_splitOnce hsplit (hhead.mem_of_mem _ (List.mem_append_left _ hmem))
  have hshaped : ∀ default,
      (Token.parameter name (dataType.getD textKind) true default).WellShaped :=
    fun default => .optional default hhead.isName hequals hhead.isPart_getD
  simp only at h
  split at h
  · cases h
    exact hshaped none
  · split at h
    · cases h
    · cases h
      exact hshaped (some _)

theorem wellShaped_groupToken {b : Bracket} (h : groupToken b body = .ok token) :
    token.WellShaped := by
  unfold groupToken at h
  split at h
  · exact wellShaped_typedLiteral h
  · obtain ⟨⟨name, dataType⟩, hparameter, h⟩ := bind_eq_ok_iff.mp h
    cases h
    have hhead := headOf_of_parameterHead hparameter
    exact .required hhead.isName hhead.isPart_getD
  · obtain ⟨⟨name, dataType⟩, hparameter, h⟩ := bind_eq_ok_iff.mp h
    cases h
    have hhead := headOf_of_parameterHead hparameter
    exact .rest hhead.isName hhead.dataType_isPart
  · exact wellShaped_optionalParameter h

theorem not_isLiteral_groupToken {b : Bracket} (h : groupToken b body = .ok token) :
    ¬ token.IsLiteral := by
  intro hliteral
  cases isGroupToken_groupToken h <;> exact hliteral

/-! ## Compiled patterns -/

theorem wellShaped_of_mem (h : compile pattern = .ok tokens) (hmem : token ∈ tokens) :
    token.WellShaped := by
  rcases origin_of_mem h hmem with ⟨run, hne, hplain, hliteral⟩ | ⟨b, body, hgroup⟩
  · exact wellShaped_of_mem_literalTokens hne hplain hliteral
  · exact wellShaped_groupToken hgroup

/-- Tokens may stand next to each other as they were scanned, and at a bracket no literal
stands first. -/
theorem isChain_of_scan {cs : List Char} (h : scan cs = .ok tokens) :
    tokens.IsChain Token.MayPrecede ∧
      (AtBracket cs → ∀ first ∈ tokens.head?, ¬ first.IsLiteral) := by
  induction h using scan_ok_induction with
  | nil =>
      refine ⟨.nil, fun _ first hfirst => ?_⟩
      cases hfirst
  | group b body after token others hbalanced htoken hafter ih =>
      have htoken := not_isLiteral_groupToken htoken
      refine ⟨List.isChain_cons.mpr ⟨fun next _ => ?_, ih.1⟩, fun _ first hfirst => ?_⟩
      · exact Token.mayPrecede_of_not_isLiteral_left htoken next
      · cases hfirst
        exact htoken
  | run run after others hne hplain hafter hothers ih =>
      refine ⟨List.isChain_append.mpr ⟨isChain_literalTokens run, ih.1, ?_⟩, fun hat => ?_⟩
      · intro last _ next hnext
        exact Token.mayPrecede_of_not_isLiteral last (ih.2 hafter next hnext)
      · exact absurd hat.of_append (hplain.not_atBracket hne)

theorem not_three_literals {first second third : Token}
    (h : tokens.IsChain Token.MayPrecede) (hrow : [first, second, third] <:+: tokens) :
    ¬ (first.IsLiteral ∧ second.IsLiteral ∧ third.IsLiteral) := by
  have hpart := List.IsChain.infix h hrow
  obtain ⟨hfirst, hrest⟩ := List.isChain_cons_cons.mp hpart
  exact hfirst.not_three_literals (List.isChain_cons_cons.mp hrest).1

/-- The tokens of a pattern are well shaped each by itself, two literals in a row are a text and
the optional space behind it, and three are never in a row. -/
theorem compile_shape (h : compile pattern = .ok tokens) :
    (∀ token ∈ tokens, token.WellShaped) ∧ tokens.IsChain Token.MayPrecede ∧
      ∀ first second third, [first, second, third] <:+: tokens →
        ¬ (first.IsLiteral ∧ second.IsLiteral ∧ third.IsLiteral) := by
  have hchain := (isChain_of_scan (compile_eq_ok_iff.mp h)).1
  refine ⟨fun token hmem => wellShaped_of_mem h hmem, hchain, ?_⟩
  intro first second third hrow
  exact not_three_literals hchain hrow

/-- A run that is split, a run that is one space, one that ends in two, an equals sign in the name
of a rest parameter, and parts that have to be trimmed. -/
theorem compile_shape_split_runs :
    let tokens : List Token :=
      [.literal "go" false, .literal " " true, .typedLiteral "face" "a:1",
        .parameter "who" "text" false none, .literal " " true, .rest "k=v" (some "at"),
        .parameter "n" "number" true (some (.int 2)), .literal "to  " false]
    compile "go { face : a:1}<who:> [...k=v: at ][ n : number = 2]to  " = .ok tokens ∧
      (∀ token ∈ tokens, token.WellShaped) ∧ tokens.IsChain Token.MayPrecede ∧
        ∀ first second third, [first, second, third] <:+: tokens →
          ¬ (first.IsLiteral ∧ second.IsLiteral ∧ third.IsLiteral) := by
  intro tokens
  have hcompile : compile "go { face : a:1}<who:> [...k=v: at ][ n : number = 2]to  " =
      .ok tokens := by with_unfolding_all rfl
  exact ⟨hcompile, compile_shape hcompile⟩

end MessagePattern
