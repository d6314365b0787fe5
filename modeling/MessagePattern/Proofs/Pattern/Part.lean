import MessagePattern.Proofs.Pattern.Grammar
import MessagePattern.Proofs.Text.Trimming

/-!
# The parts of a group

Kinds, names and data types are trimmed parts of a group's body. Cutting and trimming
take no bracket away, so the parts of a body hold its brackets in their order
(`only_splitOnce`, `only_trim`).
-/

namespace MessagePattern

open MessagePattern.Bracket

variable {cs : List Char}

/-! ## Trimmed parts -/

/-- A trimmed text that is not empty. -/
structure IsPart (cs : List Char) : Prop where
  ne_nil : cs ≠ []
  trim_eq : Text.trim cs = cs

theorem isPart_textKind : IsPart textKind.toList :=
  ⟨by decide, by decide⟩

theorem trimmed?_eq_some_iff {trimmed : List Char} :
    trimmed? cs = some trimmed ↔ trimmed = Text.trim cs ∧ trimmed ≠ [] := by
  unfold trimmed?
  cases htrim : Text.trim cs with
  | nil =>
      constructor
      · intro h
        cases h
      · rintro ⟨rfl, hne⟩
        exact absurd rfl hne
  | cons c rest =>
      constructor
      · intro h
        cases h
        exact ⟨rfl, List.cons_ne_nil c rest⟩
      · rintro ⟨rfl, _⟩
        rfl

theorem isPart_of_trimmed? {trimmed : List Char} (h : trimmed? cs = some trimmed) :
    IsPart trimmed := by
  obtain ⟨rfl, hne⟩ := trimmed?_eq_some_iff.mp h
  exact ⟨hne, Text.trim_trim cs⟩

theorem IsPart.trimmed?_append {part front : List Char} (h : IsPart part)
    (hfront : ∀ c ∈ front, Text.isLow c = true) : trimmed? (front ++ part) = some part :=
  trimmed?_eq_some_iff.mpr ⟨by rw [Text.trim_append_of_low hfront, h.trim_eq], h.ne_nil⟩

theorem IsPart.trimmed?_eq {part : List Char} (h : IsPart part) : trimmed? part = some part :=
  trimmed?_eq_some_iff.mpr ⟨h.trim_eq.symm, h.ne_nil⟩

/-! ## Brackets of parts -/

namespace Bracket

variable {b : Bracket}

theorem only_of_low (h : ∀ c ∈ cs, Text.isLow c = true) : b.only cs = [] := by
  refine only_eq_nil fun c hc => ?_
  have hlow := h c hc
  constructor
  · rintro rfl
    revert hlow
    cases b <;> decide
  · rintro rfl
    revert hlow
    cases b <;> decide

theorem only_of_numeral
    (h : ∀ c ∈ cs, c.isDigit = true ∨ c = '-' ∨ c = '+' ∨ c = '.') : b.only cs = [] := by
  refine only_eq_nil fun c hc => ?_
  have hnumeral := h c hc
  constructor
  · rintro rfl
    revert hnumeral
    cases b <;> decide
  · rintro rfl
    revert hnumeral
    cases b <;> decide

theorem only_trim (b : Bracket) (cs : List Char) : b.only (Text.trim cs) = b.only cs := by
  obtain ⟨front, back, hcs, hfront, hback⟩ := Text.exists_pads_trim cs
  conv_rhs => rw [hcs]
  rw [only_append, only_append, only_of_low hfront, only_of_low hback, List.append_nil,
    List.nil_append]

/-- The two parts of a cut hold the brackets of the text. -/
theorem only_splitOnce {d : Char} {front : List Char} {behind : Option (List Char)}
    (hopener : d ≠ b.opener) (hcloser : d ≠ b.closer)
    (h : Text.splitOnce [d] cs = (front, behind)) :
    b.only front ++ b.only (behind.getD []) = b.only cs := by
  have hjoin := Text.splitOnce_join [d] cs
  rw [h] at hjoin
  cases behind with
  | none =>
      rw [show cs = front from hjoin]
      exact List.append_nil _
  | some tail =>
      rw [show cs = front ++ [d] ++ tail from hjoin, List.append_assoc, only_append,
        List.singleton_append, only_cons_of_ne hopener hcloser]
      rfl

theorem colon_ne (b : Bracket) : ':' ≠ b.opener ∧ ':' ≠ b.closer := by
  cases b <;> decide

theorem equals_ne (b : Bracket) : '=' ≠ b.opener ∧ '=' ≠ b.closer := by
  cases b <;> decide

end Bracket

theorem notMem_fst_splitOnce {d : Char} {front : List Char} {behind : Option (List Char)}
    (h : Text.splitOnce [d] cs = (front, behind)) : d ∉ front := by
  have hfront := splitOnce_fst d cs
  rw [h] at hfront
  rw [show front = partBefore d cs from hfront]
  exact notMem_partBefore d cs

/-! ## Names and data types -/

/-- The characters of a data type, if there is one. -/
def typeChars (dataType : Option String) : List Char :=
  dataType.elim [] String.toList

/-- The name and the data type of a parameter, as they stand in its head. -/
structure HeadOf (cs : List Char) (name : String) (dataType : Option String) : Prop where
  name_isPart : IsPart name.toList
  colon_notMem : ':' ∉ name.toList
  dataType_isPart : ∀ t, dataType = some t → IsPart t.toList
  mem_of_mem : ∀ c ∈ name.toList ++ typeChars dataType, c ∈ cs
  only_eq : ∀ b : Bracket, b.only (name.toList ++ typeChars dataType) = b.only cs

/-- A data type that is empty counts as none. -/
theorem typeChars_trimmed? (behind : Option (List Char)) :
    typeChars ((behind.bind trimmed?).map String.ofList) = Text.trim (behind.getD []) := by
  cases behind with
  | none => rfl
  | some t =>
      cases htrimmed : trimmed? t with
      | none =>
          rw [Option.getD_some, trimmed?_eq_none_iff.mp htrimmed, Option.bind_some, htrimmed]
          rfl
      | some trimmed =>
          obtain ⟨rfl, _⟩ := trimmed?_eq_some_iff.mp htrimmed
          rw [Option.bind_some, htrimmed]
          exact String.toList_ofList

theorem headOf_of_parameterHead {name : String} {dataType : Option String}
    (h : parameterHead cs = .ok (name, dataType)) : HeadOf cs name dataType := by
  unfold parameterHead at h
  rcases hsplit : Text.splitOnce [':'] cs with ⟨front, behind⟩
  rw [hsplit] at h
  simp only at h
  split at h
  · cases h
  rename_i trimmed htrimmed
  have hmem : ∀ c, c ∈ front ∨ c ∈ behind.getD [] → c ∈ cs := by
    have hjoin := Text.splitOnce_join [':'] cs
    rw [hsplit] at hjoin
    intro c hc
    rw [hjoin]
    cases behind with
    | none => simpa using hc
    | some tail => rcases hc with hc | hc <;> simp_all
  cases h
  obtain ⟨rfl, hne⟩ := trimmed?_eq_some_iff.mp htrimmed
  refine ⟨?_, ?_, ?_, ?_, ?_⟩
  · rw [String.toList_ofList]
    exact isPart_of_trimmed? htrimmed
  · rw [String.toList_ofList]
    exact fun hcolon => notMem_fst_splitOnce hsplit (Text.mem_of_mem_trim hcolon)
  · intro t ht
    obtain ⟨trimmedType, htype, rfl⟩ := Option.map_eq_some_iff.mp ht
    obtain ⟨tail, _, htype⟩ := Option.bind_eq_some_iff.mp htype
    rw [String.toList_ofList]
    exact isPart_of_trimmed? htype
  · intro c hc
    rw [String.toList_ofList, typeChars_trimmed?, List.mem_append] at hc
    rcases hc with hc | hc
    · exact hmem c (Or.inl (Text.mem_of_mem_trim hc))
    · exact hmem c (Or.inr (Text.mem_of_mem_trim hc))
  · intro b
    rw [String.toList_ofList, typeChars_trimmed?, only_append, only_trim, only_trim]
    exact only_splitOnce (colon_ne b).1 (colon_ne b).2 hsplit

/-- The data type of a parameter is text where none is named. -/
theorem HeadOf.isPart_getD {name : String} {dataType : Option String}
    (h : HeadOf cs name dataType) : IsPart (dataType.getD textKind).toList := by
  cases dataType with
  | none => exact isPart_textKind
  | some t => exact h.dataType_isPart t rfl

/-- A name and a data type with a colon in between are read as they are, also behind
low characters. -/
theorem parameterHead_padded (front : List Char) {name dataType : String}
    (hfront : ∀ c ∈ front, Text.isLow c = true) (hname : IsPart name.toList)
    (hcolon : ':' ∉ name.toList) (hdataType : IsPart dataType.toList) :
    parameterHead (front ++ (name.toList ++ ':' :: dataType.toList)) =
      .ok (name, some dataType) := by
  have hnotMem : ':' ∉ front ++ name.toList := by
    intro hmem
    rcases List.mem_append.mp hmem with hmem | hmem
    · cases hfront _ hmem
    · exact hcolon hmem
  unfold parameterHead
  rw [← List.append_assoc, Text.splitOnce_append hnotMem]
  simp only [hname.trimmed?_append hfront, Option.bind_some, hdataType.trimmed?_eq,
    Option.map_some, String.ofList_toList]

theorem parameterHead_written {name dataType : String} (hname : IsPart name.toList)
    (hcolon : ':' ∉ name.toList) (hdataType : IsPart dataType.toList) :
    parameterHead (name.toList ++ ':' :: dataType.toList) = .ok (name, some dataType) :=
  parameterHead_padded [] (fun _ hc => absurd hc List.not_mem_nil) hname hcolon hdataType

theorem parameterHead_name {name : String} (hname : IsPart name.toList)
    (hcolon : ':' ∉ name.toList) : parameterHead name.toList = .ok (name, none) := by
  unfold parameterHead
  rw [Text.splitOnce_of_notMem hcolon]
  simp only [hname.trimmed?_eq, Option.bind_none, Option.map_none, String.ofList_toList]

end MessagePattern
