import MessagePattern.Proofs.Answer
import MessagePattern.Proofs.Pattern.Scan

/-!
# The grammar of patterns

A pattern is a row of pieces. The pieces are described here without a word about
scanning: a literal run is plain, and a group is balanced and names what it stands
for. A group has a token exactly if its body is well formed
(`exists_groupToken_iff`).
-/

namespace MessagePattern

open MessagePattern.Bracket

/-! ## Bodies of groups -/

/-- The part of a text in front of the first `d`; all of it if there is none. -/
def partBefore (d : Char) (cs : List Char) : List Char :=
  cs.takeWhile (· ≠ d)

/-- What stands in front of the first colon is more than low characters. -/
def Named (cs : List Char) : Prop :=
  Text.trim (partBefore ':' cs) ≠ []

/-- The bodies that stand for a token. A rest parameter is told by its dots, and what
stands behind the first equals sign of any other square group must be readable as
a default. -/
inductive WellFormedBody : Bracket → List Char → Prop
  | typedLiteral {body : List Char} (hnamed : Named body) : WellFormedBody .brace body
  | required {body : List Char} (hnamed : Named body) : WellFormedBody .angle body
  | rest {body : List Char} (hnamed : Named body) :
      WellFormedBody .square ('.' :: '.' :: '.' :: body)
  | optional {body : List Char} (hdots : ¬ ['.', '.', '.'] <+: body)
      (hnamed : Named (partBefore '=' body))
      (hdefault : ∀ default, body = partBefore '=' body ++ '=' :: default →
        ∃ v, Default.read default = .ok v) :
      WellFormedBody .square body

/-! ## Cutting bodies -/

theorem splitOnce_fst (d : Char) (cs : List Char) :
    (Text.splitOnce [d] cs).1 = partBefore d cs := by
  induction cs with
  | nil => rfl
  | cons c rest ih =>
      by_cases h : c = d
      · subst h
        simp [Text.splitOnce, partBefore]
      · have hne : ¬ [d].isPrefixOf (c :: rest) = true := by
          simp [List.isPrefixOf, Ne.symm h]
        rw [Text.splitOnce, if_neg hne]
        show c :: (Text.splitOnce [d] rest).1 = _
        rw [ih]
        simp [partBefore, h]

theorem notMem_partBefore (d : Char) (cs : List Char) : d ∉ partBefore d cs := by
  intro hmem
  have hall := List.all_eq_true.mp (List.all_takeWhile (p := (· ≠ d)) (l := cs)) d hmem
  simp at hall

/-- The second part of a cut is what stands behind the first delimiter. -/
theorem splitOnce_snd_eq_some_iff {d : Char} {cs tail : List Char} :
    (Text.splitOnce [d] cs).2 = some tail ↔ cs = partBefore d cs ++ d :: tail := by
  have hjoin := Text.splitOnce_join [d] cs
  rw [← splitOnce_fst]
  rcases hsplit : Text.splitOnce [d] cs with ⟨head, _ | found⟩ <;> rw [hsplit] at hjoin
  · constructor
    · intro h
      cases h
    · intro h
      exfalso
      have hhead : head = partBefore d cs := by rw [← splitOnce_fst, hsplit]
      have hmem : d ∈ cs := by
        rw [h]
        simp
      rw [show cs = head from hjoin, hhead] at hmem
      exact notMem_partBefore d cs hmem
  · have hjoin : cs = head ++ d :: found := by simpa using hjoin
    constructor
    · intro h
      cases h
      exact hjoin
    · intro h
      rw [hjoin] at h
      exact congrArg some (List.cons.inj (List.append_cancel_left h)).2

/-! ## Tokens of groups -/

theorem trimmed?_eq_none_iff {cs : List Char} : trimmed? cs = none ↔ Text.trim cs = [] := by
  unfold trimmed?
  cases Text.trim cs <;> simp

theorem exists_trimmed?_iff {cs : List Char} :
    (∃ trimmed, trimmed? cs = some trimmed) ↔ Text.trim cs ≠ [] := by
  rw [← Option.isSome_iff_exists, Option.isSome_iff_ne_none, Ne, trimmed?_eq_none_iff]

theorem exists_parameterHead_iff {cs : List Char} :
    (∃ head, parameterHead cs = .ok head) ↔ Named cs := by
  unfold Named
  rw [← splitOnce_fst, ← exists_trimmed?_iff]
  unfold parameterHead
  rcases Text.splitOnce [':'] cs with ⟨front, behind⟩
  dsimp only
  cases trimmed? front <;> simp

theorem exists_typedLiteral_iff {body : List Char} :
    (∃ token, typedLiteral body = .ok token) ↔ Named body := by
  unfold Named
  rw [← splitOnce_fst, ← exists_trimmed?_iff]
  unfold typedLiteral
  rcases Text.splitOnce [':'] body with ⟨front, behind⟩
  dsimp only
  cases trimmed? front <;> simp

theorem exists_requiredParameter_iff {body : List Char} :
    (∃ token, requiredParameter body = .ok token) ↔ Named body := by
  rw [← exists_parameterHead_iff]
  unfold requiredParameter
  rcases parameterHead body with fault | ⟨name, dataType⟩
  · simp [bind, Except.bind]
  · simp [bind, Except.bind, pure, Except.pure]

theorem exists_restParameter_iff {body : List Char} :
    (∃ token, restParameter body = .ok token) ↔ Named body := by
  rw [← exists_parameterHead_iff]
  unfold restParameter
  rcases parameterHead body with fault | ⟨name, dataType⟩
  · simp [bind, Except.bind]
  · simp [bind, Except.bind, pure, Except.pure]

theorem exists_optionalParameter_iff {body : List Char} :
    (∃ token, optionalParameter body = .ok token) ↔
      Named (partBefore '=' body) ∧
        ∀ default, body = partBefore '=' body ++ '=' :: default →
          ∃ v, Default.read default = .ok v := by
  have hdefault : (∀ default, body = partBefore '=' body ++ '=' :: default →
      ∃ v, Default.read default = .ok v) ↔
      ∀ default, (Text.splitOnce ['='] body).2 = some default →
        ∃ v, Default.read default = .ok v :=
    forall_congr' fun default => by rw [splitOnce_snd_eq_some_iff]
  rw [hdefault, ← exists_parameterHead_iff, ← splitOnce_fst]
  unfold optionalParameter
  rcases Text.splitOnce ['='] body with ⟨front, default?⟩
  dsimp only
  rcases parameterHead front with fault | ⟨name, dataType⟩
  · simp [bind, Except.bind]
  · cases default? with
    | none => simp [bind, Except.bind, pure, Except.pure]
    | some default =>
        rcases hread : Default.read default with limit | v
        · simp [bind, Except.bind, hread, throw, throwThe, MonadExceptOf.throw]
        · simp [bind, Except.bind, pure, Except.pure, hread]

/-- A square group without dots is an optional parameter. -/
theorem groupToken_square_of_not_dots {body : List Char} (h : ¬ ['.', '.', '.'] <+: body) :
    groupToken .square body = optionalParameter body := by
  rw [groupToken]
  rintro inner rfl
  exact h ⟨inner, rfl⟩

/-- A group has a token exactly if its body is well formed. -/
theorem exists_groupToken_iff {b : Bracket} {body : List Char} :
    (∃ token, groupToken b body = .ok token) ↔ WellFormedBody b body := by
  cases b with
  | brace =>
      refine exists_typedLiteral_iff.trans ⟨.typedLiteral, fun h => ?_⟩
      cases h with
      | typedLiteral hnamed => exact hnamed
  | angle =>
      refine exists_requiredParameter_iff.trans ⟨.required, fun h => ?_⟩
      cases h with
      | required hnamed => exact hnamed
  | square =>
      by_cases hdots : ['.', '.', '.'] <+: body
      · obtain ⟨inner, rfl⟩ := hdots
        refine exists_restParameter_iff.trans ⟨.rest, fun h => ?_⟩
        cases h with
        | rest hnamed => exact hnamed
        | optional hdots _ _ => exact absurd ⟨inner, rfl⟩ hdots
      · rw [groupToken_square_of_not_dots hdots, exists_optionalParameter_iff]
        constructor
        · rintro ⟨hnamed, hdefault⟩
          exact .optional hdots hnamed hdefault
        · intro h
          cases h with
          | rest hnamed => exact absurd ⟨_, rfl⟩ hdots
          | optional _ hnamed hdefault => exact ⟨hnamed, hdefault⟩

end MessagePattern
