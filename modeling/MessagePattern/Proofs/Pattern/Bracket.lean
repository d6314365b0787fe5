import MessagePattern.Pattern.Compiler

/-!
# Balanced bodies

The body of a group is balanced in the brackets of its own kind; all other
brackets are plain text there. Cutting at the closing bracket finds exactly the
balanced body (`split_eq_some_iff`), which is why it does not care for what follows
the group.
-/

namespace MessagePattern

namespace Bracket

variable {b : Bracket} {depth : Nat} {c : Char} {cs body after : List Char}

/-! ## Characters -/

theorem opener_ne_closer : ∀ b b' : Bracket, b.opener ≠ b'.closer := by
  intro b b'
  cases b <;> cases b' <;> decide

theorem opener_injective : ∀ b b' : Bracket, b.opener = b'.opener → b = b' := by
  intro b b'
  cases b <;> cases b' <;> decide

theorem ofOpener?_eq_some_iff : ofOpener? c = some b ↔ c = b.opener := by
  constructor
  · intro h
    have hfound := List.find?_some h
    exact (eq_of_beq hfound).symm
  · rintro rfl
    cases b <;> rfl

theorem isOpener_iff : isOpener c = true ↔ ∃ b : Bracket, c = b.opener := by
  rw [isOpener, Option.isSome_iff_exists]
  exact exists_congr fun b => ofOpener?_eq_some_iff

theorem isCloser_iff : isCloser c = true ↔ ∃ b : Bracket, c = b.closer := by
  rw [isCloser, List.any_eq_true]
  constructor
  · rintro ⟨b, _, h⟩
    exact ⟨b, (eq_of_beq h).symm⟩
  · rintro ⟨b, rfl⟩
    exact ⟨b, by cases b <;> decide, beq_self_eq_true _⟩

/-! ## Balance -/

/-- No start of the body closes more brackets than it opens, and the body as a whole
closes as many. -/
structure Balanced (b : Bracket) (body : List Char) : Prop where
  prefix_le : ∀ start, start <+: body → start.count b.closer ≤ start.count b.opener
  count_eq : body.count b.closer = body.count b.opener

/-- The same with a number of brackets that were opened before. -/
structure BalancedFrom (b : Bracket) (depth : Nat) (body : List Char) : Prop where
  prefix_le : ∀ start, start <+: body → start.count b.closer ≤ start.count b.opener + depth
  count_eq : body.count b.closer = body.count b.opener + depth

theorem balancedFrom_zero_iff : b.BalancedFrom 0 body ↔ b.Balanced body :=
  ⟨fun h => ⟨h.prefix_le, h.count_eq⟩, fun h => ⟨h.prefix_le, h.count_eq⟩⟩

theorem balancedFrom_nil_iff : b.BalancedFrom depth [] ↔ depth = 0 := by
  constructor
  · intro h
    simpa using h.count_eq.symm
  · rintro rfl
    exact ⟨fun start hstart => by simp [List.prefix_nil.mp hstart], rfl⟩

/-- What holds of every start of a text holds of the empty one and of those that
share its first character. -/
theorem forall_prefix_cons_iff {P : List Char → Prop} :
    (∀ start, start <+: c :: body → P start) ↔
      P [] ∧ ∀ start, start <+: body → P (c :: start) := by
  constructor
  · intro h
    exact ⟨h [] List.nil_prefix, fun start hstart => h _ ((List.prefix_cons_inj c).mpr hstart)⟩
  · rintro ⟨hnil, hcons⟩ start hstart
    rcases List.prefix_cons_iff.mp hstart with rfl | ⟨tail, rfl, htail⟩
    · exact hnil
    · exact hcons tail htail

theorem balancedFrom_opener_iff :
    b.BalancedFrom depth (b.opener :: body) ↔ b.BalancedFrom (depth + 1) body := by
  have hne : b.opener ≠ b.closer := opener_ne_closer b b
  constructor
  · rintro ⟨hstarts, hcount⟩
    have hstarts := (forall_prefix_cons_iff.mp hstarts).2
    simp only [List.count_cons_self, List.count_cons_of_ne hne] at hstarts hcount
    exact ⟨fun start hstart => by have := hstarts start hstart; omega, by omega⟩
  · rintro ⟨hstarts, hcount⟩
    refine ⟨forall_prefix_cons_iff.mpr ⟨by simp, fun start hstart => ?_⟩, ?_⟩ <;>
      simp only [List.count_cons_self, List.count_cons_of_ne hne]
    · have := hstarts start hstart
      omega
    · omega

theorem balancedFrom_closer_iff :
    b.BalancedFrom depth (b.closer :: body) ↔
      ∃ fewer, depth = fewer + 1 ∧ b.BalancedFrom fewer body := by
  have hne : b.closer ≠ b.opener := (opener_ne_closer b b).symm
  constructor
  · rintro ⟨hstarts, hcount⟩
    have hstarts := (forall_prefix_cons_iff.mp hstarts).2
    simp only [List.count_cons_self, List.count_cons_of_ne hne] at hstarts hcount
    -- The closing bracket alone is a start already, so another one was open before.
    have hfirst := hstarts [] List.nil_prefix
    simp only [List.count_nil] at hfirst
    refine ⟨depth - 1, by omega, fun start hstart => ?_, by omega⟩
    have := hstarts start hstart
    omega
  · rintro ⟨fewer, rfl, hstarts, hcount⟩
    refine ⟨forall_prefix_cons_iff.mpr ⟨by simp, fun start hstart => ?_⟩, ?_⟩ <;>
      simp only [List.count_cons_self, List.count_cons_of_ne hne]
    · have := hstarts start hstart
      omega
    · omega

theorem balancedFrom_other_iff (hopener : c ≠ b.opener) (hcloser : c ≠ b.closer) :
    b.BalancedFrom depth (c :: body) ↔ b.BalancedFrom depth body := by
  constructor
  · rintro ⟨hstarts, hcount⟩
    have hstarts := (forall_prefix_cons_iff.mp hstarts).2
    simp only [List.count_cons_of_ne hopener, List.count_cons_of_ne hcloser] at hstarts hcount
    exact ⟨hstarts, hcount⟩
  · rintro ⟨hstarts, hcount⟩
    refine ⟨forall_prefix_cons_iff.mpr ⟨by simp, fun start hstart => ?_⟩, ?_⟩ <;>
      simp only [List.count_cons_of_ne hopener, List.count_cons_of_ne hcloser]
    · exact hstarts start hstart
    · exact hcount

/-! ## Only the own brackets count -/

/-- The brackets of one kind in a text. -/
def only (b : Bracket) (cs : List Char) : List Char :=
  cs.filter fun c => c = b.opener || c = b.closer

theorem only_append (b : Bracket) (cs more : List Char) :
    b.only (cs ++ more) = b.only cs ++ b.only more :=
  List.filter_append ..

theorem only_eq_nil (h : ∀ c ∈ cs, c ≠ b.opener ∧ c ≠ b.closer) : b.only cs = [] := by
  refine List.filter_eq_nil_iff.mpr fun c hc => ?_
  simp [h c hc]

theorem only_cons_of_ne (hopener : c ≠ b.opener) (hcloser : c ≠ b.closer) (cs : List Char) :
    b.only (c :: cs) = b.only cs := by
  simp [only, hopener, hcloser]

theorem balancedFrom_only_iff :
    b.BalancedFrom depth (b.only body) ↔ b.BalancedFrom depth body := by
  induction body generalizing depth with
  | nil => rfl
  | cons c rest ih =>
      by_cases hopener : c = b.opener
      · subst hopener
        have honly : b.only (b.opener :: rest) = b.opener :: b.only rest := by simp [only]
        rw [honly, balancedFrom_opener_iff, balancedFrom_opener_iff, ih]
      · by_cases hcloser : c = b.closer
        · subst hcloser
          have honly : b.only (b.closer :: rest) = b.closer :: b.only rest := by simp [only]
          rw [honly, balancedFrom_closer_iff, balancedFrom_closer_iff]
          exact exists_congr fun fewer => and_congr_right fun _ => ih
        · rw [only_cons_of_ne hopener hcloser, balancedFrom_other_iff hopener hcloser, ih]

/-- Balance is a matter of the own brackets and their order. -/
theorem Balanced.of_only_eq {other : List Char} (h : b.Balanced body)
    (hsame : b.only other = b.only body) : b.Balanced other := by
  rw [← balancedFrom_zero_iff, ← balancedFrom_only_iff, hsame, balancedFrom_only_iff,
    balancedFrom_zero_iff]
  exact h

/-! ## The closing bracket -/

theorem map_cons_eq_some_iff {found : Option (List Char × List Char)} :
    (found.map fun (body, after) => (c :: body, after)) = some (body, after) ↔
      ∃ inner, body = c :: inner ∧ found = some (inner, after) := by
  rw [Option.map_eq_some_iff]
  constructor
  · rintro ⟨⟨inner, after⟩, rfl, h⟩
    cases h
    exact ⟨inner, rfl, rfl⟩
  · rintro ⟨inner, rfl, rfl⟩
    exact ⟨(inner, after), rfl, rfl⟩

/-- The body found is the balanced one in front of a closing bracket. -/
theorem splitFrom_eq_some_iff : b.split depth cs = some (body, after) ↔
    cs = body ++ b.closer :: after ∧ b.BalancedFrom depth body := by
  constructor
  · intro h
    refine ⟨split_join h, ?_⟩
    -- The depth of the scan is the number of brackets that were opened before.
    induction cs generalizing depth body with
    | nil => simp [split] at h
    | cons c rest ih =>
        unfold split at h
        split at h
        · rename_i hopener
          obtain ⟨inner, rfl, hinner⟩ := map_cons_eq_some_iff.mp h
          rw [hopener]
          exact balancedFrom_opener_iff.mpr (ih hinner)
        · split at h
          · rename_i hcloser
            split at h
            · cases h
              exact balancedFrom_nil_iff.mpr rfl
            · obtain ⟨inner, rfl, hinner⟩ := map_cons_eq_some_iff.mp h
              rw [hcloser]
              exact balancedFrom_closer_iff.mpr ⟨_, rfl, ih hinner⟩
          · rename_i hopener hcloser
            obtain ⟨inner, rfl, hinner⟩ := map_cons_eq_some_iff.mp h
            exact (balancedFrom_other_iff hopener hcloser).mpr (ih hinner)
  · rintro ⟨rfl, h⟩
    induction body generalizing depth with
    | nil =>
        rw [balancedFrom_nil_iff.mp h, List.nil_append]
        unfold split
        rw [if_neg (opener_ne_closer b b).symm, if_pos rfl]
    | cons c inner ih =>
        rw [List.cons_append]
        unfold split
        by_cases hopener : c = b.opener
        · subst hopener
          rw [if_pos rfl, ih (balancedFrom_opener_iff.mp h)]
          rfl
        · rw [if_neg hopener]
          by_cases hcloser : c = b.closer
          · subst hcloser
            obtain ⟨fewer, rfl, hinner⟩ := balancedFrom_closer_iff.mp h
            rw [if_pos rfl]
            show (b.split fewer _).map _ = _
            rw [ih hinner]
            rfl
          · rw [if_neg hcloser, ih ((balancedFrom_other_iff hopener hcloser).mp h)]
            rfl

theorem split_eq_some_iff : b.split 0 cs = some (body, after) ↔
    cs = body ++ b.closer :: after ∧ b.Balanced body := by
  rw [splitFrom_eq_some_iff, balancedFrom_zero_iff]

/-- A balanced body is found whatever follows its closing bracket. -/
theorem split_of_balanced (h : b.Balanced body) (after : List Char) :
    b.split 0 (body ++ b.closer :: after) = some (body, after) :=
  split_eq_some_iff.mpr ⟨rfl, h⟩

/-- A closing bracket that is found in a start of a text is the one found in the
text. -/
theorem split_append (h : b.split 0 cs = some (body, after)) (more : List Char) :
    b.split 0 (cs ++ more) = some (body, after ++ more) := by
  obtain ⟨rfl, hbalanced⟩ := split_eq_some_iff.mp h
  rw [List.append_assoc, List.cons_append]
  exact split_of_balanced hbalanced _

/-- An opening bracket that is never closed is not closed in any start either. -/
theorem split_take_eq_none (h : b.split 0 cs = none) (n : Nat) :
    b.split 0 (cs.take n) = none := by
  rcases hsplit : b.split 0 (cs.take n) with _ | ⟨body, after⟩
  · rfl
  · have hwhole := split_append hsplit (cs.drop n)
    rw [List.take_append_drop, h] at hwhole
    cases hwhole

/-- A balanced body is not closed within itself. -/
theorem split_take_body_eq_none (h : b.Balanced body) (n : Nat) :
    b.split 0 (body.take n) = none := by
  rcases hsplit : b.split 0 (body.take n) with _ | ⟨inner, after⟩
  · rfl
  · -- What is found in a start of the body would be the whole body.
    have hlength := congrArg List.length (split_eq_some_iff.mp hsplit).1
    have hwhole := split_append hsplit (body.drop n ++ [b.closer])
    rw [← List.append_assoc, List.take_append_drop, split_of_balanced h] at hwhole
    obtain ⟨rfl, _⟩ := Prod.mk.inj (Option.some.inj hwhole)
    simp only [List.length_append, List.length_cons, List.length_take] at hlength
    omega

end Bracket

end MessagePattern
