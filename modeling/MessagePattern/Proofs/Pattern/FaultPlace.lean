import MessagePattern.Proofs.Pattern.Append

/-!
# The place of a fault

A pattern that is refused is a pattern that compiles with a faulty piece behind it
(`exists_fault_split`), and no start of a faulty piece is a pattern. So the place of
a fault is the length of the longest start that compiles.
-/

namespace MessagePattern

open MessagePattern.Bracket

/-- In front of the place of a fault stands a pattern, and behind it a faulty piece. -/
theorem exists_fault_split {cs : List Char} {fault : PatternFault} {place : Nat}
    (h : scan cs = .error (fault, place)) :
    ∃ good bad tokens, cs = good ++ bad ∧ good.length = place ∧ scan good = .ok tokens ∧
      AtBracket bad ∧ scan bad = .error (fault, 0) := by
  induction cs using piece_induction generalizing place with
  | nil =>
      rw [scan_nil] at h
      cases h
  | group b body after hbalanced ih =>
      have hscan := h
      rw [scan_group hbalanced] at h
      cases htoken : groupToken b body with
      | error found =>
          rw [htoken] at h
          cases h
          exact ⟨[], _, [], rfl, rfl, scan_nil, atBracket_opener b _, hscan⟩
      | ok token =>
          rw [htoken] at h
          obtain ⟨inner, hinner, rfl⟩ := prependPiece_eq_error_iff.mp h
          obtain ⟨good, bad, tokens, rfl, rfl, hgood, hat, hbad⟩ := ih hinner
          refine ⟨b.opener :: (body ++ b.closer :: good), bad, token :: tokens, by simp, ?_, ?_,
            hat, hbad⟩
          · simp only [List.length_cons, List.length_append]
            omega
          · exact scan_group_ok hbalanced htoken hgood
  | unclosed b cs hsplit =>
      rw [scan_unclosed hsplit] at h
      cases h
      exact ⟨[], _, [], rfl, rfl, scan_nil, atBracket_opener b _, scan_unclosed hsplit⟩
  | stray b cs =>
      rw [scan_stray] at h
      cases h
      exact ⟨[], _, [], rfl, rfl, scan_nil, atBracket_closer b _, scan_stray b cs⟩
  | run run after hne hplain hafter ih =>
      rw [scan_run hne hplain hafter] at h
      obtain ⟨inner, hinner, rfl⟩ := prependPiece_eq_error_iff.mp h
      obtain ⟨good, bad, tokens, rfl, rfl, hgood, hat, hbad⟩ := ih hinner
      refine ⟨run ++ good, bad, literalTokens run ++ tokens, (List.append_assoc _ _ _).symm,
        List.length_append, ?_, hat, hbad⟩
      exact scan_run_ok hne hplain hafter.of_append hgood

/-- Cutting a group short leaves its opening bracket unmatched, and a stray bracket is
stray whatever follows. -/
theorem scan_take_of_fault {bad : List Char} {fault : PatternFault}
    (h : scan bad = .error (fault, 0)) (n : Nat) :
    ∃ fault', scan (bad.take (n + 1)) = .error (fault', 0) := by
  induction bad using piece_induction with
  | nil =>
      rw [scan_nil] at h
      cases h
  | group b body after hbalanced _ =>
      rw [List.take_succ_cons]
      rcases Nat.lt_or_ge body.length n with hlt | hle
      · -- The group is there as a whole, and its body is as faulty as before.
        have htake : (body ++ b.closer :: after).take n =
            body ++ b.closer :: after.take (n - body.length - 1) := by
          rw [List.take_append, List.take_of_length_le (Nat.le_of_lt hlt)]
          obtain ⟨m, hm⟩ := Nat.exists_eq_add_of_lt hlt
          rw [show n - body.length = m + 1 by omega]
          rfl
        rw [htake, scan_group hbalanced]
        rw [scan_group hbalanced] at h
        cases htoken : groupToken b body with
        | error found => exact ⟨found, rfl⟩
        | ok token =>
            rw [htoken] at h
            obtain ⟨inner, _, hplace⟩ := prependPiece_eq_error_iff.mp h
            omega
      · -- The start ends within the body.
        rw [List.take_append_of_le_length hle]
        exact ⟨_, scan_unclosed (split_take_body_eq_none hbalanced n)⟩
  | unclosed b cs hsplit => exact ⟨_, scan_unclosed (split_take_eq_none hsplit n)⟩
  | stray b cs => exact ⟨_, scan_stray b (cs.take n)⟩
  | run run after hne hplain hafter _ =>
      rw [scan_run hne hplain hafter] at h
      obtain ⟨inner, _, hplace⟩ := prependPiece_eq_error_iff.mp h
      have hpos := List.length_pos_iff.mpr hne
      omega

theorem scan_take_of_error {cs : List Char} {fault : PatternFault} {place : Nat}
    (h : scan cs = .error (fault, place)) :
    place < cs.length ∧ (∃ tokens, scan (cs.take place) = .ok tokens) ∧
      ∀ n, place < n → ∃ e, scan (cs.take n) = .error e := by
  obtain ⟨good, bad, tokens, rfl, rfl, hgood, hat, hbad⟩ := exists_fault_split h
  have hne : bad ≠ [] := by
    rintro rfl
    rw [scan_nil] at hbad
    cases hbad
  have hpos := List.length_pos_iff.mpr hne
  refine ⟨by rw [List.length_append]; omega, ⟨tokens, by rw [List.take_left, hgood]⟩, ?_⟩
  intro n hn
  obtain ⟨m, rfl⟩ := Nat.exists_eq_add_of_lt hn
  obtain ⟨fault', hfault'⟩ := scan_take_of_fault hbad m
  have htake : (good ++ bad).take (good.length + m + 1) = good ++ bad.take (m + 1) := by
    rw [Nat.add_assoc, List.take_length_add_append]
  rw [htake, scan_append hgood (Or.inr (hat.take _)), hfault']
  exact ⟨_, rfl⟩

/-- The place of a fault lies within the pattern; what stands in front of it compiles,
and no longer start of the pattern does. -/
theorem compile_error_position {pattern : String} {e : PatternError}
    (h : compile pattern = .error e) :
    e.position < pattern.length ∧
    (∃ tokens, compile (String.ofList (pattern.toList.take e.position)) = .ok tokens) ∧
    ∀ n, e.position < n → ∃ e', compile (String.ofList (pattern.toList.take n)) = .error e' := by
  obtain ⟨hscan, _⟩ := compile_eq_error_iff.mp h
  obtain ⟨hlt, ⟨tokens, htokens⟩, hlonger⟩ := scan_take_of_error hscan
  refine ⟨by rwa [String.length_toList] at hlt, ⟨tokens, ?_⟩, ?_⟩
  · rw [compile_eq_ok_iff, String.toList_ofList, htokens]
  · intro n hn
    obtain ⟨⟨fault, place⟩, herror⟩ := hlonger n hn
    refine ⟨⟨fault, String.ofList (pattern.toList.take n), place⟩, ?_⟩
    rw [compile_eq_error_iff, String.toList_ofList]
    exact ⟨herror, rfl⟩

/-- The default holds an opening bracket, so the last bracket does not close the
group. -/
theorem compile_error_position_default :
    compile "a [b:number=[1]" = .error ⟨.unmatchedOpener '[', "a [b:number=[1]", 2⟩ ∧
    2 < "a [b:number=[1]".length ∧
    (∃ tokens, compile (String.ofList ("a [b:number=[1]".toList.take 2)) = .ok tokens) ∧
    ∀ n, 2 < n →
      ∃ e', compile (String.ofList ("a [b:number=[1]".toList.take n)) = .error e' := by
  have h : compile "a [b:number=[1]" =
      .error ⟨.unmatchedOpener '[', "a [b:number=[1]", 2⟩ := by with_unfolding_all rfl
  exact ⟨h, compile_error_position h⟩

end MessagePattern
