import MessagePattern.Proofs.Pattern.Scan

/-!
# Patterns one behind the other

A pattern that compiles may be put in front of any other, as long as no literal
run crosses the cut: the tokens come one after the other, and a fault of the second
pattern moves back by the length of the first.
-/

namespace MessagePattern

open MessagePattern.Bracket

/-- No literal run crosses the cut between two texts: the first is empty or ends with a
closing bracket, or the second is empty or starts with a bracket. -/
def BetweenPieces (cs more : List Char) : Prop :=
  (∀ c, cs.getLast? = some c → ∃ b : Bracket, c = b.closer) ∨ AtBracket more

theorem BetweenPieces.of_append {front cs more : List Char}
    (h : BetweenPieces (front ++ cs) more) : BetweenPieces cs more := by
  rcases h with hlast | hat
  · refine Or.inl fun c hc => hlast c ?_
    rw [List.getLast?_append, hc]
    rfl
  · exact Or.inr hat

/-- A literal run ends at the cut behind it. -/
theorem BetweenPieces.atBracket {run after more : List Char} (hne : run ≠ [])
    (hplain : Plain run) (hafter : AtBracket after) (h : BetweenPieces (run ++ after) more) :
    AtBracket (after ++ more) := by
  rcases h with hlast | hat
  · cases after with
    | cons c rest => exact hafter
    | nil =>
        -- The run reaches up to the cut, so the first text ends in a plain character.
        exfalso
        rw [List.append_nil] at hlast
        obtain ⟨b, hb⟩ := hlast _ (List.getLast?_eq_some_getLast hne)
        exact (hplain _ (List.getLast_mem hne) b).2 hb
  · exact hafter.append hat

/-- Behind a pattern that compiles the scan starts anew. -/
theorem scan_append {cs more : List Char} {tokens : List Token} (h : scan cs = .ok tokens)
    (hcut : BetweenPieces cs more) :
    scan (cs ++ more) = prependPiece tokens cs.length (scan more) := by
  induction h using scan_ok_induction with
  | nil => exact (prependPiece_nil _).symm
  | group b body after token others hbalanced htoken hafter ih =>
      have hcut : BetweenPieces ((b.opener :: body ++ [b.closer]) ++ after) more := by
        simpa using hcut
      have hjoin : b.opener :: (body ++ b.closer :: after) ++ more =
          b.opener :: (body ++ b.closer :: (after ++ more)) := by
        simp
      have hlength : (b.opener :: (body ++ b.closer :: after)).length =
          body.length + 2 + after.length := by
        simp only [List.length_cons, List.length_append]
        omega
      rw [hjoin, scan_group hbalanced, htoken, hlength]
      show prependPiece [token] (body.length + 2) (scan (after ++ more)) = _
      rw [ih hcut.of_append, prependPiece_prependPiece]
      rfl
  | run run after others hne hplain hafter hothers ih =>
      rw [List.append_assoc, scan_run hne hplain (hcut.atBracket hne hplain hafter),
        ih hcut.of_append, prependPiece_prependPiece, List.length_append]

/-- Compiling follows a cut between pieces: the tokens of the two patterns in a row, or the
fault of the second, placed behind the first. -/
theorem compile_append {p q : String} {tokens : List Token} (hp : compile p = .ok tokens)
    (hcut : BetweenPieces p.toList q.toList) :
    (∀ more, compile q = .ok more → compile (p ++ q) = .ok (tokens ++ more)) ∧
    ∀ e, compile q = .error e →
      compile (p ++ q) = .error ⟨e.fault, p ++ q, p.length + e.position⟩ := by
  have hscan : scan p.toList = .ok tokens := compile_eq_ok_iff.mp hp
  have happend : scan (p ++ q).toList = prependPiece tokens p.length (scan q.toList) := by
    rw [String.toList_append, scan_append hscan hcut, String.length_toList]
  constructor
  · intro more hq
    rw [compile_eq_ok_iff, happend, compile_eq_ok_iff.mp hq]
    rfl
  · intro e hq
    obtain ⟨hfault, rfl⟩ := compile_eq_error_iff.mp hq
    rw [compile_eq_error_iff, happend, hfault]
    exact ⟨rfl, rfl⟩

/-- A literal run in front of a group, and in front of a group that is not closed. -/
theorem compile_append_ping :
    compile "ping" = .ok [.literal "ping" false] ∧
    BetweenPieces "ping".toList "[n=5] ".toList ∧ BetweenPieces "ping".toList "[n".toList ∧
    compile ("ping" ++ "[n=5] ") =
      .ok ([.literal "ping" false] ++
        [.parameter "n" "text" true (some (.int 5)), .literal " " true]) ∧
    compile ("ping" ++ "[n") = .error ⟨.unmatchedOpener '[', "ping" ++ "[n", 4 + 0⟩ := by
  have hping : compile "ping" = .ok [.literal "ping" false] := by with_unfolding_all rfl
  have hgroup : BetweenPieces "ping".toList "[n=5] ".toList :=
    Or.inr (atBracket_opener .square _)
  have hopen : BetweenPieces "ping".toList "[n".toList :=
    Or.inr (atBracket_opener .square _)
  have hn : compile "[n=5] " =
      .ok [.parameter "n" "text" true (some (.int 5)), .literal " " true] := by
    with_unfolding_all rfl
  have hfault : compile "[n" = .error ⟨.unmatchedOpener '[', "[n", 0⟩ := by
    with_unfolding_all rfl
  exact ⟨hping, hgroup, hopen, (compile_append hping hgroup).1 _ hn,
    (compile_append hping hopen).2 _ hfault⟩

end MessagePattern
