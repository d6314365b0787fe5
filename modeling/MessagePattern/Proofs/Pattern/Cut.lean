import Mathlib.Data.List.Chain
import MessagePattern.Proofs.Pattern.Grammar

/-!
# Cutting a pattern into pieces

The scan accepts exactly the patterns of the grammar: those that can be cut into
well-formed pieces. Literal runs may be cut at any place, but with maximal runs
there is only one cut, and the tokens of a pattern are those of its pieces in
a row.
-/

namespace MessagePattern

open MessagePattern.Bracket

/-- A piece of a pattern: a literal run, or a group with its body. -/
inductive Piece where
  | run (text : List Char)
  | group (b : Bracket) (body : List Char)

namespace Piece

def text : Piece → List Char
  | run text => text
  | group b body => b.opener :: (body ++ [b.closer])

/-- Runs are plain and not empty; groups are balanced and stand for a token. -/
def WellFormed : Piece → Prop
  | run text => text ≠ [] ∧ Plain text
  | group b body => b.Balanced body ∧ WellFormedBody b body

def tokens : Piece → List Token
  | run text => literalTokens text
  | group b body => (groupToken b body).toOption.toList

def IsRun : Piece → Prop
  | run _ => True
  | group _ _ => False

theorem text_ne_nil {piece : Piece} (h : piece.WellFormed) : piece.text ≠ [] := by
  cases piece with
  | run text => exact h.1
  | group b body => exact List.cons_ne_nil _ _

/-- A well-formed piece is a pattern by itself. -/
theorem scan_text {piece : Piece} (h : piece.WellFormed) :
    scan piece.text = .ok piece.tokens := by
  cases piece with
  | run text =>
      have hscan := scan_run_ok h.1 h.2 atBracket_nil scan_nil
      rwa [List.append_nil, List.append_nil] at hscan
  | group b body =>
      obtain ⟨token, htoken⟩ := exists_groupToken_iff.mpr h.2
      rw [Piece.text, tokens, htoken]
      exact scan_group_ok h.1 htoken scan_nil

end Piece

/-- A cut of a pattern into well-formed pieces. -/
structure IsCut (pattern : List Char) (pieces : List Piece) : Prop where
  wellFormed : ∀ piece ∈ pieces, piece.WellFormed
  joins : pieces.flatMap Piece.text = pattern

/-- No literal run stands next to another. -/
def RunsMaximal (pieces : List Piece) : Prop :=
  pieces.IsChain fun piece next => ¬ (piece.IsRun ∧ next.IsRun)

theorem isCut_nil : IsCut [] [] :=
  ⟨fun _ h => absurd h List.not_mem_nil, rfl⟩

theorem IsCut.cons {piece : Piece} {after : List Char} {pieces : List Piece}
    (hpiece : piece.WellFormed) (h : IsCut after pieces) :
    IsCut (piece.text ++ after) (piece :: pieces) where
  wellFormed := by
    intro p hp
    rcases List.mem_cons.mp hp with rfl | hp
    · exact hpiece
    · exact h.wellFormed p hp
  joins := by rw [List.flatMap_cons, h.joins]

theorem IsCut.of_cons {piece : Piece} {pattern : List Char} {pieces : List Piece}
    (h : IsCut pattern (piece :: pieces)) :
    ∃ after, pattern = piece.text ++ after ∧ piece.WellFormed ∧ IsCut after pieces :=
  ⟨pieces.flatMap Piece.text, by rw [← h.joins, List.flatMap_cons],
    h.wellFormed piece List.mem_cons_self,
    ⟨fun p hp => h.wellFormed p (List.mem_cons_of_mem _ hp), rfl⟩⟩

/-! ## Patterns that compile can be cut -/

/-- In front of a maximal cut of a text at a bracket a run is maximal. -/
theorem RunsMaximal.run_cons {run after : List Char} {pieces : List Piece}
    (h : RunsMaximal pieces) (hcut : IsCut after pieces) (hafter : AtBracket after) :
    RunsMaximal (.run run :: pieces) := by
  cases pieces with
  | nil => exact .singleton _
  | cons next pieces =>
      refine .cons_cons ?_ h
      rintro ⟨_, hrun⟩
      obtain ⟨behind, rfl, hnext, _⟩ := hcut.of_cons
      cases next with
      | run text => exact hnext.2.not_atBracket hnext.1 hafter.of_append
      | group b body => exact hrun

theorem RunsMaximal.group_cons {b : Bracket} {body : List Char} {pieces : List Piece}
    (h : RunsMaximal pieces) : RunsMaximal (.group b body :: pieces) := by
  cases pieces with
  | nil => exact .singleton _
  | cons next pieces => exact .cons_cons (fun hruns => hruns.1) h

theorem exists_maximal_cut {cs : List Char} {tokens : List Token} (h : scan cs = .ok tokens) :
    ∃ pieces, IsCut cs pieces ∧ RunsMaximal pieces ∧ tokens = pieces.flatMap Piece.tokens := by
  induction h using scan_ok_induction with
  | nil => exact ⟨[], isCut_nil, .nil, rfl⟩
  | group b body after token others hbalanced htoken hafter ih =>
      obtain ⟨pieces, hcut, hmaximal, rfl⟩ := ih
      have hpiece : (Piece.group b body).WellFormed :=
        ⟨hbalanced, exists_groupToken_iff.mp ⟨token, htoken⟩⟩
      refine ⟨.group b body :: pieces, ?_, hmaximal.group_cons, ?_⟩
      · simpa [Piece.text] using hcut.cons hpiece
      · rw [List.flatMap_cons, Piece.tokens, htoken]
        rfl
  | run run after others hne hplain hafter hothers ih =>
      obtain ⟨pieces, hcut, hmaximal, rfl⟩ := ih
      have hpiece : (Piece.run run).WellFormed := ⟨hne, hplain⟩
      exact ⟨.run run :: pieces, hcut.cons hpiece, hmaximal.run_cons hcut hafter, rfl⟩

/-! ## Patterns that can be cut compile -/

/-- A literal run may be put in front of any pattern, also of one that starts with a
run itself. -/
theorem exists_scan_run_append {run cs : List Char} (hne : run ≠ []) (hplain : Plain run)
    (h : ∃ tokens, scan cs = .ok tokens) : ∃ tokens, scan (run ++ cs) = .ok tokens := by
  obtain ⟨tokens, h⟩ := h
  cases h using scan_ok_induction with
  | nil => exact ⟨_, scan_run_ok hne hplain atBracket_nil scan_nil⟩
  | group b body after token others hbalanced htoken hafter _ =>
      exact ⟨_, scan_run_ok hne hplain (atBracket_opener b _)
        (scan_group_ok hbalanced htoken hafter)⟩
  | run run' after others hne' hplain' hafter hothers _ =>
      -- The two runs are one, so the scan finds neither of them by itself.
      have hjoined : run ++ run' ≠ [] := fun hnil => hne (List.append_eq_nil_iff.mp hnil).1
      rw [← List.append_assoc]
      exact ⟨_, scan_run_ok hjoined (hplain.append hplain') hafter hothers⟩

theorem IsCut.exists_scan : ∀ {pieces : List Piece} {cs : List Char}, IsCut cs pieces →
    ∃ tokens, scan cs = .ok tokens
  | [], cs, h => ⟨[], by rw [← h.joins]; exact scan_nil⟩
  | piece :: pieces, cs, h => by
      obtain ⟨after, rfl, hpiece, hcut⟩ := h.of_cons
      obtain ⟨others, hothers⟩ := hcut.exists_scan
      cases piece with
      | run run => exact exists_scan_run_append hpiece.1 hpiece.2 ⟨others, hothers⟩
      | group b body =>
          obtain ⟨token, htoken⟩ := exists_groupToken_iff.mpr hpiece.2
          have htext : (Piece.group b body).text ++ after =
              b.opener :: (body ++ b.closer :: after) := by
            simp [Piece.text]
          rw [htext]
          exact ⟨token :: others, scan_group_ok hpiece.1 htoken hothers⟩

/-! ## The maximal cut is unique -/

theorem RunsMaximal.of_cons {piece : Piece} {pieces : List Piece}
    (h : RunsMaximal (piece :: pieces)) : RunsMaximal pieces :=
  List.IsChain.tail h

/-- Behind a maximal run there is a bracket, or nothing. -/
theorem RunsMaximal.atBracket {run after : List Char} {pieces : List Piece}
    (h : RunsMaximal (.run run :: pieces)) (hcut : IsCut after pieces) : AtBracket after := by
  cases pieces with
  | nil =>
      rw [← hcut.joins]
      exact atBracket_nil
  | cons next pieces =>
      obtain ⟨behind, rfl, _, _⟩ := hcut.of_cons
      cases next with
      | run text => exact absurd ⟨trivial, trivial⟩ (List.isChain_cons_cons.mp h).1
      | group b body => exact atBracket_opener b _

theorem takeWhile_isPlain_append {run after : List Char} (hplain : Plain run)
    (hafter : AtBracket after) : (run ++ after).takeWhile isPlain = run := by
  have hinside : ∀ c ∈ run, isPlain c = true := by
    intro c hc
    rw [isPlain, hplain.isOpener_eq_false c hc, hplain.isCloser_eq_false c hc]
    rfl
  rw [List.takeWhile_append_of_pos hinside]
  cases after with
  | nil => simp
  | cons c rest =>
      obtain ⟨b, rfl | rfl⟩ := hafter c rfl
      · simp [isPlain, isOpener_iff.mpr ⟨b, rfl⟩]
      · simp [isPlain, isCloser_closer]

/-- A group is told from what follows it. -/
theorem group_append_inj {b b' : Bracket} {body body' after after' : List Char}
    (h : b.Balanced body) (h' : b'.Balanced body')
    (heq : (Piece.group b body).text ++ after = (Piece.group b' body').text ++ after') :
    Piece.group b body = Piece.group b' body' ∧ after = after' := by
  simp only [Piece.text, List.cons_append, List.append_assoc, List.nil_append,
    List.cons.injEq] at heq
  obtain ⟨hopener, hbehind⟩ := heq
  obtain rfl := opener_injective b b' hopener
  have hsplit := split_of_balanced h after
  rw [hbehind, split_of_balanced h'] at hsplit
  obtain ⟨rfl, rfl⟩ := Prod.mk.inj (Option.some.inj hsplit)
  exact ⟨rfl, rfl⟩

theorem Plain.ne_group {run after after' body : List Char} {b : Bracket} (hne : run ≠ [])
    (hplain : Plain run) : run ++ after ≠ (Piece.group b body).text ++ after' := by
  obtain ⟨c, rest, rfl⟩ := List.exists_cons_of_ne_nil hne
  intro heq
  exact (hplain c List.mem_cons_self b).1 (List.cons.inj heq).1

theorem maximal_cut_unique : ∀ {pieces other : List Piece} {cs : List Char}, IsCut cs pieces →
    RunsMaximal pieces → IsCut cs other → RunsMaximal other → other = pieces
  | [], [], _, _, _, _, _ => rfl
  | [], piece' :: other, cs, h, _, h', _ => by
      obtain ⟨after', hcs, hpiece', _⟩ := h'.of_cons
      rw [← h.joins] at hcs
      exact absurd (List.append_eq_nil_iff.mp hcs.symm).1 (Piece.text_ne_nil hpiece')
  | piece :: pieces, [], cs, h, _, h', _ => by
      obtain ⟨after, hcs, hpiece, _⟩ := h.of_cons
      rw [← h'.joins] at hcs
      exact absurd (List.append_eq_nil_iff.mp hcs.symm).1 (Piece.text_ne_nil hpiece)
  | piece :: pieces, piece' :: other, cs, h, hmax, h', hmax' => by
      obtain ⟨after, rfl, hpiece, hcut⟩ := h.of_cons
      obtain ⟨after', heq, hpiece', hcut'⟩ := h'.of_cons
      -- A run ends at the first bracket and a group where its opening bracket is
      -- balanced, so the text decides on the first piece.
      have hsame : piece = piece' ∧ after = after' := by
        cases piece with
        | run run =>
            cases piece' with
            | run run' =>
                have hrun : run = run' := by
                  rw [← takeWhile_isPlain_append hpiece.2 (hmax.atBracket hcut),
                    ← takeWhile_isPlain_append hpiece'.2 (hmax'.atBracket hcut')]
                  exact congrArg _ heq
                subst hrun
                exact ⟨rfl, List.append_cancel_left heq⟩
            | group b' body' => exact absurd heq (hpiece.2.ne_group hpiece.1)
        | group b body =>
            cases piece' with
            | run run' => exact absurd heq.symm (hpiece'.2.ne_group hpiece'.1)
            | group b' body' => exact group_append_inj hpiece.1 hpiece'.1 heq
      obtain ⟨rfl, rfl⟩ := hsame
      rw [maximal_cut_unique hcut hmax.of_cons hcut' hmax'.of_cons]

/-- A pattern compiles exactly if it can be cut into well-formed pieces. With maximal
runs there is one cut only; its pieces are patterns by themselves, and their
tokens in a row are those of the pattern. -/
theorem compile_iff_exists_cut (pattern : String) :
    ((∃ tokens, compile pattern = .ok tokens) ↔ ∃ pieces, IsCut pattern.toList pieces) ∧
    ∀ tokens, compile pattern = .ok tokens →
      ∃ pieces, IsCut pattern.toList pieces ∧ RunsMaximal pieces ∧
        (∀ other, IsCut pattern.toList other → RunsMaximal other → other = pieces) ∧
        (∀ piece ∈ pieces, compile (String.ofList piece.text) = .ok piece.tokens) ∧
        tokens = pieces.flatMap Piece.tokens := by
  refine ⟨⟨?_, ?_⟩, ?_⟩
  · rintro ⟨tokens, h⟩
    obtain ⟨pieces, hcut, _⟩ := exists_maximal_cut (compile_eq_ok_iff.mp h)
    exact ⟨pieces, hcut⟩
  · rintro ⟨pieces, hcut⟩
    obtain ⟨tokens, h⟩ := hcut.exists_scan
    exact ⟨tokens, compile_eq_ok_iff.mpr h⟩
  · intro tokens h
    obtain ⟨pieces, hcut, hmax, htokens⟩ := exists_maximal_cut (compile_eq_ok_iff.mp h)
    refine ⟨pieces, hcut, hmax, fun other => maximal_cut_unique hcut hmax, ?_, htokens⟩
    intro piece hpiece
    rw [compile_eq_ok_iff, String.toList_ofList]
    exact Piece.scan_text (hcut.wellFormed piece hpiece)

end MessagePattern
