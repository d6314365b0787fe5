import MessagePattern.Proofs.Pattern.Bracket

/-!
# Scanning piece by piece

What stands at the front of a pattern is a group, a bracket at fault or a maximal
literal run, and the scan goes on behind it. There is one equation for each
(`scan_group`, `scan_unclosed`, `scan_stray`, `scan_run`) and one induction
over all of them (`piece_induction`), with another over those that a pattern which
compiles is made of (`scan_ok_induction`); nothing below unfolds the scan again.
-/

namespace MessagePattern

open MessagePattern.Bracket

/-! ## Compiling is scanning -/

theorem compile_eq_ok_iff {pattern : String} {tokens : List Token} :
    compile pattern = .ok tokens ↔ scan pattern.toList = .ok tokens := by
  unfold compile
  rcases scan pattern.toList with ⟨fault, place⟩ | found <;> simp

theorem compile_eq_error_iff {pattern : String} {e : PatternError} :
    compile pattern = .error e ↔
      scan pattern.toList = .error (e.fault, e.position) ∧ e.pattern = pattern := by
  obtain ⟨fault, text, place⟩ := e
  unfold compile
  rcases scan pattern.toList with ⟨fault', place'⟩ | found
  · simp only [Except.error.injEq, PatternError.mk.injEq, Prod.mk.injEq]
    constructor
    · rintro ⟨rfl, rfl, rfl⟩
      exact ⟨⟨rfl, rfl⟩, rfl⟩
    · rintro ⟨⟨rfl, rfl⟩, rfl⟩
      exact ⟨rfl, rfl, rfl⟩
  · simp

/-! ## Literal runs -/

/-- No character opens or closes a group of any kind. -/
def Plain (cs : List Char) : Prop :=
  ∀ c ∈ cs, ∀ b : Bracket, c ≠ b.opener ∧ c ≠ b.closer

/-- The text is empty or starts with a bracket of any kind. -/
def AtBracket (cs : List Char) : Prop :=
  ∀ c, cs.head? = some c → ∃ b : Bracket, c = b.opener ∨ c = b.closer

theorem Plain.isOpener_eq_false {cs : List Char} (h : Plain cs) :
    ∀ c ∈ cs, isOpener c = false := by
  intro c hc
  rw [Bool.eq_false_iff]
  intro hopener
  obtain ⟨b, hb⟩ := isOpener_iff.mp hopener
  exact (h c hc b).1 hb

theorem Plain.isCloser_eq_false {cs : List Char} (h : Plain cs) :
    ∀ c ∈ cs, isCloser c = false := by
  intro c hc
  rw [Bool.eq_false_iff]
  intro hcloser
  obtain ⟨b, hb⟩ := isCloser_iff.mp hcloser
  exact (h c hc b).2 hb

theorem plain_of_false {cs : List Char}
    (h : ∀ c ∈ cs, isOpener c = false ∧ isCloser c = false) : Plain cs := by
  intro c hc b
  constructor
  · intro hb
    have hopener := isOpener_iff.mpr ⟨b, hb⟩
    rw [(h c hc).1] at hopener
    cases hopener
  · intro hb
    have hcloser := isCloser_iff.mpr ⟨b, hb⟩
    rw [(h c hc).2] at hcloser
    cases hcloser

theorem Plain.append {cs more : List Char} (h : Plain cs) (h' : Plain more) :
    Plain (cs ++ more) := by
  intro c hc
  rcases List.mem_append.mp hc with hc | hc
  · exact h c hc
  · exact h' c hc

theorem atBracket_nil : AtBracket [] := by
  intro c hc
  cases hc

theorem atBracket_opener (b : Bracket) (cs : List Char) : AtBracket (b.opener :: cs) := by
  intro c hc
  cases hc
  exact ⟨b, Or.inl rfl⟩

theorem atBracket_closer (b : Bracket) (cs : List Char) : AtBracket (b.closer :: cs) := by
  intro c hc
  cases hc
  exact ⟨b, Or.inr rfl⟩

theorem AtBracket.append {cs more : List Char} (h : AtBracket cs) (h' : AtBracket more) :
    AtBracket (cs ++ more) := by
  cases cs with
  | nil => exact h'
  | cons c rest => exact h

theorem AtBracket.of_append {cs more : List Char} (h : AtBracket (cs ++ more)) :
    AtBracket cs := by
  cases cs with
  | nil => exact atBracket_nil
  | cons c rest => exact h

theorem AtBracket.take {cs : List Char} (h : AtBracket cs) (n : Nat) : AtBracket (cs.take n) := by
  cases n with
  | zero => exact atBracket_nil
  | succ n =>
      cases cs with
      | nil => exact h
      | cons c rest => exact h

theorem Plain.not_atBracket {cs : List Char} (h : Plain cs) (hne : cs ≠ []) :
    ¬ AtBracket cs := by
  cases cs with
  | nil => exact absurd rfl hne
  | cons c rest =>
      intro hat
      obtain ⟨b, hb | hb⟩ := hat c rfl
      · exact (h c List.mem_cons_self b).1 hb
      · exact (h c List.mem_cons_self b).2 hb

/-! ## Prepending pieces -/

theorem prependPiece_nil (x : Except (PatternFault × Nat) (List Token)) :
    prependPiece [] 0 x = x := by
  rcases x with ⟨fault, place⟩ | more
  · simp [prependPiece]
  · rfl

theorem prependPiece_prependPiece (tokens tokens' : List Token) (width width' : Nat)
    (x : Except (PatternFault × Nat) (List Token)) :
    prependPiece tokens width (prependPiece tokens' width' x) =
      prependPiece (tokens ++ tokens') (width + width') x := by
  rcases x with ⟨fault, place⟩ | more
  · simp [prependPiece, Nat.add_assoc]
  · simp [prependPiece]

theorem prependPiece_eq_ok_iff {tokens all : List Token} {width : Nat}
    {x : Except (PatternFault × Nat) (List Token)} :
    prependPiece tokens width x = .ok all ↔ ∃ more, x = .ok more ∧ all = tokens ++ more := by
  rcases x with ⟨fault, place⟩ | more
  · simp [prependPiece]
  · simp [prependPiece, eq_comm]

theorem prependPiece_eq_error_iff {tokens : List Token} {width place : Nat} {fault : PatternFault}
    {x : Except (PatternFault × Nat) (List Token)} :
    prependPiece tokens width x = .error (fault, place) ↔
      ∃ inner, x = .error (fault, inner) ∧ place = width + inner := by
  rcases x with ⟨fault', place'⟩ | more
  · simp only [prependPiece, Except.error.injEq, Prod.mk.injEq]
    constructor
    · rintro ⟨rfl, rfl⟩
      exact ⟨place', ⟨rfl, rfl⟩, rfl⟩
    · rintro ⟨inner, ⟨rfl, rfl⟩, rfl⟩
      exact ⟨rfl, rfl⟩
  · simp [prependPiece]

/-! ## One equation for each front -/

theorem scan_nil : scan [] = .ok [] := by
  rw [scan]

theorem scan_unclosed {b : Bracket} {cs : List Char} (h : b.split 0 cs = none) :
    scan (b.opener :: cs) = .error (.unmatchedOpener b.opener, 0) := by
  rw [scan, ofOpener?_eq_some_iff.mpr rfl]
  simp only
  split
  · rfl
  · rename_i hsplit
    rw [h] at hsplit
    cases hsplit

/-- Behind a group the scan goes on, unless the group has no token. -/
theorem scan_group {b : Bracket} {body : List Char} (h : b.Balanced body) (after : List Char) :
    scan (b.opener :: (body ++ b.closer :: after)) =
      match groupToken b body with
      | .error fault => .error (fault, 0)
      | .ok token => prependPiece [token] (body.length + 2) (scan after) := by
  rw [scan, ofOpener?_eq_some_iff.mpr rfl]
  simp only
  split
  · rename_i hsplit
    rw [split_of_balanced h] at hsplit
    cases hsplit
  · rename_i body' after' hsplit
    rw [split_of_balanced h] at hsplit
    cases hsplit
    rfl

/-- At a literal run the scan looks for a stray bracket up to the next group. -/
theorem scan_of_not_opener {c : Char} (h : isOpener c = false) (cs : List Char) :
    scan (c :: cs) =
      match ((c :: cs).takeWhile (!isOpener ·)).findIdx? isCloser with
      | some i =>
        .error (.unmatchedCloser (((c :: cs).takeWhile (!isOpener ·)).getD i c), i)
      | none =>
        prependPiece (literalTokens ((c :: cs).takeWhile (!isOpener ·)))
          ((c :: cs).takeWhile (!isOpener ·)).length
          (scan ((c :: cs).dropWhile (!isOpener ·))) := by
  have hnone : ofOpener? c = none := by
    rw [isOpener, Option.isSome_eq_false_iff, Option.isNone_iff_eq_none] at h
    exact h
  -- The scan reads `c` before it looks for the end of the run; `c` may be counted in.
  have htake : (c :: cs).takeWhile (!isOpener ·) = c :: cs.takeWhile (!isOpener ·) := by
    rw [List.takeWhile_cons, h]
    rfl
  have hdrop : (c :: cs).dropWhile (!isOpener ·) = cs.dropWhile (!isOpener ·) := by
    rw [List.dropWhile_cons, h]
    rfl
  rw [htake, hdrop, scan]
  cases hfound : (c :: cs.takeWhile (!isOpener ·)).findIdx? isCloser with
  | none => simp only [hnone, hfound]
  | some i => simp only [hnone, hfound]

theorem isOpener_closer (b : Bracket) : isOpener b.closer = false := by
  cases b <;> rfl

theorem isCloser_closer (b : Bracket) : isCloser b.closer = true :=
  isCloser_iff.mpr ⟨b, rfl⟩

theorem scan_stray (b : Bracket) (cs : List Char) :
    scan (b.closer :: cs) = .error (.unmatchedCloser b.closer, 0) := by
  have htake : (b.closer :: cs).takeWhile (!isOpener ·) =
      b.closer :: cs.takeWhile (!isOpener ·) := by
    rw [List.takeWhile_cons, isOpener_closer]
    rfl
  rw [scan_of_not_opener (isOpener_closer b), htake, List.findIdx?_cons, isCloser_closer]
  rfl

/-- A maximal literal run yields its tokens, whatever follows it. -/
theorem scan_run {run after : List Char} (hne : run ≠ []) (hplain : Plain run)
    (hafter : AtBracket after) :
    scan (run ++ after) = prependPiece (literalTokens run) run.length (scan after) := by
  obtain ⟨c, rest, rfl⟩ := List.exists_cons_of_ne_nil hne
  have hinside : ∀ d ∈ c :: rest, (!isOpener d) = true := by
    intro d hd
    rw [hplain.isOpener_eq_false d hd]
    rfl
  have hnoCloser : (c :: rest).findIdx? isCloser = none :=
    List.findIdx?_eq_none_iff.mpr hplain.isCloser_eq_false
  rw [List.cons_append, scan_of_not_opener (hplain.isOpener_eq_false c List.mem_cons_self),
    ← List.cons_append, List.takeWhile_append_of_pos hinside,
    List.dropWhile_append_of_pos hinside, List.findIdx?_append, hnoCloser]
  rcases after with _ | ⟨d, after⟩
  · simp
  · obtain ⟨b, rfl | rfl⟩ := hafter d rfl
    · have hopener : isOpener b.opener = true := isOpener_iff.mpr ⟨b, rfl⟩
      simp [hopener]
    · -- The search that finds no closing bracket in the run goes on and finds this one.
      rw [scan_stray, List.takeWhile_cons, isOpener_closer]
      simp [List.findIdx?_cons, isCloser_closer, prependPiece]

/-! ## Induction over the pieces -/

/-- Whether a character belongs into a literal run. -/
def isPlain (c : Char) : Bool :=
  !isOpener c && !isCloser c

theorem plain_of_all {cs : List Char} (h : cs.all isPlain = true) : Plain cs := by
  refine plain_of_false fun c hc => ?_
  have hplain := List.all_eq_true.mp h c hc
  simpa [isPlain] using hplain

/-- The literal run at the front of a text is plain, and it ends at a bracket. -/
theorem plain_takeWhile (cs : List Char) : Plain (cs.takeWhile isPlain) :=
  plain_of_all List.all_takeWhile

theorem atBracket_dropWhile (cs : List Char) : AtBracket (cs.dropWhile isPlain) := by
  intro c hc
  have hstop := List.head?_dropWhile_not isPlain cs
  rw [hc] at hstop
  have hstop : (!isOpener c && !isCloser c) = false := hstop
  rw [Bool.and_eq_false_iff, Bool.not_eq_false', Bool.not_eq_false'] at hstop
  rcases hstop with hopener | hcloser
  · obtain ⟨b, hb⟩ := isOpener_iff.mp hopener
    exact ⟨b, Or.inl hb⟩
  · obtain ⟨b, hb⟩ := isCloser_iff.mp hcloser
    exact ⟨b, Or.inr hb⟩

/-- A pattern ends, or has at its front a group, a bracket at fault or a maximal
literal run. -/
theorem piece_induction {P : List Char → Prop} (nil : P [])
    (group : ∀ b body after, Balanced b body → P after →
      P (b.opener :: (body ++ b.closer :: after)))
    (unclosed : ∀ (b : Bracket) (cs : List Char), b.split 0 cs = none → P (b.opener :: cs))
    (stray : ∀ (b : Bracket) (cs : List Char), P (b.closer :: cs))
    (run : ∀ run after, run ≠ [] → Plain run → AtBracket after → P after → P (run ++ after))
    (cs : List Char) : P cs := by
  -- On the length: what follows a group or a run is shorter, but no tail of one step.
  induction hn : cs.length using Nat.strongRecOn generalizing cs with
  | ind n ih =>
      subst hn
      cases cs with
      | nil => exact nil
      | cons c rest =>
          by_cases hopener : isOpener c = true
          · obtain ⟨b, rfl⟩ := isOpener_iff.mp hopener
            rcases hsplit : b.split 0 rest with _ | ⟨body, after⟩
            · exact unclosed b rest hsplit
            · obtain ⟨rfl, hbalanced⟩ := split_eq_some_iff.mp hsplit
              refine group b body after hbalanced (ih after.length ?_ after rfl)
              simp only [List.length_cons, List.length_append]
              omega
          · by_cases hcloser : isCloser c = true
            · obtain ⟨b, rfl⟩ := isCloser_iff.mp hcloser
              exact stray b rest
            · have hjoin : (c :: rest).takeWhile isPlain ++ (c :: rest).dropWhile isPlain =
                  c :: rest := List.takeWhile_append_dropWhile
              have hne : (c :: rest).takeWhile isPlain ≠ [] := by
                simp [isPlain, hopener, hcloser]
              have hlength := congrArg List.length hjoin
              have hpos := List.length_pos_iff.mpr hne
              rw [List.length_append] at hlength
              rw [← hjoin]
              exact run _ _ hne (plain_takeWhile _) (atBracket_dropWhile _)
                (ih _ (by omega) _ rfl)

theorem scan_group_ok {b : Bracket} {body after : List Char} {token : Token}
    {others : List Token} (h : b.Balanced body) (htoken : groupToken b body = .ok token)
    (hafter : scan after = .ok others) :
    scan (b.opener :: (body ++ b.closer :: after)) = .ok (token :: others) := by
  rw [scan_group h, htoken, hafter]
  rfl

theorem scan_run_ok {run after : List Char} {others : List Token} (hne : run ≠ [])
    (hplain : Plain run) (hafter : AtBracket after) (hothers : scan after = .ok others) :
    scan (run ++ after) = .ok (literalTokens run ++ others) := by
  rw [scan_run hne hplain hafter, hothers]
  rfl

/-- What compiles is empty, or has at its front a group with a token or a maximal
literal run, and what follows it compiles. -/
theorem scan_ok_induction {P : (cs : List Char) → (tokens : List Token) →
      scan cs = .ok tokens → Prop}
    (nil : P [] [] scan_nil)
    (group : ∀ b body after token others (hbalanced : Balanced b body)
      (htoken : groupToken b body = .ok token) (hafter : scan after = .ok others),
      P after others hafter → P _ _ (scan_group_ok hbalanced htoken hafter))
    (run : ∀ run after others (hne : run ≠ []) (hplain : Plain run) (hafter : AtBracket after)
      (hothers : scan after = .ok others),
      P after others hothers → P _ _ (scan_run_ok hne hplain hafter hothers))
    {cs : List Char} {tokens : List Token} (h : scan cs = .ok tokens) : P cs tokens h := by
  induction cs using piece_induction generalizing tokens with
  | nil =>
      rw [scan_nil] at h
      cases h
      exact nil
  | group b body after hbalanced ih =>
      have hscan := h
      rw [scan_group hbalanced] at hscan
      cases htoken : groupToken b body with
      | error fault =>
          rw [htoken] at hscan
          cases hscan
      | ok token =>
          rw [htoken] at hscan
          obtain ⟨others, hafter, rfl⟩ := prependPiece_eq_ok_iff.mp hscan
          exact group b body after token others hbalanced htoken hafter (ih hafter)
  | unclosed b cs hsplit =>
      rw [scan_unclosed hsplit] at h
      cases h
  | stray b cs =>
      rw [scan_stray] at h
      cases h
  | run run' after hne hplain hafter ih =>
      have hscan := h
      rw [scan_run hne hplain hafter] at hscan
      obtain ⟨others, hothers, rfl⟩ := prependPiece_eq_ok_iff.mp hscan
      exact run run' after others hne hplain hafter hothers (ih hothers)

end MessagePattern
