import MessagePattern.Proofs.Match.Asking

/-!
# Pools of segments

A host makes segments, asks for their kinds, assigns them, clones segments and matches them, in any
order. The answers about kinds hang on the history of each object (`Recalls`), and the results of
matches do not hang on answers at all, for a match makes objects of its own under names that are
not taken yet (`Fresh`). Both are invariants of all that a host may do (`afterAll_answers`).
-/

namespace MessagePattern.SegmentPool

/-! ## Operations -/

/-- What a host does with a pool. -/
inductive Operation where
  | build (s : Segment)
  | check (name : SegmentName) (kind : Option String)
  | assign (name : SegmentName) (kind : String)
  | clone (name : SegmentName)
  | matching (source : PatternSource) (parts : List SegmentLike) (rules : Option RawRules)
      (registry : Registry)

def after (p : SegmentPool) : Operation → SegmentPool
  | .build s => p.build s
  | .check name kind => (p.isKind name kind).2
  | .assign name kind => p.setKind name kind
  | .clone name => p.clone name
  | .matching source parts rules registry => (p.matching source parts rules registry).2

def afterAll (p : SegmentPool) (operations : List Operation) : SegmentPool :=
  operations.foldl after p

/-- The acts that an operation may consist of. A match makes and asks nothing but its own objects,
and assigns no kinds. -/
def Operation.Takes (p : SegmentPool) (acts : List Act) : Operation → Prop
  | .build s => acts = [.made (.host p.hosts) s.kind]
  | .check name kind => acts = (p.segment? name).toList.map fun _ => .asked name kind
  | .assign name kind => acts = (p.segment? name).toList.map fun _ => .assigned name kind
  | .clone name => acts = (p.segment? name).toList.map fun s => .made (.host p.hosts) s.kind
  | .matching _ _ _ _ => ∀ act ∈ acts, (∃ label, act.name = .working p.runs label) ∧
      ∀ name kind, act ≠ .assigned name kind

variable {p : SegmentPool} {operation : Operation} {operations : List Operation}
  {name : SegmentName} {s : Segment}

theorem exists_object (h : p.segment? name = some s) :
    ∃ k, p.objects.get? name = some k ∧ k.segment = s :=
  Option.map_eq_some_iff.mp h

theorem clone_eq (p : SegmentPool) (name : SegmentName) :
    p.clone name = (p.segment? name).elim p p.build := by
  unfold clone segment?
  cases p.objects.get? name <;> rfl

/-! ## Names that are not taken -/

theorem fresh_empty : Fresh {} := ⟨fun _ _ => rfl, fun _ _ _ => rfl⟩

theorem Fresh.build (h : p.Fresh) (s : Segment) : (p.build s).Fresh := by
  refine ⟨fun number hnumber => ?_, fun run label hrun => ?_⟩
  · have hlt : p.hosts < number := hnumber
    have hne : SegmentName.host p.hosts ≠ .host number := by
      intro heq
      cases heq
      omega
    exact (get?_make _ _ _ _).trans ((if_neg hne).trans (h.host number (Nat.le_of_lt hlt)))
  · exact (get?_make _ _ _ _).trans ((if_neg (by simp)).trans (h.working run label hrun))

theorem Fresh.perform (h : p.Fresh) (act : Act) (change : KeptSegment → KeptSegment) :
    (p.perform act change).Fresh := by
  obtain ⟨hhosts, hruns, _⟩ := p.perform_cases act change
  have hfree : ∀ name, p.objects.get? name = none →
      (p.perform act change).objects.get? name = none := by
    intro name hname
    rw [get?_perform, hname]
    exact ite_self none
  refine ⟨fun number hnumber => ?_, fun run label hrun => ?_⟩
  · rw [hhosts] at hnumber
    exact hfree _ (h.host number hnumber)
  · rw [hruns] at hrun
    exact hfree _ (h.working run label hrun)

theorem Fresh.works {q : SegmentPool} (h : p.Fresh)
    (hworks : Works p.runs { p with runs := p.runs + 1 } q) : q.Fresh := by
  obtain ⟨hhosts, hruns⟩ := hworks.counts_eq
  refine ⟨fun number hnumber => ?_, fun run label hrun => ?_⟩
  · rw [hhosts] at hnumber
    rw [hworks.get?_eq (by simp)]
    exact h.host number hnumber
  · rw [hruns] at hrun
    have hlt : p.runs < run := hrun
    have hne : ∀ own, SegmentName.working run label ≠ .working p.runs own := by
      intro own heq
      cases heq
      omega
    rw [hworks.get?_eq hne]
    exact h.working run label (Nat.le_of_lt hlt)

/-- A match may leave a pool as it is, or do its work there. -/
theorem matching_cases (h : p.Fresh) (source : PatternSource) (parts : List SegmentLike)
    (rules : Option RawRules) (registry : Registry) :
    (p.matching source parts rules registry).2 = p ∨
      Works p.runs { p with runs := p.runs + 1 } (p.matching source parts rules registry).2 :=
  (p.matchMessage_works h source _ rules registry).2

theorem Fresh.after (h : p.Fresh) (operation : Operation) : (p.after operation).Fresh := by
  cases operation with
  | build s => exact h.build s
  | check name kind => exact h.perform _ _
  | assign name kind => exact h.perform _ _
  | clone name =>
      show (p.clone name).Fresh
      rw [clone_eq]
      cases p.segment? name with
      | none => exact h
      | some s => exact h.build s
  | matching source parts rules registry =>
      show (p.matching source parts rules registry).2.Fresh
      rcases matching_cases h source parts rules registry with heq | hworks
      · rw [heq]
        exact h
      · exact h.works hworks

/-! ## What is recalled -/

theorem recalls_empty : Recalls {} where
  known _ _ hget := nomatch hget
  unknown _ _ _ hact := nomatch hact

theorem Recalls.build (h : p.Recalls) (hfresh : p.Fresh) (s : Segment) : (p.build s).Recalls := by
  have hmade := h.make (hfresh.host p.hosts (Nat.le_refl _)) s
  exact ⟨hmade.known, hmade.unknown⟩

theorem Recalls.after (h : p.Recalls) (hfresh : p.Fresh) (operation : Operation) :
    (p.after operation).Recalls := by
  cases operation with
  | build s => exact h.build hfresh s
  | check name kind => exact h.isKind name kind
  | assign name kind => exact h.setKind name kind
  | clone name =>
      show (p.clone name).Recalls
      rw [clone_eq]
      cases p.segment? name with
      | none => exact h
      | some s => exact h.build hfresh s
  | matching source parts rules registry =>
      show (p.matching source parts rules registry).2.Recalls
      rcases matching_cases hfresh source parts rules registry with heq | hworks
      · rw [heq]
        exact h
      · exact hworks.recalls ⟨h.known, h.unknown⟩

theorem invariants_afterAll (h : p.Recalls) (hfresh : p.Fresh) (operations : List Operation) :
    (p.afterAll operations).Recalls ∧ (p.afterAll operations).Fresh := by
  induction operations generalizing p with
  | nil => exact ⟨h, hfresh⟩
  | cons operation operations ih => exact ih (h.after hfresh operation) (hfresh.after operation)

/-! ## What is done -/

/-- Every operation adds its own acts to the record. -/
theorem exists_done_after (hfresh : p.Fresh) (operation : Operation) :
    ∃ acts, (p.after operation).done = p.done ++ acts ∧ operation.Takes p acts := by
  cases operation with
  | build s => exact ⟨_, rfl, rfl⟩
  | check name kind => exact ⟨_, (p.perform_cases (.asked name kind) _).2.2, rfl⟩
  | assign name kind => exact ⟨_, (p.perform_cases (.assigned name kind) _).2.2, rfl⟩
  | clone name =>
      refine ⟨_, ?_, rfl⟩
      show (p.clone name).done = _
      rw [clone_eq]
      cases p.segment? name with
      | none => exact (List.append_nil _).symm
      | some s => rfl
  | matching source parts rules registry =>
      rcases matching_cases hfresh source parts rules registry with heq | hworks
      · exact ⟨[], (congrArg done heq).trans (List.append_nil _).symm, List.forall_mem_nil _⟩
      · exact hworks.exists_done

/-- Kinds are assigned by the host alone. -/
theorem Operation.Takes.eq_assign {acts : List Act} {kind : String}
    (h : operation.Takes p acts) (hmem : .assigned name kind ∈ acts) :
    operation = .assign name kind := by
  cases operation with
  | build s =>
      rw [show acts = _ from h] at hmem
      cases List.mem_singleton.mp hmem
  | check name' kind' =>
      rw [show acts = _ from h] at hmem
      obtain ⟨_, _, heq⟩ := List.mem_map.mp hmem
      cases heq
  | assign name' kind' =>
      rw [show acts = _ from h] at hmem
      obtain ⟨_, _, heq⟩ := List.mem_map.mp hmem
      cases heq
      rfl
  | clone name' =>
      rw [show acts = _ from h] at hmem
      obtain ⟨_, _, heq⟩ := List.mem_map.mp hmem
      cases heq
  | matching source parts rules registry => exact absurd rfl ((h _ hmem).2 name kind)

theorem never_assigned (hfresh : p.Fresh) (hbefore : ∀ kind, .assigned name kind ∉ p.done)
    (hnever : ∀ kind, .assign name kind ∉ operations) :
    ∀ kind, .assigned name kind ∉ (p.afterAll operations).done := by
  induction operations generalizing p with
  | nil => exact hbefore
  | cons operation operations ih =>
      refine ih (hfresh.after operation) (fun kind hmem => ?_)
        fun kind hmem => hnever kind (List.mem_cons_of_mem _ hmem)
      obtain ⟨acts, hdone, htakes⟩ := exists_done_after hfresh operation
      rw [hdone] at hmem
      rcases List.mem_append.mp hmem with hmem | hmem
      · exact hbefore kind hmem
      · rw [htakes.eq_assign hmem] at hnever
        exact hnever kind List.mem_cons_self

/-! ## Answers -/

theorem isKind_build (p : SegmentPool) (s : Segment) (kind : Option String) :
    ((p.build s).isKind (.host p.hosts) kind).1 = decide (some s.kind = kind) :=
  isKind_fst ((get?_make _ _ _ _).trans (if_pos rfl)) kind

theorem segment?_build (p : SegmentPool) (s : Segment) :
    (p.build s).segment? (.host p.hosts) = some s :=
  congrArg (Option.map _) ((get?_make _ _ _ _).trans (if_pos rfl))

/-- A match leaves the objects alone that there were before. -/
theorem get?_matching (hfresh : p.Fresh) {k : KeptSegment} (hget : p.objects.get? name = some k)
    (source : PatternSource) (parts : List SegmentLike) (rules : Option RawRules)
    (registry : Registry) :
    (p.matching source parts rules registry).2.objects.get? name = some k := by
  have hname : ∀ label, name ≠ .working p.runs label := by
    rintro label rfl
    rw [hfresh.working p.runs label (Nat.le_refl _)] at hget
    cases hget
  rcases matching_cases hfresh source parts rules registry with heq | hworks
  · rw [heq, hget]
  · rw [hworks.get?_eq hname, hget]

/-- After any operations, an object is said to be of a kind if it was of that kind when it was first
asked for it, by the record of what was done; that is the kind it has if none was ever assigned to
it, and its clone is a new object that is answered by the kind it has. A match comes to what it
comes to for newly built segments, and leaves all objects alone. Every operation adds to the record
what it does, and a match makes and asks none but its own objects. -/
theorem afterAll_answers (operations : List Operation) :
    let p := ({} : SegmentPool).afterAll operations
    (∀ name s kind, p.segment? name = some s →
      (p.isKind name kind).1 = decide (kindWhenAsked p.done name kind = kind) ∧
      ((∀ new, .assign name new ∉ operations) →
        (p.isKind name kind).1 = decide (some s.kind = kind)) ∧
      p.segment? (.host p.hosts) = none ∧ (p.clone name).segment? (.host p.hosts) = some s ∧
      ((p.clone name).isKind (.host p.hosts) kind).1 = decide (some s.kind = kind)) ∧
    (∀ source parts rules registry,
      (p.matching source parts rules registry).1 =
        (SegmentPool.matchMessage {} source (.list (parts.filterMap p.value?)) rules registry).1 ∧
      (p.matching source parts rules registry).1 =
        MessagePattern.matchMessage source (.list (parts.filterMap p.value?)) rules registry ∧
      ∀ name k, p.objects.get? name = some k →
        (p.matching source parts rules registry).2.objects.get? name = some k) ∧
    ∀ operation, ∃ acts, (p.after operation).done = p.done ++ acts ∧ operation.Takes p acts := by
  intro p
  obtain ⟨hrecalls, hfresh⟩ := invariants_afterAll recalls_empty fresh_empty operations
  refine ⟨fun name s kind hsegment => ?_, fun source parts rules registry => ?_,
    exists_done_after hfresh⟩
  · obtain ⟨k, hget, rfl⟩ := exists_object hsegment
    have hk := hrecalls.known name k hget
    refine ⟨(isKind_fst hget kind).trans (hk.isKind_eq kind), fun hnever => ?_,
      Option.map_eq_none_iff.mpr (hfresh.host p.hosts (Nat.le_refl _)), ?_, ?_⟩
    · have hassigned := never_assigned (p := {}) fresh_empty (fun _ hmem => nomatch hmem) hnever
      exact (isKind_fst hget kind).trans (hk.exact hassigned kind)
    · rw [clone_eq, hsegment]
      exact segment?_build p k.segment
    · rw [clone_eq, hsegment]
      exact isKind_build p k.segment kind
  · have hresult := (p.matchMessage_works hfresh source (.list (parts.filterMap p.value?)) rules
      registry).1
    have hbuilt := (SegmentPool.matchMessage_works fresh_empty source
      (.list (parts.filterMap p.value?)) rules registry).1
    exact ⟨hresult.trans hbuilt.symm, hresult,
      fun name k hget => get?_matching hfresh hget source parts rules registry⟩

/-- An object whose kind is assigned after it was asked is said to be of the old kind still, and is
matched by the new one; its clone is of the new kind. -/
theorem afterAll_answers_out_of_date :
    let p := ({} : SegmentPool).afterAll [.build ⟨"at", []⟩, .check (.host 0) (some "at"),
      .assign (.host 0) "face", .clone (.host 0)]
    p.segment? (.host 0) = some ⟨"face", []⟩ ∧ (p.isKind (.host 0) (some "at")).1 = true ∧
      (p.isKind (.host 0) (some "face")).1 = true ∧ (p.isKind (.host 1) (some "at")).1 = false ∧
      (p.matching (.tokens [.typedLiteral "face" ""]) [.object (.host 0)] none .builtin).1 =
        .ok (some { matched := [⟨"face", []⟩] }) := by
  intro p
  obtain ⟨hanswers, hmatches, _⟩ := afterAll_answers [.build ⟨"at", []⟩,
    .check (.host 0) (some "at"), .assign (.host 0) "face", .clone (.host 0)]
  have hfirst := fun kind => (hanswers (.host 0) _ kind rfl).1
  refine ⟨rfl, (hfirst _).trans (by decide), (hfirst _).trans (by decide),
    (hanswers (.host 1) _ (some "at") rfl).1.trans (by decide), ?_⟩
  rw [(hmatches _ _ none .builtin).2.1]
  with_unfolding_all rfl

end MessagePattern.SegmentPool
