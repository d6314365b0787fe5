import Mathlib.Data.List.TakeWhile
import MessagePattern.Segment.Pool

/-!
# What is remembered about segments

The answer about an object and a kind is that for the kind which the object had when it was first
asked (`kindWhenAsked`), by the record of what was done to it. This is an invariant of every single
object (`KeptSegment.Recalls`), and it is kept by everything that is done to the object or to
another one.
-/

namespace MessagePattern

/-! ## Single answers -/

namespace KeptSegment

/-- The answer is the remembered one, or that for the kind which the segment has now. -/
theorem isKind_fst (k : KeptSegment) (kind : Option String) :
    (k.isKind kind).1 = (k.answers.get? kind).getD (decide (some k.segment.kind = kind)) := by
  unfold isKind
  cases k.answers.get? kind <;> rfl

theorem segment_isKind (k : KeptSegment) (kind : Option String) :
    (k.isKind kind).2.segment = k.segment := by
  unfold isKind
  cases k.answers.get? kind <;> rfl

/-- Only the answer that was given is remembered in addition. -/
theorem get?_answers_isKind (k : KeptSegment) (asked kind : Option String) :
    (k.isKind asked).2.answers.get? kind =
      if asked = kind then some (k.isKind asked).1 else k.answers.get? kind := by
  unfold isKind
  cases hasked : k.answers.get? asked with
  | none => exact Table.get?_set _ _ _ _
  | some answer =>
      by_cases h : asked = kind
      · subst h
        rw [if_pos rfl, hasked]
      · rw [if_neg h]

/-- To ask changes no answer. -/
theorem isKind_isKind (k : KeptSegment) (asked kind : Option String) :
    ((k.isKind asked).2.isKind kind).1 = (k.isKind kind).1 := by
  rw [isKind_fst, get?_answers_isKind, segment_isKind]
  by_cases h : asked = kind
  · rw [if_pos h, h, Option.getD_some]
  · rw [if_neg h, isKind_fst]

/-- All answers about an object are those for the kind that it has. -/
def IsExact (k : KeptSegment) : Prop :=
  ∀ kind, (k.isKind kind).1 = decide (some k.segment.kind = kind)

theorem isExact_of_new (s : Segment) : IsExact { segment := s } := fun _ => rfl

theorem IsExact.isKind {k : KeptSegment} (h : k.IsExact) (asked : Option String) :
    (k.isKind asked).2.IsExact := by
  intro kind
  rw [isKind_isKind, segment_isKind]
  exact h kind

end KeptSegment

/-! ## Histories -/

/-- The kind that an act gives to an object. -/
def Act.gives? (name : SegmentName) : Act → Option String
  | made name' kind => if name' = name then some kind else none
  | assigned name' kind => if name' = name then some kind else none
  | asked _ _ => none

/-- The kind that an object has after some acts, if it was made. -/
def kindAfter (acts : List Act) (name : SegmentName) : Option String :=
  acts.foldl (fun kind act => (act.gives? name).or kind) none

/-- The kind that an object has when it is first asked for a kind; if it was not asked yet, that is
the kind which it has in the end. -/
def kindWhenAsked (acts : List Act) (name : SegmentName) (kind : Option String) : Option String :=
  kindAfter (acts.takeWhile (· ≠ .asked name kind)) name

section

variable {acts : List Act} {act : Act} {name : SegmentName} {kind : Option String}

theorem kindAfter_concat (acts : List Act) (act : Act) (name : SegmentName) :
    kindAfter (acts ++ [act]) name = (act.gives? name).or (kindAfter acts name) := by
  rw [kindAfter, List.foldl_append]
  rfl

theorem Act.gives?_of_name_ne (h : act.name ≠ name) : act.gives? name = none := by
  cases act with
  | asked name' kind => rfl
  | made name' kind => exact if_neg h
  | assigned name' kind => exact if_neg h

theorem kindWhenAsked_of_notMem (h : .asked name kind ∉ acts) :
    kindWhenAsked acts name kind = kindAfter acts name := by
  rw [kindWhenAsked, List.takeWhile_eq_self_iff.mpr]
  intro act hact
  exact decide_eq_true fun heq => h (heq ▸ hact)

/-- Once it was asked, later acts are of no account. -/
theorem kindWhenAsked_concat_of_mem (h : .asked name kind ∈ acts) (act : Act) :
    kindWhenAsked (acts ++ [act]) name kind = kindWhenAsked acts name kind := by
  have hstops : (acts.takeWhile (· ≠ .asked name kind)).length ≠ acts.length := by
    intro hlength
    have hall := (List.takeWhile_prefix _).eq_of_length hlength
    exact of_decide_eq_true (List.takeWhile_eq_self_iff.mp hall _ h) rfl
  rw [kindWhenAsked, List.takeWhile_append, if_neg hstops, kindWhenAsked]

/-- What is asked for the first time is asked of the kind that there is. -/
theorem kindWhenAsked_concat_of_notMem (h : .asked name kind ∉ acts) (act : Act) :
    kindWhenAsked (acts ++ [act]) name kind = kindAfter (acts ++ [act]) name := by
  by_cases hact : act = .asked name kind
  · subst hact
    have hall : ∀ act ∈ acts, decide (act ≠ .asked name kind) = true := fun act hmem =>
      decide_eq_true fun heq => h (heq ▸ hmem)
    rw [kindAfter_concat, kindWhenAsked, List.takeWhile_append_of_pos hall]
    simp [Act.gives?]
  · refine kindWhenAsked_of_notMem fun hmem => ?_
    rcases List.mem_append.mp hmem with hmem | hmem
    · exact h hmem
    · exact hact (List.mem_singleton.mp hmem).symm

end

/-! ## What an object recalls -/

/-- An object has the kind that its history says, and recalls what it was asked. Its answers can be
out of date only if its kind was assigned. -/
structure KeptSegment.Recalls (k : KeptSegment) (name : SegmentName) (acts : List Act) : Prop where
  kind : kindAfter acts name = some k.segment.kind
  asked : ∀ kind, (k.answers.get? kind).isSome = true ↔ .asked name kind ∈ acts
  answer : ∀ kind answer, k.answers.get? kind = some answer →
    answer = decide (kindWhenAsked acts name kind = kind)
  exact : (∀ kind, .assigned name kind ∉ acts) → k.IsExact

namespace KeptSegment.Recalls

variable {k : KeptSegment} {acts : List Act} {act : Act} {name : SegmentName}

/-- The answer is that for the kind which the object had when it was first asked. -/
theorem isKind_eq (h : k.Recalls name acts) (kind : Option String) :
    (k.isKind kind).1 = decide (kindWhenAsked acts name kind = kind) := by
  rw [isKind_fst]
  cases hget : k.answers.get? kind with
  | some answer => exact h.answer kind answer hget
  | none =>
      have hnew : .asked name kind ∉ acts := by
        intro hmem
        have hsome := (h.asked kind).mpr hmem
        rw [hget] at hsome
        cases hsome
      rw [kindWhenAsked_of_notMem hnew, h.kind]
      rfl

/-- What is done to another object is of no account. -/
theorem other (h : k.Recalls name acts) (hact : act.name ≠ name) :
    k.Recalls name (acts ++ [act]) := by
  have hkinds : kindAfter (acts ++ [act]) name = kindAfter acts name := by
    rw [kindAfter_concat, Act.gives?_of_name_ne hact, Option.none_or]
  have hne : ∀ kind, act ≠ .asked name kind := by
    rintro kind rfl
    exact hact rfl
  refine ⟨hkinds.trans h.kind, fun kind => ?_, fun kind answer hanswer => ?_, fun hnever => ?_⟩
  · rw [h.asked kind]
    simp [(hne kind).symm]
  · have hmem := (h.asked kind).mp (Option.isSome_of_eq_some hanswer)
    rw [kindWhenAsked_concat_of_mem hmem]
    exact h.answer kind answer hanswer
  · exact h.exact fun kind hmem => hnever kind (List.mem_append_left _ hmem)

theorem made (hnew : ∀ act ∈ acts, act.name ≠ name) (s : Segment) :
    Recalls { segment := s } name (acts ++ [.made name s.kind]) := by
  refine ⟨?_, fun kind => ?_, fun kind answer hanswer => ?_, fun _ => isExact_of_new s⟩
  · rw [kindAfter_concat, Act.gives?, if_pos rfl]
    rfl
  · have hnot : .asked name kind ∉ acts := fun hmem => hnew _ hmem rfl
    simp [Table.get?, hnot]
  · cases hanswer

theorem isKind (h : k.Recalls name acts) (kind : Option String) :
    (k.isKind kind).2.Recalls name (acts ++ [.asked name kind]) := by
  have hkinds : kindAfter (acts ++ [.asked name kind]) name = kindAfter acts name := by
    rw [kindAfter_concat]
    rfl
  have hwhen : ∀ other, kindWhenAsked (acts ++ [.asked name kind]) name other =
      kindWhenAsked acts name other := by
    intro other
    by_cases hmem : .asked name other ∈ acts
    · exact kindWhenAsked_concat_of_mem hmem _
    · rw [kindWhenAsked_concat_of_notMem hmem, hkinds, kindWhenAsked_of_notMem hmem]
  refine ⟨?_, fun other => ?_, fun other answer hanswer => ?_, fun hnever => ?_⟩
  · rw [hkinds, segment_isKind]
    exact h.kind
  · rw [get?_answers_isKind, List.mem_append, List.mem_singleton, ← h.asked other]
    by_cases heq : kind = other
    · simp [heq]
    · simp [heq, Ne.symm heq]
  · rw [get?_answers_isKind] at hanswer
    rw [hwhen]
    split at hanswer
    · rename_i heq
      subst heq
      rw [← Option.some.inj hanswer]
      exact h.isKind_eq kind
    · exact h.answer other answer hanswer
  · exact (h.exact fun new hmem => hnever new (List.mem_append_left _ hmem)).isKind kind

theorem setKind (h : k.Recalls name acts) (kind : String) :
    (k.setKind kind).Recalls name (acts ++ [.assigned name kind]) := by
  refine ⟨?_, fun other => ?_, fun other answer hanswer => ?_, fun hnever => ?_⟩
  · rw [kindAfter_concat, Act.gives?, if_pos rfl]
    rfl
  · show (k.answers.get? other).isSome = true ↔ _
    rw [h.asked other]
    simp
  · have hmem := (h.asked other).mp (Option.isSome_of_eq_some hanswer)
    rw [kindWhenAsked_concat_of_mem hmem]
    exact h.answer other answer hanswer
  · exact absurd (List.mem_append_right _ (List.mem_singleton_self _)) (hnever kind)

end KeptSegment.Recalls

/-! ## What a pool recalls -/

namespace SegmentPool

/-- Every object of a pool recalls what was done to it, and nothing was done to others. -/
structure Recalls (p : SegmentPool) : Prop where
  known : ∀ name k, p.objects.get? name = some k → k.Recalls name p.done
  unknown : ∀ name, p.objects.get? name = none → ∀ act ∈ p.done, act.name ≠ name

/-- The names that will be given next are not taken. -/
structure Fresh (p : SegmentPool) : Prop where
  host : ∀ number, p.hosts ≤ number → p.objects.get? (.host number) = none
  working : ∀ run label, p.runs ≤ run → p.objects.get? (.working run label) = none

variable {p q : SegmentPool} {k : KeptSegment} {act : Act} {name other : SegmentName}

/-- A pool that did one more act to one object recalls it if the object does. -/
theorem Recalls.of_set (h : p.Recalls) (act : Act) (hobjects : q.objects = p.objects.set act.name k)
    (hdone : q.done = p.done ++ [act]) (hk : k.Recalls act.name q.done) : q.Recalls := by
  refine ⟨fun name k' hget => ?_, fun name hget act' hact' => ?_⟩
  · rw [hobjects, Table.get?_set] at hget
    split at hget
    · rename_i heq
      rw [← Option.some.inj hget, ← heq]
      exact hk
    · rename_i hne
      rw [hdone]
      exact (h.known name k' hget).other hne
  · rw [hobjects, Table.get?_set] at hget
    split at hget
    · cases hget
    · rename_i hne
      rw [hdone] at hact'
      rcases List.mem_append.mp hact' with hbefore | hlast
      · exact h.unknown name hget act' hbefore
      · rwa [List.mem_singleton.mp hlast]

theorem Recalls.make (h : p.Recalls) (hnew : p.objects.get? name = none) (s : Segment) :
    (p.make name s).Recalls :=
  h.of_set (.made name s.kind) rfl rfl (.made (h.unknown name hnew) s)

theorem Recalls.perform (h : p.Recalls) {change : KeptSegment → KeptSegment}
    (hchange : ∀ k : KeptSegment, k.Recalls act.name p.done →
      (change k).Recalls act.name (p.done ++ [act])) : (p.perform act change).Recalls := by
  unfold SegmentPool.perform
  cases hget : p.objects.get? act.name with
  | none => exact h
  | some k => exact h.of_set act rfl rfl (hchange k (h.known _ k hget))

theorem Recalls.isKind (h : p.Recalls) (name : SegmentName) (kind : Option String) :
    (p.isKind name kind).2.Recalls :=
  h.perform fun _ hk => hk.isKind kind

theorem Recalls.setKind (h : p.Recalls) (name : SegmentName) (kind : String) :
    (p.setKind name kind).Recalls :=
  h.perform fun _ hk => hk.setKind kind

/-! ## What is done -/

theorem get?_make (p : SegmentPool) (name other : SegmentName) (s : Segment) :
    (p.make name s).objects.get? other =
      if name = other then some { segment := s } else p.objects.get? other :=
  Table.get?_set _ _ _ _

theorem get?_perform (p : SegmentPool) (act : Act) (change : KeptSegment → KeptSegment)
    (name : SegmentName) : (p.perform act change).objects.get? name =
      if act.name = name then (p.objects.get? name).map change else p.objects.get? name := by
  unfold perform
  by_cases hname : act.name = name
  · rw [if_pos hname, hname]
    cases hget : p.objects.get? name with
    | none => exact hget
    | some k => exact (Table.get?_set _ _ _ _).trans (if_pos rfl)
  · rw [if_neg hname]
    cases p.objects.get? act.name with
    | none => rfl
    | some k => exact (Table.get?_set _ _ _ _).trans (if_neg hname)

/-- What is done to an object is one act. -/
theorem perform_cases (p : SegmentPool) (act : Act) (change : KeptSegment → KeptSegment) :
    (p.perform act change).hosts = p.hosts ∧ (p.perform act change).runs = p.runs ∧
      (p.perform act change).done = p.done ++ (p.segment? act.name).toList.map fun _ => act := by
  unfold perform segment?
  cases p.objects.get? act.name with
  | none => exact ⟨rfl, rfl, (List.append_nil _).symm⟩
  | some k => exact ⟨rfl, rfl, rfl⟩

theorem isKind_fst (hget : p.objects.get? name = some k) (kind : Option String) :
    (p.isKind name kind).1 = (k.isKind kind).1 := by
  rw [isKind, hget]
  rfl

end SegmentPool

end MessagePattern
