import Mathlib.Data.List.Induction
import MessagePattern.Registry.Pool

/-!
# The histories of registries

A registry answers to what was done to it, and to nothing else. The history of a registry is the
list of its registrations and removals; a copy takes over the history of its model up to then. The
matcher of a type is the one that the last event for the type left there (`standing`), and the types
are listed in the order in which each of them last arrived, where it was absent before. All
this is said of histories alone, and it holds of each registry after any operations on any
registries (`afterAll_answersTo`).
-/

namespace MessagePattern

namespace Registry

/-! ## Histories -/

/-- What is done to a registry. -/
inductive Event where
  | registered (type : String) (matcher : Matcher)
  | unregistered (type : String)

namespace Event

def type : Event → String
  | registered type _ => type
  | unregistered type => type

/-- The matcher that the event leaves for its type. -/
def matcher? : Event → Option Matcher
  | registered _ matcher => some matcher
  | unregistered _ => none

def apply (r : Registry) : Event → Registry
  | registered type matcher => ⟨r.matchers.set type matcher⟩
  | unregistered type => r.unregister type

end Event

/-- The matcher that was last registered for a type, unless it was unregistered since. -/
def standing (history : List Event) (type : String) : Option Matcher :=
  (history.reverse.find? (·.type = type)).bind Event.matcher?

/-- A type is registered by the event of a number, and was absent before. -/
structure ArrivesAt (history : List Event) (type : String) (i : Nat) : Prop where
  registered : ∃ matcher, history[i]? = some (.registered type matcher)
  absent : standing (history.take i) type = none

/-- The last time that a type went from absent to present. -/
structure LastArrivesAt (history : List Event) (type : String) (i : Nat) : Prop
    extends ArrivesAt history type i where
  last : ∀ j, ArrivesAt history type j → j ≤ i

/-- What a registry answers, by its history. -/
structure AnswersTo (r : Registry) (history : List Event) : Prop where
  matcher : ∀ type, r.matcher? (some type) = standing history type
  matcher_none : r.matcher? none = none
  types_nodup : r.types.Nodup
  mem_types : ∀ type, type ∈ r.types ↔ (standing history type).isSome = true
  types_order : r.types.Pairwise fun type next =>
    ∃ i j, LastArrivesAt history type i ∧ LastArrivesAt history next j ∧ i < j
  special : ∀ type, r.isSpecial (some type) = true ↔
    (standing history type).isSome = true ∧ type ≠ textKind
  special_none : r.isSpecial none = false

/-- The registry that a history makes of the empty one. -/
def replay (history : List Event) : Registry :=
  history.foldl Event.apply empty

variable {history : List Event} {type other : String} {e : Event} {i : Nat}

theorem replay_concat (history : List Event) (e : Event) :
    replay (history ++ [e]) = e.apply (replay history) := by
  rw [replay, List.foldl_append]
  rfl

theorem standing_concat (history : List Event) (e : Event) (type : String) :
    standing (history ++ [e]) type =
      if e.type = type then e.matcher? else standing history type := by
  unfold standing
  rw [List.reverse_append, List.reverse_singleton, List.singleton_append, List.find?_cons]
  by_cases h : e.type = type <;> simp [h]

/-! ## Arrivals -/

theorem ArrivesAt.lt (h : ArrivesAt history type i) : i < history.length := by
  obtain ⟨matcher, hregistered⟩ := h.registered
  exact (List.getElem?_eq_some_iff.mp hregistered).1

theorem ArrivesAt.concat (h : ArrivesAt history type i) (e : Event) :
    ArrivesAt (history ++ [e]) type i := by
  have hlt := h.lt
  refine ⟨?_, ?_⟩
  · rw [List.getElem?_append_left hlt]
    exact h.registered
  · rw [List.take_append_of_le_length (Nat.le_of_lt hlt)]
    exact h.absent

/-- One more event is an arrival of its own, or there are the same arrivals as before. -/
theorem ArrivesAt.of_concat (h : ArrivesAt (history ++ [e]) type i) :
    ArrivesAt history type i ∨
      i = history.length ∧ e.type = type ∧ standing history type = none := by
  have hlt := h.lt
  rw [List.length_append, List.length_singleton] at hlt
  rcases Nat.lt_succ_iff_lt_or_eq.mp hlt with hbefore | rfl
  · refine Or.inl ⟨?_, ?_⟩
    · have hregistered := h.registered
      rwa [List.getElem?_append_left hbefore] at hregistered
    · have habsent := h.absent
      rwa [List.take_append_of_le_length (Nat.le_of_lt hbefore)] at habsent
  · obtain ⟨matcher, hregistered⟩ := h.registered
    rw [List.getElem?_concat_length, Option.some.injEq] at hregistered
    have habsent := h.absent
    rw [List.take_left] at habsent
    refine Or.inr ⟨rfl, ?_, habsent⟩
    rw [hregistered]
    rfl

/-- The last arrival of a type stays the last one, until the type is registered in its absence. -/
theorem LastArrivesAt.concat (h : LastArrivesAt history type i)
    (hstays : e.type = type → standing history type ≠ none) :
    LastArrivesAt (history ++ [e]) type i := by
  refine ⟨h.toArrivesAt.concat e, fun j hj => ?_⟩
  rcases hj.of_concat with hbefore | ⟨_, htype, habsent⟩
  · exact h.last j hbefore
  · exact absurd habsent (hstays htype)

theorem lastArrivesAt_registered (habsent : standing history type = none) (matcher : Matcher) :
    LastArrivesAt (history ++ [.registered type matcher]) type history.length := by
  refine ⟨⟨⟨matcher, List.getElem?_concat_length⟩, ?_⟩, fun j hj => ?_⟩
  · rwa [List.take_left]
  · have hlt := hj.lt
    rw [List.length_append, List.length_singleton] at hlt
    omega

/-! ## What a history makes of a registry -/

theorem get?_replay (history : List Event) (type : String) :
    (replay history).matchers.get? type = standing history type := by
  induction history using List.reverseRecOn with
  | nil => rfl
  | append_singleton history e ih =>
      rw [replay_concat, standing_concat]
      cases e with
      | registered registered matcher =>
          show ((replay history).matchers.set registered matcher).get? type = _
          rw [Table.get?_set, ih]
          rfl
      | unregistered unregistered =>
          show ((replay history).matchers.erase unregistered).get? type = _
          rw [Table.get?_erase, ih]
          rfl

theorem mem_types_replay (history : List Event) (type : String) :
    type ∈ (replay history).types ↔ (standing history type).isSome = true := by
  rw [types, ← Table.has_iff_mem_keys, Table.has, get?_replay]

theorem standing_ne_none (h : type ∈ (replay history).types) : standing history type ≠ none :=
  Option.isSome_iff_ne_none.mp ((mem_types_replay history type).mp h)

theorem types_replay_registered (history : List Event) (type : String) (matcher : Matcher) :
    (replay (history ++ [.registered type matcher])).types =
      if type ∈ (replay history).types then (replay history).types
      else (replay history).types ++ [type] := by
  rw [replay_concat]
  exact Table.keys_set _ type matcher

theorem types_replay_unregistered (history : List Event) (type : String) :
    (replay (history ++ [.unregistered type])).types =
      (replay history).types.filter (· ≠ type) := by
  rw [replay_concat]
  exact types_unregister _ type

theorem nodup_types_replay (history : List Event) : (replay history).types.Nodup := by
  induction history using List.reverseRecOn with
  | nil => exact List.nodup_nil
  | append_singleton history e ih =>
      rw [replay_concat]
      cases e with
      | registered type matcher => exact Table.nodup_keys_set ih type matcher
      | unregistered type =>
          show ((replay history).unregister type).types.Nodup
          rw [types_unregister]
          exact ih.filter _

/-- Every type that is listed has arrived, and has its place by its last arrival. -/
structure InOrderOfArrival (history : List Event) (types : List String) : Prop where
  arrived : ∀ type ∈ types, ∃ i, LastArrivesAt history type i
  ordered : types.Pairwise fun type next =>
    ∃ i j, LastArrivesAt history type i ∧ LastArrivesAt history next j ∧ i < j

theorem InOrderOfArrival.concat {types : List String} (h : InOrderOfArrival history types)
    (hstays : ∀ type ∈ types, e.type = type → standing history type ≠ none) :
    InOrderOfArrival (history ++ [e]) types := by
  refine ⟨fun type htype => ?_, ?_⟩
  · obtain ⟨i, hi⟩ := h.arrived type htype
    exact ⟨i, hi.concat (hstays type htype)⟩
  · refine h.ordered.imp_of_mem fun htype hnext hbefore => ?_
    obtain ⟨i, j, hi, hj, hlt⟩ := hbefore
    exact ⟨i, j, hi.concat (hstays _ htype), hj.concat (hstays _ hnext), hlt⟩

theorem InOrderOfArrival.filter {types : List String} (h : InOrderOfArrival history types)
    (p : String → Bool) : InOrderOfArrival history (types.filter p) where
  arrived := fun type htype => h.arrived type ((List.mem_filter.mp htype).1)
  ordered := h.ordered.filter p

theorem inOrderOfArrival_replay (history : List Event) :
    InOrderOfArrival history (replay history).types := by
  induction history using List.reverseRecOn with
  | nil =>
      refine ⟨fun type htype => ?_, .nil⟩
      cases htype
  | append_singleton history e ih =>
      have hstays : ∀ type ∈ (replay history).types, e.type = type →
          standing history type ≠ none := fun type htype _ => standing_ne_none htype
      have hbefore := ih.concat hstays
      cases e with
      | unregistered type =>
          rw [types_replay_unregistered]
          exact hbefore.filter _
      | registered type matcher =>
          rw [types_replay_registered]
          split
          · exact hbefore
          · rename_i hnotMem
            have habsent : standing history type = none := by
              rw [mem_types_replay, Bool.not_eq_true, Option.isSome_eq_false_iff,
                Option.isNone_iff_eq_none] at hnotMem
              exact hnotMem
            have hlast := lastArrivesAt_registered habsent matcher
            refine ⟨fun arrived harrived => ?_, List.pairwise_append.mpr ⟨hbefore.ordered, ?_, ?_⟩⟩
            · rcases List.mem_append.mp harrived with hmem | hmem
              · exact hbefore.arrived arrived hmem
              · rw [List.mem_singleton.mp hmem]
                exact ⟨_, hlast⟩
            · exact List.pairwise_singleton _ _
            · intro present hpresent arrived harrived
              rw [List.mem_singleton.mp harrived]
              -- Whatever is present arrived before this event.
              obtain ⟨i, hi⟩ := ih.arrived present hpresent
              exact ⟨i, _, hi.concat (hstays present hpresent), hlast, hi.lt⟩

theorem answersTo_replay (history : List Event) : (replay history).AnswersTo history where
  matcher := get?_replay history
  matcher_none := rfl
  types_nodup := nodup_types_replay history
  mem_types := mem_types_replay history
  types_order := (inOrderOfArrival_replay history).ordered
  special := by
    intro type
    rw [isSpecial, Bool.and_eq_true, Table.has, get?_replay, decide_eq_true_eq, and_comm]
  special_none := rfl

/-- A registry that is found as it is has its types from registrations in their order. -/
def ownHistory (r : Registry) : List Event :=
  r.matchers.map fun (type, matcher) => .registered type matcher

theorem replay_ownHistory {r : Registry} (h : r.types.Nodup) : replay r.ownHistory = r := by
  have hfold : ∀ (entries : List (String × Matcher)) (t : Table String Matcher),
      (entries.map fun (type, matcher) => Event.registered type matcher).foldl Event.apply ⟨t⟩ =
        ⟨t.setAll entries⟩ := by
    intro entries
    induction entries with
    | nil =>
        intro t
        rfl
    | cons e rest ih =>
        intro t
        exact ih (t.set e.1 e.2)
  have hentries : Table.setAll [] r.matchers = r.matchers := Table.ofEntries_of_nodup h
  rw [replay, ownHistory, empty, hfold, hentries]

end Registry

/-! ## Several registries -/

namespace RegistryPool

open Registry (Event replay)

/-- An operation on a registry of a name. -/
inductive Operation where
  | register (name type : String) (offer : Option Matcher)
  | unregister (name type : String)
  /-- Makes the registry of the second name a copy of that of the first. -/
  | copy (name copyName : String)

/-- The name of the registry that the operation makes another one. -/
def Operation.target : Operation → String
  | register name _ _ => name
  | unregister name _ => name
  | copy _ copyName => copyName

def perform (p : RegistryPool) : Operation → Except Registry.Rejected RegistryPool
  | .register name type offer => p.register name type offer
  | .unregister name type => .ok (p.unregister name type)
  | .copy name copyName => .ok (p.copy name copyName)

/-- What there is after an operation, which may have been rejected. -/
def after (p : RegistryPool) (operation : Operation) : RegistryPool :=
  (p.perform operation).toOption.getD p

def afterAll (p : RegistryPool) (operations : List Operation) : RegistryPool :=
  operations.foldl after p

/-- The histories of registries, by name. -/
abbrev Histories := Table String (List Event)

namespace Histories

/-- The history of a name; the shared registry stands in for a name that is not taken. -/
def history (h : Histories) (name : String) : List Event :=
  ((h.get? name).or (h.get? shared)).getD Registry.builtin.ownHistory

def ofPool (p : RegistryPool) : Histories :=
  Table.mapValues Registry.ownHistory p.registries

/-- A registration or a removal adds to one history, and a copy takes a history over; what is
rejected leaves no trace. -/
def after (h : Histories) : Operation → Histories
  | .register name type (some matcher) =>
    h.set name (h.history name ++ [.registered type matcher])
  | .register _ _ none => h
  | .unregister name type => h.set name (h.history name ++ [.unregistered type])
  | .copy name copyName => h.set copyName (h.history name)

def afterAll (h : Histories) (operations : List Operation) : Histories :=
  operations.foldl after h

end Histories

variable {p : RegistryPool} {h : Histories}

/-- Each registry is what its history makes of the empty one. -/
def HasHistories (p : RegistryPool) (h : Histories) : Prop :=
  ∀ name, p.registries.get? name = (h.get? name).map replay

theorem replay_builtin : replay Registry.builtin.ownHistory = Registry.builtin :=
  Registry.replay_ownHistory (by decide)

theorem HasHistories.registry_eq (hp : p.HasHistories h) (name : String) :
    p.registry name = replay (h.history name) := by
  rw [registry, Histories.history, hp name, hp shared]
  cases h.get? name with
  | some history => rfl
  | none =>
      cases h.get? shared with
      | some history => rfl
      | none => exact replay_builtin.symm

theorem HasHistories.put (hp : p.HasHistories h) (name : String) (history : List Event) :
    (p.put name (replay history)).HasHistories (h.set name history) := by
  intro other
  rw [RegistryPool.put, Table.get?_set, Table.get?_set, hp other]
  split <;> rfl

theorem HasHistories.after (hp : p.HasHistories h) (operation : Operation) :
    (p.after operation).HasHistories (h.after operation) := by
  cases operation with
  | register name type offer =>
      cases offer with
      | none => exact hp
      | some matcher =>
          have hput := hp.put name (h.history name ++ [.registered type matcher])
          rwa [Registry.replay_concat, ← hp.registry_eq] at hput
  | unregister name type =>
      have hput := hp.put name (h.history name ++ [.unregistered type])
      rwa [Registry.replay_concat, ← hp.registry_eq] at hput
  | copy name copyName =>
      have hput := hp.put copyName (h.history name)
      rwa [← hp.registry_eq] at hput

theorem HasHistories.afterAll (hp : p.HasHistories h) (operations : List Operation) :
    (p.afterAll operations).HasHistories (h.afterAll operations) := by
  induction operations generalizing p h with
  | nil => exact hp
  | cons operation operations ih => exact ih (hp.after operation)

theorem hasHistories_ofPool (hp : ∀ e ∈ p.registries, e.2.types.Nodup) :
    p.HasHistories (Histories.ofPool p) := by
  intro name
  rw [Histories.ofPool, Table.get?_mapValues, Option.map_map]
  cases hget : p.registries.get? name with
  | none => rfl
  | some r =>
      have hr := hp _ (Table.mem_of_get? hget)
      rw [Option.map_some, Function.comp_apply, Registry.replay_ownHistory hr]

/-- An operation leaves alone every registry but the one that it makes another. -/
theorem registry_after_of_ne {operation : Operation} {other : String}
    (htaken : (p.registries.get? other).isSome = true) (hne : operation.target ≠ other) :
    (p.after operation).registry other = p.registry other := by
  cases operation with
  | register name type offer =>
      cases offer with
      | none => rfl
      | some matcher => exact registry_put_of_ne hne htaken
  | unregister name type => exact registry_put_of_ne hne htaken
  | copy name copyName => exact registry_put_of_ne hne htaken

/-- After any operations each registry answers to its own history, that of its model up to the
moment of copying included. One operation more changes no other registry, and none at all if what
it registers has no matcher. -/
theorem afterAll_answersTo (hp : ∀ e ∈ p.registries, e.2.types.Nodup)
    (operations : List Operation) :
    (∀ name, ((p.afterAll operations).registry name).AnswersTo
      (((Histories.ofPool p).afterAll operations).history name)) ∧
    (∀ operation other, ((p.afterAll operations).registries.get? other).isSome = true →
      operation.target ≠ other →
      ((p.afterAll operations).after operation).registry other =
        (p.afterAll operations).registry other) ∧
    ∀ name type,
      (p.afterAll operations).perform (.register name type none) = .error ⟨type⟩ ∧
        (p.afterAll operations).after (.register name type none) = p.afterAll operations := by
  have hhistories := (hasHistories_ofPool hp).afterAll operations
  refine ⟨fun name => ?_, fun operation other => registry_after_of_ne, fun name type => ⟨rfl, rfl⟩⟩
  rw [hhistories.registry_eq]
  exact Registry.answersTo_replay _

/-- In the copy a type is replaced, another is removed and comes back, and an offer is rejected. The
shared registry changes after it was copied. -/
theorem afterAll_answersTo_copied :
    let operations : List Operation :=
      [.unregister shared "boolean", .copy shared "own", .unregister "own" "number",
        .register "own" "float" (some Matcher.number), .register "own" "number" none,
        .register "own" "number" (some Matcher.number),
        .register shared "hex" (some Matcher.hexadecimal)]
    let p := initial.afterAll operations
    let h := (Histories.ofPool initial).afterAll operations
    (∀ e ∈ initial.registries, e.2.types.Nodup) ∧
      (p.registry "own").types = ["integer", "float", "text", "number"] ∧
      (p.registry shared).types = ["number", "integer", "float", "text", "hex"] ∧
      (∀ name, (p.registry name).AnswersTo (h.history name)) ∧
      (∀ operation other, (p.registries.get? other).isSome = true → operation.target ≠ other →
        (p.after operation).registry other = p.registry other) ∧
      ∀ name type, p.perform (.register name type none) = .error ⟨type⟩ ∧
        p.after (.register name type none) = p := by
  intro operations p h
  have hinitial : ∀ e ∈ initial.registries, e.2.types.Nodup :=
    List.forall_mem_singleton.mpr (by decide)
  exact ⟨hinitial, rfl, rfl, afterAll_answersTo hinitial operations⟩

end RegistryPool

end MessagePattern
