/-!
# Tables in order of insertion

Parameters, fields, field rules and type matchers are all kept in tables that
answer in the order in which keys first appeared. Setting a key that is present
keeps its place; a key that was erased and set again moves to the end. A table
is the list of its entries, so its order is its list order and nothing else has
to be remembered.
-/

namespace MessagePattern

/-- Entries in order of insertion. -/
abbrev Table (κ α : Type) := List (κ × α)

namespace Table

variable {κ α : Type} [DecidableEq κ]

def keys (t : Table κ α) : List κ :=
  t.map Prod.fst

def get? (t : Table κ α) (k : κ) : Option α :=
  match t with
  | [] => none
  | (k', a) :: rest => if k' = k then some a else get? rest k

def has (t : Table κ α) (k : κ) : Bool :=
  (t.get? k).isSome

/-- Gives a key a value, in its old place or else at the end. -/
def set (t : Table κ α) (k : κ) (a : α) : Table κ α :=
  match t with
  | [] => [(k, a)]
  | (k', a') :: rest => if k' = k then (k', a) :: rest else (k', a') :: set rest k a

def erase (t : Table κ α) (k : κ) : Table κ α :=
  match t with
  | [] => []
  | (k', a') :: rest => if k' = k then erase rest k else (k', a') :: erase rest k

def setAll (t : Table κ α) (entries : List (κ × α)) : Table κ α :=
  entries.foldl (fun t e => t.set e.1 e.2) t

/-- The table of a list of entries: a repeated key has its first place and its
last value. -/
def ofEntries (entries : List (κ × α)) : Table κ α :=
  setAll [] entries

/-! ## What the operations do to the entries -/

theorem get?_set (t : Table κ α) (k l : κ) (a : α) :
    (t.set k a).get? l = if k = l then some a else t.get? l := by
  induction t with
  | nil => by_cases h : k = l <;> simp [set, get?, h]
  | cons e rest ih =>
    obtain ⟨k', a'⟩ := e
    by_cases hk : k' = k
    · subst hk
      by_cases hl : k' = l <;> simp [set, get?, hl]
    · by_cases hl : k' = l
      · subst hl
        simp [set, get?, hk, Ne.symm hk]
      · simp [set, get?, hk, hl, ih]

theorem set_ne_nil (t : Table κ α) (k : κ) (a : α) : t.set k a ≠ [] := by
  cases t with
  | nil => exact List.cons_ne_nil _ _
  | cons e rest =>
    rw [set]
    split <;> exact List.cons_ne_nil _ _

theorem get?_erase (t : Table κ α) (k l : κ) :
    (t.erase k).get? l = if k = l then none else t.get? l := by
  induction t with
  | nil => simp [erase, get?]
  | cons e rest ih =>
    obtain ⟨k', a'⟩ := e
    by_cases hk : k' = k
    · subst hk
      rw [erase, if_pos rfl, ih]
      by_cases hl : k' = l <;> simp [get?, hl]
    · by_cases hl : k' = l
      · subst hl
        simp [erase, get?, hk, Ne.symm hk]
      · simp [erase, get?, hk, hl, ih]

/-- What a key has is an entry of its own. -/
theorem mem_of_get? {t : Table κ α} {k : κ} {a : α} (h : t.get? k = some a) : (k, a) ∈ t := by
  induction t with
  | nil => cases h
  | cons e rest ih =>
    obtain ⟨k', a'⟩ := e
    by_cases hk : k' = k
    · rw [get?, if_pos hk, Option.some.injEq] at h
      rw [hk, h]
      exact List.mem_cons_self
    · rw [get?, if_neg hk] at h
      exact List.mem_cons_of_mem _ (ih h)

/-- A key is present exactly if it is listed. -/
theorem has_iff_mem_keys (t : Table κ α) (k : κ) : t.has k = true ↔ k ∈ t.keys := by
  induction t with
  | nil => simp [has, get?, keys]
  | cons e rest ih =>
    obtain ⟨k', a'⟩ := e
    by_cases h : k' = k
    · simp [has, get?, keys, h]
    · simp only [has, get?, keys, h, if_false, List.map_cons, List.mem_cons] at ih ⊢
      rw [ih]
      simp [Ne.symm h]

/-- Setting a key that is present leaves the keys as they are; another goes to
the end. -/
theorem keys_set (t : Table κ α) (k : κ) (a : α) :
    (t.set k a).keys = if k ∈ t.keys then t.keys else t.keys ++ [k] := by
  induction t with
  | nil => simp [set, keys]
  | cons e rest ih =>
    obtain ⟨k', a'⟩ := e
    simp only [keys] at ih
    by_cases h : k' = k
    · simp [set, keys, h]
    · by_cases hm : k ∈ rest.map Prod.fst
      · simp only [set, keys, h, if_false, List.map_cons, ih, hm, if_true, List.mem_cons, or_true]
      · simp only [set, keys, h, if_false, List.map_cons, ih, hm, List.mem_cons, Ne.symm h,
          or_self, List.cons_append]

theorem keys_erase (t : Table κ α) (k : κ) : (t.erase k).keys = t.keys.filter (· ≠ k) := by
  induction t with
  | nil => rfl
  | cons e rest ih =>
    obtain ⟨k', a'⟩ := e
    simp only [keys] at ih
    by_cases h : k' = k <;> simp [erase, keys, h, ih]

/-- What holds of the values of a table and of a value holds once that is set. -/
theorem forall_set {P : α → Prop} {t : Table κ α} {a : α} (ht : ∀ e ∈ t, P e.2) (ha : P a)
    (k : κ) : ∀ e ∈ t.set k a, P e.2 := by
  induction t with
  | nil =>
    intro e he
    rw [List.mem_singleton.mp he]
    exact ha
  | cons first rest ih =>
    obtain ⟨hfirst, hrest⟩ := List.forall_mem_cons.mp ht
    rw [set]
    split
    · exact List.forall_mem_cons.mpr ⟨ha, hrest⟩
    · exact List.forall_mem_cons.mpr ⟨hfirst, ih hrest⟩

/-! ## Setting several keys -/

/-- The later of two values for a key counts. -/
theorem set_set (t : Table κ α) (k : κ) (a b : α) : (t.set k a).set k b = t.set k b := by
  induction t with
  | nil => simp [set]
  | cons e rest ih =>
    obtain ⟨k', a'⟩ := e
    by_cases h : k' = k <;> simp [set, h, ih]

/-- Two keys can be set in any order if the one has its place already. -/
theorem set_comm {t : Table κ α} {k l : κ} (hk : k ∈ t.keys) (hne : k ≠ l) (a b : α) :
    (t.set k a).set l b = (t.set l b).set k a := by
  induction t with
  | nil => cases hk
  | cons e rest ih =>
    obtain ⟨k', a'⟩ := e
    by_cases h : k' = k
    · subst h
      simp [set, hne]
    · have hrest : k ∈ keys rest := (List.mem_cons.mp hk).resolve_left (Ne.symm h)
      by_cases hl : k' = l
      · simp [set, hl, Ne.symm hne]
      · simp [set, h, hl, ih hrest]

theorem mem_keys_set (t : Table κ α) (k l : κ) (a : α) :
    l ∈ (t.set k a).keys ↔ l = k ∨ l ∈ t.keys := by
  rw [keys_set]
  by_cases h : k ∈ t.keys
  · rw [if_pos h]
    constructor
    · exact Or.inr
    · rintro (rfl | hl)
      · exact h
      · exact hl
  · rw [if_neg h, List.mem_append, List.mem_singleton, or_comm]

theorem nodup_keys_set {t : Table κ α} (h : t.keys.Nodup) (k : κ) (a : α) :
    (t.set k a).keys.Nodup := by
  rw [keys_set]
  by_cases hk : k ∈ t.keys
  · rwa [if_pos hk]
  · rw [if_neg hk]
    refine List.nodup_append.mpr ⟨h, List.nodup_cons.mpr ⟨List.not_mem_nil, List.nodup_nil⟩, ?_⟩
    intro l hl m hm heq
    rw [List.mem_singleton.mp hm] at heq
    exact hk (heq ▸ hl)

theorem setAll_cons (t : Table κ α) (k : κ) (a : α) (entries : List (κ × α)) :
    t.setAll ((k, a) :: entries) = (t.set k a).setAll entries := rfl

theorem forall_setAll {P : α → Prop} {t : Table κ α} {entries : List (κ × α)}
    (ht : ∀ e ∈ t, P e.2) (hentries : ∀ e ∈ entries, P e.2) : ∀ e ∈ t.setAll entries, P e.2 := by
  induction entries generalizing t with
  | nil => exact ht
  | cons e rest ih =>
    obtain ⟨he, hrest⟩ := List.forall_mem_cons.mp hentries
    exact ih (forall_set ht he e.1) hrest

theorem nodup_keys_setAll {t : Table κ α} (h : t.keys.Nodup) (entries : List (κ × α)) :
    (t.setAll entries).keys.Nodup := by
  induction entries generalizing t with
  | nil => exact h
  | cons e rest ih => exact ih (nodup_keys_set h e.1 e.2)

/-- A key that has its place may as well be set after others. -/
theorem setAll_set_of_notMem {t entries : Table κ α} {k : κ} (hk : k ∈ t.keys)
    (hentries : k ∉ entries.keys) (a : α) :
    (t.set k a).setAll entries = (t.setAll entries).set k a := by
  induction entries generalizing t with
  | nil => rfl
  | cons e rest ih =>
    obtain ⟨l, b⟩ := e
    have hne : k ≠ l := fun h => hentries (h ▸ List.mem_cons_self)
    have hrest : k ∉ keys rest := fun h => hentries (List.mem_cons_of_mem _ h)
    rw [setAll_cons, setAll_cons, set_comm hk hne]
    exact ih ((mem_keys_set t l k b).mpr (Or.inr hk)) hrest

/-- To set a key among some entries is to set it after them, unless one of them is
repeated. -/
theorem setAll_set (t : Table κ α) {entries : Table κ α} (h : entries.keys.Nodup) (k : κ)
    (a : α) : t.setAll (entries.set k a) = (t.setAll entries).set k a := by
  induction entries generalizing t with
  | nil => rfl
  | cons e rest ih =>
    obtain ⟨k', a'⟩ := e
    obtain ⟨hk', hrest⟩ := List.nodup_cons.mp h
    by_cases hk : k' = k
    · subst hk
      have hset : (t.set k' a').set k' a = t.set k' a := set_set t k' a' a
      have hplace : k' ∈ (t.set k' a').keys := (mem_keys_set t k' k' a').mpr (Or.inl rfl)
      rw [set, if_pos rfl, setAll_cons, setAll_cons, ← hset]
      exact setAll_set_of_notMem hplace hk' a
    · rw [set, if_neg hk, setAll_cons, setAll_cons]
      exact ih (t.set k' a') hrest

/-- A key that is not present goes to the end. -/
theorem set_of_notMem {t : Table κ α} {k : κ} (h : k ∉ t.keys) (a : α) :
    t.set k a = t ++ [(k, a)] := by
  induction t with
  | nil => rfl
  | cons e rest ih =>
    obtain ⟨hfirst, hrest⟩ := not_or.mp fun hmem => h (List.mem_cons.mpr hmem)
    rw [set, if_neg (Ne.symm hfirst), ih hrest, List.cons_append]

theorem setAll_of_nodup {t entries : Table κ α} (h : (t ++ entries).keys.Nodup) :
    t.setAll entries = t ++ entries := by
  induction entries generalizing t with
  | nil => exact (List.append_nil t).symm
  | cons e rest ih =>
    obtain ⟨k, a⟩ := e
    have hsplit : t ++ (k, a) :: rest = (t ++ [(k, a)]) ++ rest := by simp
    have hk : k ∉ t.keys := by
      intro hmem
      rw [keys, List.map_append] at h
      exact (List.nodup_append.mp h).2.2 k hmem k List.mem_cons_self rfl
    rw [setAll_cons, set_of_notMem hk, hsplit]
    exact ih (hsplit ▸ h)

theorem nodup_keys_ofEntries (entries : List (κ × α)) : (ofEntries entries).keys.Nodup :=
  nodup_keys_setAll (t := []) List.nodup_nil entries

/-- Entries whose keys are not repeated are a table as they are. -/
theorem ofEntries_of_nodup {entries : Table κ α} (h : entries.keys.Nodup) :
    ofEntries entries = entries :=
  setAll_of_nodup h

/-! ## Other values for the keys -/

section

variable {β : Type}

/-- A table with another value for each key. -/
def mapValues (f : α → β) (t : Table κ α) : Table κ β :=
  t.map fun e => (e.1, f e.2)

omit [DecidableEq κ] in
theorem keys_mapValues (f : α → β) (t : Table κ α) : (mapValues f t).keys = t.keys := by
  rw [keys, mapValues, List.map_map]
  rfl

theorem get?_mapValues (f : α → β) (t : Table κ α) (k : κ) :
    (mapValues f t).get? k = (t.get? k).map f := by
  induction t with
  | nil => rfl
  | cons e rest ih =>
    show (if e.1 = k then some (f e.2) else get? (mapValues f rest) k) =
      (if e.1 = k then some e.2 else get? rest k).map f
    rw [ih]
    split <;> rfl

end

end Table

end MessagePattern
