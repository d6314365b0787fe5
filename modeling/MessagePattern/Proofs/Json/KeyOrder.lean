import MessagePattern.Json.Printer
import MessagePattern.Proofs.Answer
import MessagePattern.Segment.Record

/-!
# Values with their keys in order

Whoever writes JSON may put the keys of a dictionary in order. A value is the same up to the
order of its keys as another if both are the same once their keys are in order
(`Value.sorted`), for nothing is looked up by its place (`get?_sortedFields`). A record whose
keys are in order is read, or refused, as the record is (`ofRecord_sorted`).
-/

namespace MessagePattern

/-! ## Values of JSON -/

/-- A value of JSON: its integers can be written and its keys are not repeated. -/
inductive Value.IsJson : Value → Prop
  | null : IsJson .null
  | bool (b : Bool) : IsJson (.bool b)
  | int {i : Int} (hwritable : Decimal.isWritable i = true) : IsJson (.int i)
  | float (x : Float) : IsJson (.float x)
  | text (s : String) : IsJson (.text s)
  | list {items : List Value} (hitems : ∀ v ∈ items, IsJson v) : IsJson (.list items)
  | dict {entries : Fields} (hkeys : (Table.keys entries).Nodup)
      (hentries : ∀ e ∈ entries, IsJson e.2) : IsJson (.dict entries)

/-- A value of JSON without floats: its integers can be written and its keys are not repeated. -/
inductive Value.IsFloatFree : Value → Prop
  | null : IsFloatFree .null
  | bool (b : Bool) : IsFloatFree (.bool b)
  | int {i : Int} (hwritable : Decimal.isWritable i = true) : IsFloatFree (.int i)
  | text (s : String) : IsFloatFree (.text s)
  | list {items : List Value} (hitems : ∀ v ∈ items, IsFloatFree v) : IsFloatFree (.list items)
  | dict {entries : Fields} (hkeys : (Table.keys entries).Nodup)
      (hentries : ∀ e ∈ entries, IsFloatFree e.2) : IsFloatFree (.dict entries)

/-- A float stands somewhere in a value. -/
inductive Value.HoldsFloat : Value → Prop
  | float (x : Float) : HoldsFloat (.float x)
  | list {items : List Value} {v : Value} (hmem : v ∈ items) (hv : HoldsFloat v) :
      HoldsFloat (.list items)
  | dict {entries : Fields} {e : String × Value} (hmem : e ∈ entries) (he : HoldsFloat e.2) :
      HoldsFloat (.dict entries)

theorem Value.IsFloatFree.isJson {v : Value} (h : v.IsFloatFree) : v.IsJson := by
  induction h with
  | null => exact .null
  | bool b => exact .bool b
  | int hwritable => exact .int hwritable
  | text s => exact .text s
  | list _ ih => exact .list ih
  | dict hkeys _ ih => exact .dict hkeys ih

theorem Value.IsJson.isFloatFree {v : Value} (h : v.IsJson) (hfloat : ¬ v.HoldsFloat) :
    v.IsFloatFree := by
  induction h with
  | null => exact .null
  | bool b => exact .bool b
  | int hwritable => exact .int hwritable
  | float x => exact absurd (.float x) hfloat
  | text s => exact .text s
  | list _ ih => exact .list fun v hv => ih v hv fun hfound => hfloat (.list hv hfound)
  | dict hkeys _ ih => exact .dict hkeys fun e he => ih e he fun hfound => hfloat (.dict he hfound)

/-! ## Tables in the order of their keys -/

namespace Table

variable {α β : Type}

/-- The entries of a table in the order of their keys. -/
def sortByKey (t : Table String α) : Table String α :=
  t.mergeSort fun a b => decide (a.1 ≤ b.1)

theorem sortByKey_perm (t : Table String α) : (sortByKey t).Perm t :=
  List.mergeSort_perm t _

theorem sortByKey_mapValues (f : α → β) (t : Table String α) :
    sortByKey (mapValues f t) = mapValues f (sortByKey t) := by
  refine (List.map_mergeSort ?_).symm
  intro a _ b _
  rfl

theorem nodup_keys_sortByKey {t : Table String α} (h : t.keys.Nodup) :
    (sortByKey t).keys.Nodup :=
  ((sortByKey_perm t).map Prod.fst).nodup_iff.mpr h

/-- An entry is what its key has, if keys are not repeated. -/
theorem get?_eq_some_of_mem {t : Table String α} (h : t.keys.Nodup) {k : String} {a : α}
    (hmem : (k, a) ∈ t) : t.get? k = some a := by
  induction t with
  | nil => cases hmem
  | cons e rest ih =>
      obtain ⟨hfirst, hrest⟩ := List.nodup_cons.mp h
      rcases List.mem_cons.mp hmem with rfl | hmem
      · exact if_pos rfl
      · have hk : k ∈ keys rest := List.mem_map.mpr ⟨(k, a), hmem, rfl⟩
        have hne : e.1 ≠ k := by
          rintro rfl
          exact hfirst hk
        exact (if_neg hne).trans (ih hrest hmem)

/-- Nothing is looked up by its place. -/
theorem get?_sortByKey {t : Table String α} (h : t.keys.Nodup) (k : String) :
    (sortByKey t).get? k = t.get? k := by
  cases hget : t.get? k with
  | some a =>
      have hmem := (sortByKey_perm t).mem_iff.mpr (mem_of_get? hget)
      exact get?_eq_some_of_mem (nodup_keys_sortByKey h) hmem
  | none =>
      cases hsorted : (sortByKey t).get? k with
      | none => rfl
      | some a =>
          have hmem := (sortByKey_perm t).mem_iff.mp (mem_of_get? hsorted)
          rw [get?_eq_some_of_mem h hmem] at hget
          cases hget

theorem sortByKey_sortByKey (t : Table String α) : sortByKey (sortByKey t) = sortByKey t := by
  apply List.mergeSort_of_pairwise
  apply List.pairwise_mergeSort
  · intro a b c hab hbc
    exact decide_eq_true (String.le_trans (of_decide_eq_true hab) (of_decide_eq_true hbc))
  · intro a b
    rw [Bool.or_eq_true, decide_eq_true_eq, decide_eq_true_eq]
    exact String.le_total a.1 b.1

end Table

/-! ## Values in the order of their keys -/

mutual

/-- A value with the keys of all dictionaries in it in order. -/
def Value.sorted : Value → Value
  | .list items => .list (sortedItems items)
  | .dict entries => .dict (Table.sortByKey (sortedEntries entries))
  | v => v

def Value.sortedItems : List Value → List Value
  | [] => []
  | v :: rest => v.sorted :: sortedItems rest

def Value.sortedEntries : List (String × Value) → List (String × Value)
  | [] => []
  | (k, v) :: rest => (k, v.sorted) :: sortedEntries rest

end

def sortedFields (fields : Fields) : Fields :=
  Table.sortByKey (Table.mapValues Value.sorted fields)

theorem Value.sorted_list (items : List Value) :
    (Value.list items).sorted = .list (items.map Value.sorted) := by
  have hitems : Value.sortedItems items = items.map Value.sorted := by
    induction items with
    | nil => rfl
    | cons v rest ih => rw [Value.sortedItems, ih, List.map_cons]
  rw [Value.sorted, hitems]

theorem Value.sorted_dict (entries : Fields) :
    (Value.dict entries).sorted = .dict (sortedFields entries) := by
  have hentries : Value.sortedEntries entries = Table.mapValues Value.sorted entries := by
    induction entries with
    | nil => rfl
    | cons e rest ih =>
        rw [Value.sortedEntries, ih]
        rfl
  rw [Value.sorted, hentries, sortedFields]

theorem sortedFields_nil : sortedFields [] = [] :=
  List.mergeSort_nil

theorem get?_sortedFields {fields : Fields} (h : (Table.keys fields).Nodup) (k : String) :
    Table.get? (sortedFields fields) k = (Table.get? fields k).map Value.sorted := by
  rw [sortedFields, Table.get?_sortByKey, Table.get?_mapValues]
  rwa [Table.keys_mapValues]

theorem sortedFields_sortedFields {fields : Fields}
    (h : ∀ e ∈ fields, e.2.sorted.sorted = e.2.sorted) :
    sortedFields (sortedFields fields) = sortedFields fields := by
  have hvalues : Table.mapValues Value.sorted (Table.mapValues Value.sorted fields) =
      Table.mapValues Value.sorted fields := by
    rw [Table.mapValues, Table.mapValues, List.map_map]
    apply List.map_congr_left
    intro e he
    show (e.1, e.2.sorted.sorted) = _
    rw [h e he]
  rw [sortedFields, sortedFields, ← Table.sortByKey_mapValues, hvalues, Table.sortByKey_sortByKey]

mutual

/-- Once keys are in order, they stay as they are. -/
theorem Value.sorted_sorted : ∀ v : Value, v.sorted.sorted = v.sorted
  | .list items => by
    rw [Value.sorted_list, Value.sorted_list, List.map_map]
    exact congrArg Value.list (List.map_congr_left (Value.sorted_sorted_items items))
  | .dict entries => by
    rw [Value.sorted_dict, Value.sorted_dict,
      sortedFields_sortedFields (Value.sorted_sorted_entries entries)]
  | .null => rfl
  | .bool _ => rfl
  | .int _ => rfl
  | .float _ => rfl
  | .text _ => rfl
  | .tuple _ => rfl
  | .segment _ _ => rfl
  | .extractor _ _ => rfl

theorem Value.sorted_sorted_items : ∀ items : List Value, ∀ v ∈ items, v.sorted.sorted = v.sorted
  | [] => List.forall_mem_nil _
  | v :: rest =>
    List.forall_mem_cons.mpr ⟨Value.sorted_sorted v, Value.sorted_sorted_items rest⟩

theorem Value.sorted_sorted_entries :
    ∀ entries : List (String × Value), ∀ e ∈ entries, e.2.sorted.sorted = e.2.sorted
  | [] => List.forall_mem_nil _
  | (_, v) :: rest =>
    List.forall_mem_cons.mpr ⟨Value.sorted_sorted v, Value.sorted_sorted_entries rest⟩

end

/-- Values that are the same but for the order of keys, which the equality of dictionaries does
not heed. -/
def Value.Same (v w : Value) : Prop :=
  v.sorted = w.sorted

/-! ## Records in the order of their keys -/

def Segment.sorted (s : Segment) : Segment :=
  ⟨s.kind, sortedFields s.fields⟩

/-- A refusal of a record that has its keys in order. -/
def Invalid.sorted : Invalid → Invalid
  | .segment v => .segment v.sorted
  | .kind v => .kind v.sorted
  | .fields v => .fields v.sorted
  | reason => reason

namespace Segment

theorem readKind_dict (entries : Fields) :
    readKind (.dict entries) =
      match (Table.get? entries "name").getD .null with
      | .text kind => .ok kind
      | other => .error (.kind other) := rfl

theorem readKind_sorted {v : Value} (h : v.IsFloatFree) :
    readKind v.sorted = (readKind v).mapError Invalid.sorted := by
  cases h with
  | dict hkeys hentries =>
      rename_i entries
      rw [Value.sorted_dict, readKind_dict, readKind_dict, get?_sortedFields hkeys]
      rcases Table.get? entries "name" with _ | v
      · rfl
      · cases v <;> rfl
  | _ => rfl

theorem readFields_sorted {v : Value} (h : v.IsFloatFree) :
    readFields v.sorted = ((readFields v).map sortedFields).mapError Invalid.sorted := by
  cases h with
  | dict hkeys hentries =>
      rw [Value.sorted_dict]
      rfl
  | null =>
      show Except.ok [] = Except.ok (sortedFields [])
      rw [sortedFields_nil]
  | _ => rfl

theorem stated_sorted {entries : Fields} (h : (Table.keys entries).Nodup) :
    stated (sortedFields entries) = ((stated entries).1.sorted, (stated entries).2.sorted) := by
  have hget : ∀ name (v : Value), v.sorted = v →
      (Table.get? (sortedFields entries) name).getD v =
        ((Table.get? entries name).getD v).sorted := by
    intro name v hv
    rw [get?_sortedFields h]
    cases Table.get? entries name with
    | none => exact hv.symm
    | some w => rfl
  have hempty : (Value.dict []).sorted = .dict [] := by
    rw [Value.sorted_dict, sortedFields_nil]
  unfold stated
  rw [hget "fields" _ hempty, hget "type" _ rfl, hget "data" _ hempty, get?_sortedFields h]
  cases Table.get? entries "kind" with
  | none => rfl
  | some kind => rfl

theorem isFloatFree_stated {entries : Fields} (h : (Value.dict entries).IsFloatFree) :
    (stated entries).1.IsFloatFree ∧ (stated entries).2.IsFloatFree := by
  cases h with
  | dict hkeys hentries =>
      have hget : ∀ name {v : Value}, v.IsFloatFree →
          ((Table.get? entries name).getD v).IsFloatFree := by
        intro name v hv
        cases hfound : Table.get? entries name with
        | none => exact hv
        | some w => exact hentries _ (Table.mem_of_get? hfound)
      have hempty : (Value.dict []).IsFloatFree := .dict List.nodup_nil (List.forall_mem_nil _)
      unfold stated
      split
      · rename_i kind hkind
        exact ⟨hentries _ (Table.mem_of_get? hkind), hget "fields" hempty⟩
      · exact ⟨hget "type" .null, hget "data" hempty⟩

/-- A record that has its keys in order is read, or refused, as the record is. -/
theorem ofRecord_sorted {v : Value} (h : v.IsFloatFree) :
    ofRecord v.sorted = ((ofRecord v).map Segment.sorted).mapError Invalid.sorted := by
  cases h with
  | @dict entries hkeys hentries =>
      obtain ⟨hkind, hfields⟩ := isFloatFree_stated (.dict hkeys hentries)
      rw [Value.sorted_dict, ofRecord, ofRecord, stated_sorted hkeys, readKind_sorted hkind,
        readFields_sorted hfields]
      cases readKind (stated entries).1 with
      | error reason => rfl
      | ok kind =>
          cases readFields (stated entries).2 with
          | error reason => rfl
          | ok fields => rfl
  | _ => rfl

end Segment

/-- What records are read as, with all keys in order. -/
def inKeyOrder (outcome : Except Invalid (List Segment)) : Except Invalid (List Segment) :=
  (outcome.map (List.map Segment.sorted)).mapError Invalid.sorted

theorem mapM_ofRecord_sorted {records : List Value} (h : ∀ v ∈ records, v.IsFloatFree) :
    (records.map Value.sorted).mapM Segment.ofRecord =
      inKeyOrder (records.mapM Segment.ofRecord) := by
  induction records with
  | nil => rfl
  | cons v rest ih =>
      obtain ⟨hv, hrest⟩ := List.forall_mem_cons.mp h
      rw [List.map_cons, List.mapM_cons, List.mapM_cons, Segment.ofRecord_sorted hv, ih hrest]
      cases Segment.ofRecord v with
      | error reason => rfl
      | ok s => cases rest.mapM Segment.ofRecord <;> rfl

/-- Outcomes that are the same but for the order of keys, which the equality of dictionaries does
not heed. -/
def SameOutcome (a b : Except Invalid (List Segment)) : Prop :=
  inKeyOrder a = inKeyOrder b

theorem Segment.sorted_sorted (s : Segment) : s.sorted.sorted = s.sorted := by
  rw [Segment.sorted, Segment.sorted,
    sortedFields_sortedFields (Value.sorted_sorted_entries s.fields)]

theorem Invalid.sorted_sorted (reason : Invalid) : reason.sorted.sorted = reason.sorted := by
  cases reason with
  | segment v => exact congrArg Invalid.segment v.sorted_sorted
  | kind v => exact congrArg Invalid.kind v.sorted_sorted
  | fields v => exact congrArg Invalid.fields v.sorted_sorted
  | _ => rfl

theorem sameOutcome_inKeyOrder (outcome : Except Invalid (List Segment)) :
    SameOutcome (inKeyOrder outcome) outcome := by
  cases outcome with
  | error reason => exact congrArg Except.error reason.sorted_sorted
  | ok segments =>
      show Except.ok ((segments.map Segment.sorted).map Segment.sorted) = _
      rw [List.map_map]
      exact congrArg Except.ok (List.map_congr_left fun s _ => s.sorted_sorted)

theorem Segment.toRecord_sorted (s : Segment) : s.sorted.toRecord.sorted = s.toRecord.sorted := by
  have hfields : (Value.dict s.sorted.fields).sorted = (Value.dict s.fields).sorted := by
    rw [Value.sorted_dict, Value.sorted_dict]
    exact congrArg (fun s => Value.dict s.fields) s.sorted_sorted
  rw [Segment.toRecord, Segment.toRecord, Value.sorted_dict, Value.sorted_dict, sortedFields,
    sortedFields, Table.mapValues, Table.mapValues]
  simp only [List.map_cons, hfields]
  rfl

/-- A refusal says the same whatever the order of the keys. -/
theorem Invalid.message_sorted (reason : Invalid) : reason.sorted.message = reason.message := by
  cases reason <;> rfl

theorem Invalid.argument_sorted (reason : Invalid) : reason.sorted.argument = reason.argument := by
  cases reason <;> rfl

/-- Refusals that are the same but for the order of keys say the same of the same argument. -/
theorem message_of_sameOutcome {a b : Invalid} (h : SameOutcome (.error a) (.error b)) :
    a.message = b.message ∧ a.argument = b.argument := by
  have hsorted : a.sorted = b.sorted := Except.error.inj h
  constructor
  · rw [← a.message_sorted, hsorted, b.message_sorted]
  · rw [← a.argument_sorted, hsorted, b.argument_sorted]

end MessagePattern
