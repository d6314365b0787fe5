import Mathlib.Data.List.DropRight
import MessagePattern.Text.Trim

/-!
# Trimmed texts and cut texts

What trimming takes off is low and stands at the ends (`exists_pads_trim`), so a
trimmed text stays as it is when it is trimmed again. A cut finds the first
delimiter again where the part in front of it has none.
-/

namespace MessagePattern.Text

/-! ## Trimming -/

theorem trim_eq_rdropWhile (cs : List Char) :
    trim cs = (cs.dropWhile isLow).rdropWhile isLow := rfl

/-- A text is its trimmed form between two runs of low characters. -/
theorem exists_pads_trim (cs : List Char) :
    ∃ front back, cs = front ++ trim cs ++ back ∧
      (∀ c ∈ front, isLow c = true) ∧ ∀ c ∈ back, isLow c = true := by
  refine ⟨cs.takeWhile isLow, (cs.dropWhile isLow).rtakeWhile isLow, ?_, ?_, ?_⟩
  · rw [List.append_assoc, trim_eq_rdropWhile, List.rdropWhile_append_rtakeWhile,
      List.takeWhile_append_dropWhile]
  · intro c hc
    exact List.mem_takeWhile_imp hc
  · intro c hc
    exact List.mem_rtakeWhile_imp hc

theorem trim_sublist (cs : List Char) : (trim cs).Sublist cs := by
  obtain ⟨front, back, hcs, _⟩ := exists_pads_trim cs
  have hpart : trim cs <:+: cs := ⟨front, back, hcs.symm⟩
  exact hpart.sublist

theorem mem_of_mem_trim {c : Char} {cs : List Char} (h : c ∈ trim cs) : c ∈ cs :=
  (trim_sublist cs).mem h

/-- Low characters in front of a text do not matter. -/
theorem trim_append_of_low {front : List Char} (h : ∀ c ∈ front, isLow c = true)
    (cs : List Char) : trim (front ++ cs) = trim cs := by
  rw [trim_eq_rdropWhile, trim_eq_rdropWhile, List.dropWhile_append_of_pos h]

/-- Nor do low characters behind it. -/
theorem trim_append_low {back : List Char} (h : ∀ c ∈ back, isLow c = true) (cs : List Char) :
    trim (cs ++ back) = trim cs := by
  rw [trim_eq_rdropWhile, trim_eq_rdropWhile, List.dropWhile_append]
  split
  · rename_i hempty
    rw [List.isEmpty_iff.mp hempty, List.dropWhile_eq_nil_iff.mpr h]
  · rw [List.rdropWhile, List.reverse_append,
      List.dropWhile_append_of_pos fun c hc => h c (List.mem_reverse.mp hc), ← List.rdropWhile]

/-- A text with no low character at either end is trimmed. -/
theorem trim_eq_self_of_ends {cs : List Char} {c d : Char} (hfirst : cs.head? = some c)
    (hlast : cs.getLast? = some d) (hc : isLow c = false) (hd : isLow d = false) :
    trim cs = cs := by
  obtain ⟨rest, rfl⟩ := List.head?_eq_some_iff.mp hfirst
  rw [trim_eq_rdropWhile, List.dropWhile_cons_of_neg (Bool.eq_false_iff.mp hc),
    List.rdropWhile_eq_self_iff]
  intro hne
  rw [List.getLast?_eq_some_getLast hne, Option.some.injEq] at hlast
  rw [hlast]
  exact Bool.eq_false_iff.mp hd

/-- A text without low characters is trimmed. -/
theorem trim_eq_self {cs : List Char} (h : ∀ c ∈ cs, isLow c = false) : trim cs = cs := by
  have hfront : cs.dropWhile isLow = cs := by
    cases cs with
    | nil => rfl
    | cons c rest => simp [h c List.mem_cons_self]
  rw [trim_eq_rdropWhile, hfront, List.rdropWhile_eq_self_iff]
  intro hne
  simp [h _ (List.getLast_mem hne)]

theorem trim_trim (cs : List Char) : trim (trim cs) = trim cs := by
  -- The trimmed text starts where the leading low characters end.
  have hfront : (trim cs).dropWhile isLow = trim cs := by
    obtain ⟨behind, hbehind⟩ := List.rdropWhile_prefix isLow (l := cs.dropWhile isLow)
    rw [← trim_eq_rdropWhile] at hbehind
    cases htrim : trim cs with
    | nil => rfl
    | cons c rest =>
        have hstop := List.head?_dropWhile_not isLow cs
        rw [← hbehind, htrim] at hstop
        have hstop : isLow c = false := hstop
        simp [hstop]
  rw [trim_eq_rdropWhile (trim cs), hfront, trim_eq_rdropWhile, List.rdropWhile_idempotent]

/-! ## Cutting -/

/-- A cut finds the delimiter behind a text that has none. -/
theorem splitOnce_append {d : Char} {head : List Char} (h : d ∉ head) (tail : List Char) :
    splitOnce [d] (head ++ d :: tail) = (head, some tail) := by
  induction head with
  | nil => simp [splitOnce]
  | cons c rest ih =>
      rw [List.mem_cons, not_or] at h
      have hstart : ¬ [d].isPrefixOf (c :: (rest ++ d :: tail)) = true := by
        simp [List.isPrefixOf, h.1]
      rw [List.cons_append, splitOnce, if_neg hstart, ih h.2]

theorem splitOnce_of_notMem {d : Char} {cs : List Char} (h : d ∉ cs) :
    splitOnce [d] cs = (cs, none) := by
  induction cs with
  | nil => rfl
  | cons c rest ih =>
      rw [List.mem_cons, not_or] at h
      have hstart : ¬ [d].isPrefixOf (c :: rest) = true := by
        simp [List.isPrefixOf, h.1]
      rw [splitOnce, if_neg hstart, ih h.2]

end MessagePattern.Text
