import Mathlib.Data.List.Induction
import MessagePattern.Pattern.Cache

/-!
# What the cache of compiled patterns holds

The cache keeps entries and counters, and forgets most of what it was asked. What it holds can
all the same be read off its history: the patterns of its entries are the first of those that
compiled since the cache was last cleared, each counted once and the last used first
(`Cache.used`), and no more of them than there is room for. One call moves a pattern to the front
of that list and changes nothing else (`Tracks.after`). That a hit does the same to the entries,
and a miss too although it drops one, is the stack property of this way to make room: what was
cut off the end of the list never matters for the front of it (`take_cons_of_mem` and
`take_cons_of_notMem`).
-/

namespace MessagePattern

/-! ## The front of a list in order of last use -/

section Recency

variable {α : Type} [DecidableEq α] {a : α} {l : List α} {n : Nat}

theorem eraseDups_filter (p : α → Bool) (l : List α) :
    (l.filter p).eraseDups = l.eraseDups.filter p := by
  match l with
  | [] => rfl
  | a :: l =>
      have ih := eraseDups_filter p (l.filter fun b => !b == a)
      rw [List.eraseDups_cons]
      by_cases h : p a = true
      · rw [List.filter_cons_of_pos h, List.filter_cons_of_pos h, List.eraseDups_cons, ← ih,
          List.filter_filter, List.filter_filter]
        simp only [Bool.and_comm]
      · have hkept : (l.filter fun b => !b == a).filter p = l.filter p := by
          rw [List.filter_filter]
          refine List.filter_congr fun b _ => ?_
          by_cases hb : b = a <;> simp [hb, h]
        rw [List.filter_cons_of_neg h, List.filter_cons_of_neg h, ← ih, hkept]
termination_by l.length
decreasing_by
  exact Nat.lt_succ_of_le (List.length_filter_le _ _)

theorem nodup_eraseDups (l : List α) : l.eraseDups.Nodup := by
  match l with
  | [] => exact List.nodup_nil
  | a :: l =>
      rw [List.eraseDups_cons]
      refine List.nodup_cons.mpr ⟨?_, nodup_eraseDups (l.filter fun b => !b == a)⟩
      intro hmem
      have hne := (List.mem_filter.mp (List.mem_eraseDups.mp hmem)).2
      simp at hne
termination_by l.length
decreasing_by
  exact Nat.lt_succ_of_le (List.length_filter_le _ _)

/-- The last use of an element puts it in front of the others. -/
theorem eraseDups_cons_filter (a : α) (l : List α) :
    (a :: l).eraseDups = a :: l.eraseDups.filter (· ≠ a) := by
  rw [List.eraseDups_cons, eraseDups_filter]
  congr 2
  funext b
  by_cases hb : b = a <;> simp [hb]

theorem filter_cons_ne_of_ne {b : α} (h : b ≠ a) (l : List α) :
    (b :: l).filter (· ≠ a) = b :: l.filter (· ≠ a) :=
  List.filter_cons_of_pos (decide_eq_true h)

theorem filter_cons_ne_self (h : a ∉ l) : (a :: l).filter (· ≠ a) = l := by
  rw [List.filter_cons_of_neg (by simp), List.filter_eq_self]
  intro b hb
  exact decide_eq_true fun hba => h (hba ▸ hb)

/-- Where an element is among the first, moving it to the front does not change which are. -/
theorem take_cons_of_mem (hnodup : l.Nodup) (hmem : a ∈ l.take n) :
    (a :: l.filter (· ≠ a)).take n = a :: (l.take n).filter (· ≠ a) := by
  induction l generalizing n with
  | nil => simp at hmem
  | cons b l ih =>
      obtain ⟨hb, hl⟩ := List.nodup_cons.mp hnodup
      cases n with
      | zero => cases hmem
      | succ n =>
          rw [List.take_succ_cons, List.take_succ_cons]
          by_cases hba : b = a
          · subst hba
            rw [filter_cons_ne_self hb,
              filter_cons_ne_self fun h => hb (List.mem_of_mem_take h)]
          · have hmem : a ∈ l.take n := (List.mem_cons.mp hmem).resolve_left (Ne.symm hba)
            rw [filter_cons_ne_of_ne hba, filter_cons_ne_of_ne hba]
            -- The element is further back, so there is room for one more in front of it.
            cases n with
            | zero => cases hmem
            | succ n =>
                have hrest := List.cons.inj (ih hl hmem)
                rw [List.take_succ_cons, hrest.2]

theorem take_filter_ne (hmem : a ∉ l.take n) : (l.filter (· ≠ a)).take n = l.take n := by
  induction l generalizing n with
  | nil => rfl
  | cons b l ih =>
      cases n with
      | zero => rfl
      | succ n =>
          rw [List.take_succ_cons, List.mem_cons, not_or] at hmem
          rw [filter_cons_ne_of_ne (Ne.symm hmem.1), List.take_succ_cons, List.take_succ_cons,
            ih hmem.2]

/-- Where an element is not among the first, it comes in front of them. -/
theorem take_cons_of_notMem (hmem : a ∉ l.take n) :
    (a :: l.filter (· ≠ a)).take n = (a :: l.take n).take n := by
  cases n with
  | zero => rfl
  | succ n =>
      have hless : a ∉ l.take n := fun h => hmem (List.take_subset_take_left l (Nat.le_succ n) h)
      rw [List.take_succ_cons, List.take_succ_cons, take_filter_ne hless, List.take_take,
        Nat.min_eq_left (Nat.le_succ n)]

end Recency

namespace Cache

/-! ## Histories -/

/-- What is asked of a cache: to compile a pattern, or to forget everything. -/
inductive Call where
  | compile (pattern : String)
  | clear
  deriving DecidableEq

def Call.pattern? : Call → Option String
  | compile pattern => some pattern
  | clear => none

def after (c : Cache) : Call → Cache
  | .compile pattern => (c.compile pattern).2
  | .clear => c.clear

/-- The cache behind some calls. -/
def afterAll (calls : List Call) : Cache :=
  calls.foldl after {}

/-- The patterns that were asked for since the cache was last cleared, the last one first. -/
def asked (calls : List Call) : List String :=
  (calls.reverse.takeWhile (· ≠ .clear)).filterMap Call.pattern?

def compiles (pattern : String) : Bool :=
  (MessagePattern.compile pattern).isOk

/-- The distinct patterns among them that compiled, the last used first. -/
def used (calls : List Call) : List String :=
  ((asked calls).filter compiles).eraseDups

variable {c : Cache} {calls : List Call} {pattern : String}

theorem asked_concat_compile :
    asked (calls ++ [.compile pattern]) = pattern :: asked calls := by
  simp [asked, Call.pattern?]

theorem asked_concat_clear : asked (calls ++ [.clear]) = [] := by
  simp [asked]

theorem used_concat_of_compiles (h : compiles pattern = true) :
    used (calls ++ [.compile pattern]) = pattern :: (used calls).filter (· ≠ pattern) := by
  rw [used, asked_concat_compile, List.filter_cons_of_pos h, eraseDups_cons_filter]
  rfl

theorem used_concat_of_not_compiles (h : compiles pattern = false) :
    used (calls ++ [.compile pattern]) = used calls := by
  rw [used, asked_concat_compile, List.filter_cons_of_neg (by rw [h]; exact Bool.false_ne_true)]
  rfl

theorem used_concat_clear : used (calls ++ [.clear]) = [] := by
  rw [used, asked_concat_clear]
  rfl

example : used [.compile "a", .compile "<x", .compile "b", .compile "a"] = ["a", "b"] := by cbv

theorem nodup_used (calls : List Call) : (used calls).Nodup :=
  nodup_eraseDups _

theorem compiles_of_mem_used (h : pattern ∈ used calls) : compiles pattern = true :=
  (List.mem_filter.mp (List.mem_eraseDups.mp h)).2

theorem compiles_of_eq_ok {tokens : List Token}
    (h : MessagePattern.compile pattern = .ok tokens) : compiles pattern = true := by
  rw [compiles, h]
  rfl

theorem not_compiles_of_eq_error {error : PatternError}
    (h : MessagePattern.compile pattern = .error error) : compiles pattern = false := by
  rw [compiles, h]
  rfl

/-! ## What a cache knows of its history -/

/-- The cache holds the patterns that were used last, with the tokens they compile to, and has
counted every pattern it was asked for. -/
structure Tracks (c : Cache) (calls : List Call) : Prop where
  patterns_eq : c.entries.map (·.pattern) = (used calls).take capacity
  tokens_eq : ∀ e ∈ c.entries, MessagePattern.compile e.pattern = .ok e.tokens
  counted : c.hits + c.misses = (asked calls).length

theorem tracks_empty : Tracks {} [] where
  patterns_eq := rfl
  tokens_eq := fun _ he => absurd he List.not_mem_nil
  counted := rfl

namespace Tracks

theorem mem_of_find? {e : CacheEntry} (h : Tracks c calls) (hfind : c.find? pattern = some e) :
    e.pattern = pattern ∧ pattern ∈ (used calls).take capacity := by
  have hpattern : e.pattern = pattern := by simpa using List.find?_some hfind
  refine ⟨hpattern, ?_⟩
  rw [← h.patterns_eq, ← hpattern]
  exact List.mem_map_of_mem (List.mem_of_find?_eq_some hfind)

theorem notMem_of_find? (h : Tracks c calls) (hfind : c.find? pattern = none) :
    pattern ∉ (used calls).take capacity := by
  rw [← h.patterns_eq]
  intro hmem
  obtain ⟨e, he, hpattern⟩ := List.mem_map.mp hmem
  exact List.find?_eq_none.mp hfind e he (decide_eq_true hpattern)

theorem size_eq (h : Tracks c calls) : c.size = min capacity (used calls).length := by
  rw [size, ← List.length_map (·.pattern), h.patterns_eq, List.length_take]

theorem reuse {e : CacheEntry} (h : Tracks c calls) (hfind : c.find? pattern = some e) :
    Tracks (c.reuse e) (calls ++ [.compile pattern]) where
  patterns_eq := by
    obtain ⟨rfl, hmem⟩ := h.mem_of_find? hfind
    have hcompiles := compiles_of_mem_used (List.mem_of_mem_take hmem)
    have hothers : (c.entries.filter (·.pattern ≠ e.pattern)).map (·.pattern)
        = (c.entries.map (·.pattern)).filter (· ≠ e.pattern) := by
      rw [List.filter_map]
      rfl
    rw [used_concat_of_compiles hcompiles, take_cons_of_mem (nodup_used calls) hmem,
      ← h.patterns_eq, ← hothers]
    rfl
  tokens_eq := by
    intro other hother
    cases hother with
    | head => exact h.tokens_eq e (List.mem_of_find?_eq_some hfind)
    | tail _ hother => exact h.tokens_eq other (List.mem_filter.mp hother).1
  counted := by
    rw [asked_concat_compile, List.length_cons, ← h.counted]
    exact Nat.succ_add c.hits c.misses

/-- What does not compile is counted and leaves no trace among the entries. -/
theorem refuse {error : PatternError} (h : Tracks c calls)
    (hcompile : MessagePattern.compile pattern = .error error) :
    Tracks { c with misses := c.misses + 1 } (calls ++ [.compile pattern]) where
  patterns_eq := by
    rw [used_concat_of_not_compiles (not_compiles_of_eq_error hcompile)]
    exact h.patterns_eq
  tokens_eq := h.tokens_eq
  counted := by
    rw [asked_concat_compile, List.length_cons, ← h.counted]
    rfl

theorem keep {tokens : List Token} (h : Tracks c calls) (hfind : c.find? pattern = none)
    (hcompile : MessagePattern.compile pattern = .ok tokens) :
    Tracks (c.keep ⟨pattern, tokens, c.nextStamp⟩) (calls ++ [.compile pattern]) where
  patterns_eq := by
    -- The pattern may be one of those used before all the same, if it had to make room since.
    rw [used_concat_of_compiles (compiles_of_eq_ok hcompile),
      take_cons_of_notMem (h.notMem_of_find? hfind), ← h.patterns_eq]
    exact List.map_take
  tokens_eq := by
    intro other hother
    cases List.mem_of_mem_take hother with
    | head => exact hcompile
    | tail _ hother => exact h.tokens_eq other hother
  counted := by
    rw [asked_concat_compile, List.length_cons, ← h.counted]
    rfl

theorem clear (c : Cache) (calls : List Call) : Tracks c.clear (calls ++ [.clear]) where
  patterns_eq := by
    rw [used_concat_clear]
    rfl
  tokens_eq := fun _ he => absurd he List.not_mem_nil
  counted := by
    rw [asked_concat_clear]
    rfl

theorem after (h : Tracks c calls) (call : Call) : Tracks (c.after call) (calls ++ [call]) := by
  cases call with
  | clear => exact clear c calls
  | compile pattern =>
      rw [Cache.after, Cache.compile]
      cases hfind : c.find? pattern with
      | some e => exact h.reuse hfind
      | none =>
          cases hcompile : MessagePattern.compile pattern with
          | error error => exact h.refuse hcompile
          | ok tokens => exact h.keep hfind hcompile

end Tracks

theorem afterAll_concat (calls : List Call) (call : Call) :
    afterAll (calls ++ [call]) = (afterAll calls).after call := by
  rw [afterAll, List.foldl_append]
  rfl

theorem tracks_afterAll (calls : List Call) : Tracks (afterAll calls) calls := by
  induction calls using List.reverseRecOn with
  | nil => exact tracks_empty
  | append_singleton calls call ih =>
      rw [afterAll_concat]
      exact ih.after call

/-! ## What one more call sees of it -/

/-- Whatever a cache was asked before, it answers what the pattern compiles to. -/
theorem Tracks.answer_eq (h : Tracks c calls) (pattern : String) :
    (c.compile pattern).1.map (·.tokens) = MessagePattern.compile pattern := by
  rw [Cache.compile]
  cases hfind : c.find? pattern with
  | some e =>
      have htokens := h.tokens_eq e (List.mem_of_find?_eq_some hfind)
      rw [(h.mem_of_find? hfind).1] at htokens
      exact htokens.symm
  | none =>
      cases hcompile : MessagePattern.compile pattern with
      | error error => rfl
      | ok tokens => rfl

theorem Tracks.hits_eq (h : Tracks c calls) (pattern : String) :
    (c.compile pattern).2.hits
      = c.hits + if pattern ∈ (used calls).take capacity then 1 else 0 := by
  rw [Cache.compile]
  cases hfind : c.find? pattern with
  | some e =>
      rw [if_pos (h.mem_of_find? hfind).2]
      rfl
  | none =>
      rw [if_neg (h.notMem_of_find? hfind)]
      cases MessagePattern.compile pattern with
      | error error => rfl
      | ok tokens => rfl

/-- After any calls the cache answers as the compiler does, error and place included. It answers
a pattern out of its entries just when it is one of the 4096 that were used last, it has counted
every pattern since it was last cleared, and holds as many as there were, up to 4096. -/
theorem compile_afterAll (calls : List Call) (pattern : String) :
    ((afterAll calls).compile pattern).1.map (·.tokens) = MessagePattern.compile pattern
      ∧ ((afterAll calls).compile pattern).2.hits
        = (afterAll calls).hits + (if pattern ∈ (used calls).take 4096 then 1 else 0)
      ∧ (afterAll calls).hits + (afterAll calls).misses = (asked calls).length
      ∧ (afterAll calls).size = min 4096 (used calls).length := by
  have htracks := tracks_afterAll calls
  exact ⟨htracks.answer_eq pattern, htracks.hits_eq pattern, htracks.counted, htracks.size_eq⟩

end Cache

end MessagePattern
