import MessagePattern.Pattern.Source

/-!
# The cache of compiled patterns

Compiled patterns are kept by the text of the pattern, the most recently used
first, up to a fixed number; when there is no more room the least recently used
one is dropped. A pattern that does not compile is never kept. Every entry
carries the stamp of the compilation it came from, which tells whether two answers
are the very same one.
-/

namespace MessagePattern

structure CacheEntry where
  pattern : String
  tokens : List Token
  /-- The number of the compilation. -/
  stamp : Nat

/-- The patterns that are kept, most recently used first, and what was counted
since the cache was last cleared. -/
structure Cache where
  entries : List CacheEntry := []
  hits : Nat := 0
  misses : Nat := 0
  /-- The stamp of the next compilation; clearing leaves it alone. -/
  nextStamp : Nat := 0

namespace Cache

/-- The most entries that are kept. -/
def capacity : Nat := 4096

def find? (c : Cache) (pattern : String) : Option CacheEntry :=
  c.entries.find? (·.pattern = pattern)

/-- Answers a pattern from the cache: its entry becomes the most recent one. -/
def reuse (c : Cache) (e : CacheEntry) : Cache :=
  { c with
    entries := e :: c.entries.filter (·.pattern ≠ e.pattern)
    hits := c.hits + 1 }

/-- Keeps a new entry, and drops the oldest if there is no room for it. -/
def keep (c : Cache) (e : CacheEntry) : Cache :=
  { c with
    entries := (e :: c.entries).take capacity
    misses := c.misses + 1
    nextStamp := c.nextStamp + 1 }

def compile (c : Cache) (pattern : String) : Except PatternError CacheEntry × Cache :=
  match c.find? pattern with
  | some e => (.ok e, c.reuse e)
  | none =>
    match MessagePattern.compile pattern with
    | .error error => (.error error, { c with misses := c.misses + 1 })
    | .ok tokens =>
      let e : CacheEntry := ⟨pattern, tokens, c.nextStamp⟩
      (.ok e, c.keep e)

/-- Compiles a pattern that was handed over by way of the cache, which never gets
to see what is no text. -/
def compileValue (c : Cache) : Value → Except Refusal CacheEntry × Cache
  | .text pattern =>
    let (answer, c) := c.compile pattern
    (answer.mapError .pattern, c)
  | found => (.error (.invalid (.pattern found)), c)

/-- Compiles patterns in turn, for the sake of the cache. -/
def compileAll (c : Cache) (patterns : List String) : Cache :=
  patterns.foldl (fun c pattern => (c.compile pattern).2) c

def clear (c : Cache) : Cache :=
  { nextStamp := c.nextStamp }

def size (c : Cache) : Nat :=
  c.entries.length

/-! ## The bound on the entries -/

/-- A pattern that is answered from the cache takes the place of its own entry. -/
theorem size_reuse_le {c : Cache} {pattern : String} {e : CacheEntry}
    (h : c.find? pattern = some e) : (c.reuse e).size ≤ c.size := by
  have hmem : e ∈ c.entries := List.mem_of_find?_eq_some h
  have hlt : (c.entries.filter (·.pattern ≠ e.pattern)).length < c.entries.length :=
    List.length_filter_lt_length_iff_exists.mpr ⟨e, hmem, by simp⟩
  exact hlt

/-- A new entry never makes the cache exceed its capacity. -/
theorem size_keep_le (c : Cache) (e : CacheEntry) : (c.keep e).size ≤ capacity :=
  List.length_take_le capacity (e :: c.entries)

/-- No compilation makes the cache exceed its capacity. -/
theorem size_compile_le {c : Cache} (pattern : String) (h : c.size ≤ capacity) :
    (c.compile pattern).2.size ≤ capacity := by
  unfold compile
  split
  · exact Nat.le_trans (size_reuse_le ‹_›) h
  · split
    · exact h
    · exact size_keep_le c _

end Cache

end MessagePattern
