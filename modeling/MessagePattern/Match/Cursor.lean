import MessagePattern.Segment.Basic

/-!
# The cursor of a match

A match reads the segments of a message from front to back. When only the start of a
text is used up, its remainder is pushed in front of the cursor and is the next
segment to be read; the message itself is never changed. Each segment is known by a
label, as a rule the place it was given at or the push that brought it, so that two
equal segments are told apart and one that is met twice is known again. A push may mark
its segment as a *blob*, a text that fills several parameters, and the mark stays with
the label.

For its reader a cursor is just the list of what lies ahead (`Cursor.upcoming`);
the lemmas below say what every operation does to that list.
-/

namespace MessagePattern

/-- What tells segments of a match apart. -/
inductive Label where
  /-- The segment at that place of the message. -/
  | given (place : Nat)
  /-- The segment of that push, counted from zero. -/
  | pushed (push : Nat)
  deriving DecidableEq, Repr

def Label.name : Label → String
  | given place => "s" ++ toString place
  | pushed push => "p" ++ toString push

structure Labelled where
  label : Label
  segment : Segment

/-- A place in a message, with texts pushed in front of it. -/
structure Cursor where
  message : List Labelled
  /-- How many segments of the message were passed. -/
  index : Nat := 0
  /-- The texts in front of it, the last one pushed first. -/
  pushed : List Labelled := []
  /-- How many texts were pushed so far. -/
  pushes : Nat := 0
  blobs : List Label := []
  /-- No more can be passed than there are. -/
  index_le : index ≤ message.length := by omega

namespace Cursor

/-- In front of a message whose segments have labels already. -/
def ofMessage (message : List Labelled) : Cursor :=
  { message }

/-- The segments of a message from a place on, labelled. -/
def labelFrom (place : Nat) : List Segment → List Labelled
  | [] => []
  | s :: rest => ⟨.given place, s⟩ :: labelFrom (place + 1) rest

def start (segments : List Segment) : Cursor :=
  ofMessage (labelFrom 0 segments)

/-- All segments ahead, in the order in which they will be read. -/
def upcoming (c : Cursor) : List Labelled :=
  c.pushed ++ c.message.drop c.index

def current? (c : Cursor) : Option Labelled :=
  match c.pushed with
  | l :: _ => some l
  | [] => c.message[c.index]?

/-- Passes a number of segments, or all of them if there are fewer. A negative
number counts as none. -/
def advance (c : Cursor) (count : Int) : Cursor :=
  let n := count.toNat
  { c with
    pushed := c.pushed.drop n
    index := min (c.index + (n - c.pushed.length)) c.message.length
    index_le := Nat.min_le_right _ _ }

/-- Puts a segment in front that has a label already. -/
def pushFront (c : Cursor) (l : Labelled) (blob : Bool) : Cursor :=
  { c with
    pushed := l :: c.pushed
    blobs := if blob then l.label :: c.blobs else c.blobs }

/-- Puts a new segment in front. -/
def push (c : Cursor) (s : Segment) (blob : Bool) : Cursor :=
  { c.pushFront ⟨.pushed c.pushes, s⟩ blob with pushes := c.pushes + 1 }

def isBlob (c : Cursor) (label : Label) : Bool :=
  c.blobs.contains label

/-- Passes everything, and answers what it was. -/
def drain (c : Cursor) : List Labelled × Cursor :=
  (c.upcoming, { c with pushed := [], index := c.message.length, index_le := Nat.le_refl _ })

/-! ## What lies ahead -/

/-- Whoever starts reading has the whole message ahead. -/
theorem upcoming_ofMessage (message : List Labelled) : (ofMessage message).upcoming = message := rfl

theorem label_of_mem_labelFrom {l : Labelled} {place : Nat} {segments : List Segment}
    (h : l ∈ labelFrom place segments) : ∃ place, l.label = .given place := by
  induction segments generalizing place with
  | nil => cases h
  | cons s rest ih =>
    rcases List.mem_cons.mp h with rfl | h
    · exact ⟨place, rfl⟩
    · exact ih h

/-- The current segment is the first of those ahead. -/
theorem current?_eq_head? (c : Cursor) : c.current? = c.upcoming.head? := by
  unfold current? upcoming
  cases c.pushed with
  | cons l rest => rfl
  | nil => rw [List.nil_append, List.head?_drop]

theorem upcoming_advance (c : Cursor) (count : Int) :
    (c.advance count).upcoming = c.upcoming.drop count.toNat := by
  unfold upcoming advance
  simp only
  rw [List.drop_append, List.drop_drop]
  congr 1
  by_cases h : c.index + (count.toNat - c.pushed.length) ≤ c.message.length
  · rw [Nat.min_eq_left h]
  · have hle : c.message.length ≤ c.index + (count.toNat - c.pushed.length) :=
      Nat.le_of_lt (Nat.lt_of_not_le h)
    rw [Nat.min_eq_right hle, List.drop_length, List.drop_eq_nil_of_le hle]

theorem upcoming_pushFront (c : Cursor) (l : Labelled) (blob : Bool) :
    (c.pushFront l blob).upcoming = l :: c.upcoming := rfl

theorem upcoming_push (c : Cursor) (s : Segment) (blob : Bool) :
    (c.push s blob).upcoming = ⟨.pushed c.pushes, s⟩ :: c.upcoming := rfl

theorem drain_fst (c : Cursor) : c.drain.1 = c.upcoming := rfl

theorem upcoming_drain (c : Cursor) : c.drain.2.upcoming = [] := by
  simp [drain, upcoming]

/-- A label is that of a blob after a push if it was before, or if the push was
its own and marked it. -/
theorem isBlob_pushFront (c : Cursor) (l : Labelled) (blob : Bool) (label : Label) :
    (c.pushFront l blob).isBlob label =
      (c.isBlob label || (blob && decide (label = l.label))) := by
  cases blob <;> simp [pushFront, isBlob, Bool.or_comm]

theorem isBlob_push (c : Cursor) (s : Segment) (blob : Bool) (label : Label) :
    (c.push s blob).isBlob label =
      (c.isBlob label || (blob && decide (label = .pushed c.pushes))) :=
  c.isBlob_pushFront ⟨.pushed c.pushes, s⟩ blob label

end Cursor

end MessagePattern
