import MessagePattern.Match.Cursor

/-!
# A cursor is a plain list

To whoever reads with it, a cursor is the list of the segments ahead, and reading takes them off
its front. The message, the place in it and the texts in front of it show in nothing. Only the
marks of blobs need more than the list: they are known from what was pushed before. An operation
answers what the list answers and leaves the list behind that it makes of it
(`Refines.perform`), and so do any operations in a row (`answers_ofMessage`).
-/

namespace MessagePattern.Cursor

/-! ## Operations -/

inductive Operation where
  | current
  | advance (count : Int)
  | pushFront (l : Labelled) (blob : Bool)
  | isBlob (label : Label)
  | upcoming
  | drain

inductive Answer where
  | done
  | truth (b : Bool)
  | found (l : Option Labelled)
  | segments (ls : List Labelled)

def perform (c : Cursor) : Operation → Answer × Cursor
  | .current => (.found c.current?, c)
  | .advance count => (.done, c.advance count)
  | .pushFront l blob => (.done, c.pushFront l blob)
  | .isBlob label => (.truth (c.isBlob label), c)
  | .upcoming => (.segments c.upcoming, c)
  | .drain => (.segments c.drain.1, c.drain.2)

/-- What the operations answer, each where those before it left the cursor. -/
def answers (c : Cursor) : List Operation → List Answer
  | [] => []
  | operation :: rest => (c.perform operation).1 :: answers (c.perform operation).2 rest

def afterAll (c : Cursor) (operations : List Operation) : Cursor :=
  operations.foldl (fun c operation => (c.perform operation).2) c

/-! ## The same on a list -/

namespace Operation

/-- What is left of a list. -/
def onList (ls : List Labelled) : Operation → List Labelled
  | current => ls
  | advance count => if count ≤ 0 then ls else ls.drop (min count.toNat ls.length)
  | pushFront l _ => l :: ls
  | isBlob _ => ls
  | upcoming => ls
  | drain => []

def onListAll (ls : List Labelled) (operations : List Operation) : List Labelled :=
  operations.foldl onList ls

/-- Whether the segment of a label is pushed as a blob. -/
def marks (label : Label) : Operation → Bool
  | pushFront l blob => blob && decide (label = l.label)
  | _ => false

/-- What is answered for a list on which some operations were performed before. -/
def answerOnList (ls : List Labelled) (before : List Operation) : Operation → Answer
  | current => .found (onListAll ls before).head?
  | advance _ => .done
  | pushFront _ _ => .done
  | isBlob label => .truth (before.any (marks label))
  | upcoming => .segments (onListAll ls before)
  | drain => .segments (onListAll ls before)

theorem onListAll_concat (ls : List Labelled) (before : List Operation) (operation : Operation) :
    onListAll ls (before ++ [operation]) = onList (onListAll ls before) operation := by
  rw [onListAll, List.foldl_append]
  rfl

end Operation

open Operation (onListAll marks)

/-! ## The cursor and the list -/

/-- A cursor stands where some operations left a list, and keeps the marks that they made. -/
structure Refines (c : Cursor) (message : List Labelled) (before : List Operation) : Prop where
  upcoming_eq : c.upcoming = onListAll message before
  isBlob_eq : ∀ label, c.isBlob label = before.any (marks label)
  message_eq : c.message = message

variable {c : Cursor} {message : List Labelled} {before : List Operation}

theorem refines_ofMessage (message : List Labelled) : (ofMessage message).Refines message [] where
  upcoming_eq := upcoming_ofMessage message
  isBlob_eq := fun _ => rfl
  message_eq := rfl

/-- All counts are one rule: those that are negative or too large need no care. -/
theorem onList_advance (ls : List Labelled) (count : Int) :
    Operation.onList ls (.advance count) = ls.drop count.toNat := by
  rw [Operation.onList]
  split
  · rename_i hcount
    rw [Int.toNat_of_nonpos hcount, List.drop_zero]
  · by_cases hlength : count.toNat ≤ ls.length
    · rw [Nat.min_eq_left hlength]
    · have hle := Nat.le_of_not_le hlength
      rw [Nat.min_eq_right hle, List.drop_length, List.drop_eq_nil_of_le hle]

/-- An operation leaves the list that it makes of the one before. -/
theorem upcoming_perform (c : Cursor) (operation : Operation) :
    (c.perform operation).2.upcoming = operation.onList c.upcoming := by
  cases operation with
  | current => rfl
  | advance count => rw [onList_advance, ← upcoming_advance, perform]
  | pushFront l blob => exact upcoming_pushFront c l blob
  | isBlob label => rfl
  | upcoming => rfl
  | drain => exact upcoming_drain c

/-- A mark is made by a push alone, and stays. -/
theorem isBlob_perform (c : Cursor) (operation : Operation) (label : Label) :
    (c.perform operation).2.isBlob label = (c.isBlob label || operation.marks label) := by
  cases operation with
  | pushFront l blob => exact isBlob_pushFront c l blob label
  | _ => exact (Bool.or_false _).symm

theorem message_perform (c : Cursor) (operation : Operation) :
    (c.perform operation).2.message = c.message := by
  cases operation <;> rfl

theorem Refines.perform (h : c.Refines message before) (operation : Operation) :
    (c.perform operation).1 = operation.answerOnList message before ∧
      (c.perform operation).2.Refines message (before ++ [operation]) := by
  refine ⟨?_, ?_, fun label => ?_, ?_⟩
  · cases operation with
    | current => exact congrArg Answer.found ((current?_eq_head? c).trans (by rw [h.upcoming_eq]))
    | advance count => rfl
    | pushFront l blob => rfl
    | isBlob label => exact congrArg Answer.truth (h.isBlob_eq label)
    | upcoming => exact congrArg Answer.segments h.upcoming_eq
    | drain => exact congrArg Answer.segments ((drain_fst c).trans h.upcoming_eq)
  · rw [upcoming_perform, Operation.onListAll_concat, h.upcoming_eq]
  · rw [isBlob_perform, h.isBlob_eq, List.any_append, List.any_cons, List.any_nil, Bool.or_false]
  · rw [message_perform, h.message_eq]

/-- By induction on the operations, for any that went before. -/
theorem Refines.run (h : c.Refines message before) (operations : List Operation) :
    c.answers operations = operations.mapIdx (fun i operation =>
        operation.answerOnList message (before ++ operations.take i)) ∧
      (c.afterAll operations).Refines message (before ++ operations) := by
  induction operations generalizing c before with
  | nil =>
      rw [List.append_nil]
      exact ⟨rfl, h⟩
  | cons operation rest ih =>
      obtain ⟨hanswer, hafter⟩ := h.perform operation
      obtain ⟨hanswers, hrest⟩ := ih hafter
      rw [List.append_assoc, List.singleton_append] at hrest
      refine ⟨?_, hrest⟩
      rw [answers, hanswer, hanswers, List.mapIdx_cons, List.take_zero, List.append_nil]
      simp only [List.append_assoc, List.singleton_append, List.take_succ_cons]

/-- Whatever is asked of a cursor and done to it, in any order and also past the end, each answer is
that of the list that the message was made by what went before, and a segment is a blob if it was
pushed as one before. What lies ahead in the end is what is left of the list, and the message is as
it was. Segments are told apart by their labels alone, which may come up more than once. -/
theorem answers_ofMessage (message : List Labelled) (operations : List Operation) :
    (ofMessage message).answers operations = operations.mapIdx (fun i operation =>
        operation.answerOnList message (operations.take i)) ∧
      ((ofMessage message).afterAll operations).upcoming = onListAll message operations ∧
      ((ofMessage message).afterAll operations).message = message := by
  obtain ⟨hanswers, hafter⟩ := (refines_ofMessage message).run operations
  exact ⟨hanswers, hafter.upcoming_eq, hafter.message_eq⟩

/-- A push behind the end, and one that crosses from what was pushed into the message. -/
example (a b : Segment) :
    (ofMessage [⟨.given 0, a⟩, ⟨.given 1, b⟩]).answers
        [.pushFront ⟨.given 0, a⟩ true, .advance 2, .current, .isBlob (.given 0), .drain,
          .advance 9, .pushFront ⟨.pushed 0, a⟩ false, .upcoming, .isBlob (.pushed 0)] =
      [.done, .done, .found (some ⟨.given 1, b⟩), .truth true, .segments [⟨.given 1, b⟩], .done,
        .done, .segments [⟨.pushed 0, a⟩], .truth false] := rfl

end MessagePattern.Cursor
