import MessagePattern.Segment.Basic

/-!
# Remembered kind checks

A host may keep a segment, ask again and again whether it is of some kind and
change its kind in between. The first answer for a kind is remembered with the
segment and is the answer from then on, whatever becomes of the segment's kind.
A clone remembers nothing.
-/

namespace MessagePattern

/-- A segment with the answers that were given about its kind. No kind at all
may be asked for too. -/
structure KeptSegment where
  segment : Segment
  answers : Table (Option String) Bool := []

namespace KeptSegment

/-- Whether the segment is of a kind, as answered the first time. -/
def isKind (k : KeptSegment) (kind : Option String) : Bool × KeptSegment :=
  match k.answers.get? kind with
  | some answer => (answer, k)
  | none =>
    let answer := decide (some k.segment.kind = kind)
    (answer, { k with answers := k.answers.set kind answer })

def setKind (k : KeptSegment) (kind : String) : KeptSegment :=
  { k with segment := { k.segment with kind } }

/-- An equal segment about which nothing was asked yet. -/
def clone (k : KeptSegment) : KeptSegment :=
  { segment := k.segment }

/-- Asking a second time gives the first answer, also after the kind was changed. -/
theorem isKind_setKind_isKind (k : KeptSegment) (kind : Option String) (new : String) :
    (((k.isKind kind).2.setKind new).isKind kind).1 = (k.isKind kind).1 := by
  rcases h : k.answers.get? kind with _ | answer
  · simp [isKind, h, setKind, Table.get?_set]
  · simp [isKind, h, setKind]

end KeptSegment

end MessagePattern
