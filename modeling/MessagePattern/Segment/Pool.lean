import MessagePattern.Match.Cursor
import MessagePattern.Segment.KindMemo

/-!
# Segments that are told apart

A host keeps segments as objects: two of them may be equal and are still told apart, here by
names that are never given twice. Matches work on copies of their own, which are objects too, as
are the texts that they push back; a host comes to hold them with the results. Answers about
kinds are remembered with each object, whoever asked.

A pool keeps a record of what was done to its objects. Nothing is decided by it.
-/

namespace MessagePattern

/-- The name of a segment that is told apart from its equals. -/
inductive SegmentName where
  /-- The segment of that number among those that the host has made. -/
  | host (number : Nat)
  /-- The segment that has the label in the match of that number. -/
  | working (run : Nat) (label : Label)
  deriving DecidableEq, Repr

/-- What is done to an object. -/
inductive Act where
  | made (name : SegmentName) (kind : String)
  | asked (name : SegmentName) (kind : Option String)
  | assigned (name : SegmentName) (kind : String)
  deriving DecidableEq, Repr

def Act.name : Act → SegmentName
  | made name _ => name
  | asked name _ => name
  | assigned name _ => name

/-- All objects by name. -/
structure SegmentPool where
  objects : Table SegmentName KeptSegment := []
  /-- How many the host has made. -/
  hosts : Nat := 0
  /-- How many matches there were. -/
  runs : Nat := 0
  /-- What was done so far, in order. -/
  done : List Act := []

namespace SegmentPool

def segment? (p : SegmentPool) (name : SegmentName) : Option Segment :=
  (p.objects.get? name).map (·.segment)

/-- Makes a new object, about which nothing was asked. -/
def make (p : SegmentPool) (name : SegmentName) (s : Segment) : SegmentPool :=
  { p with
    objects := p.objects.set name { segment := s }
    done := p.done ++ [.made name s.kind] }

/-- Does something to an object, if there is one of that name. -/
def perform (p : SegmentPool) (act : Act) (change : KeptSegment → KeptSegment) : SegmentPool :=
  match p.objects.get? act.name with
  | none => p
  | some k =>
    { p with objects := p.objects.set act.name (change k), done := p.done ++ [act] }

/-- Whether an object is of a kind, as answered the first time. -/
def isKind (p : SegmentPool) (name : SegmentName) (kind : Option String) : Bool × SegmentPool :=
  ((p.objects.get? name).elim false fun k => (k.isKind kind).1,
    p.perform (.asked name kind) fun k => (k.isKind kind).2)

def setKind (p : SegmentPool) (name : SegmentName) (kind : String) : SegmentPool :=
  p.perform (.assigned name kind) (·.setKind kind)

/-- Makes an object for the host. -/
def build (p : SegmentPool) (s : Segment) : SegmentPool :=
  { p.make (.host p.hosts) s with hosts := p.hosts + 1 }

/-- Makes an equal object, about which nothing was asked. -/
def clone (p : SegmentPool) (name : SegmentName) : SegmentPool :=
  match p.objects.get? name with
  | none => p
  | some k => p.build k.clone.segment

/-- Makes the working copies of a match. -/
def makeWorking (p : SegmentPool) (run : Nat) : List Labelled → SegmentPool
  | [] => p
  | l :: rest => (p.make (.working run l.label) l.segment).makeWorking run rest

end SegmentPool

end MessagePattern
