import MessagePattern.Pattern.Token

/-!
# The result of a match

A match sorts the segments of a message into those that its tokens took and those
that were left over, and gives every parameter of the pattern a value. A parameter
that is set twice keeps its place and takes the later value.
-/

namespace MessagePattern

/-- What a match took, found and left. -/
structure MatchResult where
  /-- The segments that were taken, in order. -/
  matched : List Segment := []
  params : Fields := []
  /-- The segments that were left over, in order. -/
  remaining : List Segment := []

namespace MatchResult

def take (r : MatchResult) (segments : List Segment) : MatchResult :=
  { r with matched := r.matched ++ segments }

def leave (r : MatchResult) (segments : List Segment) : MatchResult :=
  { r with remaining := r.remaining ++ segments }

def setParam (r : MatchResult) (name : String) (v : Value) : MatchResult :=
  { r with params := Table.set r.params name v }

def hasParam (r : MatchResult) (name : String) : Bool :=
  Table.has r.params name

/-- A result counts if it took a segment or set a parameter; values that were
not supplied are enough. -/
def isValid (r : MatchResult) : Bool :=
  !r.params.isEmpty || !r.matched.isEmpty

/-- Goes on without a token: a rest parameter collects nothing, an optional
parameter falls back, an optional literal leaves no trace. Nothing else can be
gone without. -/
def skip (r : MatchResult) : Token → Option MatchResult
  | .rest name _ => some (r.setParam name (.list []))
  | .parameter name dataType true default => some (r.setParam name (Token.fallback dataType default))
  | .literal _ true => some r
  | _ => none

/-- Gives the parameter of a token the value that it has where nothing is supplied. -/
def setUnsupplied (r : MatchResult) : Token → MatchResult
  | .rest name _ => r.setParam name (.list [])
  | .parameter name dataType _ default => r.setParam name (Token.fallback dataType default)
  | _ => r

/-- The result in which nothing is supplied to any of the tokens. -/
def unsupplied (tokens : List Token) : MatchResult :=
  tokens.foldl setUnsupplied {}

end MatchResult

end MessagePattern
