import MessagePattern.Default
import MessagePattern.Pattern.Error
import MessagePattern.Pattern.Token

/-!
# Compiling patterns

A pattern is a sequence of pieces. A piece is a *group*, an opening bracket with
its body and the closing bracket that balances it, or a *literal run*, everything up to
the next opening bracket. Inside a group only brackets of its own kind are
counted; inside a literal run a closing bracket is a fault. Each piece yields
its tokens on its own, so the tokens of a pattern are those of its pieces in
order, and a fault is placed by the length of the pieces before it plus its place in
its own piece.

    hello              literal text
    {face:1}           typed literal: kind and expected value
    <name:type>        required parameter, of type text if none is given
    [name:type=dflt]   optional parameter
    [...name:type]     rest parameter
-/

namespace MessagePattern

/-! ## Brackets -/

/-- The brackets that groups stand between. -/
inductive Bracket where
  | brace
  | angle
  | square
  deriving DecidableEq, Repr

namespace Bracket

def opener : Bracket → Char
  | brace => '\x7b'
  | angle => '<'
  | square => '['

def closer : Bracket → Char
  | brace => '\x7d'
  | angle => '>'
  | square => ']'

def all : List Bracket := [brace, angle, square]

def ofOpener? (c : Char) : Option Bracket :=
  all.find? (·.opener == c)

def isOpener (c : Char) : Bool :=
  (ofOpener? c).isSome

def isCloser (c : Char) : Bool :=
  all.any (·.closer == c)

/-- Cuts a text behind an opening bracket at the closing bracket that balances
it, `depth` further brackets of the kind being open: the body and what follows. -/
def split (b : Bracket) (depth : Nat) : List Char → Option (List Char × List Char)
  | [] => none
  | c :: rest =>
    if c = b.opener then (split b (depth + 1) rest).map fun (body, after) => (c :: body, after)
    else if c = b.closer then
      match depth with
      | 0 => some ([], rest)
      | depth + 1 => (split b depth rest).map fun (body, after) => (c :: body, after)
    else (split b depth rest).map fun (body, after) => (c :: body, after)

/-- The body, the closing bracket and what follows make up the text. -/
theorem split_join {b : Bracket} {depth : Nat} {cs body after : List Char}
    (h : b.split depth cs = some (body, after)) : cs = body ++ b.closer :: after := by
  induction cs generalizing depth body with
  | nil => simp [split] at h
  | cons c rest ih =>
    unfold split at h
    split at h
    · obtain ⟨⟨body', after'⟩, h', heq⟩ := Option.map_eq_some_iff.mp h
      cases heq
      rw [ih h', List.cons_append]
    · split at h
      · rename_i hc
        split at h
        · cases h
          rw [hc, List.nil_append]
        · obtain ⟨⟨body', after'⟩, h', heq⟩ := Option.map_eq_some_iff.mp h
          cases heq
          rw [ih h', List.cons_append]
      · obtain ⟨⟨body', after'⟩, h', heq⟩ := Option.map_eq_some_iff.mp h
        cases heq
        rw [ih h', List.cons_append]

end Bracket

/-! ## The tokens of a piece -/

/-- The tokens of a literal run. A run that ends in exactly one space is the text
before it and the optional space. -/
def literalTokens (run : List Char) : List Token :=
  match run.reverse with
  | ' ' :: ' ' :: _ => [.literal (String.ofList run) false]
  | [' '] => [.literal " " true]
  | ' ' :: before => [.literal (String.ofList before.reverse) false, .literal " " true]
  | _ => [.literal (String.ofList run) false]

/-- A text without its low characters at the ends, unless nothing is left. -/
def trimmed? (cs : List Char) : Option (List Char) :=
  match Text.trim cs with
  | [] => none
  | trimmed => some trimmed

/-- The name and the data type of a parameter, cut at the first colon. A data
type that is empty counts as none. -/
def parameterHead (cs : List Char) : Except PatternFault (String × Option String) :=
  let (name, dataType) := Text.splitOnce [':'] cs
  match trimmed? name with
  | none => .error .nameMissing
  | some name => .ok (String.ofList name, (dataType.bind trimmed?).map String.ofList)

def typedLiteral (body : List Char) : Except PatternFault Token :=
  let (kind, value) := Text.splitOnce [':'] body
  match trimmed? kind with
  | none => .error .kindMissing
  | some kind => .ok (.typedLiteral (String.ofList kind) (String.ofList (Text.trim (value.getD []))))

def requiredParameter (body : List Char) : Except PatternFault Token := do
  let (name, dataType) ← parameterHead body
  return .parameter name (dataType.getD textKind) false none

/-- The token of a rest parameter, behind its dots. -/
def restParameter (body : List Char) : Except PatternFault Token := do
  let (name, dataType) ← parameterHead body
  return .rest name dataType

/-- The token of an optional parameter; what stands behind the first equals sign
is its default. -/
def optionalParameter (body : List Char) : Except PatternFault Token := do
  let (head, default) := Text.splitOnce ['='] body
  let (name, dataType) ← parameterHead head
  match default with
  | none => return .parameter name (dataType.getD textKind) true none
  | some default =>
    match Default.read default with
    | .error limit => throw (.defaultDigits limit)
    | .ok v => return .parameter name (dataType.getD textKind) true (some v)

def groupToken (b : Bracket) (body : List Char) : Except PatternFault Token :=
  match b, body with
  | .brace, body => typedLiteral body
  | .angle, body => requiredParameter body
  | .square, '.' :: '.' :: '.' :: body => restParameter body
  | .square, body => optionalParameter body

/-! ## The tokens of a pattern -/

/-- Puts a piece of a width in front of what was scanned behind it. -/
def prependPiece (tokens : List Token) (width : Nat) :
    Except (PatternFault × Nat) (List Token) → Except (PatternFault × Nat) (List Token)
  | .ok more => .ok (tokens ++ more)
  | .error (fault, place) => .error (fault, width + place)

/-- The tokens of a pattern, or a fault and its place. -/
def scan : List Char → Except (PatternFault × Nat) (List Token)
  | [] => .ok []
  | c :: cs =>
    match Bracket.ofOpener? c with
    | some b =>
      match _h : b.split 0 cs with
      | none => .error (.unmatchedOpener c, 0)
      | some (body, after) =>
        match groupToken b body with
        | .error fault => .error (fault, 0)
        | .ok token => prependPiece [token] (body.length + 2) (scan after)
    | none =>
      -- The run is looked through for closing brackets only once it is complete.
      let run := c :: cs.takeWhile (!Bracket.isOpener ·)
      match run.findIdx? Bracket.isCloser with
      | some i => .error (.unmatchedCloser (run.getD i c), i)
      | none => prependPiece (literalTokens run) run.length (scan (cs.dropWhile (!Bracket.isOpener ·)))
  termination_by cs => cs.length
  decreasing_by
    · have := congrArg List.length (Bracket.split_join _h)
      simp only [List.length_append, List.length_cons] at this ⊢
      omega
    · have := (List.dropWhile_sublist (fun c => !Bracket.isOpener c) (l := cs)).length_le
      simp only [List.length_cons]
      omega

def compile (pattern : String) : Except PatternError (List Token) :=
  match scan pattern.toList with
  | .ok tokens => .ok tokens
  | .error (fault, place) => .error ⟨fault, pattern, place⟩

end MessagePattern
