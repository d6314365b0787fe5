import MessagePattern.File.Utf8

/-!
# The text of a file

A file holds bytes; read as text, it is UTF-8 in which a carriage return, a line
feed and the two together all end a line and read as a line feed. A file can be
read at once or line by line. The second way takes the bytes in pieces and
hands out every line as soon as it is complete, so that the lines of the pieces
before a fault are still there to be looked at.
-/

namespace MessagePattern.File

/-- Every way to end a line turned into a line feed. -/
def unifyLineEnds : List Char → List Char
  | [] => []
  | '\r' :: '\n' :: rest => '\n' :: unifyLineEnds rest
  | '\r' :: rest => '\n' :: unifyLineEnds rest
  | c :: rest => c :: unifyLineEnds rest

def readText (bytes : List UInt8) : Except Utf8.Fault (List Char) :=
  let all := Utf8.decode true 0 bytes
  match all.fault with
  | some fault => .error fault
  | none => .ok (unifyLineEnds all.chars)

/-- The number of bytes that are taken at once when a file is read by lines. -/
def pieceSize : Nat := 8192

/-- Cuts bytes into pieces of that size; the last one may be shorter. -/
def pieces (bytes : List UInt8) : List (List UInt8) :=
  if bytes = [] then []
  else bytes.take pieceSize :: pieces (bytes.drop pieceSize)
  termination_by bytes.length
  decreasing_by
    rw [List.length_drop]
    exact Nat.sub_lt (List.length_pos_iff.mpr ‹_›) (by decide)

/-- Splits a text behind every line feed: the lines that end in one, without
it, and what is left. -/
def splitLines : List Char → List (List Char) × List Char
  | [] => ([], [])
  | c :: rest =>
    if c = '\n' then
      let (lines, tail) := splitLines rest
      ([] :: lines, tail)
    else
      match splitLines rest with
      | ([], tail) => ([], c :: tail)
      | (line :: lines, tail) => ((c :: line) :: lines, tail)

/-- The lines of a file, up to a fault. -/
structure Lines where
  lines : List (List Char)
  fault : Option Utf8.Fault

/-- Reads a file by lines. In front of a fault only complete lines count, and a
carriage return does not complete one, for a line feed might follow. -/
def readLines (bytes : List UInt8) : Lines :=
  match Utf8.decodePieces [] (pieces bytes) with
  | (chars, none) =>
    let (lines, tail) := splitLines (unifyLineEnds chars)
    ⟨if tail.isEmpty then lines else lines ++ [tail], none⟩
  | (chars, some fault) =>
    let settled := if chars.getLast? = some '\r' then chars.dropLast else chars
    ⟨(splitLines (unifyLineEnds settled)).1, some fault⟩

/-- The lines of a text and what is left of it make up the text. -/
theorem splitLines_join (cs : List Char) :
    (splitLines cs).1.flatMap (· ++ ['\n']) ++ (splitLines cs).2 = cs := by
  induction cs with
  | nil => rfl
  | cons c rest ih =>
    unfold splitLines
    by_cases hc : c = '\n'
    · simp [hc, ih]
    · rw [if_neg hc]
      rcases h : splitLines rest with ⟨_ | ⟨line, lines⟩, tail⟩ <;>
        rw [h] at ih <;> simp at ih ⊢ <;> exact ih

end MessagePattern.File
