import MessagePattern.File.Storage
import MessagePattern.File.Text
import MessagePattern.Json.Parser
import MessagePattern.Segment.Record
import MessagePattern.Text.Blank

/-!
# Segments and rules from files

A file of segments holds one JSON value: a list of records, a single record, or
an object whose `segments` are one of these. A file whose name says so holds one
record per line instead; blank lines do not count. A file of field rules holds
a JSON object. The path `-` stands for the standard input, for segments only.
-/

namespace MessagePattern.File

inductive ReadFault where
  | path (path : String) (fault : PathFault)
  | bytes (fault : Utf8.Fault)
  | json (error : Json.Error)
  /-- The value is neither a list of segments nor an object. -/
  | noSegments
  /-- The value is no object of field rules. -/
  | noRules
  | invalid (reason : Invalid)

def ReadFault.message : ReadFault → String
  | path name fault => fault.message name
  | bytes fault => fault.message
  | json error => error.message
  | noSegments =>
    "segments file must hold a list of segments or an object with a 'segments' key"
  | noRules => "field mapping file must hold a JSON object"
  | invalid reason => reason.message

/-- What can be read: files by their path, and the standard input. -/
structure Sources where
  file : String → Except PathFault (List UInt8)
  input : String

/-- What can be read in a storage. -/
def Sources.of {σ : Type} [Storage σ] (files : σ) (input : String) : Sources :=
  ⟨Storage.read files, input⟩

def parseText (text : List Char) : Except ReadFault Value :=
  (Json.parse text).mapError .json

/-! ## Segments -/

/-- The records in the value of a file of segments. -/
def recordsOf (v : Value) : Except ReadFault (List Value) :=
  let held := (v.entries?.bind fun entries => Table.get? entries "segments").getD v
  match held with
  | .dict _ => .ok [held]
  | .list items => .ok items
  | _ => .error .noSegments

/-- The records of a text that holds them all in one value. -/
def textRecords (text : List Char) : Except ReadFault (List Value) := do
  recordsOf (← parseText text)

/-- The records of lines, each of which holds one unless it is blank. -/
def lineRecords : List (List Char) → Except ReadFault (List Value)
  | [] => .ok []
  | line :: rest => do
    match Text.strip line with
    | [] => lineRecords rest
    | stripped =>
      let v ← parseText stripped
      return v :: (← lineRecords rest)

/-- The records of a file with one per line. A line that is no record comes
before a later line that is no text. -/
def readLineRecords (bytes : List UInt8) : Except ReadFault (List Value) := do
  let read := readLines bytes
  let records ← lineRecords read.lines
  match read.fault with
  | some fault => throw (.bytes fault)
  | none => return records

/-- The bytes of the file that a path names. -/
def Sources.bytes (s : Sources) (path : String) : Except ReadFault (List UInt8) :=
  (s.file path).mapError (.path path)

def Sources.records (s : Sources) (path : String) : Except ReadFault (List Value) := do
  if path = standard then textRecords s.input.toList
  else
    let bytes ← s.bytes path
    if isLineFile path then readLineRecords bytes
    else textRecords (← (readText bytes).mapError .bytes)

def Sources.segments (s : Sources) (path : String) : Except ReadFault (List Segment) := do
  let records ← s.records path
  (records.mapM Segment.ofRecord).mapError .invalid

/-! ## Field rules -/

/-- The entries of the file of field rules that a path names. -/
def Sources.rules (s : Sources) (path : String) : Except ReadFault Fields := do
  let text ← (readText (← s.bytes path)).mapError .bytes
  match ← parseText text with
  | .dict entries => return entries
  | _ => throw .noRules

end MessagePattern.File
