import MessagePattern.Invalid
import MessagePattern.Segment.Basic

/-!
# Segments from records

Hosts hand segments over as records, in one of two spellings: `kind` with
`fields`, or `type` with `data`, where the presence of `kind` decides. The kind may
itself be a record that names it. Fields that are missing or nothing are no
fields. Reading back the record of a segment gives the segment
(`ofRecord_toRecord`).
-/

namespace MessagePattern

namespace Segment

/-- The kind that a record states: a text, or a record with a `name`. -/
def readKind (stated : Value) : Except Invalid String :=
  let stated :=
    match stated.entries? with
    | some entries => (Table.get? entries "name").getD .null
    | none => stated
  match stated with
  | .text kind => .ok kind
  | other => .error (.kind other)

def readFields : Value → Except Invalid Fields
  | .null => .ok []
  | .dict entries => .ok entries
  | other => .error (.fields other)

def stated (entries : Fields) : Value × Value :=
  match Table.get? entries "kind" with
  | some kind => (kind, (Table.get? entries "fields").getD (.dict []))
  | none =>
    ((Table.get? entries "type").getD .null, (Table.get? entries "data").getD (.dict []))

def ofRecord : Value → Except Invalid Segment
  | .dict entries => do
    let kind ← readKind (stated entries).1
    let fields ← readFields (stated entries).2
    return ⟨kind, fields⟩
  | other => .error (.segment other)

def ofValue : Value → Except Invalid Segment
  | .segment kind fields => .ok ⟨kind, fields⟩
  | v => ofRecord v

/-- The record of a segment records it. -/
theorem ofRecord_toRecord (s : Segment) : ofRecord s.toRecord = .ok s := rfl

end Segment

end MessagePattern
