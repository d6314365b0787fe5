import MessagePattern.File.Storage
import MessagePattern.File.Utf8
import MessagePattern.Json.Printer

/-!
# Written output

Output goes to a file or, for the path `-`, to the standard output. A text that
goes to the standard output is completed to whole lines; in a file it stands as
it is. JSON is written over several lines with sorted keys. What is to be written
is settled first, as a delivery, and only then put into a storage.
-/

namespace MessagePattern.File

/-- What is to be written: a text on the standard output, or one in the file that a
path names. -/
structure Delivery where
  output : String := ""
  saved : Option (String × String) := none
  deriving DecidableEq, Repr

/-- A text that ends in a line feed. -/
def completeLine (text : String) : String :=
  if text.toList.getLast? = some '\n' then text else text ++ "\n"

def deliverText (text path : String) : Delivery :=
  if path = standard then { output := completeLine text } else { saved := some (path, text) }

def deliverJson (v : Value) (path : String) : Except Json.WriteFault Delivery := do
  let text ← Json.write .pretty false v
  return deliverText (text ++ "\n") path

def Delivery.store {σ : Type} [Storage σ] (d : Delivery) (files : σ) :
    Except (String × PathFault) σ :=
  match d.saved with
  | none => .ok files
  | some (path, text) => do
    let write ← (Storage.write files path).mapError (path, ·)
    return write (Utf8.encode text)

/-- Completing a complete text changes nothing. -/
theorem completeLine_completeLine (text : String) :
    completeLine (completeLine text) = completeLine text := by
  have h : (completeLine text).toList.getLast? = some '\n' := by
    unfold completeLine
    split
    · assumption
    · simp [String.toList_append]
  rw [completeLine.eq_def (completeLine text), if_pos h]

end MessagePattern.File
