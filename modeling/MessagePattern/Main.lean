import MessagePattern.Command.Run

/-!
# The program

Reads what a command asks for, runs it, and writes what it delivers.
-/

open MessagePattern

namespace MessagePattern.Program

/-- The path fault for a number and a wording of the system; numbers come with either sign. -/
def systemFault (code : UInt32) (wording : String) : File.PathFault :=
  .system (min code (-code)).toNat wording

def pathFault : IO.Error → File.PathFault
  | .noFileOrDirectory _ code wording
  | .permissionDenied _ code wording
  | .inappropriateType _ code wording
  | .invalidArgument _ code wording
  | .resourceExhausted _ code wording
  | .noSuchThing _ code wording
  | .unsupportedOperation code wording
  | .resourceBusy code wording
  | .hardwareFault code wording
  | .otherError code wording => systemFault code wording
  | _ => .missing

def load (path : String) : IO (Except File.PathFault (List UInt8)) := do
  try
    let bytes ← IO.FS.readBinFile path
    return .ok bytes.toList
  catch e => return .error (pathFault e)

def gather (command : Command) : IO File.Sources := do
  let mut loaded : List (String × Except File.PathFault (List UInt8)) := []
  for path in command.reads do
    let content ← load path
    loaded := (path, content) :: loaded
  let mut input := ""
  if command.reads.head? = some File.standard then
    input ← (← IO.getStdin).readToEnd
  let known := loaded
  return ⟨fun path => (known.lookup path).getD (.error .missing), input⟩

def store (delivery : File.Delivery) : IO (Except CommandFault Unit) := do
  match delivery.saved with
  | none => return .ok ()
  | some (path, text) =>
    try
      IO.FS.writeFile path text
      return .ok ()
    catch e => return .error (.saving path (pathFault e))

def finish (outcome : Outcome Unit) : IO UInt32 := do
  IO.print outcome.output
  IO.eprint outcome.errors
  return outcome.code.toUInt32

def execute (command : Command) : IO UInt32 := do
  match command.run (← gather command) with
  | .error fault => finish (Command.refusal fault ())
  | .ok (code, delivery) =>
    match ← store delivery with
    | .error fault => finish (Command.refusal fault ())
    | .ok () => finish { code, output := delivery.output, files := () }

end MessagePattern.Program

def main (args : List String) : IO UInt32 :=
  match Command.ofLine args with
  | .ok command => Program.execute command
  | .error stop => Program.finish (stop.outcome ())
