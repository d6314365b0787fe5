import MessagePattern.File.Storage
import MessagePattern.Table

/-!
# Trees of files

A tree is a storage of folders and files. Each of them has a place, the names that lead to it
from the root. A path is a list of names between slashes: an empty name and a single dot stay
where they are, two dots lead back by one name, and every other name leads on. The path starts
at the root if a slash is in front of it, and else in the home folder. It may fail to
name a file in five ways; which of them it is depends on the first name that goes wrong, and
for a slash at the end also on whether the file is to be read or written.
-/

namespace MessagePattern.File

/-- The names that lead to a file or a folder from the root. -/
abbrev Place := List String

structure Tree where
  /-- The folder where paths start. -/
  home : Place
  /-- The folders besides the root. -/
  folders : List Place
  files : Table Place (List UInt8)

namespace Tree

def isFolder (t : Tree) (place : Place) : Bool :=
  place.isEmpty || t.folders.contains place

def maxNameSize : Nat := 255

def maxPathSize : Nat := 4095

/-- What a path leads to. -/
inductive Target where
  /-- A folder that the path has gone through. -/
  | folder
  /-- The place of its last name, and whether slashes follow it. -/
  | entry (place : Place) (slash : Bool)
  deriving DecidableEq, Repr

def isSelf (name : List Char) : Bool :=
  name.isEmpty || name == ['.']

def isTooLong (place : Place) : Bool :=
  place.getLast?.any fun name => decide (maxNameSize < name.utf8ByteSize)

def follow (t : Tree) (place : Place) : List (List Char) → Except PathFault Target
  | [] => .ok .folder
  | name :: rest =>
    if isSelf name then follow t place rest
    else if name = ['.', '.'] then follow t place.dropLast rest
    else
      let next := place ++ [String.ofList name]
      if rest.all List.isEmpty then .ok (.entry next (!rest.isEmpty))
      else if isTooLong next then .error .tooLong
      else if t.isFolder next then follow t next rest
      else if t.files.has next then .error .notDirectory
      else .error .missing

def target (t : Tree) (path : String) : Except PathFault Target :=
  let cs := path.toList
  if cs.contains '\x00' then .error .nullCharacter
  else if cs.isEmpty then .error .missing
  else if maxPathSize < path.utf8ByteSize then .error .tooLong
  else follow t (if cs.head? = some '/' then [] else t.home) (cs.splitOn '/')

def read (t : Tree) (path : String) : Except PathFault (List UInt8) := do
  match ← t.target path with
  | .folder => throw .isDirectory
  | .entry place slash =>
    if isTooLong place then throw .tooLong
    else if t.isFolder place then throw .isDirectory
    else
      match t.files.get? place with
      | none => throw .missing
      | some content => if slash then throw .notDirectory else return content

/-- Slashes at the end ask for a folder, which is never written, so the name in front of them does
not come into it. -/
def write (t : Tree) (path : String) : Except PathFault (List UInt8 → Tree) := do
  match ← t.target path with
  | .folder => throw .isDirectory
  | .entry place slash =>
    if slash then throw .isDirectory
    else if isTooLong place then throw .tooLong
    else if t.isFolder place then throw .isDirectory
    else return fun content => { t with files := t.files.set place content }

instance : Storage Tree := ⟨read, write⟩

end Tree

end MessagePattern.File
