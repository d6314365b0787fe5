import MessagePattern.Text.Quoted

/-!
# Storages

Files are kept in a storage. A path names a file in it or is refused, by the system in its
own words or because it is no path at all. What a storage is made of is for the host to say;
here it counts only what is read under a path, and what comes of writing under one.
-/

namespace MessagePattern.File

/-- Why a path names no file. -/
inductive PathFault where
  /-- The system refuses it, by the number of an error and its wording. -/
  | system (number : Nat) (wording : String)
  | nullCharacter
  deriving DecidableEq, Repr

namespace PathFault

def missing : PathFault :=
  system 2 "No such file or directory"

def notDirectory : PathFault :=
  system 20 "Not a directory"

def isDirectory : PathFault :=
  system 21 "Is a directory"

def tooLong : PathFault :=
  system 36 "File name too long"

def message (path : String) : PathFault → String
  | system number wording =>
    "[Errno " ++ toString number ++ "] " ++ wording ++ ": " ++ Text.quoted path
  | nullCharacter => "embedded null byte"

end PathFault

/-- What can be done with the files of a storage, whatever state it is in. -/
class Storage (σ : Type) where
  /-- The content of the file that a path names. -/
  read : σ → String → Except PathFault (List UInt8)
  /-- The files after a content was written to the one that a path names. A path is
  opened before there is anything to write, so whether it is refused does not hang on
  the content. -/
  write : σ → String → Except PathFault (List UInt8 → σ)

/-- The path that stands for the standard input or output instead. -/
def standard : String := "-"

/-! ## Extensions -/

def lastName (path : List Char) : List Char :=
  (path.reverse.takeWhile (· != '/')).reverse

/-- The extension of a path: its last name from the last dot on, unless only dots
come before it. -/
def extension (path : List Char) : List Char :=
  let backwards := (lastName path).reverse
  let ext := backwards.takeWhile (· != '.')
  match backwards.dropWhile (· != '.') with
  | [] => []
  | dot :: before => if before.all (· == '.') then [] else dot :: ext.reverse

/-- Whether a path is that of a file with one record per line. -/
def isLineFile (path : String) : Bool :=
  (extension path.toList).map Char.toLower == ['.', 'j', 's', 'o', 'n', 'l']

end MessagePattern.File
