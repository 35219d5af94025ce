import Pseudocode.Text.Utf8

/-!
# Files and paths

A path leads from the current folder to a file. Its parts are separated by slashes; empty parts and
single points stay where they are, and two points lead one folder up. What lies outside of the
current folder is not known: there are only folders to pass through, and no names can be found in
them.
-/

namespace Pseudocode.CommandLine

/-- Why a path does not lead to a file. -/
inductive PathFault where
  /-- Nothing has this name. -/
  | missing
  /-- The path goes on behind a file. -/
  | notFolder
  /-- The path ends at a folder. -/
  | isFolder
  /-- The path or a part of it is too long. -/
  | tooLong
  /-- The path holds a null character. -/
  | nullCharacter
deriving Repr, DecidableEq

/-- The message about a path. -/
def PathFault.message (path : Text) : PathFault → Text
  | missing => "[Errno 2] No such file or directory: ".toList ++ path.quoted
  | notFolder => "[Errno 20] Not a directory: ".toList ++ path.quoted
  | isFolder => "[Errno 21] Is a directory: ".toList ++ path.quoted
  | tooLong => "[Errno 36] File name too long: ".toList ++ path.quoted
  | nullCharacter => "embedded null byte".toList

/-- The files in the current folder and in folders below it, by the parts of their paths. -/
structure Folder where
  files : List (List Text × List UInt8)

/-- Where a path has come to. -/
inductive Place where
  /-- A folder at or below the current one. -/
  | inside (parts : List Text)
  /-- A folder that is not below the current one. -/
  | outside
deriving Repr, DecidableEq

/-- One folder up. -/
def Place.parent : Place → Place
  | inside [] => outside
  | inside parts => inside parts.dropLast
  | outside => outside

/-- What a path leads to. -/
inductive Target where
  | folder
  | file (parts : List Text)
  /-- A name that is still free, in a folder that exists. -/
  | free (parts : List Text)
deriving Repr, DecidableEq

/-- A part of a path has at most this many bytes. -/
def maxPartSize : Nat := 255

/-- A path has at most this many bytes. -/
def maxPathSize : Nat := 4095

namespace Folder

/-- The bytes of the file with the given path. -/
def find? (f : Folder) (parts : List Text) : Option (List UInt8) := f.files.lookup parts

/-- Whether there is a folder with the given path: some file lies below it. -/
def hasFolder (f : Folder) (parts : List Text) : Bool :=
  f.files.any fun (file, _) => parts.isPrefixOf file && parts != file

/-- Follows the parts of a path from a place on. -/
def follow (f : Folder) (place : Place) : List Text → Except PathFault Target
  | [] => .ok .folder
  | part :: rest =>
    if part = [] ∨ part = ['.'] then f.follow place rest
    else if part = ['.', '.'] then f.follow place.parent rest
    else if maxPartSize < Utf8.size part then .error .tooLong
    else match place with
      | .outside => .error .missing
      | .inside parts =>
        let path := parts ++ [part]
        if (f.find? path).isSome then
          if rest.isEmpty then .ok (.file path) else .error .notFolder
        else if f.hasFolder path then f.follow (.inside path) rest
        else if rest.isEmpty then .ok (.free path)
        else .error .missing

/-- What a path leads to. A path that starts with a slash starts outside. -/
def locate (f : Folder) (path : Text) : Except PathFault Target :=
  if path.contains (Char.ofNat 0) then .error .nullCharacter
  else if maxPathSize < Utf8.size path then .error .tooLong
  else if path.isEmpty then .error .missing
  else f.follow (if path.head? = some '/' then .outside else .inside []) (path.splitAt '/')

/-- The bytes of the file that a path leads to. -/
def read (f : Folder) (path : Text) : Except PathFault (List UInt8) := do
  match ← f.locate path with
  | .file parts => return (f.find? parts).getD []
  | .folder => throw .isFolder
  | .free _ => throw .missing

/-- The path from the current folder to the file that is written under a path, new or not. -/
def nameFor (f : Folder) (path : Text) : Except PathFault Text := do
  match ← f.locate path with
  | .file parts => return Text.join ['/'] parts
  | .free parts => return Text.join ['/'] parts
  | .folder => throw .isFolder

end Folder

end Pseudocode.CommandLine
