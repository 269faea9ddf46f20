import WideColumn.Collections.OrderedMap
import WideColumn.Settings.Path
import WideColumn.Text.Bytes

/-!
# Files

What a program can find at a path: the files, and the directory that relative paths
start from. A place is a directory if the starting directory or another folder lies
at it or under it. A file that is written makes its folder, which stays when the
file is removed. A path is followed part by part, so a part that is not there hides
whatever the rest of the path would lead to, even back up again.
-/

namespace WideColumn

/-- The files that a program can find, and where it starts from. -/
structure FileTree where
  /-- The directory that relative paths start from. -/
  start : Place
  /-- Where the program keeps its standard configuration. -/
  standard : Path
  /-- The folders that were made for files. -/
  folders : List Place
  /-- The files under their places. -/
  files : OrderedMap Place Bytes

/-- What is found at a path. -/
inductive Finding where
  /-- Nothing. -/
  | nothing
  /-- A directory. -/
  | directory
  /-- A file with these bytes. -/
  | file (contents : Bytes)
  /-- The path holds a character that no path can hold. -/
  | badPath
  /-- The path, or a part of it that is looked for, is too long. -/
  | tooLong

namespace FileTree

/-- The path of the standard configuration of a program that lies at a place. -/
def standardUnder (program : Place) : Path := ⟨"/", program ++ ["assets", "config.json"]⟩

/-- A tree without files, not even those of the program. -/
def empty (start : Place) : FileTree := ⟨start, standardUnder [], [], ∅⟩

/-- The tree where the program lies at a place. -/
def withProgram (t : FileTree) (program : Place) : FileTree :=
  { t with standard := standardUnder program }

/-- The greatest size of one part of a path, in bytes. -/
def maxPartSize : Nat := 255

/-- The size at which a path is too long, in bytes. -/
def sizeLimit : Nat := 4096

/-- The place of a path in the tree. -/
def placeOf (t : FileTree) (p : Path) : Place := p.place t.start

/-- Write a file. -/
def write (t : FileTree) (p : Path) (contents : Bytes) : FileTree :=
  { t with
    folders := (t.placeOf p).dropLast :: t.folders
    files := t.files.insert (t.placeOf p) contents }

/-- Remove a file, if it is there. Its folder stays. -/
def remove (t : FileTree) (p : Path) : FileTree :=
  { t with files := t.files.erase (t.placeOf p) }

/-- The place is a directory: the start or a folder lies at it or under it. -/
def isDirectory (t : FileTree) (place : Place) : Bool :=
  place.isPrefixOf t.start || t.folders.any place.isPrefixOf

/-- Follow parts from a directory. -/
def follow (t : FileTree) (here : Place) : List String → Finding
  | [] => .directory
  | part :: rest =>
    let there := Path.climb here [part]
    if Path.isUp part then follow t there rest
    else if maxPartSize < part.utf8ByteSize then .tooLong
    else if t.isDirectory there then follow t there rest
    else
      match t.files.get? there with
      | some contents => if rest.isEmpty then .file contents else .nothing
      | none => .nothing

/-- What is found at a path. -/
def find (t : FileTree) (p : Path) : Finding :=
  if p.text.toList.contains (Char.ofNat 0) then .badPath
  else if sizeLimit ≤ p.text.utf8ByteSize then .tooLong
  else t.follow (p.origin t.start) p.parts

end FileTree

end WideColumn
