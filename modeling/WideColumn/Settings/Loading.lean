import WideColumn.Settings.Files
import WideColumn.Settings.Reading

/-!
# Loading configurations

A configuration is loaded from a file: the one that is named, or the standard one
that comes with the program. The last configuration that was loaded is remembered
and answers every further request for the same path, whatever has happened to the
file since; a load that fails changes nothing.
-/

namespace WideColumn

/-- The standard configuration as it comes with the program: a memory store, and a server on this
machine. -/
def standardText : String :=
  "\x7b\n  \"schema-name\": \"default\",\n  \"stores\": [\n    \x7b\n" ++
  "      \"store-id\": \"local\",\n      \"api\": \"memory\"\n    \x7d,\n    \x7b\n" ++
  "      \"store-id\": \"hbase\",\n      \"api\": \"happybase\",\n" ++
  "      \"host\": \"localhost\",\n      \"port\": 9090,\n" ++
  "      \"table-prefix\": null,\n      \"timeout-millis\": 30000\n    \x7d\n  ]\n\x7d\n"

/-- A tree with the files of a program that lies at a place. -/
def FileTree.installed (start program : Place) : FileTree :=
  let t := (empty start).withProgram program
  t.write t.standard (.ofText standardText)

/-- The configuration at a path. When there is no file, the place where it should be is told. -/
def FileTree.configuration (tree : FileTree) (p : Path) : Except Error Configuration :=
  match tree.find p with
  | .nothing => .error (.fileMissing (tree.placeOf p).text)
  | .directory => .error .isDirectory
  | .badPath => .error .badValue
  | .tooLong => .error .systemRefused
  | .file contents => Configuration.ofBytes p.text contents

/-- The last configuration that was loaded, and where from. -/
abbrev Cache := Option (Path × Configuration)

/-- Load a configuration, unless it is the one that was loaded last. -/
def load (tree : FileTree) (p : Path) (cache : Cache) : Except Error Configuration × Cache :=
  let fresh :=
    match tree.configuration p with
    | .ok c => (.ok c, some (p, c))
    | .error e => (.error e, cache)
  match cache with
  | some (q, c) => if q = p then (.ok c, cache) else fresh
  | none => fresh

end WideColumn
