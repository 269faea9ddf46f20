import WideColumn.CommandLine.Options
import WideColumn.Error
import WideColumn.Settings.Path
import WideColumn.Text.Blank
import WideColumn.Text.Lines

/-!
# Requests of a command line

The commands that a command line may name, their options, and the request that
its arguments amount to. Every command needs a store and a table, and neither
may be empty; every family and column that is given needs a value.
-/

namespace WideColumn.CommandLine

/-- What a command line asks for. -/
inductive Request where
  /-- Make a table with these families and columns. -/
  | createTable (store table : String) (families columns : List String)
  /-- Drop a table. -/
  | dropTable (store table : String)
  /-- List the families of a table. -/
  | listFamilies (store table : String)
  deriving DecidableEq, Repr

namespace Request

/-- The store that is asked for. -/
def store : Request → String
  | createTable s _ _ _ => s
  | dropTable s _ => s
  | listFamilies s _ => s

/-- The table that is asked for. -/
def table : Request → String
  | createTable _ t _ _ => t
  | dropTable _ t => t
  | listFamilies _ t => t

/-- A table is to be made. -/
def isCreate : Request → Bool
  | createTable _ _ _ _ => true
  | _ => false

end Request

/-- The name of the program in messages. -/
def programName : String := "cfschema"

/-- A command. -/
inductive Verb where
  /-- Make a table. -/
  | createTable
  /-- Drop a table. -/
  | dropTable
  /-- List the families of a table. -/
  | listFamilies
  deriving DecidableEq, Repr

namespace Verb

/-- The word for a command. -/
def word : Verb → String
  | createTable => "create-table"
  | dropTable => "drop-table"
  | listFamilies => "families"

/-- All commands, in the order in which they are shown. -/
def all : List Verb := [createTable, dropTable, listFamilies]

/-- The command that a word stands for. -/
def ofWord? (s : String) : Option Verb := all.find? fun v => v.word = s

@[simp] theorem ofWord?_word (v : Verb) : ofWord? v.word = some v := by
  cases v <;> decide

end Verb

/-- The option that asks for help. -/
def helpRule : OptionRule := ⟨["-h", "--help"], false, false⟩

/-- The option that names the configuration file. -/
def configRule : OptionRule := ⟨["--config"], true, false⟩

/-- The option that names the store. -/
def storeRule : OptionRule := ⟨["--store"], true, true⟩

/-- The option that names the table. -/
def tableRule : OptionRule := ⟨["--table"], true, true⟩

/-- The option that names a family. -/
def familyRule : OptionRule := ⟨["--family"], true, false⟩

/-- The option that names a column. -/
def columnRule : OptionRule := ⟨["--column"], true, false⟩

/-- What may stand before a command. -/
def outerGrammar : Grammar :=
  ⟨programName, [helpRule, configRule], some (Verb.all.map Verb.word)⟩

/-- What may follow a command. -/
def Verb.grammar (v : Verb) : Grammar :=
  let base := [helpRule, storeRule, tableRule]
  let more := match v with
    | createTable => [familyRule, columnRule]
    | _ => []
  ⟨programName ++ " " ++ v.word, base ++ more, none⟩

/-- A command line as it was read: the configuration file, and the command with its options. -/
structure Invocation where
  /-- The configuration file, if the option is given; it may have been given without a value. -/
  config : Option (Option Path)
  /-- The command and what was read of its options. -/
  command : Option (Verb × Reading)

/-- The reason that a word is no command. -/
def unknownVerb (s : String) : String :=
  "argument command: invalid choice: " ++ Text.quoteText s ++ " (choose from " ++
    ", ".intercalate (Verb.all.map fun v => Text.quoteText v.word) ++ ")"

/-- The reason that arguments are left over. -/
def leftOver (extras : List String) : String :=
  "unrecognized arguments: " ++ " ".intercalate extras

/-- Read a command and its options. -/
def readCommand : Option (List String) → Except Stop (Option (Verb × Reading))
  | none => .ok none
  | some [] => .ok none
  | some (word :: rest) =>
    match Verb.ofWord? word with
    | none => .error (.usage programName (unknownVerb word))
    | some v =>
      match readAll v.grammar rest with
      | .ok r => .ok (some (v, r))
      | .error e => .error e

/-- What was left over within the command. -/
def commandExtras : Option (Verb × Reading) → List String
  | some (_, r) => r.extras
  | none => []

/-- Read a command line. -/
def Invocation.ofArguments (argv : List String) : Except Stop Invocation :=
  match readAll outerGrammar argv with
  | .error e => .error e
  | .ok outer =>
    match readCommand outer.command with
    | .error e => .error e
    | .ok command =>
      let extras := outer.extras ++ commandExtras command
      if extras.isEmpty then .ok ⟨(outer.last? configRule).map (Option.map Path.ofText), command⟩
      else .error (.usage programName (leftOver extras))

/-- The value of an option that may not be empty. -/
def neededOption (r : Reading) (o : OptionRule) : Except Error String :=
  let v := ((r.last? o).getD none).getD ""
  if v = "" then .error (.optionRequired o.label) else .ok v

/-- The places of a list that have no value, as faults of a field. -/
def missingItems (field : String) : (place : Nat) → List (Option String) → List FieldFault
  | _, [] => []
  | place, none :: rest => ⟨field, some place, .text⟩ :: missingItems field (place + 1) rest
  | place, some _ :: rest => missingItems field (place + 1) rest

/-- The request to make a table with these families and columns, all of which need a value. -/
def createRequest (store table : String) (families columns : List (Option String)) :
    Except Error Request :=
  match missingItems "families" 0 families ++ missingItems "columns" 0 columns with
  | [] => .ok (.createTable store table (families.filterMap id) (columns.filterMap id))
  | faults => .error (.invalidFields faults)

/-- The request that a command with its options amounts to. -/
def requestOf (v : Verb) (r : Reading) : Except Error Request := do
  let store ← neededOption r storeRule
  let table ← neededOption r tableRule
  match v with
  | .createTable => createRequest store table (r.all familyRule) (r.all columnRule)
  | .dropTable => return .dropTable store table
  | .listFamilies => return .listFamilies store table

/-- The request that a command line amounts to. -/
def Invocation.request (i : Invocation) : Except Error Request :=
  match i.command with
  | some (v, r) => requestOf v r
  | none => .error .commandMissing

/-- The text of a stop as it is told; help has none of its own. -/
def Stop.text : Stop → String
  | help => ""
  | usage program reason => program ++ ": error: " ++ reason

/-- The last line of what is told, without space at the ends of the whole. -/
def Stop.lastLine (s : Stop) : String := ((Text.lines (Text.trim s.text)).getLast?).getD ""

/-- The exit code of a stop. -/
def Stop.exitCode : Stop → Nat
  | help => 0
  | usage _ _ => 2

end WideColumn.CommandLine
