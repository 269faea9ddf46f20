import WideColumn.Text.DecimalDigit
import WideColumn.Text.Quoted

/-!
# Options of a command line

Arguments are told apart by their spelling: options start with a hyphen, other
arguments are words. A long option may be shortened as long as it stays the only
one that starts so, and may bring its value after an equals sign. A negative
number and anything with a space in it is a word. Two hyphens are never a value: an
option that brings them along is given, but without a value. What is not understood
is set aside and told of at the end, unless something stops the reading before.
-/

namespace WideColumn.CommandLine

/-- An option: its names, short before long, and whether it takes a value. -/
structure OptionRule where
  /-- The names, in the order in which they are shown. -/
  names : List String
  /-- The option takes a value. -/
  takesValue : Bool
  /-- The option has to be given. -/
  required : Bool
  deriving DecidableEq, Repr

/-- The options that a command understands. -/
structure Grammar where
  /-- How the command is called in messages. -/
  program : String
  /-- The options. -/
  options : List OptionRule
  /-- The words that name a further command, if there are further commands. -/
  commands : Option (List String)
  deriving Repr

/-- Why reading stops. -/
inductive Stop where
  /-- Help was asked for. -/
  | help
  /-- The command line will not do, for a reason that a program tells. -/
  | usage (program reason : String)
  deriving DecidableEq, Repr

/-- An option that an argument names. -/
structure Naming where
  /-- The rule of the option; an unknown option has none. -/
  rule : Option OptionRule
  /-- The name that was recognised. -/
  name : String
  /-- The value that the argument brings along. -/
  value : Option String
  deriving Repr

/-- What an argument is. -/
inductive Argument where
  /-- A word. -/
  | word (s : String)
  /-- Two hyphens, after which everything is a word. -/
  | hyphens
  /-- An option. -/
  | named (s : String) (n : Naming)
  deriving Repr

/-- The spelling of an argument. -/
def Argument.spelling : Argument → String
  | word s => s
  | hyphens => "--"
  | named s _ => s

namespace OptionRule

/-- How an option is called in messages. -/
def label (r : OptionRule) : String := "/".intercalate r.names

end OptionRule

namespace Grammar

/-- The names of all options with their rules, in order. -/
def namings (g : Grammar) : List (String × OptionRule) :=
  g.options.flatMap fun r => r.names.map fun n => (n, r)

/-- The rule of the option with exactly this name. -/
def rule? (g : Grammar) (name : String) : Option OptionRule :=
  (g.namings.find? fun e => e.1 = name).map Prod.snd

/-- The parts of a text before and after its first equals sign, if it has one. -/
def splitEquals (cs : List Char) : Option (String × String) :=
  if '=' ∈ cs then
    some (String.ofList (cs.takeWhile (· ≠ '=')), String.ofList ((cs.dropWhile (· ≠ '=')).drop 1))
  else none

/-- The options that a spelling may mean when no option has exactly that name: all that start so
for two hyphens, the one of the first letter for a single one. -/
def meanings (g : Grammar) (cs : List Char) : List Naming :=
  if "--".toList.isPrefixOf cs then
    let (start, value) := match splitEquals cs with
      | some (start, value) => (start, some value)
      | none => (String.ofList cs, none)
    (g.namings.filter fun e => start.toList.isPrefixOf e.1.toList).map fun e =>
      ⟨some e.2, e.1, value⟩
  else
    g.namings.filterMap fun e =>
      if e.1.toList = cs.take 2 then some ⟨some e.2, e.1, some (String.ofList (cs.drop 2))⟩
      else if cs.isPrefixOf e.1.toList then some ⟨some e.2, e.1, none⟩
      else none

/-- The text is a negative number: digits, or digits around a point with one behind it at least. A
line feed may follow. -/
def isNegativeNumber (cs : List Char) : Bool :=
  match cs with
  | '-' :: body =>
    let body := if body.getLast? = some '\n' then body.dropLast else body
    let rest := body.dropWhile Text.isDecimalDigit
    match rest with
    | [] => !body.isEmpty
    | '.' :: fraction => !fraction.isEmpty && fraction.all Text.isDecimalDigit
    | _ => false
  | _ => false

/-- The reason that an option may mean several things. -/
def ambiguous (s : String) (ms : List Naming) : String :=
  "ambiguous option: " ++ s ++ " could match " ++ ", ".intercalate (ms.map Naming.name)

/-- What an argument is, if it is not two hyphens. -/
def classify (g : Grammar) (s : String) : Except Stop Argument :=
  let cs := s.toList
  if cs.head? ≠ some '-' then .ok (.word s)
  else
    match g.rule? s with
    | some r => .ok (.named s ⟨some r, s, none⟩)
    | none =>
      if cs.length = 1 then .ok (.word s)
      else
        let exact := (splitEquals cs).bind fun e => (g.rule? e.1).map fun r =>
          (⟨some r, e.1, some e.2⟩ : Naming)
        match exact with
        | some n => .ok (.named s n)
        | none =>
          match g.meanings cs with
          | [n] => .ok (.named s n)
          | [] =>
            if isNegativeNumber cs || cs.contains ' ' then .ok (.word s)
            else .ok (.named s ⟨none, s, none⟩)
          | ms => .error (.usage g.program (ambiguous s ms))

/-- What all arguments are. -/
def classifyAll (g : Grammar) : List String → Except Stop (List Argument)
  | [] => .ok []
  | s :: rest =>
    if s = "--" then .ok (.hyphens :: rest.map .word)
    else
      match g.classify s with
      | .error e => .error e
      | .ok a =>
        match classifyAll g rest with
        | .error e => .error e
        | .ok as => .ok (a :: as)

end Grammar

/-- What has been read of a command line. -/
structure Reading where
  /-- The values of options, in the order in which they were given, under the options' labels; an
  option may have been given without one. -/
  values : List (String × Option String)
  /-- The further command with its arguments. -/
  command : Option (List String)
  /-- What was not understood. -/
  extras : List String
  deriving Repr

namespace Reading

/-- Nothing read yet. -/
def empty : Reading := ⟨[], none, []⟩

/-- Set an argument aside. -/
def setAside (r : Reading) (s : String) : Reading := { r with extras := r.extras ++ [s] }

/-- Take the value of an option; two hyphens are none. -/
def give (r : Reading) (o : OptionRule) (v : String) : Reading :=
  { r with values := r.values ++ [(o.label, if v = "--" then none else some v)] }

/-- All values of an option, in order. -/
def all (r : Reading) (o : OptionRule) : List (Option String) :=
  (r.values.filter fun e => e.1 = o.label).map Prod.snd

/-- The last value of an option, if the option was given. -/
def last? (r : Reading) (o : OptionRule) : Option (Option String) := (r.all o).getLast?

end Reading

/-- The reason that an option needs a value. -/
def valueNeeded (o : OptionRule) : String := "argument " ++ o.label ++ ": expected one argument"

/-- The reason that an option takes no value. -/
def valueIgnored (o : OptionRule) (value : List Char) : String :=
  "argument " ++ o.label ++ ": ignored explicit argument " ++ Text.quoteText (String.ofList value)

/-- An option without value that brings one along. Behind a single hyphen that may be a row of
letters, each an option of its own; a letter that is none spoils the row from there on. -/
def stopAtFlag (g : Grammar) (o : OptionRule) (single : Bool) : List Char → Stop
  | [] => .usage g.program (valueIgnored o [])
  | c :: rest =>
    match single, g.rule? (String.ofList ['-', c]) with
    | true, some next =>
      if rest.isEmpty || next.takesValue then .help else stopAtFlag g next single rest
    | _, _ => .usage g.program (valueIgnored o (c :: rest))

/-- Read arguments in turn. The first word starts the further command, if there may be one. -/
def read (g : Grammar) (r : Reading) : List Argument → Except Stop Reading
  | [] => .ok r
  | .word s :: rest =>
    if g.commands.isSome then .ok { r with command := some (s :: rest.map Argument.spelling) }
    else read g (r.setAside s) rest
  | .hyphens :: rest =>
    if g.commands.isSome && !rest.isEmpty then
      .ok { r with command := some ("--" :: rest.map Argument.spelling) }
    else read g (r.setAside "--") rest
  | .named s n :: rest =>
    match n.rule, n.value with
    | none, _ => read g (r.setAside s) rest
    | some o, some v =>
      if o.takesValue then read g (r.give o v) rest
      else
        .error (stopAtFlag g o (!("--".toList.isPrefixOf n.name.toList)) v.toList)
    | some o, none =>
      if o.takesValue then
        match rest with
        | .word v :: rest => read g (r.give o v) rest
        | _ => .error (.usage g.program (valueNeeded o))
      else .error .help

/-- The reason that options are missing. -/
def optionsNeeded (labels : List String) : String :=
  "the following arguments are required: " ++ ", ".intercalate labels

/-- Read the arguments of a command and check that the options it needs were given. -/
def readAll (g : Grammar) (argv : List String) : Except Stop Reading :=
  match g.classifyAll argv with
  | .error e => .error e
  | .ok args =>
    match read g Reading.empty args with
    | .error e => .error e
    | .ok r =>
      let given := r.values.map Prod.fst
      let missing := (g.options.filter fun o => o.required && !given.contains o.label).map
        OptionRule.label
      if missing.isEmpty then .ok r else .error (.usage g.program (optionsNeeded missing))

end WideColumn.CommandLine
