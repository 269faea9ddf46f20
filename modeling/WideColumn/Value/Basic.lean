import WideColumn.Number.Shortest
import WideColumn.Text.Quoted
import WideColumn.Time.Calendar

/-!
# Cell values

The values that cells, identifiers and configuration documents hold, their
plain text and their literal. Plain text is what a row key or a stored cell is
made of; a literal is how a value is shown inside another value or inside a
message, so texts and bytes are quoted there. Every integer has a text, however
long: the most digits that a runtime is set to write are no matter of the value,
and the only integers that come from outside, those of documents, are read under
such a limit.
-/

namespace WideColumn

/-- A value of a cell, of an identifier, or of a key inside a mapping. -/
inductive Value where
  /-- The missing value. -/
  | null
  /-- A truth value. -/
  | bool (b : Bool)
  /-- A whole number of any size. -/
  | int (n : Int)
  /-- A floating-point number. -/
  | float (x : Binary64)
  /-- A text. -/
  | text (s : String)
  /-- A byte string. -/
  | bytes (b : Bytes)
  /-- A list of values. -/
  | list (items : List Value)
  /-- A mapping, its bindings in the order in which the keys first came. -/
  | mapping (entries : List (Value × Value))
  /-- A point in time. -/
  | timestamp (t : Timestamp)
  /-- A date. -/
  | date (d : Date)
  /-- Any other object, such as a view of memory or a lock, by the name of its kind and by its text.
  It has no parts that can be read, and it cannot be copied. -/
  | handle (kind shown : String)

namespace Value

instance : Inhabited Value := ⟨null⟩

/-- Floating-point numbers are positional from `1e-04` up to below `1e+16`; others have a power of
at least two digits. -/
def floatStyle : Binary64.FloatStyle := ⟨-4, 15, 2, "nan", "inf"⟩

/-- The text of a truth value. -/
def boolText (b : Bool) : String := if b then "True" else "False"

/-- The decimal text of an integer. -/
def intText : Int → String
  | .ofNat n => String.ofList (Decimal.digitsOf n)
  | .negSucc n => String.ofList ('-' :: Decimal.digitsOf (n + 1))

/-- Texts with a comma and a space between them. -/
def commaSeparated (parts : List String) : String := ", ".intercalate parts

/-- Numbers as the arguments of a constructor. -/
def argumentText (ns : List Nat) : String :=
  commaSeparated (ns.map fun n => String.ofList (Decimal.digitsOf n))

/-- The literal of a date. -/
def dateLiteral (d : Date) : String :=
  "datetime.date(" ++ argumentText [d.year, d.month, d.day] ++ ")"

/-- The literal of a span of microseconds: whole days, which may be below zero, then the seconds
of a day and the microseconds of a second. -/
def spanLiteral (microseconds : Int) : String :=
  let part (name : String) (n : Int) : List String :=
    if n = 0 then [] else [name ++ "=" ++ intText n]
  let seconds := microseconds.fdiv 1000000
  let parts := part "days" (seconds.fdiv 86400) ++ part "seconds" (seconds.fmod 86400) ++
    part "microseconds" (microseconds.fmod 1000000)
  "datetime.timedelta(" ++ (if parts.isEmpty then "0" else commaSeparated parts) ++ ")"

/-- The literal of a point in time; seconds and microseconds are left out when they are zero. -/
def timestampLiteral (t : Timestamp) : String :=
  let fine := if t.microsecond ≠ 0 then [t.second, t.microsecond]
    else if t.second ≠ 0 then [t.second] else []
  let zone := match t.offset with
    | none => ""
    | some 0 => ", tzinfo=datetime.timezone.utc"
    | some n => ", tzinfo=datetime.timezone(" ++ spanLiteral n ++ ")"
  "datetime.datetime(" ++
    argumentText ([t.date.year, t.date.month, t.date.day, t.hour, t.minute] ++ fine) ++ zone ++ ")"

mutual

/-- How a value is shown inside another value or inside a message. -/
def literal : Value → String
  | null => "None"
  | bool b => boolText b
  | int n => intText n
  | float x => x.text floatStyle
  | text s => Text.quoteText s
  | bytes b => Text.quoteBytes b
  | list items => "[" ++ commaSeparated (literals items) ++ "]"
  | mapping entries => "\x7b" ++ commaSeparated (entryLiterals entries) ++ "\x7d"
  | timestamp t => timestampLiteral t
  | date d => dateLiteral d
  | handle _ shown => shown

/-- The literals of the items of a list. -/
def literals : List Value → List String
  | [] => []
  | item :: rest => item.literal :: literals rest

/-- The literals of the bindings of a mapping. -/
def entryLiterals : List (Value × Value) → List String
  | [] => []
  | (key, value) :: rest => (key.literal ++ ": " ++ value.literal) :: entryLiterals rest

end

/-- The plain text of a value: a text stands for itself, a time is shown for people to read, and an
integer has all its digits. -/
def plainText : Value → String
  | text s => s
  | timestamp t => t.displayText
  | date d => d.text
  | v => v.literal

/-- The name of a value's kind in messages. -/
def kindName : Value → String
  | null => "NoneType"
  | bool _ => "bool"
  | int _ => "int"
  | float _ => "float"
  | text _ => "str"
  | bytes _ => "bytes"
  | list _ => "list"
  | mapping _ => "dict"
  | timestamp _ => "datetime"
  | date _ => "date"
  | handle kind _ => kind

/-- The value is a mapping. -/
def isMapping : Value → Bool
  | mapping _ => true
  | _ => false

/-- The value counts as nothing: missing, false, zero or without content. -/
def isVoid : Value → Bool
  | null => true
  | bool b => !b
  | int n => n == 0
  | float x => x.isZero
  | text s => s.isEmpty
  | bytes b => b.isEmpty
  | list items => items.isEmpty
  | mapping entries => entries.isEmpty
  | timestamp _ => false
  | date _ => false
  | handle _ _ => false

@[simp] theorem plainText_text (s : String) : (text s).plainText = s := rfl

@[simp] theorem isMapping_iff (v : Value) : v.isMapping = true ↔ ∃ entries, v = mapping entries := by
  cases v <;> simp [isMapping]

end Value

end WideColumn
