import WideColumn.Number.Decimal

/-!
# Faults of a document text

What can be wrong with the text of a configuration document, where it is wrong,
and how that is told: a sentence, then the line, the column and the position,
lines and columns counting from one and positions from zero.
-/

namespace WideColumn.Document

/-- What a reader found, or missed, at a position of the text. -/
inductive Flaw where
  /-- No value starts here. -/
  | valueExpected
  /-- Neither a key nor the end of an object. -/
  | keyExpected
  /-- No colon after a key. -/
  | colonExpected
  /-- Neither a comma nor the end of a list or an object. -/
  | commaExpected
  /-- Something follows the document. -/
  | extraData
  /-- A string that starts here does not end. -/
  | unterminatedString
  /-- A control character inside a string. -/
  | controlCharacter
  /-- A backslash before a character that has no escape. -/
  | badEscape
  /-- A numeric escape without four hexadecimal digits. -/
  | badNumericEscape
  /-- A byte order mark at the start of the text. -/
  | byteOrderMark
  deriving DecidableEq, Repr

namespace Flaw

/-- The sentence that tells of a flaw. -/
def sentence : Flaw → String
  | valueExpected => "Expecting value"
  | keyExpected => "Expecting property name enclosed in double quotes"
  | colonExpected => "Expecting ':' delimiter"
  | commaExpected => "Expecting ',' delimiter"
  | extraData => "Extra data"
  | unterminatedString => "Unterminated string starting at"
  | controlCharacter => "Invalid control character at"
  | badEscape => "Invalid \\escape"
  | badNumericEscape => "Invalid \\uXXXX escape"
  | byteOrderMark => "Unexpected UTF-8 BOM (decode using utf-8-sig)"

end Flaw

/-- A flaw and where it is. -/
structure Fault where
  /-- What is wrong. -/
  flaw : Flaw
  /-- The line, from one. -/
  line : Nat
  /-- The column, from one. -/
  column : Nat
  /-- The position in the whole text, from zero. -/
  position : Nat
  deriving DecidableEq, Repr

namespace Fault

/-- The decimal text of a count. -/
def countText (n : Nat) : String := String.ofList (Decimal.digitsOf n)

/-- The fault at a position of a text. -/
def locate (text : List Char) (flaw : Flaw) (position : Nat) : Fault :=
  let before := text.take position
  { flaw := flaw
    line := before.count '\n' + 1
    column := (before.reverse.takeWhile (· ≠ '\n')).length + 1
    position := position }

/-- The fault as it is told. -/
def message (f : Fault) : String :=
  f.flaw.sentence ++ ": line " ++ countText f.line ++ " column " ++ countText f.column ++
    " (char " ++ countText f.position ++ ")"

end Fault

end WideColumn.Document
