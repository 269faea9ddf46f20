import WideColumn.Text.Hex
import WideColumn.Text.Printable

/-!
# Quoted text and bytes

How a text or a byte string is shown inside messages and inside other values:
between quotes, with a backslash before the quote and before itself, short
escapes for tab, line feed and carriage return, and a numeric escape of two,
four or eight digits for whatever is not printable. The quote is a single one
unless only a double one avoids escapes.
-/

namespace WideColumn.Text

/-- The single quote, the usual one. -/
def singleQuote : Char := Char.ofNat 39

/-- The double quote, taken when the text holds single quotes only. -/
def doubleQuote : Char := Char.ofNat 34

/-- The quote to put around a row of characters. -/
def quoteFor (cs : List Char) : Char :=
  if singleQuote ∈ cs ∧ doubleQuote ∉ cs then doubleQuote else singleQuote

/-- A numeric escape of the fewest of two, four and eight digits that hold the number. -/
def numericEscape (n : Nat) : List Char :=
  if n ≤ 0xFF then '\\' :: 'x' :: hexDigits 2 n
  else if n ≤ 0xFFFF then '\\' :: 'u' :: hexDigits 4 n
  else '\\' :: 'U' :: hexDigits 8 n

/-- A character inside quotes, by the class of characters that stand for themselves. -/
def quotedChar (plain : Char → Bool) (quote c : Char) : List Char :=
  if c = quote ∨ c = '\\' then ['\\', c]
  else if c = '\t' then ['\\', 't']
  else if c = '\n' then ['\\', 'n']
  else if c = '\r' then ['\\', 'r']
  else if plain c then [c]
  else numericEscape c.toNat

/-- A row of characters between quotes. -/
def quoteChars (plain : Char → Bool) (cs : List Char) : List Char :=
  let quote := quoteFor cs
  quote :: cs.flatMap (quotedChar plain quote) ++ [quote]

/-- A text between quotes; printable characters of every script stand for themselves. -/
def quoteText (s : String) : String := String.ofList (quoteChars isPrintable s.toList)

/-- A byte string between quotes after the mark `b`; only plain ASCII stands for itself. -/
def quoteBytes (b : Bytes) : String :=
  let cs := b.toList.map fun x => Char.ofNat x.toNat
  String.ofList ('b' :: quoteChars (fun c => 32 ≤ c.toNat && c.toNat ≤ 126) cs)

/-- Quoting a text without special characters only adds the quotes. -/
example : quoteText "a b" = "'a b'" := by decide

end WideColumn.Text
