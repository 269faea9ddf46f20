import WideColumn.Number.Binary64
import WideColumn.Text.Blank
import WideColumn.Text.DecimalDigit

/-!
# Numerals

Integers as people write them: there may be space around a number, its digits may be
of any script, and a single underscore may stand between two digits.
-/

namespace WideColumn.Numeral

/-- The character is space beside a number; the information separators are not. -/
def isSpace (c : Char) : Bool :=
  Text.isBlankChar c && !(0x1C ≤ c.toNat && c.toNat ≤ 0x1F)

/-- A digit of any script as the digit of the core library; other characters stay. -/
def plainDigit (c : Char) : Char :=
  match Text.decimalDigitValue? c with
  | some n => Char.ofNat ('0'.toNat + n)
  | none => c

/-- Take out each underscore between two digits. Any other stays, and no number is read from it. -/
def ungroup : List Char → List Char
  | a :: '_' :: b :: rest =>
    if a.isDigit && b.isDigit then a :: ungroup (b :: rest) else a :: '_' :: ungroup (b :: rest)
  | c :: rest => c :: ungroup rest
  | [] => []

/-- The characters of a numeral in their plain form. -/
def plain (s : String) : List Char :=
  let cs := ((s.toList.dropWhile isSpace).reverse.dropWhile isSpace).reverse
  ungroup (cs.map plainDigit)

/-- Read an integer. -/
def integer? (s : String) : Option Int :=
  let (negative, digits) := Decimal.splitSign (plain s)
  if digits.isEmpty || !digits.all Char.isDigit then none
  else some (if negative then -(Decimal.ofDigits digits : Int) else Decimal.ofDigits digits)

/-- One underscore between digits is passed over, but not two. -/
example : ungroup ['1', '_', '0'] = ['1', '0'] ∧
    ungroup ['1', '_', '_', '0'] = ['1', '_', '_', '0'] := by decide

end WideColumn.Numeral
