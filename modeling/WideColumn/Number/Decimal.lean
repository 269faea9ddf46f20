/-!
# Decimal notation

Exact decimal numbers `± digits · 10 ^ power` and their reader: an optional
sign, digits with an optional point among or around them, and an optional power
of ten after `e` or `E`.
-/

namespace WideColumn

/-- The exact number `± digits · 10 ^ power`. -/
structure Decimal where
  /-- The sign, kept for zero too. -/
  negative : Bool
  /-- All digits, read without the point. -/
  digits : Nat
  /-- The power of ten that places the point. -/
  power : Int
  deriving DecidableEq, Repr

namespace Decimal

/-- The value of a digit character; other characters count from the same zero. -/
def digitValue (c : Char) : Nat := c.toNat - '0'.toNat

/-- The number that a row of digits stands for. -/
def ofDigits (cs : List Char) : Nat := cs.foldl (fun acc c => acc * 10 + digitValue c) 0

/-- The characters of a number in base ten. -/
def digitsOf (n : Nat) : List Char := Nat.toDigits 10 n

/-- Split off a sign; the flag says minus. -/
def splitSign : List Char → Bool × List Char
  | '-' :: rest => (true, rest)
  | '+' :: rest => (false, rest)
  | cs => (false, cs)

/-- Read what follows the digits: nothing, or a power of ten. -/
def readPower? : List Char → Option Int
  | [] => some 0
  | c :: rest =>
    if c = 'e' ∨ c = 'E' then
      let (negative, digits) := splitSign rest
      if digits.isEmpty || !digits.all Char.isDigit then none
      else some (if negative then -(ofDigits digits : Int) else ofDigits digits)
    else none

/-- Split off a point and the digits behind it. -/
def splitFraction : List Char → List Char × List Char
  | '.' :: rest => (rest.takeWhile Char.isDigit, rest.dropWhile Char.isDigit)
  | cs => ([], cs)

/-- Read a whole text as a decimal number; at least one digit is needed before the power. -/
def ofChars? (cs : List Char) : Option Decimal := do
  let (negative, body) := splitSign cs
  let whole := body.takeWhile Char.isDigit
  let (fraction, rest) := splitFraction (body.dropWhile Char.isDigit)
  if whole.isEmpty && fraction.isEmpty then none
  else
    let power ← readPower? rest
    return ⟨negative, ofDigits (whole ++ fraction), power - fraction.length⟩

end Decimal

end WideColumn
